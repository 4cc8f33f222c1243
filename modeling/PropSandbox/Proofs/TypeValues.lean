import PropSandbox.Proofs.Inferred

/-!
# The values that a type describes

A type says by itself which values it stands for: kinds, flags and arguments tell, and for extension
leaves what their names stand for (`PropType.Admits`). Neither the validators in a type nor how they
were made matter. For a type of a plan these are the values in the table of the plan.
-/

namespace PropSandbox

/-- The values that a type describes, where `extension` says what the names of extension leaves stand
for. Null is described wherever no value is required; an absent field of a shape counts as null. -/
inductive PropType.Admits (extension : String → Json → Prop) : PropType → Json → Prop where
  | null {kind : Kind} {arguments : Option (List (Argument PropType))} {v : Validator} :
      Admits extension (.known ⟨kind, false, arguments, v⟩) .null
  | leaf {kind : LeafKind} {required : Bool} {arguments : Option (List (Argument PropType))}
      {v : Validator} {value : Json} (given : value ≠ .null) (holds : kind.Holds value) :
      Admits extension (.known ⟨.leaf kind, required, arguments, v⟩) value
  | extension {name : String} {required : Bool} {arguments : Option (List (Argument PropType))}
      {v : Validator} {value : Json} (given : value ≠ .null) (holds : extension name value) :
      Admits extension (.known ⟨.extension name, required, arguments, v⟩) value
  | shape {required : Bool} {fields : List (String × PropType)} {others : List (Argument PropType)}
      {v : Validator} {members : List (String × Json)}
      (each : ∀ field ∈ fields, Admits extension field.2 ((Record.get? members field.1).getD .null)) :
      Admits extension (.known ⟨.built .shape, required, some (.fields fields :: others), v⟩)
        (.object members)
  | arrayOf {required : Bool} {item : PropType} {others : List (Argument PropType)} {v : Validator}
      {items : List Json} (each : ∀ value ∈ items, Admits extension item value) :
      Admits extension (.known ⟨.built .arrayOf, required, some (.element item :: others), v⟩)
        (.array items)
  | objectOf {required : Bool} {part : PropType} {others : List (Argument PropType)} {v : Validator}
      {members : List (String × Json)}
      (each : ∀ name inner, Record.get? members name = some inner → Admits extension part inner) :
      Admits extension (.known ⟨.built .objectOf, required, some (.element part :: others), v⟩)
        (.object members)
  | instanceOf {required : Bool} {className : String} {others : List (Argument PropType)}
      {v : Validator} {value : Json} (marked : Marker.Instance className value) :
      Admits extension
        (.known ⟨.built .instanceOf, required, some (.className className :: others), v⟩) value
  | oneOf {required : Bool} {choices : List Json} {others : List (Argument PropType)} {v : Validator}
      {choice value : Json} (given : value ≠ .null) (listed : choice ∈ choices)
      (same : (choice == value) = true) :
      Admits extension (.known ⟨.built .oneOf, required, some (.choices choices :: others), v⟩) value
  | oneOfType {required : Bool} {candidates : List PropType} {others : List (Argument PropType)}
      {v : Validator} {candidate : PropType} {value : Json} (given : value ≠ .null)
      (listed : candidate ∈ candidates) (admitted : Admits extension candidate value) :
      Admits extension
        (.known ⟨.built .oneOfType, required, some (.candidates candidates :: others), v⟩) value

/-- A plan without custom validators, whose extension leaves hold of the values that their names
stand for. -/
inductive Plan.Means (extension : String → Json → Prop) : Plan → Prop where
  | leaf (kind : LeafKind) : Means extension (.leaf kind)
  | extension {name : String} {holds : Json → Bool}
      (same : ∀ value, value ≠ .null → (holds value = true ↔ extension name value)) :
      Means extension (.extension name holds)
  | built {construction : Construction Plan} (parts : ∀ part ∈ construction.parts, Means extension part) :
      Means extension (.built construction)
  | required {plan : Plan} (part : Means extension plan) : Means extension (.required plan)

namespace Plan

variable {extension : String → Json → Prop} {plan : Plan} {t : PropType} {value : Json}

theorem Means.plain (means : plan.Means extension) : plan.Plain := by
  induction means with
  | leaf kind => exact .leaf kind
  | extension => exact .extension _ _
  | built _ ih => exact .built ih
  | required _ ih => exact .required ih

end Plan

namespace PropType

variable {extension : String → Json → Prop} {kind : Kind} {required : Bool}
  {arguments : Option (List (Argument PropType))} {v w : Validator} {value : Json}

theorem Admits.given_of_required
    (admitted : (known ⟨kind, true, arguments, v⟩).Admits extension value) : value ≠ .null := by
  cases admitted with
  | leaf given | extension given | oneOf given | oneOfType given => exact given
  | shape | arrayOf | objectOf => exact nofun
  | instanceOf marked =>
    obtain ⟨members, rfl, _⟩ := marked
    exact nofun

/-- A value that is there is described by both flavors of a type or by none. -/
theorem Admits.flavor (admitted : (known ⟨kind, required, arguments, v⟩).Admits extension value)
    (given : value ≠ .null) (required' : Bool) (w : Validator) :
    (known ⟨kind, required', arguments, w⟩).Admits extension value := by
  cases admitted with
  | null => exact absurd rfl given
  | leaf given holds => exact .leaf given holds
  | extension given holds => exact .extension given holds
  | shape each => exact .shape each
  | arrayOf each => exact .arrayOf each
  | objectOf each => exact .objectOf each
  | instanceOf marked => exact .instanceOf marked
  | oneOf given listed same => exact .oneOf given listed same
  | oneOfType given listed admitted => exact .oneOfType given listed admitted

theorem admits_required_iff : (known ⟨kind, true, arguments, w⟩).Admits extension value ↔
    value ≠ .null ∧ (known ⟨kind, required, arguments, v⟩).Admits extension value := by
  constructor
  · intro admitted
    exact ⟨admitted.given_of_required, admitted.flavor admitted.given_of_required _ _⟩
  · rintro ⟨given, admitted⟩
    exact admitted.flavor given _ _

/-! Whether a value that is there is described, by the kind of the type. -/

variable {others : List (Argument PropType)}

theorem admits_leaf_iff {kind : LeafKind} (given : value ≠ .null) :
    (known ⟨.leaf kind, required, arguments, v⟩).Admits extension value ↔ kind.Holds value := by
  constructor
  · intro admitted
    cases admitted with
    | null => exact absurd rfl given
    | leaf _ holds => exact holds
  · exact .leaf given

theorem admits_extension_iff {name : String} (given : value ≠ .null) :
    (known ⟨.extension name, required, arguments, v⟩).Admits extension value ↔
      extension name value := by
  constructor
  · intro admitted
    cases admitted with
    | null => exact absurd rfl given
    | extension _ holds => exact holds
  · exact .extension given

theorem admits_shape_iff {fields : List (String × PropType)} (given : value ≠ .null) :
    (known ⟨.built .shape, required, some (.fields fields :: others), v⟩).Admits extension value ↔
      ∃ members, value = .object members ∧ ∀ field ∈ fields,
        field.2.Admits extension ((Record.get? members field.1).getD .null) := by
  constructor
  · intro admitted
    cases admitted with
    | null => exact absurd rfl given
    | shape each => exact ⟨_, rfl, each⟩
  · rintro ⟨members, rfl, each⟩
    exact .shape each

theorem admits_arrayOf_iff {item : PropType} (given : value ≠ .null) :
    (known ⟨.built .arrayOf, required, some (.element item :: others), v⟩).Admits extension value ↔
      ∃ items, value = .array items ∧ ∀ entry ∈ items, item.Admits extension entry := by
  constructor
  · intro admitted
    cases admitted with
    | null => exact absurd rfl given
    | arrayOf each => exact ⟨_, rfl, each⟩
  · rintro ⟨items, rfl, each⟩
    exact .arrayOf each

theorem admits_objectOf_iff {part : PropType} (given : value ≠ .null) :
    (known ⟨.built .objectOf, required, some (.element part :: others), v⟩).Admits extension value ↔
      ∃ members, value = .object members ∧
        ∀ name inner, Record.get? members name = some inner → part.Admits extension inner := by
  constructor
  · intro admitted
    cases admitted with
    | null => exact absurd rfl given
    | objectOf each => exact ⟨_, rfl, each⟩
  · rintro ⟨members, rfl, each⟩
    exact .objectOf each

theorem admits_instanceOf_iff {className : String} (given : value ≠ .null) :
    (known ⟨.built .instanceOf, required, some (.className className :: others), v⟩).Admits
      extension value ↔ Marker.Instance className value := by
  constructor
  · intro admitted
    cases admitted with
    | null => exact absurd rfl given
    | instanceOf marked => exact marked
  · exact .instanceOf

theorem admits_oneOf_iff {choices : List Json} (given : value ≠ .null) :
    (known ⟨.built .oneOf, required, some (.choices choices :: others), v⟩).Admits extension value ↔
      ∃ choice ∈ choices, (choice == value) = true := by
  constructor
  · intro admitted
    cases admitted with
    | null => exact absurd rfl given
    | oneOf _ listed same => exact ⟨_, listed, same⟩
  · rintro ⟨choice, listed, same⟩
    exact .oneOf given listed same

theorem admits_oneOfType_iff {candidates : List PropType} (given : value ≠ .null) :
    (known ⟨.built .oneOfType, required, some (.candidates candidates :: others), v⟩).Admits
      extension value ↔ ∃ candidate ∈ candidates, candidate.Admits extension value := by
  constructor
  · intro admitted
    cases admitted with
    | null => exact absurd rfl given
    | oneOfType _ listed admitted => exact ⟨_, listed, admitted⟩
  · rintro ⟨candidate, listed, admitted⟩
    exact .oneOfType given listed admitted

end PropType

namespace Plan

variable {extension : String → Json → Prop} {plan : Plan} {t : PropType} {value : Json}

/-- A construction describes by its parts what its plan accepts by theirs. -/
theorem admits_built_iff {construction : Construction (Plan × PropType)} {v : Validator}
    (parts : ∀ part ∈ construction.parts, ∀ value,
      part.2.Admits extension value ↔ part.1.Accepts value) :
    (PropType.known ⟨.built construction.kind, false,
        some [(construction.map Prod.snd).argument], v⟩).Admits extension value ↔
      (Plan.built (construction.map Prod.fst)).Accepts value := by
  by_cases absent : value = .null
  · subst absent
    exact iff_of_true .null (.null rfl)
  -- both sides ask the same of a value that is there, once of the types and once of the plans
  cases construction with
  | shape fields =>
    refine (PropType.admits_shape_iff absent).trans (.trans ?_ (accepts_shape_iff absent).symm)
    rw [← Record.mapValues_ofList Prod.fst, ← Record.mapValues_ofList Prod.snd]
    refine exists_congr fun members => and_congr_right fun _ => ?_
    rw [Record.mapValues, Record.mapValues, List.forall_mem_map, List.forall_mem_map]
    exact forall₂_congr fun field member =>
      parts _ (List.mem_map_of_mem (Record.mem_ofList member)) _
  | arrayOf item =>
    refine (PropType.admits_arrayOf_iff absent).trans (.trans ?_ (accepts_arrayOf_iff absent).symm)
    exact exists_congr fun items => and_congr_right fun _ =>
      forall₂_congr fun entry _ => parts item List.mem_cons_self entry
  | objectOf part =>
    refine (PropType.admits_objectOf_iff absent).trans
      (.trans ?_ (accepts_objectOf_iff absent).symm)
    exact exists_congr fun members => and_congr_right fun _ =>
      forall₃_congr fun name inner _ => parts part List.mem_cons_self inner
  | instanceOf className =>
    exact (PropType.admits_instanceOf_iff absent).trans (accepts_instanceOf_iff absent).symm
  | oneOf choices =>
    exact (PropType.admits_oneOf_iff absent).trans (accepts_oneOf_iff absent).symm
  | oneOfType candidates =>
    refine (PropType.admits_oneOfType_iff absent).trans
      (.trans ?_ (accepts_oneOfType_iff absent).symm)
    constructor
    · rintro ⟨_, listed, admitted⟩
      obtain ⟨part, member, rfl⟩ := List.mem_map.1 listed
      exact ⟨part.1, List.mem_map_of_mem member, (parts part member value).1 admitted⟩
    · rintro ⟨_, listed, accepted⟩
      obtain ⟨part, member, rfl⟩ := List.mem_map.1 listed
      exact ⟨part.2, List.mem_map_of_mem member, (parts part member value).2 accepted⟩

theorem Describes.known (describes : plan.Describes t) (plain : plan.Plain) :
    ∃ leaf, t = .known leaf := by
  induction describes with
  | leaf | extension | built => exact ⟨_, rfl⟩
  | custom => cases plain
  | required _ ih =>
    cases plain with
    | required part =>
      obtain ⟨leaf, rfl⟩ := ih part
      obtain ⟨v, same⟩ := PropType.intoRequired_known leaf
      exact ⟨_, same⟩

/-- The type of a plan describes the values in the table of the plan. -/
theorem Describes.admits_iff (describes : plan.Describes t) (means : plan.Means extension)
    (value : Json) : t.Admits extension value ↔ plan.Accepts value := by
  induction describes generalizing value with
  | leaf kind v =>
    by_cases absent : value = .null
    · subst absent
      exact iff_of_true .null (.null rfl)
    · exact (PropType.admits_leaf_iff absent).trans (accepts_leaf_iff absent).symm
  | extension name holds v =>
    by_cases absent : value = .null
    · subst absent
      exact iff_of_true .null (.null rfl)
    · cases means with
      | extension same =>
        rw [accepts_extension_iff absent, same value absent]
        exact PropType.admits_extension_iff absent
  | custom => cases means
  | built parts v ih =>
    cases means with
    | built means =>
      rw [Construction.parts_map, List.forall_mem_map] at means
      exact admits_built_iff fun part member => ih part member (means part member)
  | @required plan t part ih =>
    cases means with
    | required means =>
      obtain ⟨⟨kind, required, arguments, v⟩, rfl⟩ := part.known means.plain
      obtain ⟨w, same⟩ := PropType.intoRequired_known ⟨kind, required, arguments, v⟩
      rw [same, PropType.admits_required_iff, ih means]
      constructor
      · rintro ⟨given, accepted⟩
        exact .required given accepted
      · intro accepted
        cases accepted with
        | null impossible => cases impossible
        | required given accepted => exact ⟨given, accepted⟩

end Plan

end PropSandbox

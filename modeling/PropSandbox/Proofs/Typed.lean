import Mathlib.Tactic.Choose
import PropSandbox.Proofs.Recall
import PropSandbox.Proofs.RoundTrip
import PropSandbox.Proofs.Writes

/-!
# Types that tell what is accepted

The type that inference has for a validator says at every node what the validator of the node
accepts, provided that nothing in it is unknown. So a value is accepted part by part: what a
container of a type holds at a step is accepted by the type below that step, and putting in another
value that is accepted there leaves the container accepted.
-/

namespace PropSandbox

namespace Construction

variable {α β : Type}

/-- The construction with the fields of a shape in the order of their names, each once. -/
def settled : Construction α → Construction α
  | .shape fields => .shape (Record.ofList fields)
  | construction => construction

@[simp] theorem kind_settled (construction : Construction α) :
    construction.settled.kind = construction.kind := by
  cases construction <;> rfl

theorem argument_settled (construction : Construction α) :
    construction.settled.argument = construction.argument := by
  cases construction with
  | shape fields =>
    exact congrArg Argument.fields (Record.ofList_of_ascending (Record.ascending_ofList fields))
  | _ => rfl

theorem settled_settled (construction : Construction α) :
    construction.settled.settled = construction.settled := by
  cases construction with
  | shape fields =>
    exact congrArg Construction.shape (Record.ofList_of_ascending (Record.ascending_ofList fields))
  | _ => rfl

theorem map_settled (f : α → β) (construction : Construction α) :
    (construction.map f).settled = construction.settled.map f := by
  cases construction with
  | shape fields => exact congrArg Construction.shape (Record.mapValues_ofList f fields).symm
  | _ => rfl

/-- A settled construction makes the same validator. -/
theorem make_settled (construction : Construction Validator) :
    construction.settled.make = construction.make := by
  cases construction with
  | shape fields =>
    simp only [settled, make, Library.shape]
    rw [Record.ofList_of_ascending (Record.ascending_ofList fields)]
  | _ => rfl

/-- Its parts are those that are recorded. -/
theorem parts_settled (construction : Construction α) :
    construction.settled.parts = construction.argument.parts := by
  cases construction <;> rfl

end Construction

theorem Argument.parts_map {α β : Type} (f : α → β) (argument : Argument α) :
    (argument.map f).parts = argument.parts.map f := by
  cases argument with
  | fields fields => simp [map, parts, Record.mapValues, Function.comp_def]
  | _ => rfl

/-- There is something to choose among: a literal besides null, or a candidate. -/
def Argument.Inhabited {α : Type} : Argument α → Prop
  | .choices values => ∃ value ∈ values, value ≠ .null
  | .candidates parts => parts ≠ []
  | _ => True

theorem Construction.inhabited_iff {α : Type} {construction : Construction α} :
    construction.argument.Inhabited ↔ construction.Inhabited := by
  cases construction <;> rfl

theorem Construction.inhabited_map_iff {α β : Type} {f : α → β} {construction : Construction α} :
    (construction.map f).Inhabited ↔ construction.Inhabited := by
  cases construction <;> simp [map, Inhabited]

namespace PropType

/-- A type in which nothing is unknown. -/
inductive Transparent : PropType → Prop where
  | known {leaf : TypeLeaf}
      (parts : ∀ argument ∈ leaf.argument?, ∀ part ∈ argument.parts, Transparent part) :
      Transparent (.known leaf)

/-- A type of standard leaves and constructors that leaves something to choose wherever there is a
choice. -/
inductive Generable : PropType → Prop where
  | leaf (kind : LeafKind) (required : Bool) (v : Validator) :
      Generable (.known ⟨.leaf kind, required, none, v⟩)
  | built (kind : BuiltKind) (required : Bool) (v : Validator) {argument : Argument PropType}
      (inhabited : argument.Inhabited) (parts : ∀ part ∈ argument.parts, Generable part) :
      Generable (.known ⟨.built kind, required, some [argument], v⟩)

theorem Generable.of_intoRequired {leaf : TypeLeaf}
    (generable : (PropType.known leaf).intoRequired.Generable) : (PropType.known leaf).Generable := by
  obtain ⟨v, same⟩ := intoRequired_known leaf
  obtain ⟨kind, required, arguments, _⟩ := leaf
  rw [same] at generable
  cases generable with
  | leaf kind => exact .leaf kind required _
  | built kind _ _ inhabited parts => exact .built kind required _ inhabited parts

theorem Transparent.of_intoRequired {leaf : TypeLeaf}
    (transparent : (PropType.known leaf).intoRequired.Transparent) :
    (PropType.known leaf).Transparent := by
  obtain ⟨v, same⟩ := intoRequired_known leaf
  rw [same] at transparent
  cases transparent with
  | known parts => exact .known parts

end PropType

/-- A required validator is its own required flavor. -/
theorem Fits.required_eq {plan : Plan} {v : Validator} (fits : Fits plan v)
    (notOptional : plan.isOptional = false) : v.required = v := by
  obtain ⟨other, flavor⟩ := fits.flavor
  rw [notOptional] at flavor
  simp [Validator.required, flavor]

namespace Plan

/-- The types of validators that are made by a plan, where at every node the validator fits the plan
of the node. -/
inductive Types : Plan → PropType → Prop where
  | leaf {kind : LeafKind} {v : Validator} (fits : Fits (.leaf kind) v) :
      Types (.leaf kind) (.known ⟨.leaf kind, false, none, v⟩)
  | extension {name : String} {holds : Json → Bool} {v : Validator}
      (fits : Fits (.extension name holds) v) :
      Types (.extension name holds) (.known ⟨.extension name, false, none, v⟩)
  | built {construction : Construction (Plan × PropType)} {v : Validator}
      (settled : construction.settled = construction)
      (parts : ∀ part ∈ construction.parts, Types part.1 part.2)
      (fits : Fits (.built (construction.map Prod.fst)) v) :
      Types (.built (construction.map Prod.fst))
        (.known ⟨.built construction.kind, false, some [(construction.map Prod.snd).argument], v⟩)
  | required {plan : Plan} {t : PropType} (part : Types plan t) :
      Types (.required plan) t.intoRequired

namespace Types

variable {plan : Plan} {t inner : PropType} {value : Json}

theorem describes (types : plan.Types t) : plan.Describes t := by
  induction types with
  | leaf => exact .leaf _ _
  | extension => exact .extension _ _ _
  | built _ _ _ ih => exact .built ih _
  | required _ ih => exact .required ih

theorem known (types : plan.Types t) : ∃ leaf, t = .known leaf := by
  induction types with
  | leaf | extension | built => exact ⟨_, rfl⟩
  | required _ ih =>
    obtain ⟨leaf, rfl⟩ := ih
    obtain ⟨v, same⟩ := PropType.intoRequired_known leaf
    exact ⟨_, same⟩

/-- A value is required by the type as by the plan. -/
theorem isRequired (types : plan.Types t) : t.isRequired = !plan.isOptional := by
  induction types with
  | leaf | extension | built => rfl
  | required part _ =>
    obtain ⟨leaf, rfl⟩ := part.known
    obtain ⟨v, same⟩ := PropType.intoRequired_known leaf
    rw [same]
    rfl

theorem fits (types : plan.Types t) : Fits plan t.validator := by
  induction types with
  | leaf fits | extension fits | built _ _ fits => exact fits
  | @required plan t part fits =>
    have both : t.intoRequired.validator = t.validator.required := by
      have isRequired := part.isRequired
      obtain ⟨leaf, rfl⟩ := part.known
      rw [PropType.intoRequired]
      split
      · rename_i required
        refine (fits.required_eq ?_).symm
        simpa using isRequired.symm.trans required
      · rfl
    rw [both]
    exact fits.required

theorem accepts_iff (types : plan.Types t) : t.accepts value = true ↔ plan.Accepts value := by
  have decides := types.fits.decides [("value", value)] "value" "sandbox" .prop
  rw [Record.get?_cons, if_pos rfl, Option.getD_some] at decides
  rw [← decides.accepted_iff, PropType.accepts, PropType.explain, PropType.check,
    Validator.checkValue]
  cases t.validator.validate [("value", value)] "value" "sandbox" .prop <;>
    simp [Verdict.isAccepted]

/-- Null is accepted where no value is required. -/
theorem accepts_null_iff (types : plan.Types t) : t.accepts .null = true ↔ t.isRequired = false := by
  rw [types.accepts_iff, Plan.accepts_null_iff, types.isRequired]
  simp

theorem accepts_intoRequired_iff (types : plan.Types t) (given : value ≠ .null) :
    t.intoRequired.accepts value = true ↔ t.accepts value = true := by
  rw [types.required.accepts_iff, Plan.accepts_required_iff given, types.accepts_iff]

/-- A plan is generable if its type is. -/
theorem generable (types : plan.Types t) (generable : t.Generable) : plan.Generable := by
  induction types with
  | leaf => exact .leaf _
  | extension => cases generable
  | @built construction v settled parts fits ih =>
    cases generable with
    | built _ _ _ inhabited each =>
      rw [Construction.inhabited_iff, Construction.inhabited_map_iff] at inhabited
      refine .built (Construction.inhabited_map_iff.2 inhabited) ?_
      rw [Construction.parts_map]
      refine List.forall_mem_map.2 fun part member => ih part member (each part.2 ?_)
      rw [Construction.argument_map, Argument.parts_map]
      refine List.mem_map_of_mem ?_
      rwa [← Construction.parts_settled, settled]
  | required part ih =>
    obtain ⟨leaf, rfl⟩ := part.known
    exact .required (ih generable.of_intoRequired)

end Types

end Plan

namespace Chronicle

variable {c : Chronicle} {o : Origin}

theorem Recalls.told (recalls : c.Recalls o)
    (transparent : (c.library.infer o.validator).Transparent) : ¬ o.Hidden c.log := by
  intro hidden
  rw [recalls.shows.unknown_of_hidden hidden] at transparent
  cases transparent

/-- A constructor called on validators of planned types makes one of a planned type. -/
theorem exists_types_built (lib : Library) {construction : Construction Origin}
    {shown : Origin → PropType}
    (parts : ∀ part ∈ construction.argument.parts,
      ∃ plan, plan.Types (shown part) ∧ Built plan part.validator) :
    ∃ plan, plan.Types (.known ⟨.built construction.kind, false,
        some [(construction.map shown).argument],
        ((construction.map Origin.validator).make.run lib).1⟩) ∧
      Built plan ((construction.map Origin.validator).make.run lib).1 := by
  have : Nonempty Plan := ⟨.leaf .any⟩
  choose! plan types built using parts
  -- Plans were chosen for recorded parts only. A field that another of its name replaced is not
  -- recorded, so the fields are settled before each is paired with its plan.
  rw [← Construction.parts_settled] at types built
  let typed := construction.settled.map fun part => (plan part, shown part)
  let made := construction.settled.map fun part => (plan part, part.validator)
  have plans : made.map Prod.fst = typed.map Prod.fst := by
    rw [Construction.map_map, Construction.map_map]
  have validators : (made.map Prod.snd).make = (construction.map Origin.validator).make := by
    rw [Construction.map_map, ← Construction.map_settled, Construction.make_settled]
  have argument : (typed.map Prod.snd).argument = (construction.map shown).argument := by
    rw [Construction.map_map, ← Construction.map_settled, Construction.argument_settled]
  have madeParts : ∀ part ∈ made.parts, Built part.1 part.2 := by
    rw [Construction.parts_map]
    exact List.forall_mem_map.2 built
  have typedParts : ∀ part ∈ typed.parts, part.1.Types part.2 := by
    rw [Construction.parts_map]
    exact List.forall_mem_map.2 types
  have whole := Built.built lib madeParts
  rw [validators, plans] at whole
  have settled : typed.settled = typed := by
    rw [Construction.map_settled, Construction.settled_settled]
  have wholeTyped := Plan.Types.built settled typedParts whole.fits
  rw [argument, Construction.kind_map, Construction.kind_settled] at wholeTyped
  exact ⟨_, wholeTyped, whole⟩

/-- The type of a validator at hand is that of a plan by which the validator was made, if nothing in
it is unknown. -/
theorem Kept.types (kept : c.Kept) (genuine : o.Genuine) (atHand : o ∈ c.made)
    (transparent : (c.library.infer o.validator).Transparent) :
    ∃ plan, plan.Types (c.library.infer o.validator) ∧ Built plan o.validator := by
  have recalls := kept.recalls genuine atHand
  have told := recalls.told transparent
  induction genuine with
  | standard kind =>
    rw [recalls.shows.unique (.standard told)]
    exact ⟨.leaf kind, .leaf (.leaf kind), .leaf kind⟩
  | extension lib name holds time =>
    rw [recalls.shows.unique (.extension told)]
    exact ⟨.extension name holds, .extension (.extension lib name holds), .extension lib name holds⟩
  | custom => exact absurd (.custom _) told
  | @built lib construction time parts ih =>
    have inMade := (kept.made _ atHand).parts
    have shows := recalls.shows.unique (.built told fun part member =>
      (kept.recalls (parts part member) (inMade part member)).shows)
    rw [shows] at transparent ⊢
    cases transparent with
    | known each =>
      have partTransparent := each _ rfl
      rw [Construction.argument_map, Argument.parts_map, List.forall_mem_map] at partTransparent
      refine exists_types_built lib fun part member => ?_
      have listed := Construction.mem_parts_of_argument member
      have partRecalls := kept.recalls (parts part listed) (inMade part listed)
      have transparent := partTransparent part member
      exact ih part listed (inMade part listed) transparent partRecalls
        (partRecalls.told transparent)
  | @required o part ih =>
    have partAtHand := (kept.made _ atHand).parts o List.mem_cons_self
    have partRecalls := kept.recalls part partAtHand
    have partTold : ¬ o.Hidden c.log := mt .required told
    obtain ⟨leaf, known⟩ := partRecalls.shows.known_of_told partTold
    rw [Origin.validator, partRecalls.required partTold] at transparent ⊢
    rw [known] at transparent
    have partTransparent := transparent.of_intoRequired
    rw [← known] at partTransparent
    obtain ⟨plan, types, built⟩ := ih partAtHand partTransparent partRecalls partTold
    exact ⟨.required plan, .required types, .required built⟩

end Chronicle

/-! ## Values part by part -/

namespace PropType

/-- What a type says of the parts of its values at a step, and of values with another part put in. -/
structure Governs (t : PropType) (step : Segment) (inner : PropType) : Prop where
  child : ∀ value part, t.accepts value = true → value.child? step = some part →
    inner.accepts part = true
  put : ∀ value part, value ≠ .null → t.accepts value = true → inner.accepts part = true →
    t.accepts (value.put step part) = true

theorem below?_intoRequired (t : PropType) (step : Segment) :
    t.intoRequired.below? step = t.below? step := by
  cases t with
  | unknown => rfl
  | known leaf =>
    rw [intoRequired]
    split <;> rfl

theorem kind?_intoRequired (t : PropType) : t.intoRequired.kind? = t.kind? := by
  cases t with
  | unknown => rfl
  | known leaf =>
    rw [intoRequired]
    split <;> rfl

end PropType

namespace Plan.Types

variable {plan : Plan} {t inner : PropType} {step : Segment}

/-- The type below a shape is that of the field with the name. -/
theorem exists_field {fields : List (String × Plan × PropType)} {v : Validator}
    (below : PropType.below? (.known ⟨.built .shape, false,
      some [((Construction.shape fields).map Prod.snd).argument], v⟩) step = some inner) :
    ∃ name field, step = .key name ∧ (name, field) ∈ Record.ofList fields ∧ field.2 = inner := by
  cases step with
  | index => cases below
  | key name =>
    have found : Record.get? (Record.ofList (Record.mapValues Prod.snd fields)) name = some inner :=
      below
    rw [← Record.mapValues_ofList, Record.get?_mapValues, Option.map_eq_some_iff] at found
    obtain ⟨field, here, same⟩ := found
    exact ⟨name, field, rfl, Record.mem_of_get? here, same⟩

/-- The part of a typed type is typed. -/
theorem part (types : plan.Types t) (below : t.below? step = some inner) :
    ∃ part : Plan, part.Types inner := by
  induction types with
  | leaf | extension => cases below
  | @built construction v settled parts =>
    cases construction with
    | shape fields =>
      obtain ⟨name, field, _, listed, rfl⟩ := exists_field below
      exact ⟨_, parts field (List.mem_map_of_mem (Record.mem_ofList listed))⟩
    | arrayOf item | objectOf item =>
      cases step <;> cases below
      exact ⟨_, parts item List.mem_cons_self⟩
    | instanceOf | oneOf | oneOfType => cases below
  | required part ih =>
    rw [PropType.below?_intoRequired] at below
    exact ih below

/-! What the type of a container accepts, in terms of the types of its parts. -/

variable {value : Json}

theorem accepts_shape_iff {fields : List (String × Plan × PropType)}
    (types : Types (.built ((Construction.shape fields).map Prod.fst)) t)
    (each : ∀ field ∈ fields, field.2.1.Types field.2.2) (given : value ≠ .null) :
    t.accepts value = true ↔ ∃ members, value = .object members ∧
      ∀ field ∈ Record.ofList fields,
        field.2.2.accepts ((Record.get? members field.1).getD .null) = true := by
  rw [types.accepts_iff, Construction.map, Plan.accepts_shape_iff given, ← Record.mapValues_ofList]
  refine exists_congr fun members => and_congr_right fun _ => ?_
  rw [Record.mapValues, List.forall_mem_map]
  refine forall₂_congr fun field listed => ?_
  rw [(each field (Record.mem_ofList listed)).accepts_iff]

theorem accepts_arrayOf_iff {item : Plan × PropType}
    (types : Types (.built ((Construction.arrayOf item).map Prod.fst)) t)
    (part : item.1.Types item.2) (given : value ≠ .null) :
    t.accepts value = true ↔
      ∃ items, value = .array items ∧ ∀ entry ∈ items, item.2.accepts entry = true := by
  rw [types.accepts_iff, Construction.map, Plan.accepts_arrayOf_iff given]
  refine exists_congr fun items => and_congr_right fun _ => ?_
  exact forall₂_congr fun entry _ => part.accepts_iff.symm

theorem accepts_objectOf_iff {item : Plan × PropType}
    (types : Types (.built ((Construction.objectOf item).map Prod.fst)) t)
    (part : item.1.Types item.2) (given : value ≠ .null) :
    t.accepts value = true ↔ ∃ members, value = .object members ∧
      ∀ name entry, Record.get? members name = some entry → item.2.accepts entry = true := by
  rw [types.accepts_iff, Construction.map, Plan.accepts_objectOf_iff given]
  refine exists_congr fun members => and_congr_right fun _ => ?_
  exact forall₃_congr fun name entry _ => part.accepts_iff.symm

theorem governs_shape {fields : List (String × Plan × PropType)}
    (types : Types (.built ((Construction.shape fields).map Prod.fst)) t)
    (each : ∀ field ∈ fields, field.2.1.Types field.2.2) {name : String} {field : Plan × PropType}
    (listed : (name, field) ∈ Record.ofList fields) : t.Governs (.key name) field.2 where
  child value part accepted found := by
    have given : value ≠ .null := by
      rintro rfl
      cases found
    obtain ⟨members, rfl, all⟩ := (types.accepts_shape_iff each given).1 accepted
    have here := all _ listed
    rwa [show Record.get? members name = some part from found, Option.getD_some] at here
  put value part given accepted new := by
    obtain ⟨members, rfl, all⟩ := (types.accepts_shape_iff each given).1 accepted
    refine (types.accepts_shape_iff each (Json.put_ne_null given _ _)).2
      ⟨_, rfl, fun other member => ?_⟩
    obtain ⟨otherName, otherField⟩ := other
    by_cases same : otherName = name
    · subst same
      have found := Record.get?_of_mem (Record.ascending_ofList fields) listed
      cases found.symm.trans (Record.get?_of_mem (Record.ascending_ofList fields) member)
      rw [Record.get?_insert_self, Option.getD_some]
      exact new
    · rw [Record.get?_insert_of_ne _ _ same]
      exact all _ member

theorem governs_arrayOf {item : Plan × PropType}
    (types : Types (.built ((Construction.arrayOf item).map Prod.fst)) t)
    (each : item.1.Types item.2) (i : Nat) : t.Governs (.index i) item.2 where
  child value part accepted found := by
    have given : value ≠ .null := by
      rintro rfl
      cases found
    obtain ⟨items, rfl, all⟩ := (types.accepts_arrayOf_iff each given).1 accepted
    exact all part (List.mem_of_getElem? found)
  put value part given accepted new := by
    obtain ⟨items, rfl, all⟩ := (types.accepts_arrayOf_iff each given).1 accepted
    refine (types.accepts_arrayOf_iff each (Json.put_ne_null given _ _)).2
      ⟨_, rfl, fun entry member => ?_⟩
    split at member
    · rcases List.mem_or_eq_of_mem_set member with old | rfl
      · exact all entry old
      · exact new
    · rcases List.mem_append.1 member with old | last
      · exact all entry old
      · rw [List.mem_singleton.1 last]
        exact new

theorem governs_objectOf {item : Plan × PropType}
    (types : Types (.built ((Construction.objectOf item).map Prod.fst)) t)
    (each : item.1.Types item.2) (name : String) : t.Governs (.key name) item.2 where
  child value part accepted found := by
    have given : value ≠ .null := by
      rintro rfl
      cases found
    obtain ⟨members, rfl, all⟩ := (types.accepts_objectOf_iff each given).1 accepted
    exact all name part found
  put value part given accepted new := by
    obtain ⟨members, rfl, all⟩ := (types.accepts_objectOf_iff each given).1 accepted
    refine (types.accepts_objectOf_iff each (Json.put_ne_null given _ _)).2
      ⟨_, rfl, fun other entry found => ?_⟩
    by_cases same : other = name
    · subst same
      rw [Record.get?_insert_self] at found
      cases found
      exact new
    · rw [Record.get?_insert_of_ne _ _ same] at found
      exact all other entry found

/-- The type of a container governs its parts; a required flavor does as the optional one. -/
theorem governs (types : plan.Types t) (below : t.below? step = some inner) :
    t.Governs step inner := by
  induction types with
  | leaf | extension => cases below
  | @built construction v settled parts fits =>
    have types := Types.built settled parts fits
    cases construction with
    | shape fields =>
      obtain ⟨name, field, rfl, listed, rfl⟩ := exists_field below
      refine types.governs_shape (fun field member => ?_) listed
      exact parts field.2 (List.mem_map_of_mem member)
    | arrayOf item =>
      cases step <;> cases below
      exact types.governs_arrayOf (parts item List.mem_cons_self) _
    | objectOf item =>
      cases step <;> cases below
      exact types.governs_objectOf (parts item List.mem_cons_self) _
    | instanceOf | oneOf | oneOfType => cases below
  | @required plan t types ih =>
    rw [PropType.below?_intoRequired] at below
    obtain ⟨child, put⟩ := ih below
    refine ⟨fun value part accepted found => ?_, fun value part given accepted new => ?_⟩
    · have given : value ≠ .null := by
        rintro rfl
        cases step <;> cases found
      exact child value part ((types.accepts_intoRequired_iff given).1 accepted) found
    · have kept := put value part given ((types.accepts_intoRequired_iff given).1 accepted) new
      refine (types.accepts_intoRequired_iff (Json.put_ne_null given step part)).2 kept

/-- A list is accepted if and only if its items are. -/
theorem accepts_items_iff (types : plan.Types t) {i : Nat} (below : t.below? (.index i) = some inner)
    (items : List Json) :
    t.accepts (.array items) = true ↔ ∀ item ∈ items, inner.accepts item = true := by
  have given : Json.array items ≠ .null := nofun
  induction types with
  | leaf | extension => cases below
  | @built construction v settled parts fits =>
    have types := Types.built settled parts fits
    cases construction with
    | arrayOf item =>
      cases below
      rw [types.accepts_arrayOf_iff (parts item List.mem_cons_self) given]
      simp
    | _ => cases below
  | required types ih =>
    rw [PropType.below?_intoRequired] at below
    rw [types.accepts_intoRequired_iff given]
    exact ih below

end Plan.Types

end PropSandbox

import PropSandbox.Proofs.Plan

/-!
# What validators accept

A validator made by a plan accepts exactly the values in the table of its plan. The verdict on a
prop therefore hangs on the value under the name alone: not on other members of the record, not
on names and owners, not on where the record came from. Without custom validators no run is given
up, so whatever is not accepted is rejected with an error.
-/

namespace PropSandbox

/-- A verdict that accepts if a statement holds and rejects if it fails. -/
def Verdict.Decides (verdict : Verdict) (P : Prop) : Prop :=
  (verdict = .accepted ∧ P) ∨ (∃ error, verdict = .rejected error) ∧ ¬ P

namespace Verdict.Decides

variable {first second : Verdict} {P Q : Prop}

theorem accepted_iff (decides : first.Decides P) : first = .accepted ↔ P := by
  rcases decides with ⟨accepted, holds⟩ | ⟨⟨error, rejected⟩, fails⟩
  · exact iff_of_true accepted holds
  · exact iff_of_false (by simp [rejected]) fails

theorem rejected_iff (decides : first.Decides P) : (∃ error, first = .rejected error) ↔ ¬ P := by
  rcases decides with ⟨accepted, holds⟩ | ⟨rejected, fails⟩
  · exact iff_of_false (by simp [accepted]) (not_not_intro holds)
  · exact iff_of_true rejected fails

theorem congr (decides : first.Decides P) (same : P ↔ Q) : first.Decides Q := by
  rwa [← propext same]

theorem mapError (decides : first.Decides P) (f : PropError → PropError) :
    (first.mapError f).Decides P := by
  rcases decides with ⟨accepted, holds⟩ | ⟨⟨error, rejected⟩, fails⟩
  · exact .inl ⟨by simp [Verdict.mapError, accepted], holds⟩
  · exact .inr ⟨⟨f error, by simp [Verdict.mapError, rejected]⟩, fails⟩

theorem andThen (decides : first.Decides P) (next : second.Decides Q) :
    (first.andThen second).Decides (P ∧ Q) := by
  rcases decides with ⟨accepted, holds⟩ | ⟨⟨error, rejected⟩, fails⟩
  · simp only [Verdict.andThen, accepted]
    exact next.congr ⟨fun q => ⟨holds, q⟩, And.right⟩
  · exact .inr ⟨⟨error, by simp [Verdict.andThen, rejected]⟩, fun both => fails both.1⟩

end Verdict.Decides

/-- A check that decides a property of the value under the name, once there is one. -/
def Check.Decides (check : Check) (P : Json → Prop) : Prop :=
  ∀ holder prop owner location value, Record.get? holder prop = some value → value ≠ .null →
    (check holder prop owner location).Decides (P value)

/-- A validator that decides a property of the value under the name; an absent value is null. -/
def Validator.Decides (v : Validator) (P : Json → Prop) : Prop :=
  ∀ holder prop owner location,
    (v.validate holder prop owner location).Decides (P ((Record.get? holder prop).getD .null))

/-! ## Leaves -/

namespace Marker

theorem isCallback_iff (value : Json) : isCallback value = true ↔ Callback value := by
  constructor
  · intro marked
    obtain ⟨name, found⟩ := Option.isSome_iff_exists.1 marked
    unfold callbackName? at found
    split at found
    · split at found
      · rename_i same
        subst same
        rename_i inner
        cases inner <;> simp [Json.text?] at found
        exact ⟨_, rfl⟩
      · cases found
    · cases found
  · rintro ⟨name, rfl⟩
    rfl

theorem text?_member?_iff (value : Json) (name text : String) :
    (value.member? name).bind Json.text? = some text ↔
      ∃ members, value = .object members ∧ Record.get? members name = some (.string text) := by
  constructor
  · intro found
    obtain ⟨inner, isMember, isText⟩ := Option.bind_eq_some_iff.1 found
    obtain ⟨members, isObject, isValue⟩ := Option.bind_eq_some_iff.1 isMember
    cases value <;> simp [Json.members?] at isObject
    subst isObject
    cases inner <;> simp [Json.text?] at isText
    exact ⟨_, rfl, isText ▸ isValue⟩
  · rintro ⟨members, rfl, found⟩
    simp [Json.member?, Json.members?, found, Json.text?]

theorem isElement_iff (value : Json) : isElement value = true ↔ Element value := by
  rw [isElement, Option.isSome_iff_exists]
  constructor
  · rintro ⟨tag, found⟩
    obtain ⟨members, same, isTag⟩ := (text?_member?_iff value _ tag).1 found
    exact ⟨members, tag, same, isTag⟩
  · rintro ⟨members, tag, same, isTag⟩
    exact ⟨tag, (text?_member?_iff value _ tag).2 ⟨members, same, isTag⟩⟩

mutual

theorem isNode_iff : ∀ value : Json, isNode value = true ↔ Node value
  | .null => iff_of_true rfl .null
  | .number n => iff_of_true rfl (.number n)
  | .string s => iff_of_true rfl (.string s)
  | .bool true => by
    refine iff_of_false (by simp [isNode]) fun shown => ?_
    cases shown with
    | element marked =>
      obtain ⟨members, tag, impossible, _⟩ := marked
      cases impossible
  | .bool false => iff_of_true rfl .false
  | .array items => by
    rw [isNode, areNodes_iff items]
    constructor
    · exact .array
    · intro shown
      cases shown with
      | array each => exact each
      | element marked =>
        obtain ⟨members, tag, impossible, _⟩ := marked
        cases impossible
  | .object members => by
    rw [isNode, isElement_iff]
    constructor
    · exact .element
    · intro shown
      cases shown with
      | element marked => exact marked

theorem areNodes_iff : ∀ items : List Json, areNodes items = true ↔ ∀ item ∈ items, Node item
  | [] => by simp [areNodes]
  | item :: rest => by simp [areNodes, isNode_iff item, areNodes_iff rest]

end

end Marker

theorem Check.leafAccepts_iff (kind : LeafKind) (value : Json) :
    leafAccepts kind value = true ↔ kind.Holds value := by
  cases kind with
  | string =>
    cases value with
    | string s => exact iff_of_true rfl (.string s)
    | _ => exact iff_of_false (by simp [leafAccepts]) nofun
  | number =>
    cases value with
    | number n => exact iff_of_true rfl (.number n)
    | _ => exact iff_of_false (by simp [leafAccepts]) nofun
  | bool =>
    cases value with
    | bool b => exact iff_of_true rfl (.bool b)
    | _ => exact iff_of_false (by simp [leafAccepts]) nofun
  | array =>
    cases value with
    | array items => exact iff_of_true rfl (.array items)
    | _ => exact iff_of_false (by simp [leafAccepts]) nofun
  | object =>
    cases value with
    | object members =>
      simp only [leafAccepts, Bool.not_eq_true', ← Bool.not_eq_true, Marker.isCallback_iff]
      exact ⟨.object, fun | .object plain => plain⟩
    | _ => exact iff_of_false (by simp [leafAccepts]) nofun
  | func =>
    rw [leafAccepts, Marker.isCallback_iff]
    exact ⟨.func, fun | .func marked => marked⟩
  | any => exact iff_of_true rfl (.any value)
  | node =>
    rw [leafAccepts, Marker.isNode_iff]
    exact ⟨.node, fun | .node shown => shown⟩
  | element =>
    rw [leafAccepts, Marker.isElement_iff]
    exact ⟨.element, fun | .element marked => marked⟩

/-! ## Checks -/

namespace Check

theorem wrongType_decides {P : Prop} (fails : ¬ P) (value : Json) (prop owner : String)
    (location : Location) (expected : String) :
    (wrongType value prop owner location expected).Decides P :=
  .inr ⟨⟨_, rfl⟩, fails⟩

theorem ofType_decides {expected : String} {accepts : Json → Bool} {P : Json → Prop}
    (same : ∀ value, value ≠ .null → (accepts value = true ↔ P value)) :
    (ofType expected accepts).Decides P := by
  intro holder prop owner location value found given
  simp only [ofType, found, Option.getD_some]
  split
  · rename_i accepted
    exact .inl ⟨rfl, (same value given).1 accepted⟩
  · rename_i refused
    exact wrongType_decides (fun holds => refused ((same value given).2 holds)) ..

variable {parts : List (Plan × Validator)} {v : Validator} {P : Json → Prop}

theorem fields_decides {declared : Record (Plan × Validator)}
    (each : ∀ field ∈ declared, field.2.2.Decides field.2.1.Accepts) (members : Record Json)
    (prop owner : String) (location : Location) :
    (fields members prop owner location (Record.mapValues Prod.snd declared)).Decides
      (∀ field ∈ declared, field.2.1.Accepts ((Record.get? members field.1).getD .null)) := by
  induction declared with
  | nil => exact .inl ⟨rfl, nofun⟩
  | cons field rest ih =>
    have first := each field List.mem_cons_self members field.1 owner location
    have others := ih fun field member => each field (List.mem_cons_of_mem _ member)
    exact ((first.mapError _).andThen others).congr (by rw [List.forall_mem_cons])

theorem items_decides (decides : v.Decides P) (prop owner : String) (location : Location)
    (index : Nat) (entries : List Json) :
    (items v prop owner location index entries).Decides (∀ value ∈ entries, P value) := by
  induction entries generalizing index with
  | nil => exact .inl ⟨rfl, nofun⟩
  | cons value rest ih =>
    have first := decides [(toString index, value)] (toString index) owner location
    simp only [Record.get?_cons, if_true, Option.getD_some] at first
    exact ((first.mapError _).andThen (ih (index + 1))).congr List.forall_mem_cons.symm

theorem members_decides (decides : v.Decides P) (entries : Record Json) (prop owner : String)
    (location : Location) (names : List String) :
    (members v entries prop owner location names).Decides
      (∀ name ∈ names, P ((Record.get? entries name).getD .null)) := by
  induction names with
  | nil => exact .inl ⟨rfl, nofun⟩
  | cons name rest ih =>
    have first := decides entries name owner location
    exact ((first.mapError _).andThen ih).congr (by rw [List.forall_mem_cons])

theorem candidates_decides (each : ∀ part ∈ parts, part.2.Decides part.1.Accepts)
    (holder : Record Json) (prop owner : String) (location : Location) :
    (candidates holder prop owner location (parts.map Prod.snd)).Decides
      (∃ part ∈ parts, part.1.Accepts ((Record.get? holder prop).getD .null)) := by
  induction parts with
  | nil => exact wrongType_decides (by simp) ..
  | cons part rest ih =>
    have first := each part List.mem_cons_self holder prop owner location
    have others := ih fun part member => each part (List.mem_cons_of_mem _ member)
    simp only [List.map_cons, candidates]
    rcases first with ⟨accepted, holds⟩ | ⟨⟨error, rejected⟩, fails⟩
    · rw [accepted]
      exact .inl ⟨rfl, part, List.mem_cons_self, holds⟩
    · rw [rejected]
      exact others.congr (by simp [fails])

theorem shape_decides {fields : List (String × Plan × Validator)}
    (each : ∀ field ∈ fields, field.2.2.Decides field.2.1.Accepts) :
    (shape (Record.ofList (Record.mapValues Prod.snd fields))).Decides
      (Plan.built (.shape (Record.mapValues Prod.fst fields))).Accepts := by
  intro holder prop owner location value found given
  have declared : ∀ field ∈ Record.ofList fields, field.2.2.Decides field.2.1.Accepts :=
    fun field member => each field (Record.mem_ofList member)
  rw [Plan.accepts_shape_iff given, ← Record.mapValues_ofList, ← Record.mapValues_ofList]
  simp only [shape, found, Option.getD_some]
  split
  · rename_i members
    refine (fields_decides declared members prop owner location).congr ?_
    constructor
    · intro holds
      exact ⟨members, rfl, List.forall_mem_map.2 holds⟩
    · rintro ⟨_, ⟨⟩, each⟩
      exact List.forall_mem_map.1 each
  · rename_i noObject
    exact wrongType_decides (fun ⟨members, same, _⟩ => noObject members same) ..

theorem arrayOf_decides {plan : Plan} (decides : v.Decides plan.Accepts) :
    (arrayOf v).Decides (Plan.built (.arrayOf plan)).Accepts := by
  intro holder prop owner location value found given
  rw [Plan.accepts_arrayOf_iff given]
  simp only [arrayOf, found, Option.getD_some]
  split
  · rename_i entries
    refine (items_decides decides prop owner location 0 entries).congr ?_
    simp
  · rename_i noArray
    exact wrongType_decides (fun ⟨items, same, _⟩ => noArray items same) ..

theorem objectOf_decides {plan : Plan} (decides : v.Decides plan.Accepts) :
    (objectOf v).Decides (Plan.built (.objectOf plan)).Accepts := by
  intro holder prop owner location value found given
  rw [Plan.accepts_objectOf_iff given]
  simp only [objectOf, found, Option.getD_some]
  split
  · rename_i entries
    refine (members_decides decides entries prop owner location (Record.keys entries)).congr ?_
    constructor
    · intro holds
      refine ⟨entries, rfl, fun name inner here => ?_⟩
      simpa [here] using holds name (Record.mem_keys_of_get? here)
    · rintro ⟨_, ⟨⟩, each⟩ name member
      obtain ⟨inner, here⟩ := Record.get?_of_mem_keys member
      simpa [here] using each name inner here
  · rename_i noObject
    exact wrongType_decides (fun ⟨members, same, _⟩ => noObject members same) ..

theorem instanceOf_decides (className : String) :
    (instanceOf className).Decides (Plan.built (.instanceOf className)).Accepts := by
  refine ofType_decides fun value given => ?_
  rw [Plan.accepts_instanceOf_iff given, beq_iff_eq, Marker.instanceClass?]
  exact Marker.text?_member?_iff ..

theorem oneOf_decides (choices : List Json) :
    (oneOf choices).Decides (Plan.built (.oneOf choices)).Accepts := by
  refine ofType_decides fun value given => ?_
  rw [Plan.accepts_oneOf_iff given]
  exact List.any_eq_true

theorem oneOfType_decides (each : ∀ part ∈ parts, part.2.Decides part.1.Accepts) :
    (oneOfType (parts.map Prod.snd)).Decides
      (Plan.built (.oneOfType (parts.map Prod.fst))).Accepts := by
  intro holder prop owner location value found given
  have decides := candidates_decides each holder prop owner location
  rw [found, Option.getD_some] at decides
  refine decides.congr ?_
  rw [Plan.accepts_oneOfType_iff given]
  simp

/-- The check of a construction follows the table, if the parts do. -/
theorem built_decides {construction : Construction (Plan × Validator)}
    (each : ∀ part ∈ construction.parts, part.2.Decides part.1.Accepts) :
    (construction.map Prod.snd).check.Decides (Plan.built (construction.map Prod.fst)).Accepts := by
  cases construction with
  | shape fields => exact shape_decides fun field member => each _ (List.mem_map_of_mem member)
  | arrayOf item => exact arrayOf_decides (each item List.mem_cons_self)
  | objectOf part => exact objectOf_decides (each part List.mem_cons_self)
  | instanceOf className => exact instanceOf_decides className
  | oneOf choices => exact oneOf_decides choices
  | oneOfType candidates => exact oneOfType_decides each

end Check

/-! ## Validators -/

namespace Validator

variable {v : Validator} {holder : Record Json} {prop : String}

/-- A value that is there is left to the check, whatever the flavor. -/
theorem validate_given {value : Json} (found : Record.get? holder prop = some value)
    (given : value ≠ .null) (owner : String) (location : Location) :
    v.validate holder prop owner location = v.check holder prop owner location := by
  rw [validate, found]
  split
  · rfl
  · cases value with
    | null => exact absurd rfl given
    | _ => rfl
  · cases value with
    | null => exact absurd rfl given
    | _ => rfl

/-- A value that is absent or null never comes to the check of a library validator. -/
theorem validate_absent (absent : (Record.get? holder prop).getD .null = .null) (owner : String)
    (location : Location) :
    v.validate holder prop owner location =
      match v.flavor with
      | .optional _ => .accepted
      | .required _ => .rejected (.missing location prop owner)
      | .custom => v.check holder prop owner location := by
  rw [validate]
  cases found : Record.get? holder prop with
  | none => cases v.flavor <;> rfl
  | some value =>
    rw [found, Option.getD_some] at absent
    subst absent
    cases v.flavor <;> rfl

theorem check_required (v : Validator) : v.required.check = v.check := by
  rw [required]
  split <;> rfl

end Validator

/-- A validator whose check follows the table of a plan and whose flavor is the one planned. -/
structure Fits (plan : Plan) (v : Validator) : Prop where
  check : v.check.Decides plan.Accepts
  flavor : ∃ other, v.flavor = if plan.isOptional then .optional other else .required other

namespace Fits

variable {plan : Plan} {v : Validator}

theorem decides (fits : Fits plan v) : v.Decides plan.Accepts := by
  intro holder prop owner location
  by_cases absent : (Record.get? holder prop).getD .null = .null
  · rw [Validator.validate_absent absent, absent]
    obtain ⟨other, flavor⟩ := fits.flavor
    by_cases optional : plan.isOptional = true
    · rw [flavor, if_pos optional]
      exact .inl ⟨rfl, .null optional⟩
    · rw [flavor, if_neg optional]
      exact .inr ⟨⟨_, rfl⟩, fun accepted => optional (Plan.accepts_null_iff.1 accepted)⟩
  · cases found : Record.get? holder prop with
    | none => exact absurd (by rw [found, Option.getD_none]) absent
    | some value =>
      rw [found, Option.getD_some] at absent
      rw [Validator.validate_given found absent]
      exact fits.check holder prop owner location value found absent

/-- The flavor decides about null. -/
theorem accepts_null_iff (fits : Fits plan v) :
    plan.Accepts .null ↔ ∃ other, v.flavor = .optional other := by
  rw [Plan.accepts_null_iff]
  obtain ⟨other, flavor⟩ := fits.flavor
  by_cases optional : plan.isOptional = true
  · exact iff_of_true optional ⟨other, by rw [flavor, if_pos optional]⟩
  · refine iff_of_false optional ?_
    rw [flavor, if_neg optional]
    rintro ⟨_, impossible⟩
    cases impossible

/-- A new library validator fits a plan if its check does. -/
theorem of_check {check : Check} (decides : check.Decides plan.Accepts)
    (optional : plan.isOptional = true) (lib : Library) :
    Fits plan ((Library.chainable check).run lib).1 :=
  ⟨decides, _, by rw [if_pos optional]; rfl⟩

theorem leaf (kind : LeafKind) : Fits (.leaf kind) (Library.fresh.standard kind) := by
  refine ⟨Check.ofType_decides fun value given => ?_, _, rfl⟩
  rw [Check.leafAccepts_iff, Plan.accepts_leaf_iff given]

theorem extension (lib : Library) (name : String) (holds : Json → Bool) :
    Fits (.extension name holds) ((Library.defineLeaf name holds).run lib).1 := by
  refine of_check (Check.ofType_decides fun value given => ?_) rfl lib
  rw [Plan.accepts_extension_iff given]

theorem built {construction : Construction (Plan × Validator)}
    (parts : ∀ part ∈ construction.parts, Fits part.1 part.2) (lib : Library) :
    Fits (.built (construction.map Prod.fst)) ((construction.map Prod.snd).make.run lib).1 := by
  rw [Construction.make_eq]
  exact of_check (Check.built_decides fun part member => (parts part member).decides) rfl lib

/-- The required flavor shares the check and turns away null. -/
theorem required (fits : Fits plan v) : Fits (.required plan) v.required := by
  refine ⟨?_, ?_⟩
  · rw [Validator.check_required]
    intro holder prop owner location value found given
    refine (fits.check holder prop owner location value found given).congr ?_
    rw [Plan.accepts_required_iff given]
  · obtain ⟨other, flavor⟩ := fits.flavor
    by_cases optional : plan.isOptional = true
    · rw [if_pos optional] at flavor
      exact ⟨v.id, by simp [Validator.required, flavor, Plan.isOptional]⟩
    · rw [if_neg optional] at flavor
      exact ⟨other, by simp [Validator.required, flavor, Plan.isOptional]⟩

end Fits

/-- Every validator made from library leaves, constructors and required flavors fits its plan. -/
theorem Built.fits {plan : Plan} {v : Validator} (built : Built plan v) : Fits plan v := by
  induction built with
  | leaf kind => exact .leaf kind
  | extension lib name holds => exact .extension lib name holds
  | built lib parts ih => exact .built ih lib
  | required part ih => exact ih.required

/-- The verdict of a validator on a prop: accepted exactly when the table of its plan has the value
under the name, an absent value counting as null, and rejected with an error in all other cases.
Null is accepted by the optional flavor alone, and nothing but the value matters. -/
theorem validate_accepted_iff {plan : Plan} {v : Validator} (built : Built plan v)
    (holder : Record Json) (prop owner : String) (location : Location) :
    (v.validate holder prop owner location = .accepted ↔
        plan.Accepts ((Record.get? holder prop).getD .null)) ∧
      ((∃ error, v.validate holder prop owner location = .rejected error) ↔
        ¬ plan.Accepts ((Record.get? holder prop).getD .null)) ∧
      (plan.Accepts .null ↔ ∃ other, v.flavor = .optional other) ∧
      ∀ holder' prop' owner' location',
        (Record.get? holder' prop').getD .null = (Record.get? holder prop).getD .null →
        (v.validate holder' prop' owner' location' = .accepted ↔
          v.validate holder prop owner location = .accepted) := by
  have decides := built.fits.decides
  have here := decides holder prop owner location
  refine ⟨here.accepted_iff, here.rejected_iff, built.fits.accepts_null_iff, ?_⟩
  intro holder' prop' owner' location' sameValue
  have there := decides holder' prop' owner' location'
  rw [there.accepted_iff, here.accepted_iff, sameValue]

/-! ## An example -/

/-- The text `auto`, and null as well. -/
def autoPlan : Plan :=
  .built (.oneOf [.null, .string "auto"])

/-- A number or the text `auto`. -/
def cellPlan : Plan :=
  .built (.oneOfType [.leaf .number, autoPlan])

/-- A required list of cells. -/
def cellsPlan : Plan :=
  .required (.built (.arrayOf cellPlan))

/-- Makes the validator of `cellsPlan`. -/
def cells : StateM Library Validator := do
  let auto ← Library.oneOf [.null, .string "auto"]
  let cell ← Library.oneOfType [Library.fresh.standard .number, auto]
  let list ← Library.arrayOf cell
  pure list.required

theorem cells_built (lib : Library) : Built cellsPlan (cells.run lib).1 := by
  have auto : Built autoPlan ((Library.oneOf [.null, .string "auto"]).run lib).1 :=
    @Built.built lib (.oneOf _) nofun
  refine .required (@Built.built _ (.arrayOf (_, _)) (List.forall_mem_singleton.2 ?_))
  exact @Built.built _ (.oneOfType [(_, _), (_, _)])
    (List.forall_mem_cons.2 ⟨.leaf .number, List.forall_mem_singleton.2 auto⟩)

/-- A null item is accepted, a missing list is not. -/
theorem validate_cells :
    cellsPlan.Accepts (.array [.ofNat 3, .null, .string "auto"]) ∧ ¬ cellsPlan.Accepts .null := by
  have given := validate_accepted_iff (cells_built .fresh)
    [("rows", .array [.ofNat 3, .null, .string "auto"])] "rows" "Table" .prop
  have absent := validate_accepted_iff (cells_built .fresh) [] "rows" "Table" .prop
  exact ⟨given.1.1 rfl, absent.2.1.1 ⟨_, rfl⟩⟩

end PropSandbox

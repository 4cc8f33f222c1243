import PropSandbox.Library

/-!
# Plans

A plan tells how a validator was made: it is a leaf, a construction from parts, or the required
flavor of another validator. The values a validator is meant to accept are read off its plan by a
table (`Accepts`) that knows of no checks, holders, names or identities.
-/

namespace PropSandbox

/-! ## Values of leaves -/

namespace Marker

/-- The markers of callbacks. -/
def Callback (value : Json) : Prop :=
  ∃ name, value = callback name

/-- The markers of elements. -/
def Element (value : Json) : Prop :=
  ∃ members tag, value = .object members ∧ Record.get? members "$element" = some (.string tag)

/-- The markers of instances of a class. -/
def Instance (className : String) (value : Json) : Prop :=
  ∃ members, value = .object members ∧
    Record.get? members "$instance" = some (.string className)

/-- The values that can be shown as a child. -/
inductive Node : Json → Prop where
  | null : Node .null
  | number (n : Number) : Node (.number n)
  | string (s : String) : Node (.string s)
  | false : Node (.bool false)
  | array {items : List Json} (each : ∀ item ∈ items, Node item) : Node (.array items)
  | element {value : Json} (marked : Element value) : Node value

end Marker

/-- The values of a standard leaf. -/
inductive LeafKind.Holds : LeafKind → Json → Prop where
  | string (s : String) : Holds .string (.string s)
  | number (n : Number) : Holds .number (.number n)
  | bool (b : Bool) : Holds .bool (.bool b)
  | array (items : List Json) : Holds .array (.array items)
  | object {members : List (String × Json)} (plain : ¬ Marker.Callback (.object members)) :
      Holds .object (.object members)
  | func {value : Json} (marked : Marker.Callback value) : Holds .func value
  | any (value : Json) : Holds .any value
  | node {value : Json} (shown : Marker.Node value) : Holds .node value
  | element {value : Json} (marked : Marker.Element value) : Holds .element value

/-! ## Constructions -/

/-- A call of one of the six constructors, with parts of some type. -/
inductive Construction (α : Type) where
  | shape (fields : List (String × α))
  | arrayOf (item : α)
  | objectOf (value : α)
  | instanceOf (className : String)
  | oneOf (choices : List Json)
  | oneOfType (candidates : List α)

namespace Construction

variable {α β : Type}

/-- Changes the parts of a construction and keeps its form. -/
def map (f : α → β) : Construction α → Construction β
  | .shape fields => .shape (Record.mapValues f fields)
  | .arrayOf item => .arrayOf (f item)
  | .objectOf value => .objectOf (f value)
  | .instanceOf className => .instanceOf className
  | .oneOf choices => .oneOf choices
  | .oneOfType candidates => .oneOfType (candidates.map f)

/-- All parts of a construction, in order. -/
def parts : Construction α → List α
  | .shape fields => fields.map Prod.snd
  | .arrayOf item => [item]
  | .objectOf value => [value]
  | .oneOfType candidates => candidates
  | _ => []

/-- The kind of what is built. -/
def kind : Construction α → BuiltKind
  | .shape _ => .shape
  | .arrayOf _ => .arrayOf
  | .objectOf _ => .objectOf
  | .instanceOf _ => .instanceOf
  | .oneOf _ => .oneOf
  | .oneOfType _ => .oneOfType

/-- The argument that is recorded; of two fields with one name the later one counts. -/
def argument : Construction α → Argument α
  | .shape fields => .fields (Record.ofList fields)
  | .arrayOf item => .element item
  | .objectOf value => .element value
  | .instanceOf className => .className className
  | .oneOf choices => .choices choices
  | .oneOfType candidates => .candidates candidates

/-- The check of what is built. -/
def check : Construction Validator → Check
  | .shape fields => Check.shape (Record.ofList fields)
  | .arrayOf item => Check.arrayOf item
  | .objectOf value => Check.objectOf value
  | .instanceOf className => Check.instanceOf className
  | .oneOf choices => Check.oneOf choices
  | .oneOfType candidates => Check.oneOfType candidates

/-- Calls the constructor. -/
def make : Construction Validator → StateM Library Validator
  | .shape fields => Library.shape fields
  | .arrayOf item => Library.arrayOf item
  | .objectOf value => Library.objectOf value
  | .instanceOf className => Library.instanceOf className
  | .oneOf choices => Library.oneOf choices
  | .oneOfType candidates => Library.oneOfType candidates

/-- The six constructors differ in kind, argument and check only. -/
theorem make_eq (construction : Construction Validator) :
    construction.make =
      Library.construct construction.kind construction.argument construction.check := by
  cases construction <;> rfl

@[simp] theorem kind_map (f : α → β) (construction : Construction α) :
    (construction.map f).kind = construction.kind := by
  cases construction <;> rfl

theorem parts_map (f : α → β) (construction : Construction α) :
    (construction.map f).parts = construction.parts.map f := by
  cases construction with
  | shape fields => simp [map, parts, Record.mapValues, Function.comp_def]
  | _ => rfl

theorem argument_map (f : α → β) (construction : Construction α) :
    (construction.map f).argument = construction.argument.map f := by
  cases construction with
  | shape fields => simp [map, argument, Argument.map, Record.mapValues_ofList]
  | _ => rfl

/-- The recorded argument has no parts but those of the construction. -/
theorem mem_parts_of_argument {construction : Construction α} {part : α}
    (member : part ∈ construction.argument.parts) : part ∈ construction.parts := by
  cases construction with
  | shape fields =>
    obtain ⟨entry, inRecord, rfl⟩ := List.mem_map.1 member
    exact List.mem_map_of_mem (Record.mem_ofList inRecord)
  | instanceOf | oneOf => simp [argument, Argument.parts] at member
  | _ => exact member

end Construction

/-! ## Plans and what they accept -/

/-- How a validator was made. -/
inductive Plan where
  | leaf (kind : LeafKind)
  | extension (name : String) (holds : Json → Bool)
  | custom (check : Check)
  | built (construction : Construction Plan)
  | required (plan : Plan)

namespace Plan

/-- Whether the validator of a plan is the optional flavor of a library validator. -/
def isOptional : Plan → Bool
  | .leaf _ => true
  | .extension _ _ => true
  | .built _ => true
  | _ => false

/-- The table of accepted values. Null is accepted by the optional flavor and by nothing else; an
absent field of a shape counts as null. -/
inductive Accepts : Plan → Json → Prop where
  | null {plan : Plan} (optional : plan.isOptional = true) : Accepts plan .null
  | leaf {kind : LeafKind} {value : Json} (given : value ≠ .null) (holds : kind.Holds value) :
      Accepts (.leaf kind) value
  | extension {name : String} {holds : Json → Bool} {value : Json} (given : value ≠ .null)
      (held : holds value = true) : Accepts (.extension name holds) value
  | shape {fields : List (String × Plan)} {members : List (String × Json)}
      (each : ∀ field ∈ Record.ofList fields,
        Accepts field.2 ((Record.get? members field.1).getD .null)) :
      Accepts (.built (.shape fields)) (.object members)
  | arrayOf {item : Plan} {items : List Json} (each : ∀ value ∈ items, Accepts item value) :
      Accepts (.built (.arrayOf item)) (.array items)
  | objectOf {value : Plan} {members : List (String × Json)}
      (each : ∀ name inner, Record.get? members name = some inner → Accepts value inner) :
      Accepts (.built (.objectOf value)) (.object members)
  | instanceOf {className : String} {value : Json} (marked : Marker.Instance className value) :
      Accepts (.built (.instanceOf className)) value
  | oneOf {choices : List Json} {choice value : Json} (given : value ≠ .null)
      (listed : choice ∈ choices) (same : (choice == value) = true) :
      Accepts (.built (.oneOf choices)) value
  | oneOfType {candidates : List Plan} {candidate : Plan} {value : Json} (given : value ≠ .null)
      (listed : candidate ∈ candidates) (accepted : Accepts candidate value) :
      Accepts (.built (.oneOfType candidates)) value
  | required {plan : Plan} {value : Json} (given : value ≠ .null) (accepted : Accepts plan value) :
      Accepts (.required plan) value

/-- A plan without custom validators. -/
inductive Plain : Plan → Prop where
  | leaf (kind : LeafKind) : Plain (.leaf kind)
  | extension (name : String) (holds : Json → Bool) : Plain (.extension name holds)
  | built {construction : Construction Plan} (parts : ∀ part ∈ construction.parts, Plain part) :
      Plain (.built construction)
  | required {plan : Plan} (part : Plain plan) : Plain (.required plan)

theorem accepts_null_iff {plan : Plan} : plan.Accepts .null ↔ plan.isOptional = true := by
  constructor
  · intro accepted
    cases accepted with
    | null optional => exact optional
    | leaf given | extension given | oneOf given | oneOfType given | required given =>
      exact absurd rfl given
    | instanceOf marked =>
      obtain ⟨members, impossible, _⟩ := marked
      cases impossible
  · exact .null

/-! Whether a value that is there is accepted, by the way the plan was built. -/

variable {value : Json}

theorem accepts_leaf_iff {kind : LeafKind} (given : value ≠ .null) :
    (leaf kind).Accepts value ↔ kind.Holds value := by
  constructor
  · intro accepted
    cases accepted with
    | null => exact absurd rfl given
    | leaf _ holds => exact holds
  · exact .leaf given

theorem accepts_extension_iff {name : String} {holds : Json → Bool} (given : value ≠ .null) :
    (extension name holds).Accepts value ↔ holds value = true := by
  constructor
  · intro accepted
    cases accepted with
    | null => exact absurd rfl given
    | extension _ held => exact held
  · exact .extension given

theorem accepts_shape_iff {fields : List (String × Plan)} (given : value ≠ .null) :
    (built (.shape fields)).Accepts value ↔ ∃ members, value = .object members ∧
      ∀ field ∈ Record.ofList fields,
        field.2.Accepts ((Record.get? members field.1).getD .null) := by
  constructor
  · intro accepted
    cases accepted with
    | null => exact absurd rfl given
    | shape each => exact ⟨_, rfl, each⟩
  · rintro ⟨members, rfl, each⟩
    exact .shape each

theorem accepts_arrayOf_iff {item : Plan} (given : value ≠ .null) :
    (built (.arrayOf item)).Accepts value ↔
      ∃ items, value = .array items ∧ ∀ entry ∈ items, item.Accepts entry := by
  constructor
  · intro accepted
    cases accepted with
    | null => exact absurd rfl given
    | arrayOf each => exact ⟨_, rfl, each⟩
  · rintro ⟨items, rfl, each⟩
    exact .arrayOf each

theorem accepts_objectOf_iff {part : Plan} (given : value ≠ .null) :
    (built (.objectOf part)).Accepts value ↔ ∃ members, value = .object members ∧
      ∀ name inner, Record.get? members name = some inner → part.Accepts inner := by
  constructor
  · intro accepted
    cases accepted with
    | null => exact absurd rfl given
    | objectOf each => exact ⟨_, rfl, each⟩
  · rintro ⟨members, rfl, each⟩
    exact .objectOf each

theorem accepts_instanceOf_iff {className : String} (given : value ≠ .null) :
    (built (.instanceOf className)).Accepts value ↔ Marker.Instance className value := by
  constructor
  · intro accepted
    cases accepted with
    | null => exact absurd rfl given
    | instanceOf marked => exact marked
  · exact .instanceOf

theorem accepts_oneOf_iff {choices : List Json} (given : value ≠ .null) :
    (built (.oneOf choices)).Accepts value ↔ ∃ choice ∈ choices, (choice == value) = true := by
  constructor
  · intro accepted
    cases accepted with
    | null => exact absurd rfl given
    | oneOf _ listed same => exact ⟨_, listed, same⟩
  · rintro ⟨choice, listed, same⟩
    exact .oneOf given listed same

theorem accepts_oneOfType_iff {candidates : List Plan} (given : value ≠ .null) :
    (built (.oneOfType candidates)).Accepts value ↔
      ∃ candidate ∈ candidates, candidate.Accepts value := by
  constructor
  · intro accepted
    cases accepted with
    | null => exact absurd rfl given
    | oneOfType _ listed accepted => exact ⟨_, listed, accepted⟩
  · rintro ⟨candidate, listed, accepted⟩
    exact .oneOfType given listed accepted

theorem accepts_required_iff {plan : Plan} (given : value ≠ .null) :
    (required plan).Accepts value ↔ plan.Accepts value := by
  constructor
  · intro accepted
    cases accepted with
    | null impossible => cases impossible
    | required _ accepted => exact accepted
  · exact .required given

end Plan

/-! ## Making validators -/

/-- The validators made from library leaves, constructors and required flavors, each with its
plan. Every call may go to a library of its own. -/
inductive Built : Plan → Validator → Prop where
  | leaf (kind : LeafKind) : Built (.leaf kind) (Library.fresh.standard kind)
  | extension (lib : Library) (name : String) (holds : Json → Bool) :
      Built (.extension name holds) ((Library.defineLeaf name holds).run lib).1
  | built (lib : Library) {construction : Construction (Plan × Validator)}
      (parts : ∀ part ∈ construction.parts, Built part.1 part.2) :
      Built (.built (construction.map Prod.fst)) ((construction.map Prod.snd).make.run lib).1
  | required {plan : Plan} {v : Validator} (part : Built plan v) :
      Built (.required plan) v.required

end PropSandbox

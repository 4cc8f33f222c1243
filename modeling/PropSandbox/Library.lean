import PropSandbox.Validator

/-!
# The validator library

A library is the vocabulary that components declare their inputs with: standard leaves, extension
leaves, and constructors that build validators from arguments. A validator does not show how it
was built, so an instrumented library keeps a table beside the validators: for both flavors of
each, its kind, its flavor and its arguments. The first instrumentation records the leaves known
at that moment; after it every new leaf and every constructor call is recorded as it happens.
Validation is never changed by it.
-/

namespace PropSandbox

/-- The argument a validator was built from, with parts of some type. -/
inductive Argument (α : Type) where
  /-- The item of a list or the value of a map. -/
  | element (part : α)
  /-- The candidates of a union. -/
  | candidates (parts : List α)
  /-- The fields of a shape. -/
  | fields (parts : List (String × α))
  /-- The literals of an enumeration. -/
  | choices (values : List Json)
  /-- The class of an instance. -/
  | className (name : String)

namespace Argument

variable {α β : Type}

/-- Changes the parts of an argument and keeps its form. -/
def map (f : α → β) : Argument α → Argument β
  | .element part => .element (f part)
  | .candidates parts => .candidates (parts.map f)
  | .fields parts => .fields (Record.mapValues f parts)
  | .choices values => .choices values
  | .className name => .className name

/-- All parts of an argument, in order. -/
def parts : Argument α → List α
  | .element part => [part]
  | .candidates parts => parts
  | .fields parts => parts.map Prod.snd
  | _ => []

end Argument

/-- What the table records about one flavor of a validator. -/
structure Metadata where
  kind : Kind
  required : Bool
  /-- Leaves have none. -/
  argument : Option (Argument Validator)

/-- The recorded metadata, latest first. -/
abbrev MetadataTable := List (ValidatorId × Metadata)

namespace MetadataTable

def get? (table : MetadataTable) (id : ValidatorId) : Option Metadata :=
  table.lookup id

/-- Records metadata, in place of what was recorded under the identity before. -/
def attach (table : MetadataTable) (id : ValidatorId) (metadata : Metadata) : MetadataTable :=
  (id, metadata) :: table.filter fun entry => entry.1 != id

/-- Records both flavors of a library validator. -/
def record (table : MetadataTable) (v : Validator) (kind : Kind)
    (argument : Option (Argument Validator)) : MetadataTable :=
  (table.attach v.id ⟨kind, false, argument⟩).attach v.required.id ⟨kind, true, argument⟩

@[simp] theorem get?_attach_self (table : MetadataTable) (id : ValidatorId) (metadata : Metadata) :
    (table.attach id metadata).get? id = some metadata := by
  simp [attach, get?]

theorem get?_attach_of_ne (table : MetadataTable) {id other : ValidatorId} (metadata : Metadata)
    (h : other ≠ id) : (table.attach id metadata).get? other = table.get? other := by
  simp only [attach, get?, List.lookup_cons, beq_eq_false_iff_ne.2 h]
  induction table with
  | nil => rfl
  | cons entry rest ih =>
    obtain ⟨known, old⟩ := entry
    by_cases same : known = id
    · simp [List.lookup_cons, same, beq_eq_false_iff_ne.2 h, ih]
    · simp [List.lookup_cons, same, ih]

theorem get?_record_of_ne (table : MetadataTable) {v : Validator} {id : ValidatorId} (kind : Kind)
    (argument : Option (Argument Validator)) (h : id ≠ v.id) (h' : id ≠ v.required.id) :
    (table.record v kind argument).get? id = table.get? id := by
  rw [record, get?_attach_of_ne _ _ h', get?_attach_of_ne _ _ h]

end MetadataTable

/-- A library: its leaves, the table, whether it is instrumented, and the next free identity. -/
structure Library where
  standard : LeafKind → Validator
  extensions : Record Validator
  table : MetadataTable
  instrumented : Bool
  next : Nat

namespace Library

/-- The place of a standard leaf in the vocabulary. -/
def leafPlace : LeafKind → Nat
  | .string => 0
  | .number => 1
  | .bool => 2
  | .array => 3
  | .object => 4
  | .func => 5
  | .any => 6
  | .node => 7
  | .element => 8

/-- A fresh library, not instrumented, with the standard leaves in their optional flavor. -/
def fresh : Library where
  standard kind :=
    { id := ⟨2 * leafPlace kind⟩
      flavor := .optional ⟨2 * leafPlace kind + 1⟩
      check := Check.leaf kind }
  extensions := []
  table := []
  instrumented := false
  next := 18

/-- The leaf of a kind, in its optional flavor. -/
def leaf? (lib : Library) : Kind → Option Validator
  | .leaf kind => some (lib.standard kind)
  | .extension name => Record.get? lib.extensions name
  | .built _ => none

/-- Every leaf with its kind: the standard ones, then the extensions by name. -/
def leaves (lib : Library) : List (Kind × Validator) :=
  LeafKind.all.map (fun kind => (.leaf kind, lib.standard kind))
    ++ lib.extensions.map fun entry => (.extension entry.1, entry.2)

def metadata? (lib : Library) (v : Validator) : Option Metadata :=
  lib.table.get? v.id

/-- A new library validator with a check, in its optional flavor. It takes two identities. -/
def chainable (check : Check) : StateM Library Validator := fun lib =>
  ({ id := ⟨lib.next⟩, flavor := .optional ⟨lib.next + 1⟩, check },
   { lib with next := lib.next + 2 })

/-- A new custom validator. Nothing is ever recorded about it. -/
def custom (check : Check) : StateM Library Validator := fun lib =>
  ({ id := ⟨lib.next⟩, flavor := .custom, check }, { lib with next := lib.next + 1 })

/-- Records a validator if the library is instrumented. -/
def noted (lib : Library) (v : Validator) (kind : Kind) (argument : Option (Argument Validator)) :
    Library :=
  if lib.instrumented then { lib with table := lib.table.record v kind argument } else lib

/-- Defines a leaf that accepts the values with a property, in place of an extension of the same
name. -/
def defineLeaf (name : String) (accepts : Json → Bool) : StateM Library Validator := fun lib =>
  let (v, lib) := chainable (Check.ofType s!"`{name}`" accepts) lib
  let lib := lib.noted v (.extension name) none
  (v, { lib with extensions := Record.insert lib.extensions name v })

def construct (kind : BuiltKind) (argument : Argument Validator) (check : Check) :
    StateM Library Validator := fun lib =>
  let (v, lib) := chainable check lib
  (v, lib.noted v (.built kind) (some argument))

/-- An object with the given fields; of two fields with one name the later one counts. -/
def shape (fields : List (String × Validator)) : StateM Library Validator :=
  let declared := Record.ofList fields
  construct .shape (.fields declared) (Check.shape declared)

def arrayOf (item : Validator) : StateM Library Validator :=
  construct .arrayOf (.element item) (Check.arrayOf item)

/-- An object with any names and values of one type. -/
def objectOf (value : Validator) : StateM Library Validator :=
  construct .objectOf (.element value) (Check.objectOf value)

def instanceOf (className : String) : StateM Library Validator :=
  construct .instanceOf (.className className) (Check.instanceOf className)

def oneOf (choices : List Json) : StateM Library Validator :=
  construct .oneOf (.choices choices) (Check.oneOf choices)

def oneOfType (candidates : List Validator) : StateM Library Validator :=
  construct .oneOfType (.candidates candidates) (Check.oneOfType candidates)

/-- Records every leaf and starts recording. A library is instrumented once; the answer tells
whether this was the time. -/
def instrument : StateM Library Bool := fun lib =>
  if lib.instrumented then (false, lib)
  else
    let table := lib.leaves.foldl (fun table entry => table.record entry.2 entry.1 none) lib.table
    (true, { lib with table, instrumented := true })

/-- The number of entries in the table. -/
def size (lib : Library) : Nat :=
  lib.table.length

end Library

end PropSandbox

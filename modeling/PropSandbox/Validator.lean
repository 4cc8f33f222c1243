import PropSandbox.Json.Text
import PropSandbox.Kind
import PropSandbox.Marker
import PropSandbox.PropError

/-!
# Validators

A validator can only say whether the value under a name of a record is valid. Library validators
come in two flavors that share one check: the optional flavor accepts an absent or null value, the
required flavor reports it, and the check sees only values that are there. A custom validator is a
bare function and sees everything. Each validator has an identity, and so has its other flavor.
-/

namespace PropSandbox

/-- The identity of a validator. -/
structure ValidatorId where
  number : Nat
  deriving DecidableEq, Repr

/-- A check of the value under a name: the record, the name, the label of the owner, and where the
record came from. -/
abbrev Check := Record Json → String → String → Location → Verdict

/-- The flavor of a validator; library validators know the identity of the other flavor. -/
inductive Flavor where
  | optional (other : ValidatorId)
  | required (other : ValidatorId)
  | custom
  deriving DecidableEq, Repr

/-- A prop validator. -/
structure Validator where
  id : ValidatorId
  flavor : Flavor
  check : Check

namespace Validator

/-- Whether this is the required flavor of a library validator. -/
def requiresValue (v : Validator) : Bool :=
  match v.flavor with
  | .required _ => true
  | _ => false

def isCustom (v : Validator) : Bool :=
  match v.flavor with
  | .custom => true
  | _ => false

/-- The required flavor; a required or custom validator is its own. -/
def required (v : Validator) : Validator :=
  match v.flavor with
  | .optional other => { v with id := other, flavor := .required v.id }
  | _ => v

def validate (v : Validator) (holder : Record Json) (prop owner : String) (location : Location) :
    Verdict :=
  match v.flavor with
  | .custom => v.check holder prop owner location
  | .optional _ =>
    match Record.get? holder prop with
    | none | some .null => .accepted
    | some _ => v.check holder prop owner location
  | .required _ =>
    match Record.get? holder prop with
    | none | some .null => .rejected (.missing location prop owner)
    | some _ => v.check holder prop owner location

/-- Checks a bare value, as the only member of a record. -/
def checkValue (v : Validator) (value : Json) (prop owner : String) : Verdict :=
  v.validate [(prop, value)] prop owner .prop

/-- Validators are the same when their identities are. -/
def same (v w : Validator) : Bool :=
  v.id == w.id

end Validator

namespace Check

/-- Rejects a value of the wrong type. -/
def wrongType (value : Json) (prop owner : String) (location : Location) (expected : String) :
    Verdict :=
  .rejected (.invalid location prop owner (Marker.typeName value) expected)

/-- The check of a leaf: the value has a property. -/
def ofType (expected : String) (accepts : Json → Bool) : Check :=
  fun holder prop owner location =>
    let value := (Record.get? holder prop).getD .null
    if accepts value then .accepted else wrongType value prop owner location expected

/-- Checks declared fields in the order of their names, up to the first that fails. -/
def fields (members : Record Json) (prop owner : String) (location : Location) :
    Record Validator → Verdict
  | [] => .accepted
  | (name, v) :: rest =>
    ((v.validate members name owner location).mapError (PropError.withinField prop)).andThen
      (fields members prop owner location rest)

/-- The check of a shape: an object whose declared fields are valid. Other members are allowed. -/
def shape (declared : Record Validator) : Check :=
  fun holder prop owner location =>
    match (Record.get? holder prop).getD .null with
    | .object members => fields members prop owner location declared
    | value => wrongType value prop owner location "`object`"

/-- Checks the items of a list in order, from an index on, up to the first that fails. -/
def items (v : Validator) (prop owner : String) (location : Location) : Nat → List Json → Verdict
  | _, [] => .accepted
  | index, item :: rest =>
    let name := toString index
    ((v.validate [(name, item)] name owner location).mapError
        (PropError.withinItem prop index)).andThen
      (items v prop owner location (index + 1) rest)

/-- The check of a list whose items are all valid. -/
def arrayOf (item : Validator) : Check :=
  fun holder prop owner location =>
    match (Record.get? holder prop).getD .null with
    | .array entries => items item prop owner location 0 entries
    | value => wrongType value prop owner location "an array"

/-- Checks the members with given names in order, up to the first that fails. -/
def members (v : Validator) (entries : Record Json) (prop owner : String) (location : Location) :
    List String → Verdict
  | [] => .accepted
  | name :: rest =>
    ((v.validate entries name owner location).mapError (PropError.withinField prop)).andThen
      (members v entries prop owner location rest)

/-- The check of an object whose members are all valid. -/
def objectOf (value : Validator) : Check :=
  fun holder prop owner location =>
    match (Record.get? holder prop).getD .null with
    | .object entries => members value entries prop owner location (Record.keys entries)
    | found => wrongType found prop owner location "an object"

/-- The check of an instance of a class. -/
def instanceOf (className : String) : Check :=
  ofType s!"instance of `{className}`" fun value =>
    Marker.instanceClass? value == some className

/-- The check of a literal out of a list. -/
def oneOf (choices : List Json) : Check :=
  ofType ("one of " ++ (Json.array choices).compact) fun value => choices.any fun c => c == value

/-- Looks for a candidate that accepts. -/
def candidates (holder : Record Json) (prop owner : String) (location : Location) :
    List Validator → Verdict
  | [] =>
    wrongType ((Record.get? holder prop).getD .null) prop owner location
      "one of the accepted types"
  | v :: rest =>
    match v.validate holder prop owner location with
    | .rejected _ => candidates holder prop owner location rest
    | verdict => verdict

/-- The check of a union: some candidate accepts. -/
def oneOfType (choices : List Validator) : Check :=
  fun holder prop owner location => candidates holder prop owner location choices

/-- What messages call a standard leaf. -/
def leafText : LeafKind → String
  | .string => "`string`"
  | .number => "`number`"
  | .bool => "`boolean`"
  | .array => "`array`"
  | .object => "`object`"
  | .func => "`function`"
  | .any => "`any`"
  | .node => "`a renderable node`"
  | .element => "`a single element`"

def leafAccepts : LeafKind → Json → Bool
  | .string, .string _ => true
  | .number, .number _ => true
  | .bool, .bool _ => true
  | .array, .array _ => true
  | .object, .object members => !Marker.isCallback (.object members)
  | .func, value => Marker.isCallback value
  | .any, _ => true
  | .node, value => Marker.isNode value
  | .element, value => Marker.isElement value
  | _, _ => false

def leaf (kind : LeafKind) : Check :=
  ofType (leafText kind) (leafAccepts kind)

end Check

end PropSandbox

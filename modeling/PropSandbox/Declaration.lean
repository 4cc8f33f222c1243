import PropSandbox.Library
import PropSandbox.SandboxError

/-!
# Declarations

A declaration is the type of a prop as a component file writes it. The short form names a leaf,
`string` or `string.isRequired`; the full form names any type, with the members its type needs:

    { type: arrayOf, of: number, required: true }

Standard names may be written in any case. Building a declaration makes its validator through the
constructors of a library, parts before wholes; the first fault found in that order is reported,
under the prop's name extended by the path to the faulty part.
-/

namespace PropSandbox

/-- The full form of a declaration, with parts of some type. Members that do not belong to the type
are carried along and ignored. -/
structure FullDeclaration (α : Type) where
  type : String
  required : Bool
  /-- The item type of a list, the value type of a map. -/
  element : Option α
  /-- The field types of a shape. -/
  fields : Option (List (String × α))
  /-- The literals of an enumeration. -/
  values : Option (List Json)
  /-- The candidates of a union. -/
  types : Option (List α)
  /-- The class of an instance. -/
  className : Option String

/-- The declared type of a prop. -/
inductive Declaration where
  | short (text : String)
  | full (form : FullDeclaration Declaration)

/-- Building may fail, and the library keeps what was built before the fault. -/
abbrev Building := ExceptT SandboxError (StateM Library)

namespace Declaration

/-- What a short form ends in when a value is required. -/
def requiredEnding : List Char :=
  ".isRequired".toList

/-- The leaf name of a short form, and whether a value is required. -/
def shortParts (text : String) : String × Bool :=
  let cs := text.toList
  if requiredEnding.isSuffixOf cs then
    (String.ofList (cs.take (cs.length - requiredEnding.length)), true)
  else (text, false)

/-- Reports a fault of the declaration at a prop path. -/
def fault {α : Type} (prop : String) (fault : DeclarationFault) : Building α :=
  throw (.invalidDeclaration prop fault)

def flavored (v : Validator) (required : Bool) : Validator :=
  if required then v.required else v

def leaf (kind : Kind) (prop : String) (otherwise : DeclarationFault) : Building Validator := do
  let lib ← get
  match lib.leaf? kind with
  | some v => pure v
  | none => fault prop otherwise

def fieldPath (prop name : String) : String := prop ++ "." ++ name

/-- The path of the items of a list or the values of a map. -/
def elementPath (prop : String) : String := prop ++ "[]"

/-- The path of a candidate. -/
def candidatePath (prop : String) (index : Nat) : String := prop ++ "[" ++ toString index ++ "]"

mutual

/-- Builds the validator of the declaration at a prop path. -/
def build (prop : String) : Declaration → Building Validator
  | .short text => do
    let (name, required) := shortParts text
    let v ← leaf (Kind.ofDeclaredName name) prop (.notALeaf name)
    pure (flavored v required)
  | .full form => buildFull prop form
termination_by structural d => d

def buildFull (prop : String) : FullDeclaration Declaration → Building Validator
  | ⟨type, required, element, fields, values, types, className⟩ => do
    let v ← match Kind.ofDeclaredName type with
      | .built .arrayOf => do Library.arrayOf (← buildElement prop type element)
      | .built .objectOf => do Library.objectOf (← buildElement prop type element)
      | .built .shape => do Library.shape (← buildFields prop fields)
      | .built .oneOf =>
        match values with
        | some values => Library.oneOf values
        | none => fault prop (.lacks "oneOf" "values")
      | .built .oneOfType => do Library.oneOfType (← buildTypes prop types)
      | .built .instanceOf =>
        match className with
        | some name => Library.instanceOf name
        | none => fault prop (.lacks "instanceOf" "class")
      | kind => leaf kind prop (.unknownType type)
    pure (flavored v required)
termination_by structural form => form

def buildElement (prop type : String) : Option Declaration → Building Validator
  | some d => build (elementPath prop) d
  | none => fault prop (.lacks type "of")
termination_by structural d => d

def buildFields (prop : String) :
    Option (List (String × Declaration)) → Building (List (String × Validator))
  | some fields => buildEachField prop fields
  | none => fault prop (.lacks "shape" "fields")
termination_by structural fields => fields

def buildEachField (prop : String) :
    List (String × Declaration) → Building (List (String × Validator))
  | [] => pure []
  | (name, d) :: rest => do
    let v ← build (fieldPath prop name) d
    let others ← buildEachField prop rest
    pure ((name, v) :: others)
termination_by structural fields => fields

def buildTypes (prop : String) : Option (List Declaration) → Building (List Validator)
  | some types => buildEachType prop 0 types
  | none => fault prop (.lacks "oneOfType" "types")
termination_by structural types => types

def buildEachType (prop : String) : Nat → List Declaration → Building (List Validator)
  | _, [] => pure []
  | index, d :: rest => do
    let v ← build (candidatePath prop index) d
    let others ← buildEachType prop (index + 1) rest
    pure (v :: others)
termination_by structural _ types => types

end

/-! ## The JSON form -/

mutual

/-- The JSON form of a declaration. Absent members are left out. -/
def toJson : Declaration → Json
  | .short text => .string text
  | .full form => .object (fullToJson form)
termination_by structural d => d

def fullToJson : FullDeclaration Declaration → List (String × Json)
  | ⟨type, required, element, fields, values, types, className⟩ =>
    [("type", .string type), ("required", .bool required)]
      ++ elementToJson element ++ fieldsToJson fields
      ++ (values.map fun values => ("values", .array values)).toList
      ++ typesToJson types
      ++ (className.map fun name => ("class", .string name)).toList
termination_by structural form => form

def elementToJson : Option Declaration → List (String × Json)
  | some d => [("of", toJson d)]
  | none => []
termination_by structural d => d

def fieldsToJson : Option (List (String × Declaration)) → List (String × Json)
  | some fields => [("fields", .object (eachFieldToJson fields))]
  | none => []
termination_by structural fields => fields

def eachFieldToJson : List (String × Declaration) → List (String × Json)
  | [] => []
  | (name, d) :: rest => (name, toJson d) :: eachFieldToJson rest
termination_by structural fields => fields

def typesToJson : Option (List Declaration) → List (String × Json)
  | some types => [("types", .array (eachTypeToJson types))]
  | none => []
termination_by structural types => types

def eachTypeToJson : List Declaration → List Json
  | [] => []
  | d :: rest => toJson d :: eachTypeToJson rest
termination_by structural types => types

end

end Declaration

end PropSandbox

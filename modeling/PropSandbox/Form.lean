import PropSandbox.Generation
import PropSandbox.Script

/-!
# Forms

A form shows an instance of a component as a tree of views: one for each declared prop, and below
the views of lists and records one for each item and field. A view knows the cursor of its value,
whether its type's validator accepts the value, and how it can be edited.
-/

namespace PropSandbox

/-- How a value is edited, with nested views of some type. -/
inductive Affordance (α : Type) where
  | text
  | checkbox
  | number
  | select (options : List Json)
  | list (items : List α)
  | record (fields : List α)
  /-- A read-only literal, for types without an input. -/
  | raw (literal : String)

/-- The view of one value. -/
structure FieldView where
  label : String
  cursor : Cursor
  value : Json
  required : Bool
  verdict : Verdict
  affordance : Affordance FieldView

namespace FieldView

def valid (view : FieldView) : Bool :=
  view.verdict.isAccepted

def nested (view : FieldView) : List FieldView :=
  match view.affordance with
  | .list items => items
  | .record fields => fields
  | _ => []

/-! ## Building views -/

mutual

/-- The view of a value of a type, under a label and at a cursor. -/
def ofType (label : String) (value : Json) (cursor : Cursor) : PropType → FieldView
  | .known leaf =>
    { label, value, cursor
      required := leaf.required
      verdict := leaf.validator.checkValue value "value" "sandbox"
      affordance := ofLeaf label value cursor leaf }
  | .unknown v =>
    { label, value, cursor
      required := v.requiresValue
      verdict := v.checkValue value "value" "sandbox"
      affordance := .raw value.script }
termination_by structural t => t

/-- How a value of a described type is edited. -/
def ofLeaf (label : String) (value : Json) (cursor : Cursor) :
    Described PropType → Affordance FieldView
  | ⟨kind, _, arguments, _⟩ => ofArguments label value cursor kind arguments
termination_by structural leaf => leaf

/-- How a value of a kind with these arguments is edited. -/
def ofArguments (label : String) (value : Json) (cursor : Cursor) (kind : Kind) :
    Option (List (Argument PropType)) → Affordance FieldView
  | none => plain value kind []
  | some arguments => ofFirst label value cursor kind arguments
termination_by structural arguments => arguments

/-- How a value is edited by the first argument of its kind. -/
def ofFirst (label : String) (value : Json) (cursor : Cursor) (kind : Kind) :
    List (Argument PropType) → Affordance FieldView
  | [] => plain value kind []
  | argument :: _ => ofArgument label value cursor kind argument
termination_by structural arguments => arguments

/-- How a value of a kind with an argument is edited. A list without an item type and a record
without fields have no input. -/
def ofArgument (label : String) (value : Json) (cursor : Cursor) (kind : Kind) :
    Argument PropType → Affordance FieldView
  | .element t =>
    match kind with
    | .built .arrayOf =>
      .list <| (value.items?.getD []).mapIdx fun i item =>
        ofType (label ++ "[" ++ toString i ++ "]") item (cursor.child (.index i)) t
    | kind => plain value kind []
  | .fields ts =>
    match kind with
    | .built .shape => .record (ofFields label value cursor ts)
    | kind => plain value kind []
  | .choices options => plain value kind options
  | .candidates _ => plain value kind []
  | .className _ => plain value kind []
termination_by structural argument => argument

/-- The views of the fields of a record. A field the value does not have shows null. -/
def ofFields (label : String) (value : Json) (cursor : Cursor) :
    List (String × PropType) → List FieldView
  | [] => []
  | (name, t) :: ts =>
    ofType (label ++ "." ++ name) ((value.member? name).getD .null) (cursor.child (.key name)) t
      :: ofFields label value cursor ts
termination_by structural ts => ts

/-- How a value without nested views is edited. -/
def plain (value : Json) (kind : Kind) (options : List Json) : Affordance FieldView :=
  match kind with
  | .leaf .string => .text
  | .leaf .node => .text
  | .leaf .element => .text
  | .leaf .bool => .checkbox
  | .leaf .number => .number
  | .built .oneOf => .select options
  | _ => .raw value.script

end

/-! ## Giving up -/

mutual

/-- The text with which some validator gave up while a view was built: nested views come first. -/
def abort? : FieldView → Option String
  | ⟨_, _, _, _, verdict, affordance⟩ => abortWithin? affordance <|> verdict.abort?
termination_by structural view => view

def abortWithin? : Affordance FieldView → Option String
  | .list items => abortAmong? items
  | .record fields => abortAmong? fields
  | _ => none
termination_by structural affordance => affordance

def abortAmong? : List FieldView → Option String
  | [] => none
  | view :: views => abort? view <|> abortAmong? views
termination_by structural views => views

end

/-! ## The JSON form -/

mutual

def toJson : FieldView → Json
  | ⟨label, cursor, value, required, verdict, affordance⟩ =>
    .object
      [("label", .string label), ("cursor", cursor.toJson), ("value", value),
       ("required", .bool required), ("nullable", .bool !required),
       ("is_null", .bool value.isNull), ("valid", .bool verdict.isAccepted),
       ("affordance", .object (affordanceToJson affordance))]
termination_by structural view => view

def affordanceToJson : Affordance FieldView → List (String × Json)
  | .text => [("type", .string "text")]
  | .checkbox => [("type", .string "checkbox")]
  | .number => [("type", .string "number")]
  | .select options => [("type", .string "select"), ("options", .array options)]
  | .list items => [("type", .string "list"), ("items", .array (allToJson items))]
  | .record fields => [("type", .string "record"), ("fields", .array (allToJson fields))]
  | .raw literal => [("type", .string "raw"), ("dump", .string literal)]
termination_by structural affordance => affordance

def allToJson : List FieldView → List Json
  | [] => []
  | view :: views => toJson view :: allToJson views
termination_by structural views => views

end

end FieldView

/-- The views of all declared props of an instance, with cursors below a base. -/
def PropTypes.form (types : PropTypes) (instanceValue : Json) (base : Cursor) : List FieldView :=
  types.map fun entry =>
    FieldView.ofType entry.1 ((instanceValue.member? entry.1).getD .null)
      (base.child (.key entry.1)) entry.2

end PropSandbox

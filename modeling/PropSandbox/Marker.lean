import PropSandbox.Json

/-!
# Markers

Callbacks, elements and class instances have no JSON form. A fixture holds an object in their
place, marked by a member that names it:

    { "$fn": "onClick" }
    { "$element": "div", "props": {} }
    { "$instance": "Date" }

A callback marker has no other member; the other two may have any.
-/

namespace PropSandbox

namespace Marker

def callback (name : String) : Json :=
  .object [("$fn", .string name)]

def element (tag : String) (props : Json) : Json :=
  .object [("$element", .string tag), ("props", props)]

def instanceOf (className : String) : Json :=
  .object [("$instance", .string className)]

def callbackName? : Json → Option String
  | .object [(name, value)] => if name = "$fn" then value.text? else none
  | _ => none

def elementTag? (value : Json) : Option String :=
  (value.member? "$element").bind Json.text?

def instanceClass? (value : Json) : Option String :=
  (value.member? "$instance").bind Json.text?

def isCallback (value : Json) : Bool :=
  (callbackName? value).isSome

def isElement (value : Json) : Bool :=
  (elementTag? value).isSome

mutual

/-- Whether a value can be shown as a child: nothing, text, a number, an element, or a list of
such. Of the truth values only `false` can, and shows nothing. -/
def isNode : Json → Bool
  | .null => true
  | .number _ => true
  | .string _ => true
  | .bool b => !b
  | .array items => areNodes items
  | .object members => isElement (.object members)
termination_by structural x => x

/-- Whether all values of a list can be shown. -/
def areNodes : List Json → Bool
  | [] => true
  | x :: xs => isNode x && areNodes xs
termination_by structural xs => xs

end

/-- The name of a value's type, as messages give it. -/
def typeName (value : Json) : String :=
  match value with
  | .null => "null"
  | .bool _ => "boolean"
  | .number _ => "number"
  | .string _ => "string"
  | .array _ => "array"
  | .object members => if isCallback (.object members) then "function" else "object"

end Marker

end PropSandbox

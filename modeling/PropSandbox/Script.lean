import PropSandbox.Json.Text
import PropSandbox.Marker

/-!
# Script literals

A fixture can be shown as the literal that would stand for it in a component's source. Data is
written block by block: each item of an array or object stands on a line of its own, and what a
block encloses is indented by four spaces. Markers stand for what they mark: a callback as a
function without a body, an element as the call that creates it, an instance as a fixed text.
-/

namespace PropSandbox

namespace Script

/-- The lines of a text. A carriage return before a line feed belongs to the line's end, and a line
feed at the end of the text starts no further line. -/
def lines : List Char → List (List Char)
  | [] => []
  | '\n' :: rest => [] :: lines rest
  | '\r' :: '\n' :: rest => [] :: lines rest
  | c :: rest =>
    match lines rest with
    | [] => [[c]]
    | line :: others => (c :: line) :: others

/-- Puts texts one to a line. -/
def joinLines (texts : List (List Char)) : List Char :=
  ['\n'].intercalate texts

/-- Four spaces. -/
def margin : List Char :=
  "    ".toList

def indent (text : List Char) : List Char :=
  joinLines ((lines text).map (margin ++ ·))

/-- A block: the parts between brackets, each on its own lines, indented. -/
def block (opening closing : Char) (parts : List (List Char)) : List Char :=
  [opening, '\n'] ++ indent ([',', '\n'].intercalate parts) ++ ['\n', closing]

/-- A callback, as a function without a body. -/
def callback (name : String) : List Char :=
  "function ".toList ++ name.toList ++ "() \x7b\x7d".toList

/-- An element, as the call that creates it. -/
def element (tag : String) (props : List Char) : List Char :=
  "React.createElement(".toList ++ (Json.quote tag).toList ++ ", ".toList ++ props ++ [')']

/-- What stands for an instance of a class. -/
def instanceText : List Char :=
  "\"<<object w/ custom constructor>>\"".toList

mutual

/-- The literal of a value, as characters. -/
def render : Json → List Char
  | .array [] => ['[', ']']
  | .array (x :: xs) => block '[' ']' (render x :: renderItems xs)
  | .object members =>
    match Marker.callbackName? (.object members), Marker.elementTag? (.object members) with
    | some name, _ => callback name
    | none, some tag => element tag (renderProps members)
    | none, none =>
      if (Marker.instanceClass? (.object members)).isSome then instanceText
      else if members.isEmpty then ['\x7b', '\x7d']
      else block '\x7b' '\x7d' (renderMembers members)
  | .null => (Json.literal .null).toList
  | .bool b => (Json.literal (.bool b)).toList
  | .number n => n.text.toList
  | .string s => (Json.quote s).toList
termination_by structural value => value

def renderItems : List Json → List (List Char)
  | [] => []
  | x :: xs => render x :: renderItems xs
termination_by structural items => items

def renderMembers : List (String × Json) → List (List Char)
  | [] => []
  | (name, x) :: xs => ((Json.quote name).toList ++ ": ".toList ++ render x) :: renderMembers xs
termination_by structural members => members

/-- The literal of the props of an element: null where it has none. -/
def renderProps : List (String × Json) → List Char
  | [] => "null".toList
  | (name, x) :: xs => if name = "props" then render x else renderProps xs
termination_by structural members => members

end

end Script

def Json.script (value : Json) : String :=
  String.ofList (Script.render value)

end PropSandbox

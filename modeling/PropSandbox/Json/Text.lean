import PropSandbox.Double.Text
import PropSandbox.Json

/-!
# The text of JSON values

Two ways of writing a value: compact, without any blank, and pretty, one item to a line with two
spaces for each level. Both write the same tokens: members in the order of the object, strings
with only the escapes that JSON asks for.
-/

namespace PropSandbox

namespace Number

def text : Number → String
  | .integer n => toString n
  | .double x => x.text .document

end Number

namespace Json

/-- The digit of a number below sixteen, in lower case. -/
def hexDigit (n : Nat) : Char :=
  if n < 10 then Char.ofNat (48 + n) else Char.ofNat (87 + n)

/-- What stands for a character inside a string: quote, backslash and control characters are
escaped, every other character stands for itself. -/
def escape (c : Char) : List Char :=
  match c with
  | '"' => ['\\', '"']
  | '\\' => ['\\', '\\']
  | '\x08' => ['\\', 'b']
  | '\x0c' => ['\\', 'f']
  | '\n' => ['\\', 'n']
  | '\r' => ['\\', 'r']
  | '\t' => ['\\', 't']
  | c =>
    if c.toNat < 32 then ['\\', 'u', '0', '0', hexDigit (c.toNat / 16), hexDigit (c.toNat % 16)]
    else [c]

def quote (s : String) : String :=
  String.ofList ('"' :: s.toList.flatMap escape ++ ['"'])

/-- The text of a value that has no parts of its own, and of an empty array or object. -/
def literal : Json → String
  | .null => "null"
  | .bool true => "true"
  | .bool false => "false"
  | .number n => n.text
  | .string s => quote s
  | .array _ => "[]"
  | .object _ => "\x7b\x7d"

mutual

def compact : Json → String
  | .array xs => "[" ++ ",".intercalate (compactItems xs) ++ "]"
  | .object xs => "\x7b" ++ ",".intercalate (compactMembers xs) ++ "\x7d"
  | .null => "null"
  | .bool b => literal (.bool b)
  | .number n => n.text
  | .string s => quote s
termination_by structural x => x

/-- The compact texts of the items of an array. -/
def compactItems : List Json → List String
  | [] => []
  | x :: xs => compact x :: compactItems xs
termination_by structural xs => xs

/-- The compact texts of the members of an object. -/
def compactMembers : List (String × Json) → List String
  | [] => []
  | (name, x) :: xs => (quote name ++ ":" ++ compact x) :: compactMembers xs
termination_by structural xs => xs

end

/-- Two spaces for each level. -/
def margin (depth : Nat) : String :=
  String.ofList (List.replicate (2 * depth) ' ')

/-- Sets the parts of an array or object one to a line, one level deeper than its brackets. -/
def layOut (opening closing : String) (depth : Nat) (parts : List String) : String :=
  opening ++ "\n"
    ++ ",\n".intercalate (parts.map (margin (depth + 1) ++ ·))
    ++ "\n" ++ margin depth ++ closing

mutual

/-- The pretty text of a value whose first line stands at a depth. -/
def prettyAt : Nat → Json → String
  | _, .array [] => "[]"
  | depth, .array (x :: xs) => layOut "[" "]" depth (prettyAt (depth + 1) x :: prettyItems (depth + 1) xs)
  | _, .object [] => "\x7b\x7d"
  | depth, .object ((name, x) :: xs) =>
    layOut "\x7b" "\x7d" depth
      ((quote name ++ ": " ++ prettyAt (depth + 1) x) :: prettyMembers (depth + 1) xs)
  | _, .null => "null"
  | _, .bool b => literal (.bool b)
  | _, .number n => n.text
  | _, .string s => quote s
termination_by structural _ x => x

/-- The pretty texts of the items of an array. -/
def prettyItems : Nat → List Json → List String
  | _, [] => []
  | depth, x :: xs => prettyAt depth x :: prettyItems depth xs
termination_by structural _ xs => xs

/-- The pretty texts of the members of an object. -/
def prettyMembers : Nat → List (String × Json) → List String
  | _, [] => []
  | depth, (name, x) :: xs => (quote name ++ ": " ++ prettyAt depth x) :: prettyMembers depth xs
termination_by structural _ xs => xs

end

def pretty (value : Json) : String :=
  prettyAt 0 value

end Json

end PropSandbox

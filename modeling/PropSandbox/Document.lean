import PropSandbox.Json

/-!
# Documents

A document is a text that has been taken apart but not yet given a meaning: scalars, sequences and
mappings. Mappings keep all their entries in the order of the text, also repeated ones, since what
a repetition means depends on what is read. A scalar keeps what it stands for, and beside it the
text that a reader may take who asks for text: some formats let every scalar be read as text.
-/

namespace PropSandbox

/-- What a scalar stands for. -/
inductive Meaning where
  | null
  | bool (b : Bool)
  | number (n : Number)
  | text (s : String)
  /-- A whole number that no value can hold. -/
  | tooLarge
  deriving DecidableEq, Inhabited

/-- A scalar, and the text it may be read as. -/
structure Scalar where
  meaning : Meaning
  written : Option String
  deriving DecidableEq, Inhabited

namespace Scalar

def ofText (s : String) : Scalar :=
  ⟨.text s, some s⟩

/-- A scalar that only stands for its meaning. -/
def plain (meaning : Meaning) : Scalar :=
  ⟨meaning, none⟩

/-- The text of a scalar that stands for text. -/
def text? (s : Scalar) : Option String :=
  match s.meaning with
  | .text t => some t
  | _ => none

/-- The value of a scalar. A number that is not finite has none and counts as null. -/
def toJson? (s : Scalar) : Option Json :=
  match s.meaning with
  | .null => some .null
  | .bool b => some (.bool b)
  | .number (.integer n) => some (.ofInt n)
  | .number (.double x) => some (.ofDouble x)
  | .text t => some (.string t)
  | .tooLarge => none

end Scalar

/-- A part of a document. -/
inductive Node where
  | scalar (s : Scalar)
  | sequence (items : List Node)
  | mapping (entries : List (Scalar × Node))
  deriving Inhabited

namespace Node

mutual

/-- The value of a node, if every scalar has one. A function gives the names of members; of two
entries with one name the later one counts. -/
def toJson? (nameOf : Scalar → Option String) : Node → Option Json
  | .scalar s => s.toJson?
  | .sequence items => (itemsToJson? nameOf items).map .array
  | .mapping entries => (entriesToJson? nameOf entries).map fun pairs => .object (Record.ofList pairs)
termination_by structural node => node

def itemsToJson? (nameOf : Scalar → Option String) : List Node → Option (List Json)
  | [] => some []
  | node :: rest => do
    let value ← toJson? nameOf node
    let values ← itemsToJson? nameOf rest
    some (value :: values)
termination_by structural items => items

def entriesToJson? (nameOf : Scalar → Option String) :
    List (Scalar × Node) → Option (List (String × Json))
  | [] => some []
  | (key, node) :: rest => do
    let name ← nameOf key
    let value ← toJson? nameOf node
    let others ← entriesToJson? nameOf rest
    some ((name, value) :: others)
termination_by structural entries => entries

end

mutual

def ofJson : Json → Node
  | .null => .scalar (.plain .null)
  | .bool b => .scalar (.plain (.bool b))
  | .number n => .scalar (.plain (.number n))
  | .string s => .scalar (.ofText s)
  | .array xs => .sequence (ofItems xs)
  | .object xs => .mapping (ofMembers xs)
termination_by structural value => value

def ofItems : List Json → List Node
  | [] => []
  | x :: xs => ofJson x :: ofItems xs
termination_by structural items => items

def ofMembers : List (String × Json) → List (Scalar × Node)
  | [] => []
  | (name, x) :: xs => (.ofText name, ofJson x) :: ofMembers xs
termination_by structural members => members

end

end Node

end PropSandbox

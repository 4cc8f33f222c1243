import PropSandbox.Document

/-!
# Reading structures from documents

A structure with known fields is written as a mapping of its fields, or as a sequence of them in
their order. In a mapping unknown names are passed over and a known name may stand once; a sequence
may leave out fields at its end, and has no more items than there are fields.
-/

namespace PropSandbox

namespace Node

/-- The text a node may be read as. -/
def written? : Node → Option String
  | .scalar s => s.written
  | _ => none

/-- The text a node stands for. -/
def text? : Node → Option String
  | .scalar s => s.text?
  | _ => none

/-- The truth value a node stands for. -/
def bool? : Node → Option Bool
  | .scalar ⟨.bool b, _⟩ => some b
  | _ => none

def isNull : Node → Bool
  | .scalar ⟨.null, _⟩ => true
  | _ => false

/-- The entries of a mapping. A scalar left empty counts as an empty mapping. -/
def entries? : Node → Option (List (Scalar × Node))
  | .mapping entries => some entries
  | .scalar ⟨.null, some ""⟩ => some []
  | _ => none

/-- The items of a sequence. A scalar left empty counts as an empty sequence. -/
def items? : Node → Option (List Node)
  | .sequence items => some items
  | .scalar ⟨.null, some ""⟩ => some []
  | _ => none

/-- Reads a node that may be absent or null. -/
def optionally {α : Type} (read : Node → Option α) : Option Node → Option (Option α)
  | none => some none
  | some node => if node.isNull then some none else (read node).map some

/-- Reads a node that may be absent. -/
def withDefault {α : Type} (default : α) (read : Node → Option α) : Option Node → Option α
  | none => some default
  | some node => read node

/-- Reads a mapping whose names are all taken, in any number; of two entries with one name the
later one counts. -/
def record? {α : Type} (nameOf : Scalar → Option String) (read : Node → Option α) (node : Node) :
    Option (Record α) := do
  let entries ← node.entries?
  let pairs ← entries.mapM fun entry => do
    let name ← nameOf entry.1
    let value ← read entry.2
    some (name, value)
  some (Record.ofList pairs)

end Node

/-- The nodes found for the fields of a structure. -/
abbrev Fields := String → Option Node

namespace Fields

def ofEntries? (names : List String) (nameOf : Scalar → Option String)
    (entries : List (Scalar × Node)) : Option Fields := do
  let named ← entries.mapM fun entry => (nameOf entry.1).map fun name => (name, entry.2)
  let known := named.filter fun entry => names.contains entry.1
  if (known.map Prod.fst).Nodup then some fun name => known.lookup name else none

def ofItems? (names : List String) (items : List Node) : Option Fields :=
  if items.length ≤ names.length then some fun name => (names.zip items).lookup name else none

/-- The fields of a structure in either form. -/
def ofNode? (names : List String) (nameOf : Scalar → Option String) (node : Node) : Option Fields :=
  match node with
  | .sequence items => ofItems? names items
  | node => node.entries?.bind (ofEntries? names nameOf)

/-- The fields of a structure that is written as a mapping only. -/
def ofMapping? (names : List String) (nameOf : Scalar → Option String) (node : Node) :
    Option Fields :=
  node.entries?.bind (ofEntries? names nameOf)

end Fields

end PropSandbox

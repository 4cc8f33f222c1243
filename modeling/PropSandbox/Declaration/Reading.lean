import PropSandbox.Declaration
import PropSandbox.Document.Fields

/-!
# Reading declarations

A declaration is read from a document: text is the short form, a structure the full form. Names
and texts inside a declaration have to stand for text; what merely could be read as text does not
count.
-/

namespace PropSandbox

namespace Declaration

/-- The fields of the full form, in order. -/
def fieldNames : List String :=
  ["type", "required", "of", "fields", "values", "types", "class"]

/-- Reads the full form from its fields, given how parts are read. -/
def fullOfFields? (read : Node → Option Declaration) (fields : Fields) :
    Option (FullDeclaration Declaration) := do
  let type ← (← fields "type").text?
  let required ← Node.withDefault false Node.bool? (fields "required")
  let element ← Node.optionally read (fields "of")
  let shape ← Node.optionally (Node.record? Scalar.text? read) (fields "fields")
  let values ← Node.optionally
    (fun node => node.items?.bind fun items => items.mapM (Node.toJson? Scalar.text?))
    (fields "values")
  let types ← Node.optionally (fun node => node.items?.bind fun items => items.mapM read)
    (fields "types")
  let className ← Node.optionally Node.text? (fields "class")
  some { type, required, element, fields := shape, values, types, className }

/-- Reads a declaration nested at most so deep. -/
def ofNodeWithin : Nat → Node → Option Declaration
  | 0, _ => none
  | depth + 1, node =>
    match node with
    | .scalar s => s.text?.map .short
    | node => do
      let fields ← Fields.ofNode? fieldNames Scalar.text? node
      let form ← fullOfFields? (ofNodeWithin depth) fields
      some (.full form)

end Declaration

namespace Node

mutual

def depth : Node → Nat
  | .scalar _ => 1
  | .sequence items => depthItems items + 1
  | .mapping entries => depthEntries entries + 1
termination_by structural node => node

def depthItems : List Node → Nat
  | [] => 0
  | node :: rest => max (depth node) (depthItems rest)
termination_by structural items => items

def depthEntries : List (Scalar × Node) → Nat
  | [] => 0
  | (_, node) :: rest => max (depth node) (depthEntries rest)
termination_by structural entries => entries

end

end Node

def Declaration.ofNode? (node : Node) : Option Declaration :=
  Declaration.ofNodeWithin node.depth node

end PropSandbox

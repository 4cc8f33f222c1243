import PropSandbox.Document.Fields

/-!
# Fixtures

A fixture set holds the stored instances of one component. Each instance is a value, as a rule an
object with the props of the component.
-/

namespace PropSandbox

/-- The stored instances of a component. -/
structure FixtureSet where
  instances : List Json

namespace FixtureSet

def empty : FixtureSet := ⟨[]⟩

def size (set : FixtureSet) : Nat :=
  set.instances.length

def toJson (set : FixtureSet) : Json :=
  .object [("instances", .array set.instances)]

def ofFields? (fields : Fields) : Option FixtureSet := do
  let instances ← Node.withDefault []
    (fun node => node.items?.bind fun items => items.mapM (Node.toJson? Scalar.written))
    (fields "instances")
  some ⟨instances⟩

def ofNode? (node : Node) : Option FixtureSet :=
  (Fields.ofNode? ["instances"] Scalar.written node).bind ofFields?

/-- Reads a set from a format that writes structures as mappings only. -/
def ofMapping? (node : Node) : Option FixtureSet :=
  (Fields.ofMapping? ["instances"] Scalar.written node).bind ofFields?

end FixtureSet

end PropSandbox

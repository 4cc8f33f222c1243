import PropSandbox.Generation

/-!
# The static policy

The static policy is deterministic: every optional value is null, every choice falls on the first
option, and every required leaf gets the smallest value that is valid.
-/

namespace PropSandbox

namespace Chooser

variable {σ : Type}

/-- Always the first option. -/
def first : Chooser σ := fun _ count =>
  pure (if 0 < count then some 0 else none)

end Chooser

namespace Nullability

variable {σ : Type}

/-- Every optional value is null. -/
def optionalIsNull : Nullability σ := fun _ leaf =>
  pure (!leaf.required)

end Nullability

/-- The smallest valid value of a standard leaf. -/
def LeafKind.minimalValue : LeafKind → Json
  | .string => .string ""
  | .number => .ofNat 0
  | .bool => .bool false
  | .array => .array []
  | .object => .object []
  | .func => Marker.callback "noop"
  | .any => .string ""
  | .node => .string ""
  | .element => Marker.element "div" (.object [])

/-- The smallest valid value for each standard leaf. -/
def GeneratorTable.minimal {σ : Type} : GeneratorTable σ :=
  GeneratorTable.ofList
    (LeafKind.all.map fun kind => (.leaf kind, Generator.constant kind.minimalValue))

namespace GenerationConfig

variable {σ : Type}

/-- Containers only: first choice, optional values null, leaves without a generator. -/
def bare : GenerationConfig σ where
  generators := GeneratorTable.containers
  nullability := Nullability.optionalIsNull
  chooser := Chooser.first

def static : GenerationConfig σ :=
  bare.merge GeneratorTable.minimal

end GenerationConfig

end PropSandbox

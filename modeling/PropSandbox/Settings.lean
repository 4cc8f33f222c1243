import PropSandbox.Document.Fields
import PropSandbox.Double.Text
import PropSandbox.Generation.Random
import PropSandbox.Path

/-!
# Settings

Settings say where components and fixtures live and how values are generated. Whatever a source of
settings leaves out has a default.
-/

namespace PropSandbox

/-- The policies by name. -/
inductive PolicyName where
  | static
  | random
  deriving DecidableEq, Repr

def PolicyName.text : PolicyName → String
  | .static => "static"
  | .random => "random"

/-- Where the sandbox keeps its files. -/
structure SandboxSettings where
  componentsDir : String
  fixturesDir : String
  deriving DecidableEq, Repr

/-- How values are generated. -/
structure GenerationSettings where
  policy : PolicyName
  /-- The seed of the random policy; without one it starts anywhere. -/
  seed : Option Nat
  nullProbability : Double
  /-- Probabilities of null for single kinds, by the name of the kind. -/
  nullProbabilityByKind : Record Double
  minItems : Nat
  maxItems : Nat
  numberMin : Int
  numberMax : Int

/-- The settings of a sandbox, and the directory that relative paths start from. -/
structure Settings where
  sandbox : SandboxSettings
  generation : GenerationSettings
  root : String

namespace SandboxSettings

def default : SandboxSettings := ⟨"components", "fixtures"⟩

def toJson (s : SandboxSettings) : Json :=
  .object [("components_dir", .string s.componentsDir), ("fixtures_dir", .string s.fixturesDir)]

def fieldNames : List String := ["components_dir", "fixtures_dir"]

/-- Reads the settings from their fields, given how text is read. -/
def ofFields? (text : Node → Option String) (fields : Fields) : Option SandboxSettings := do
  let componentsDir ← Node.withDefault default.componentsDir text (fields "components_dir")
  let fixturesDir ← Node.withDefault default.fixturesDir text (fields "fixtures_dir")
  some ⟨componentsDir, fixturesDir⟩

def ofNode? (node : Node) : Option SandboxSettings :=
  (Fields.ofNode? fieldNames Scalar.text? node).bind (ofFields? Node.text?)

end SandboxSettings

/-- How the scalars of generation settings are read. -/
structure ScalarReading where
  policy : Node → Option PolicyName
  natural : Node → Option Nat
  whole : Node → Option Int
  double : Node → Option Double

namespace PolicyName

def ofText? (text : String) : Option PolicyName :=
  if text = "static" then some .static else if text = "random" then some .random else none

end PolicyName

namespace Node

/-- The whole number a node stands for. -/
def integer? : Node → Option Int
  | .scalar ⟨.number (.integer n), _⟩ => some n
  | _ => none

/-- The policy a node names, by text or by a mapping of the name to null. -/
def policy? : Node → Option PolicyName
  | .scalar s => s.text?.bind PolicyName.ofText?
  | .mapping [(name, value)] =>
    if value.isNull then name.text?.bind PolicyName.ofText? else none
  | _ => none

def double? : Node → Option Double
  | .scalar ⟨.number (.integer n), _⟩ => some (Double.ofInt n)
  | .scalar ⟨.number (.double x), _⟩ => some x
  | _ => none

end Node

/-- Scalars as they are written: whole numbers fit 64 bits with or without sign. -/
def ScalarReading.strict : ScalarReading where
  policy := Node.policy?
  natural node := node.integer?.bind fun n => if 0 ≤ n ∧ n < 0x10000000000000000 then some n.toNat else none
  whole node := node.integer?.filter fun n => -0x8000000000000000 ≤ n ∧ n < 0x8000000000000000
  double := Node.double?

namespace GenerationSettings

def default : GenerationSettings where
  policy := .static
  seed := none
  nullProbability := Double.nearest false ⟨1, 4⟩
  nullProbabilityByKind := []
  minItems := 1
  maxItems := 4
  numberMin := 0
  numberMax := 100

def toJson (s : GenerationSettings) : Json :=
  .object
    [("policy", .string s.policy.text),
     ("seed", (s.seed.map Json.ofNat).getD .null),
     ("null_probability", .ofDouble s.nullProbability),
     ("null_probability_by_kind", .object (Record.mapValues Json.ofDouble s.nullProbabilityByKind)),
     ("min_items", .ofNat s.minItems),
     ("max_items", .ofNat s.maxItems),
     ("number_min", .ofInt s.numberMin),
     ("number_max", .ofInt s.numberMax)]

def fieldNames : List String :=
  ["policy", "seed", "null_probability", "null_probability_by_kind", "min_items", "max_items",
   "number_min", "number_max"]

/-- Reads the settings from their fields, given how scalars are read. -/
def ofFields? (reading : ScalarReading) (fields : Fields) : Option GenerationSettings := do
  let policy ← Node.withDefault default.policy reading.policy (fields "policy")
  let seed ← Node.optionally reading.natural (fields "seed")
  let nullProbability ←
    Node.withDefault default.nullProbability reading.double (fields "null_probability")
  let nullProbabilityByKind ←
    Node.withDefault [] (Node.record? Scalar.text? reading.double) (fields "null_probability_by_kind")
  let minItems ← Node.withDefault default.minItems reading.natural (fields "min_items")
  let maxItems ← Node.withDefault default.maxItems reading.natural (fields "max_items")
  let numberMin ← Node.withDefault default.numberMin reading.whole (fields "number_min")
  let numberMax ← Node.withDefault default.numberMax reading.whole (fields "number_max")
  some
    { policy, seed, nullProbability, nullProbabilityByKind, minItems, maxItems, numberMin,
      numberMax }

def ofNode? (node : Node) : Option GenerationSettings :=
  (Fields.ofNode? fieldNames Scalar.text? node).bind (ofFields? .strict)

/-- The random policy of the settings. The kinds with a probability of their own are taken in the
order of the entries, and names that are no standard kind are passed over. -/
def randomPolicy (s : GenerationSettings) : RandomPolicy :=
  let policy := s.nullProbabilityByKind.foldl
    (fun policy entry =>
      match Kind.standard? entry.1 with
      | some kind => policy.withNullProbabilityOf kind entry.2
      | none => policy)
    RandomPolicy.default
  ((policy.withNullProbability s.nullProbability).withItems s.minItems s.maxItems).withNumbers
    s.numberMin s.numberMax

/-- The generation config of the settings, over a source of draws. -/
def config {σ : Type} (s : GenerationSettings) (source : RandomSource σ) : GenerationConfig σ :=
  match s.policy with
  | .static => .static
  | .random => s.randomPolicy.config source

end GenerationSettings

namespace Settings

def default : Settings := ⟨.default, .default, "."⟩

def fieldNames : List String := ["sandbox", "generation"]

/-- Reads settings from a document. They start from no directory. -/
def ofNode? (node : Node) : Option Settings := do
  let fields ← Fields.ofNode? fieldNames Scalar.text? node
  let sandbox ← Node.withDefault .default SandboxSettings.ofNode? (fields "sandbox")
  let generation ← Node.withDefault .default GenerationSettings.ofNode? (fields "generation")
  some ⟨sandbox, generation, ""⟩

def componentsPath (s : Settings) : String :=
  Path.join s.root s.sandbox.componentsDir

def fixturesPath (s : Settings) : String :=
  Path.join s.root s.sandbox.fixturesDir

end Settings

end PropSandbox

import PropSandbox.Inference

/-!
# Generation

Generation is driven by a table that gives each kind a generator. A generator never makes the
values of parts itself: it asks for them, with the type of the part and its path, so one table and
one pair of decisions serve at every depth. A part is always smaller than the type it belongs to,
so generation ends whatever the generators ask for.

Generators and decisions may read and change a state: a source of draws, a log.
-/

namespace PropSandbox

/-- Picks one of a number of options for the value at a path, or none. -/
abbrev Chooser (σ : Type) := Cursor → Nat → StateM σ (Option Nat)

/-- Decides whether an optional value at a path is null. -/
abbrev Nullability (σ : Type) := Cursor → TypeLeaf → StateM σ Bool

/-- Makes a value for a description at a path. It may ask for values of parts, and for choices. -/
abbrev Generator (σ : Type) :=
  (leaf : TypeLeaf) → Cursor → (Part leaf → Cursor → StateM σ Json) → Chooser σ → StateM σ Json

/-- A generator for some of the kinds. -/
abbrev GeneratorTable (σ : Type) := Kind → Option (Generator σ)

namespace GeneratorTable

variable {σ : Type}

def empty : GeneratorTable σ := fun _ => none

/-- Gives a kind a generator, in place of any other. -/
def insert (table : GeneratorTable σ) (kind : Kind) (generator : Generator σ) : GeneratorTable σ :=
  fun k => if k = kind then some generator else table k

/-- The table of a list of pairs; of two generators for one kind the later one counts. -/
def ofList (pairs : List (Kind × Generator σ)) : GeneratorTable σ :=
  pairs.foldl (fun table pair => table.insert pair.1 pair.2) empty

/-- Two tables in one; where both know a kind, the second counts. -/
def union (first second : GeneratorTable σ) : GeneratorTable σ :=
  fun kind => second kind <|> first kind

end GeneratorTable

/-- A generator that always gives the same value. -/
def Generator.constant {σ : Type} (value : Json) : Generator σ :=
  fun _ _ _ _ => pure value

/-- A table with the decisions that its generators rely on. -/
structure GenerationConfig (σ : Type) where
  generators : GeneratorTable σ
  nullability : Nullability σ
  chooser : Chooser σ

namespace GenerationConfig

variable {σ : Type}

/-- Puts the generators of a table in place of those for the same kinds. -/
def merge (config : GenerationConfig σ) (overrides : GeneratorTable σ) : GenerationConfig σ :=
  { config with generators := config.generators.union overrides }

/-- The generator of a kind; a kind without one gives null. -/
def generator (config : GenerationConfig σ) (kind : Kind) : Generator σ :=
  (config.generators kind).getD (Generator.constant .null)

/-- A choice among a number of options. Without options nobody is asked, and an answer out of
range counts as none. -/
def choose (config : GenerationConfig σ) : Chooser σ := fun path count =>
  if count = 0 then pure none
  else do
    let answer ← config.chooser path count
    pure (answer.filter (· < count))

/-- Whether the value of a description is null; a required value never is. -/
def isNull (config : GenerationConfig σ) : Nullability σ := fun path leaf =>
  if leaf.required then pure false else config.nullability path leaf

/-- A value of a type for a path. -/
def generate (config : GenerationConfig σ) : PropType → Cursor → StateM σ Json
  | .unknown _, _ => pure .null
  | .known leaf, path => do
    if ← config.isNull path leaf then
      pure .null
    else
      config.generator leaf.kind leaf path
        (fun part at' => config.generate part.val at') config.choose
termination_by t => t.weight
decreasing_by exact part.property

end GenerationConfig

/-! ## Containers -/

namespace Generator

variable {σ : Type}

/-- A list of one item. -/
def singletonList : Generator σ := fun leaf path recurse _ =>
  match leaf.elementPart? with
  | some item => do
    let value ← recurse item (path.child (.index 0))
    pure (.array [value])
  | none => pure (.array [])

/-- The values of fields, each at its own path, in order. -/
def fieldValues {leaf : TypeLeaf} (path : Cursor) (recurse : Part leaf → Cursor → StateM σ Json) :
    Record (Part leaf) → StateM σ (Record Json)
  | [] => pure []
  | (name, field) :: rest => do
    let value ← recurse field (path.child (.key name))
    let others ← fieldValues path recurse rest
    pure ((name, value) :: others)

/-- An object with exactly the declared fields. -/
def shape : Generator σ := fun leaf path recurse _ => do
  let members ← fieldValues path recurse leaf.fieldParts
  pure (.object members)

def instanceOf : Generator σ := fun leaf _ _ _ =>
  pure ((leaf.className?.map Marker.instanceOf).getD .null)

/-- The literals a value can be chosen from; a required value is not chosen null. -/
def options (leaf : TypeLeaf) : List Json :=
  (leaf.choices?.getD []).filter fun value => !(leaf.required && value.isNull)

def oneOf : Generator σ := fun leaf path _ choose => do
  let choice ← choose path (options leaf).length
  pure ((choice.bind ((options leaf)[·]?)).getD .null)

/-- A value of one candidate. The union has already decided on a value, so the candidate is taken
as required. -/
def oneOfType : Generator σ := fun leaf path recurse choose => do
  let choice ← choose path leaf.candidateParts.length
  match choice.bind (leaf.candidateParts[·]?) with
  | some candidate => recurse candidate.intoRequired path
  | none => pure .null

end Generator

/-- The generators of the kinds that are built from arguments. A map has no members until a policy
gives it some. -/
def GeneratorTable.containers {σ : Type} : GeneratorTable σ :=
  GeneratorTable.ofList
    [(.built .arrayOf, Generator.singletonList),
     (.built .objectOf, Generator.constant (.object [])),
     (.built .shape, Generator.shape),
     (.built .instanceOf, Generator.instanceOf),
     (.built .oneOf, Generator.oneOf),
     (.built .oneOfType, Generator.oneOfType)]

/-! ## Checking values against types -/

namespace PropType

def check (t : PropType) (value : Json) (prop owner : String) : Verdict :=
  t.validator.checkValue value prop owner

/-- Checks a value under the names that stand for no prop in particular. -/
def explain (t : PropType) (value : Json) : Verdict :=
  t.check value "value" "sandbox"

/-- Whether the validator behind a type accepts a value. -/
def accepts (t : PropType) (value : Json) : Bool :=
  (t.explain value).isAccepted

end PropType

end PropSandbox

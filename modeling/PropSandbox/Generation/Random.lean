import PropSandbox.Generation.Minimal
import PropSandbox.Random.Words

/-!
# The random policy

The random policy makes plausible values: placeholder text, colors and URLs by the name of the
field, lists and objects of bounded size, numbers within bounds, and now and then null for what is
optional.
-/

namespace PropSandbox

/-- What the random policy keeps to. -/
structure RandomPolicy where
  /-- The probability that an optional value is null. -/
  nullProbability : Double
  /-- The kinds with a probability of their own. -/
  nullProbabilityOf : Kind → Option Double
  /-- The bounds on the number of items. -/
  items : Bounds Nat
  /-- The bounds on numbers. -/
  numbers : Bounds Int

namespace RandomPolicy

/-- A quarter of the optional values null, one to four items, numbers from 0 to 100. -/
def default : RandomPolicy where
  nullProbability := Double.nearest false ⟨1, 4⟩
  nullProbabilityOf _ := none
  items := Bounds.between 1 4
  numbers := Bounds.betweenInts 0 100

/-- Sets the probability of null; what is no probability counts as the nearest one. -/
def withNullProbability (policy : RandomPolicy) (p : Double) : RandomPolicy :=
  { policy with nullProbability := p.toProbability }

/-- Sets the probability of null for one kind. -/
def withNullProbabilityOf (policy : RandomPolicy) (kind : Kind) (p : Double) : RandomPolicy :=
  { policy with
    nullProbabilityOf := fun k =>
      if k = kind then some p.toProbability else policy.nullProbabilityOf k }

/-- Sets the bounds on the number of items, given in any order. -/
def withItems (policy : RandomPolicy) (a b : Nat) : RandomPolicy :=
  { policy with items := Bounds.between a b }

/-- Sets the bounds on numbers, given in any order. -/
def withNumbers (policy : RandomPolicy) (a b : Int) : RandomPolicy :=
  { policy with numbers := Bounds.betweenInts a b }

/-- The probability of null for a kind. -/
def nullProbabilityFor (policy : RandomPolicy) (kind : Kind) : Double :=
  (policy.nullProbabilityOf kind).getD policy.nullProbability

def elementTags : List String :=
  ["div", "span", "p", "section", "button", "strong"]

/-- Whether a text occurs in another one. -/
def occursIn (part : List Char) : List Char → Bool
  | [] => part.isEmpty
  | c :: rest => part.isPrefixOf (c :: rest) || occursIn part rest

/-- Text for a path: a color or a URL where the innermost name, in lower case, says so, and a
sentence elsewhere. -/
def textFor {σ : Type} (source : RandomSource σ) (path : Cursor) : StateM σ String :=
  let field := (path.lastKey?.getD "").toList.map Char.toLower
  if occursIn "color".toList field then source.color
  else if occursIn "url".toList field || occursIn "href".toList field then source.url
  else source.sentence

section

variable {σ : Type} (policy : RandomPolicy) (source : RandomSource σ)

def wordList : StateM σ Json := do
  let count ← source.within policy.items
  let words ← source.manyWords count
  pure (.array (words.map fun word => .string word.val))

/-- Adds members with words for names and values. -/
def addWords : Nat → Record Json → StateM σ (Record Json)
  | 0, members => pure members
  | n + 1, members => do
    let name ← source.word
    let value ← source.word
    addWords n (Record.insert members name.val (.string value.val))

/-- An object with words for names and values. -/
def wordObject : StateM σ Json := do
  let count ← source.within policy.items
  let members ← addWords source count []
  pure (.object members)

/-- The value of a standard leaf at a path. -/
def leafValue (path : Cursor) : LeafKind → StateM σ Json
  | .string => do pure (.string (← textFor source path))
  | .number => do pure (.ofInt (← source.withinInts policy.numbers))
  | .bool => do pure (.bool (← source.chance (Double.nearest false ⟨1, 2⟩)))
  | .array => wordList policy source
  | .object => wordObject policy source
  | .func => pure (Marker.callback (path.lastKey?.getD "callback"))
  | .any => do pure (.string (← source.word).val)
  | .node => do pure (.string (← source.sentence))
  | .element => do
    let tag ← source.pick elementTags (by decide)
    pure (Marker.element tag (.object []))

end

variable {σ : Type}

/-- The items of a list from an index on, each at its own path, in order. -/
def itemValues {leaf : TypeLeaf} (item : Part leaf) (path : Cursor)
    (recurse : Part leaf → Cursor → StateM σ Json) : Nat → Nat → StateM σ (List Json)
  | 0, _ => pure []
  | n + 1, index => do
    let value ← recurse item (path.child (.index index))
    let rest ← itemValues item path recurse n (index + 1)
    pure (value :: rest)

/-- A list of items, as many as are drawn before the first is made. -/
def listOf (policy : RandomPolicy) (source : RandomSource σ) : Generator σ :=
  fun leaf path recurse _ =>
    match leaf.elementPart? with
    | none => pure (.array [])
    | some item => do
      let count ← source.within policy.items
      let values ← itemValues item path recurse count 0
      pure (.array values)

def generators (policy : RandomPolicy) (source : RandomSource σ) : GeneratorTable σ :=
  GeneratorTable.ofList
    ((LeafKind.all.map fun kind =>
        (.leaf kind, fun _ path _ _ => leafValue policy source path kind))
      ++ [(.built .arrayOf, listOf policy source)])

def choose (source : RandomSource σ) : Chooser σ := fun _ count =>
  if h : 0 < count then do
    let i ← source.below count h
    pure (some i.val)
  else pure none

/-- Null with the probability for the kind. -/
def isNull (policy : RandomPolicy) (source : RandomSource σ) : Nullability σ := fun _ leaf =>
  if leaf.required then pure false else source.chance (policy.nullProbabilityFor leaf.kind)

def config (policy : RandomPolicy) (source : RandomSource σ) : GenerationConfig σ where
  generators := GeneratorTable.containers.union (policy.generators source)
  nullability := policy.isNull source
  chooser := choose source

end RandomPolicy

end PropSandbox

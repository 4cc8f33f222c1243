import PropSandbox.Document.Numeral
import PropSandbox.Settings

/-!
# Reading settings leniently

A settings file may write a value in any way that can be understood: numbers, truth values and
texts stand for each other. Texts such as `on` and `no` count as one and zero, decimals are rounded
to whole numbers, and what lies beyond the range of a setting counts as its limit.
-/

namespace PropSandbox

namespace Double

/-- The whole number nearest to a finite double, an exact half going away from zero. -/
def roundAway (x : Double) : Int :=
  let q := x.magnitude
  let size := (2 * q.numerator + q.denominator) / (2 * q.denominator)
  if x.negative then -size else size

/-- The nearest whole number between two limits; what is no number counts as zero. -/
def clamped (low high : Int) (x : Double) : Int :=
  if x.isNaN then 0
  else if x.isInfinite then (if x.negative then low else high)
  else max low (min high x.roundAway)

end Double

namespace LenientSettings

/-- What a scalar stands for in settings: a whole number beyond 64 bits with sign counts as a
double. -/
def meaning (s : Scalar) : Meaning :=
  match s.meaning with
  | .number (.integer n) =>
    if -0x8000000000000000 ≤ n ∧ n < 0x8000000000000000 then s.meaning else .number (.double (Double.ofInt n))
  | .tooLarge =>
    match s.written.bind fun text => Numeral.decimal? text.toList with
    | some x => .number (.double x)
    | none => .tooLarge
  | found => found

/-- The truth value that a text stands for. -/
def switch? (text : String) : Option Bool :=
  let lower := text.map Char.toLower
  if lower ∈ ["true", "on", "yes"] then some true
  else if lower ∈ ["false", "off", "no"] then some false
  else none

/-- The truth value as a number. -/
def ofSwitch (b : Bool) : Int :=
  if b then 1 else 0

/-- A whole number between two limits. -/
def whole? (low high : Int) : Node → Option Int
  | .scalar s =>
    match meaning s with
    | .number (.integer n) => if low ≤ n ∧ n ≤ high then some n else none
    | .number (.double x) => some (x.clamped low high)
    | .bool b => some (ofSwitch b)
    | .text t =>
      match switch? t with
      | some b => some (ofSwitch b)
      | none => (Numeral.whole? t.toList).filter fun n => low ≤ n && n ≤ high
    | _ => none
  | _ => none

/-- A natural number of 64 bits. A text for it has no negative sign. -/
def natural? (node : Node) : Option Nat :=
  match node with
  | .scalar ⟨.text t, _⟩ => if t.toList.head? = some '-' then none else found node
  | node => found node
where
  found (node : Node) : Option Nat := (whole? 0 0xFFFFFFFFFFFFFFFF node).map Int.toNat

/-- The double of a text, which may name infinity or what is no number. -/
def doubleOfText? (text : String) : Option Double :=
  let (negative, size) := Numeral.splitSign (text.toList.map Char.toLower)
  if size = "inf".toList ∨ size = "infinity".toList then some (Double.infinity negative)
  else if size = "nan".toList then some Double.nan
  else Numeral.decimal? text.toList

def double? : Node → Option Double
  | .scalar s =>
    match meaning s with
    | .number (.integer n) => some (Double.ofInt n)
    | .number (.double x) => some x
    | .bool b => some (Double.ofInt (ofSwitch b))
    | .text t =>
      match switch? t with
      | some b => some (Double.ofInt (ofSwitch b))
      | none => doubleOfText? t
    | _ => none
  | _ => none

def text? : Node → Option String
  | .scalar s =>
    match meaning s with
    | .text t => some t
    | .bool b => some (if b then "true" else "false")
    | .number (.integer n) => some (toString n)
    | .number (.double x) => some (x.text .message)
    | _ => none
  | _ => none

/-- The policy with a name in any case. -/
def policyOfText? (text : String) : Option PolicyName :=
  PolicyName.ofText? (text.map Char.toLower)

/-- A policy, by text or by a mapping of its name to anything. -/
def policy? : Node → Option PolicyName
  | .scalar s => s.text?.bind policyOfText?
  | .mapping [(name, _)] => name.text?.bind policyOfText?
  | _ => none

/-- How the scalars of a settings file are read. -/
def reading : ScalarReading where
  policy := policy?
  natural := natural?
  whole := whole? (-0x8000000000000000) 0x7FFFFFFFFFFFFFFF
  double := double?

/-- The entries of a section whose names are text; of two with one name the later one counts. -/
def section? : Node → Option (Record Node)
  | .mapping entries =>
    some (Record.ofList (entries.filterMap fun entry => entry.1.text?.map fun name => (name, entry.2)))
  | _ => none

/-- The fields of a section, written by name or in their order. -/
def fields? (names : List String) : Node → Option Fields
  | .sequence items => some fun name => (names.zip items).lookup name
  | node => (section? node).map fun entries name => Record.get? entries name

/-- The settings in a document. They start from no directory. -/
def settings? (node : Node) : Option Settings := do
  let entries ← section? node
  let sandbox ← Node.withDefault .default
    (fun node => (fields? SandboxSettings.fieldNames node).bind (SandboxSettings.ofFields? text?))
    (Record.get? entries "sandbox")
  let generation ← Node.withDefault .default
    (fun node =>
      (fields? GenerationSettings.fieldNames node).bind (GenerationSettings.ofFields? reading))
    (Record.get? entries "generation")
  some ⟨sandbox, generation, ""⟩

end LenientSettings

end PropSandbox

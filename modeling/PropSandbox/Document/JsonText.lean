import PropSandbox.Document
import PropSandbox.Document.Reader

/-!
# Reading JSON text

The reader accepts what the JSON grammar allows and nothing else, nested at most 127 deep. A
literal without fraction and exponent that fits 64 bits is a whole number. Every other number is a
double: its digits, as far as they fit 64 bits, are scaled by a power of ten in one rounded step,
so a literal with many digits or a large exponent may miss its nearest double by one place.
-/

namespace PropSandbox

namespace JsonText

open Reader

def isGap (c : Char) : Bool :=
  c == ' ' || c == '\n' || c == '\t' || c == '\r'

/-! ## Numbers -/

/-- The largest significand. -/
def limit : Nat := 0xFFFFFFFFFFFFFFFF

/-- Takes whole digits into a significand while it stays within the limit; answers it with the
number of digits left over. -/
def wholeDigits : Nat → List Nat → Nat × Nat
  | significand, [] => (significand, 0)
  | significand, d :: ds =>
    if significand * 10 + d ≤ limit then wholeDigits (significand * 10 + d) ds
    else (significand, (d :: ds).length)

/-- Takes fraction digits into a significand while it stays within the limit; answers it with the
number of digits taken. -/
def fractionDigits : Nat → List Nat → Nat × Nat
  | significand, [] => (significand, 0)
  | significand, d :: ds =>
    if significand * 10 + d ≤ limit then
      let (all, taken) := fractionDigits (significand * 10 + d) ds
      (all, taken + 1)
    else (significand, 0)

/-- Divides by `10 ^ 308` until an exponent is at least `-308`, or nothing is left. -/
def scaledDown (x : Double) (exponent : Int) : Double × Int :=
  if exponent < -308 ∧ ¬ x.isZero then
    scaledDown (x.dividedBy (Double.ofDecimal false 1 308)) (exponent + 308)
  else (x, exponent)
termination_by (-exponent).toNat
decreasing_by omega

/-- The size of `significand · 10 ^ exponent`, scaled in rounded steps; none if it is too large. -/
def scaled? (significand : Nat) (exponent : Int) : Option Double :=
  let (x, exponent) := scaledDown (Double.ofNat significand) exponent
  if x.isZero then some x
  else if exponent < 0 then some (x.dividedBy (Double.ofDecimal false 1 (-exponent)))
  else if 308 < exponent then none
  else
    let product := x.times (Double.ofDecimal false 1 exponent)
    if product.isInfinite then none else some product

/-- The digits of an exponent with its sign. -/
def exponent : Reader Int := do
  let negative ← accept "-"
  unless negative do
    let _ ← accept "+"
  let digits ← takeSome Char.isDigit
  match naturalOfDigits? 10 digits with
  | some n => pure (if negative then -(n : Int) else n)
  | none => failure

def digitValues (digits : List Char) : List Nat :=
  digits.map fun c => c.toNat - 48

def number : Reader Number := do
  let negative ← accept "-"
  let whole ← takeSome Char.isDigit
  if whole.head? = some '0' ∧ 1 < whole.length then failure
  let (significand, left) := wholeDigits 0 (digitValues whole)
  let hasFraction ← accept "."
  let fraction ← if hasFraction then takeSome Char.isDigit else pure []
  let (significand, taken) := fractionDigits significand (digitValues fraction)
  let hasExponent := (← peek?) == some 'e' || (← peek?) == some 'E'
  let power ← if hasExponent then do
      let _ ← next
      exponent
    else pure 0
  let value : Int := if negative then -significand else significand
  if ¬ hasFraction ∧ ¬ hasExponent ∧ left = 0 ∧ Number.IsWhole value
      ∧ ¬ (negative ∧ significand = 0) then
    pure (.integer value)
  else
    match scaled? significand (left - taken + power) with
    | some x => pure (.double (x.withSign negative))
    | none => failure

/-! ## Strings -/

def fourDigits : Reader Nat := do
  let a ← next
  let b ← next
  let c ← next
  let d ← next
  match naturalOfDigits? 16 [a, b, c, d] with
  | some n => pure n
  | none => failure

/-- The character of an escape that begins with `u`: one unit, or a pair of surrogates. -/
def unicodeEscape : Reader Char := do
  let unit ← fourDigits
  if 0xD800 ≤ unit ∧ unit < 0xDC00 then
    expect "\\u"
    let low ← fourDigits
    if 0xDC00 ≤ low ∧ low < 0xE000 then
      match charOfCode? (0x10000 + (unit - 0xD800) * 0x400 + (low - 0xDC00)) with
      | some c => pure c
      | none => failure
    else failure
  else
    match charOfCode? unit with
    | some c => pure c
    | none => failure

def escaped : Reader Char := do
  match ← next with
  | '"' => pure '"'
  | '\\' => pure '\\'
  | '/' => pure '/'
  | 'b' => pure '\x08'
  | 'f' => pure '\x0c'
  | 'n' => pure '\n'
  | 'r' => pure '\r'
  | 't' => pure '\t'
  | 'u' => unicodeEscape
  | _ => failure

/-- The characters of a string up to its closing quote, which is taken. The bound is on the number
of characters. -/
def characters : Nat → Reader (List Char)
  | 0 => failure
  | bound + 1 => do
    match ← next with
    | '"' => pure []
    | '\\' => do
      let c ← escaped
      return c :: (← characters bound)
    | c =>
      if c.toNat < 32 then failure
      return c :: (← characters bound)

/-- A string, with its quotes. -/
def string : Reader String := do
  expect "\""
  let cs ← characters ((← rest).length + 1)
  pure (String.ofList cs)

/-! ## Values -/

/-- How deep arrays and objects may be nested. -/
def maxDepth : Nat := 127

/-- Blanks, then a given text. -/
def mark (wanted : String) : Reader Bool := do
  skipWhile isGap
  accept wanted

mutual

/-- A value, with the blanks before it. The first bound is on the number of steps, the second on
the depth. -/
def value : Nat → Nat → Reader Node
  | 0, _ => failure
  | steps + 1, depth => do
    skipWhile isGap
    match ← peek? with
    | some '[' =>
      if depth = 0 then failure
      let _ ← next
      if ← mark "]" then pure (.sequence [])
      else return .sequence (← items steps (depth - 1))
    | some '\x7b' =>
      if depth = 0 then failure
      let _ ← next
      if ← mark "\x7d" then pure (.mapping [])
      else return .mapping (← members steps (depth - 1))
    | some '"' => return .scalar (.ofText (← string))
    | _ =>
      if ← accept "null" then pure (.scalar (.plain .null))
      else if ← accept "true" then pure (.scalar (.plain (.bool true)))
      else if ← accept "false" then pure (.scalar (.plain (.bool false)))
      else return .scalar (.plain (.number (← number)))
termination_by structural steps => steps

/-- The items of an array up to its closing bracket, which is taken. -/
def items : Nat → Nat → Reader (List Node)
  | 0, _ => failure
  | steps + 1, depth => do
    let item ← value steps depth
    if ← mark "," then return item :: (← items steps depth)
    else if ← mark "]" then pure [item]
    else failure
termination_by structural steps => steps

/-- The members of an object up to its closing bracket, which is taken. -/
def members : Nat → Nat → Reader (List (Scalar × Node))
  | 0, _ => failure
  | steps + 1, depth => do
    skipWhile isGap
    let name ← string
    unless ← mark ":" do failure
    let item ← value steps depth
    if ← mark "," then return (.ofText name, item) :: (← members steps depth)
    else if ← mark "\x7d" then pure [(.ofText name, item)]
    else failure
termination_by structural steps => steps

end

def document : Reader Node := do
  let node ← value (2 * (← rest).length + 2) maxDepth
  skipWhile isGap
  pure node

end JsonText

def Node.ofJsonText? (text : String) : Option Node :=
  JsonText.document.runAll text.toList

def Json.parse? (text : String) : Option Json :=
  (Node.ofJsonText? text).bind (Node.toJson? Scalar.written)

end PropSandbox

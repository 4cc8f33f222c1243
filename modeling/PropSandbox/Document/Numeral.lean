import PropSandbox.Document.Reader
import PropSandbox.Double

/-!
# Numerals

The number texts that the document formats share: whole numbers in a base, and decimals with a
sign, a point and an exponent. A decimal stands for the nearest double.
-/

namespace PropSandbox

namespace Numeral

/-- A sign and what follows it; without a sign a number is positive. -/
def splitSign : List Char → Bool × List Char
  | '-' :: rest => (true, rest)
  | '+' :: rest => (false, rest)
  | rest => (false, rest)

/-- A size with a sign. -/
def signed (negative : Bool) (size : Nat) : Int :=
  if negative then -size else size

/-- The whole number of a decimal text with an optional sign. -/
def whole? (text : List Char) : Option Int :=
  let (negative, digits) := splitSign text
  (naturalOfDigits? 10 digits).map (signed negative)

/-- An exponent with its mark; without one it is zero. -/
def exponent : Reader Int := do
  let small ← Reader.accept "e"
  let marked ← if small then pure true else Reader.accept "E"
  if marked then
    let text ← Reader.takeWhile fun c => c.isDigit || c == '-' || c == '+'
    match whole? text with
    | some n => pure n
    | none => failure
  else pure 0

/-- A decimal without sign: digits on one side of the point at least, and perhaps an exponent. -/
def unsigned (negative : Bool) : Reader Double := do
  let before ← Reader.takeWhile Char.isDigit
  let hasPoint ← Reader.accept "."
  let after ← if hasPoint then Reader.takeWhile Char.isDigit else pure []
  let power ← exponent
  match naturalOfDigits? 10 (before ++ after) with
  | some coefficient => pure (Double.ofDecimal negative coefficient (power - after.length))
  | none => failure

def decimal? (text : List Char) : Option Double :=
  let (negative, size) := splitSign text
  (unsigned negative).runAll size

end Numeral

end PropSandbox

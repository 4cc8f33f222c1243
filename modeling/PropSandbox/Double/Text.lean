import PropSandbox.Double.Shortest

/-!
# The text of a double

A layout says how the digits of a shortest decimal are set: which decimal points are written in
place, what a whole number ends in, and how an exponent is written. Two layouts are in use: one for
documents and one for messages.
-/

namespace PropSandbox

/-- How the digits of a number are set. The point of a decimal is the number of its digits that
stand before the decimal point. -/
structure DecimalLayout where
  /-- The points that are written in place; all others take an exponent. -/
  positional : Int → Bool
  /-- What a positional number without fraction ends in. -/
  wholeEnd : String
  /-- What stands between the digits and a positive exponent. -/
  exponentMark : String
  /-- What stands between the digits and a negative exponent. -/
  negativeExponentMark : String

namespace DecimalLayout

/-- Documents write sizes from `0.00001` to below `10 ^ 16` in place, always with a decimal point,
and all others with a signed exponent. -/
def document : DecimalLayout where
  positional := fun point => -4 ≤ point && point ≤ 16
  wholeEnd := ".0"
  exponentMark := "e+"
  negativeExponentMark := "e-"

/-- Messages write every number in place, and a whole number without a point. -/
def message : DecimalLayout where
  positional := fun _ => true
  wholeEnd := ""
  exponentMark := ""
  negativeExponentMark := ""

/-- `n` zeros. -/
def zeros (n : Nat) : String :=
  String.ofList (List.replicate n '0')

def write (layout : DecimalLayout) (d : Decimal) : String :=
  let digits := (toString d.coefficient).toList
  let count := digits.length
  let point : Int := count + d.exponent
  if d.coefficient = 0 then "0" ++ layout.wholeEnd
  else if layout.positional point then
    if point ≤ 0 then "0." ++ zeros (-point).toNat ++ String.ofList digits
    else if (count : Int) ≤ point then
      String.ofList digits ++ zeros (point - count).toNat ++ layout.wholeEnd
    else
      String.ofList (digits.take point.toNat) ++ "." ++ String.ofList (digits.drop point.toNat)
  else
    let lead := String.ofList (digits.take 1)
    let rest := digits.drop 1
    let body := if rest.isEmpty then lead else lead ++ "." ++ String.ofList rest
    if point ≤ 0 then body ++ layout.negativeExponentMark ++ toString (1 - point)
    else body ++ layout.exponentMark ++ toString (point - 1)

end DecimalLayout

namespace Double

/-- The text of a double in a layout. -/
def text (layout : DecimalLayout) (x : Double) : String :=
  if x.isNaN then "NaN"
  else
    let body := if x.isInfinite then "inf" else layout.write x.shortest
    if x.negative then "-" ++ body else body

end Double

end PropSandbox

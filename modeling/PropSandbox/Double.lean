/-!
# Doubles

A double is a 64-bit floating-point number, held as its encoding: a sign bit, eleven exponent bits
and fifty-two fraction bits. Every finite double is a whole significand times a power of two, so
reading, scaling and comparing are exact arithmetic on natural numbers followed by one rounding to
the nearest double, ties to the even encoding.
-/

namespace PropSandbox

/-- A 64-bit floating-point number, as its encoding. -/
structure Double where
  bits : UInt64
  deriving DecidableEq, Inhabited

/-- A quotient of naturals; the denominator is meant to be positive. -/
structure Quotient where
  numerator : Nat
  denominator : Nat

namespace Double

/-! ## What an encoding stands for -/

/-- Whether the sign bit is set. -/
def negative (x : Double) : Bool :=
  x.bits.toNat / 0x8000000000000000 == 1

/-- The eleven exponent bits. -/
def exponentBits (x : Double) : Nat :=
  x.bits.toNat / 0x10000000000000 % 0x800

/-- The fifty-two fraction bits. -/
def fractionBits (x : Double) : Nat :=
  x.bits.toNat % 0x10000000000000

def isNaN (x : Double) : Bool :=
  x.exponentBits == 2047 && x.fractionBits != 0

def isInfinite (x : Double) : Bool :=
  x.exponentBits == 2047 && x.fractionBits == 0

def isFinite (x : Double) : Bool :=
  x.exponentBits != 2047

/-- Zero of either sign. -/
def isZero (x : Double) : Bool :=
  x.exponentBits == 0 && x.fractionBits == 0

/-- The whole significand of a finite double. -/
def significand (x : Double) : Nat :=
  if x.exponentBits = 0 then x.fractionBits else 0x10000000000000 + x.fractionBits

/-- The power of two that scales the significand. -/
def scale (x : Double) : Int :=
  if x.exponentBits = 0 then -1074 else (x.exponentBits : Int) - 1075

/-- The size of a finite double, as an exact quotient. -/
def magnitude (x : Double) : Quotient :=
  if x.scale < 0 then ⟨x.significand, Nat.pow 2 (-x.scale).toNat⟩
  else ⟨x.significand * Nat.pow 2 x.scale.toNat, 1⟩

/-! ## Rounding -/

/-- The whole number nearest to a quotient, an exact half going to the even neighbour. -/
def roundHalfEven (q : Quotient) : Nat :=
  let whole := q.numerator / q.denominator
  let rest := 2 * (q.numerator % q.denominator)
  if rest < q.denominator then whole
  else if q.denominator < rest then whole + 1
  else whole + whole % 2

/-- The largest power of two not above a positive quotient. -/
def binaryOrder (q : Quotient) : Int :=
  let guess := (q.numerator.log2 : Int) - q.denominator.log2
  let fits :=
    if guess < 0 then q.denominator ≤ q.numerator * Nat.pow 2 (-guess).toNat
    else q.denominator * Nat.pow 2 guess.toNat ≤ q.numerator
  if fits then guess else guess - 1

/-- The encoding, without sign, of the double nearest to a quotient; a quotient too large for any
double gives infinity. -/
def nearestBits (q : Quotient) : Nat :=
  if q.numerator = 0 then 0
  else
    let step := max (binaryOrder q - 52) (-1074)
    let digits :=
      if step < 0 then roundHalfEven ⟨q.numerator * Nat.pow 2 (-step).toNat, q.denominator⟩
      else roundHalfEven ⟨q.numerator, q.denominator * Nat.pow 2 step.toNat⟩
    min ((step + 1074).toNat * 0x10000000000000 + digits) (2047 * 0x10000000000000)

/-- The double nearest to a quotient with a sign. -/
def nearest (negative : Bool) (q : Quotient) : Double :=
  ⟨UInt64.ofNat (nearestBits q + if negative then 0x8000000000000000 else 0)⟩

/-- The double nearest to a natural number. -/
def ofNat (n : Nat) : Double :=
  nearest false ⟨n, 1⟩

/-- The double nearest to a whole number. -/
def ofInt (n : Int) : Double :=
  nearest (n < 0) ⟨n.natAbs, 1⟩

/-- The double nearest to `coefficient · 10 ^ exponent`. Exponents far outside the range of doubles
are answered without computing the power. -/
def ofDecimal (negative : Bool) (coefficient : Nat) (exponent : Int) : Double :=
  let places := (coefficient.log2 : Int) / 3 + exponent
  if coefficient = 0 ∨ places < -400 then nearest negative ⟨0, 1⟩
  else if 400 < exponent then nearest negative ⟨Nat.pow 2 1024, 1⟩
  else if exponent < 0 then nearest negative ⟨coefficient, Nat.pow 10 (-exponent).toNat⟩
  else nearest negative ⟨coefficient * Nat.pow 10 exponent.toNat, 1⟩

def zero : Double := ⟨0⟩

def one : Double := ofNat 1

def infinity (negative : Bool) : Double :=
  nearest negative ⟨Nat.pow 2 1024, 1⟩

/-- The quiet number that is no number. -/
def nan : Double := ⟨UInt64.ofNat (4095 * 0x8000000000000)⟩

/-! ## Arithmetic on sizes -/

/-- The rounded product of the sizes of two finite doubles. -/
def times (x y : Double) : Double :=
  let a := x.magnitude
  let b := y.magnitude
  nearest false ⟨a.numerator * b.numerator, a.denominator * b.denominator⟩

/-- The rounded quotient of the sizes of two finite doubles, the second not zero. -/
def dividedBy (x y : Double) : Double :=
  let a := x.magnitude
  let b := y.magnitude
  nearest false ⟨a.numerator * b.denominator, a.denominator * b.numerator⟩

/-- The same size with a given sign. -/
def withSign (x : Double) (negative : Bool) : Double :=
  ⟨UInt64.ofNat (x.bits.toNat % 0x8000000000000000 + if negative then 0x8000000000000000 else 0)⟩

/-! ## Order -/

/-- A whole number that orders all doubles but NaN: the encoding read as sign and magnitude. Both
zeros have the place 0. -/
def place (x : Double) : Int :=
  let size : Int := x.bits.toNat % 0x8000000000000000
  if x.negative then -size else size

/-- Not above; false whenever a side is NaN. -/
def le (x y : Double) : Bool :=
  !x.isNaN && !y.isNaN && x.place ≤ y.place

/-- The same number: equal encodings, or two zeros. NaN is not a number that any text denotes, and
is here the same as itself. -/
def same (x y : Double) : Bool :=
  x == y || (x.isZero && y.isZero)

theorem same_refl (x : Double) : x.same x = true := by
  simp [same]

/-- Whether a double is a probability, a number from 0 to 1. -/
def isProbability (x : Double) : Bool :=
  zero.le x && x.le one

/-- The nearest probability; NaN counts as 0. -/
def toProbability (x : Double) : Double :=
  if x.isNaN then zero
  else if x.place < 0 then zero
  else if one.place < x.place then one
  else x

end Double

end PropSandbox

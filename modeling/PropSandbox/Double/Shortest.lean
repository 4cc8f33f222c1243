import PropSandbox.Double

/-!
# Shortest decimals

The shortest decimal of a double is, of all decimals that read back as that double, one with the
fewest digits, and of those the nearest. The reals that round to a double form an interval around
it, ends included when its significand is even; on the grid of decimals with a given number of
digits only the two neighbours of the double have to be tried.
-/

namespace PropSandbox

/-- A decimal `coefficient · 10 ^ exponent`. -/
structure Decimal where
  coefficient : Nat
  exponent : Int
  deriving DecidableEq, Repr

namespace Decimal

def toQuotient (d : Decimal) : Quotient :=
  if d.exponent < 0 then ⟨d.coefficient, Nat.pow 10 (-d.exponent).toNat⟩
  else ⟨d.coefficient * Nat.pow 10 d.exponent.toNat, 1⟩

/-- Moves trailing zeros of the coefficient into the exponent, `fuel` many at most. -/
def trimmed : Nat → Decimal → Decimal
  | 0, d => d
  | fuel + 1, d =>
    if d.coefficient ≠ 0 ∧ d.coefficient % 10 = 0 then
      trimmed fuel ⟨d.coefficient / 10, d.exponent + 1⟩
    else d

end Decimal

namespace Double

/-- Whether a quotient lies in the interval of reals that round to a double. The distances are
compared in quarters of the unit in the last place; below a power of two that unit is halved. -/
def Covers (x : Double) (q : Quotient) : Prop :=
  let m := x.significand
  let below := if m = 0x10000000000000 ∧ 1 < x.exponentBits then 4 * m - 1 else 4 * m - 2
  let above := 4 * m + 2
  let up := Nat.pow 2 (x.scale - 2).toNat
  let down := Nat.pow 2 (2 - x.scale).toNat
  let value := q.numerator * down
  let low := below * up * q.denominator
  let high := above * up * q.denominator
  if m % 2 = 0 then low ≤ value ∧ value ≤ high else low < value ∧ value < high

instance (x : Double) (q : Quotient) : Decidable (x.Covers q) := by
  unfold Covers
  infer_instance

/-- The power of ten at or below a positive quotient. -/
def decimalOrder (q : Quotient) : Int :=
  let reaches (k : Int) : Bool :=
    if k < 0 then q.denominator ≤ q.numerator * Nat.pow 10 (-k).toNat
    else q.denominator * Nat.pow 10 k.toNat ≤ q.numerator
  let guess := (binaryOrder q * 1233 - 4095) / 4096
  if reaches (guess + 2) then guess + 2
  else if reaches (guess + 1) then guess + 1
  else if reaches guess then guess
  else guess - 1

/-- The neighbours of a quotient on the grid of multiples of `10 ^ step`: the one at or below it,
and twice the rest against the step, which says on which side the nearer one lies. -/
def gridNeighbour (q : Quotient) (step : Int) : Nat × Ordering :=
  let n := if step < 0 then q.numerator * Nat.pow 10 (-step).toNat else q.numerator
  let d := if step < 0 then q.denominator else q.denominator * Nat.pow 10 step.toNat
  (n / d, compare (2 * (n % d)) d)

/-- The decimal with the given grid that reads back as the double and lies nearest to it, if the
grid has one. -/
def onGrid? (x : Double) (step : Int) : Option Decimal :=
  let (low, side) := gridNeighbour x.magnitude step
  let lower : Decimal := ⟨low, step⟩
  let upper : Decimal := ⟨low + 1, step⟩
  match decide (x.Covers lower.toQuotient), decide (x.Covers upper.toQuotient) with
  | false, false => none
  | true, false => some lower
  | false, true => some upper
  | true, true =>
    match side with
    | .lt => some lower
    | .gt => some upper
    | .eq => some (if low % 2 = 0 then lower else upper)

/-- The first grid, from one digit on, that holds a decimal for the double. -/
def firstOnGrid (x : Double) (order : Int) : Nat → Nat → Decimal
  | 0, _ => ⟨x.significand, 0⟩
  | fuel + 1, digits =>
    match x.onGrid? (order + 1 - digits) with
    | some d => d
    | none => firstOnGrid x order fuel (digits + 1)

/-- The shortest decimal of the size of a finite double. Seventeen digits always suffice. -/
def shortest (x : Double) : Decimal :=
  if x.significand = 0 then ⟨0, 0⟩
  else (x.firstOnGrid (decimalOrder x.magnitude) 18 1).trimmed 18

end Double

end PropSandbox

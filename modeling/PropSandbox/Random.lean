import PropSandbox.Double

/-!
# Random draws

All randomness comes down to two questions: a number below a positive bound, and a word of
placeholder text. A source answers them from a state, and how it does so is left open, so what is
shown of every source holds under every outcome of the draws. The bound is positive and the answer
below it by type: no draw can be asked of an empty range, and none can leave its range. A word is
lower-case ASCII and not empty by type; nothing else is known of it.
-/

namespace PropSandbox

/-- Bounds in order, both ends included. -/
structure Bounds (α : Type) [LE α] where
  low : α
  high : α
  low_le_high : low ≤ high

namespace Bounds

/-- The bounds between two naturals, given in any order. -/
def between (a b : Nat) : Bounds Nat :=
  ⟨min a b, max a b, by omega⟩

/-- The bounds between two whole numbers, given in any order. -/
def betweenInts (a b : Int) : Bounds Int :=
  ⟨min a b, max a b, by omega⟩

end Bounds

/-- What words are made of. -/
def IsWord (s : String) : Prop :=
  (!s.toList.isEmpty && s.toList.all Char.isLower) = true

instance (s : String) : Decidable (IsWord s) :=
  inferInstanceAs (Decidable (_ = true))

/-- A word of placeholder text. -/
abbrev Word := { s : String // IsWord s }

/-- A source of draws: how it starts from a seed, or without one, how it draws a number below a
bound, and how it draws a word and the last part of a host name. -/
structure RandomSource (σ : Type) where
  start : Option Nat → σ
  below : (n : Nat) → 0 < n → StateM σ (Fin n)
  word : StateM σ Word
  hostEnding : StateM σ Word

namespace RandomSource

variable {σ : Type}

def within (source : RandomSource σ) (bounds : Bounds Nat) : StateM σ Nat := do
  let i ← source.below (bounds.high - bounds.low + 1) (by omega)
  pure (bounds.low + i.val)

def withinInts (source : RandomSource σ) (bounds : Bounds Int) : StateM σ Int := do
  let i ← source.below ((bounds.high - bounds.low).toNat + 1) (by omega)
  pure (bounds.low + i.val)

/-- True with a probability, to one part in `2 ^ 64`. -/
def chance (source : RandomSource σ) (p : Double) : StateM σ Bool := do
  let i ← source.below 0x10000000000000000 (by decide)
  pure (i.val * p.magnitude.denominator < p.magnitude.numerator * 0x10000000000000000)

/-- One of the entries of a list that is not empty. -/
def pick {α : Type} (source : RandomSource σ) (options : List α) (h : 0 < options.length) :
    StateM σ α := do
  let i ← source.below options.length h
  pure options[i]

end RandomSource

end PropSandbox

import PropSandbox.Random

/-!
# Random texts

Placeholder texts are made of drawn words: sentences, addresses and colors.
-/

namespace PropSandbox

namespace RandomSource

variable {σ : Type}

def manyWords (source : RandomSource σ) : Nat → StateM σ (List Word)
  | 0 => pure []
  | n + 1 => do
    let first ← source.word
    let rest ← source.manyWords n
    pure (first :: rest)

/-- One to three words and a full stop. -/
def sentence (source : RandomSource σ) : StateM σ String := do
  let count ← source.within (Bounds.between 1 3)
  let words ← source.manyWords count
  pure (" ".intercalate (words.map Subtype.val) ++ ".")

/-- A host, an ending and a page. -/
def url (source : RandomSource σ) : StateM σ String := do
  let host ← source.word
  let ending ← source.hostEnding
  let page ← source.word
  pure ("https://" ++ host.val ++ "." ++ ending.val ++ "/" ++ page.val)

/-- Six hexadecimal digits. -/
def hexDigits (n : Nat) : List Char :=
  [5, 4, 3, 2, 1, 0].map fun place =>
    let digit := n / Nat.pow 16 place % 16
    if digit < 10 then Char.ofNat (48 + digit) else Char.ofNat (87 + digit)

/-- A color, as a hash sign and six hexadecimal digits. -/
def color (source : RandomSource σ) : StateM σ String := do
  let n ← source.below 0x1000000 (by decide)
  pure (String.ofList ('#' :: hexDigits n.val))

end RandomSource

end PropSandbox

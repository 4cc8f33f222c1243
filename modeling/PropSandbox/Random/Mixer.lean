import PropSandbox.Random

/-!
# A mixing source

A source of draws whose state is a 64-bit counter. Each draw moves the counter on by an odd
constant and mixes its bits; a bound beyond 64 bits takes as many mixed words as it needs. Words of
text come from a fixed vocabulary.
-/

namespace PropSandbox

namespace Vocabulary

/-- Words of placeholder text. -/
def words : List String :=
  ["alias", "aliquam", "amet", "animi", "asperiores", "aut", "beatae", "blanditiis", "commodi",
   "consequatur", "corporis", "culpa", "cumque", "debitis", "dicta", "dolor", "doloremque", "ea",
   "eaque", "eius", "enim", "error", "est", "et", "eum", "explicabo", "facere", "fuga", "fugit",
   "harum", "hic", "id", "illo", "impedit", "in", "ipsa", "ipsum", "iste", "itaque", "iusto",
   "laborum", "libero", "magnam", "maiores", "maxime", "minima", "modi", "molestiae", "nam",
   "natus", "nemo", "nihil", "nobis", "non", "nulla", "odio", "officia", "omnis", "optio",
   "pariatur", "placeat", "porro", "quae", "quam", "quasi", "qui", "quia", "quod", "ratione",
   "rem", "rerum", "saepe", "sed", "sint", "sit", "sunt", "tempora", "tenetur", "totam", "ullam",
   "unde", "ut", "vel", "veniam", "vero", "vitae", "voluptas"]

/-- Last parts of host names. -/
def hostEndings : List String :=
  ["biz", "com", "info", "name", "net", "org"]

theorem isWord_words : ∀ s ∈ words, IsWord s := by
  decide +kernel

theorem isWord_hostEndings : ∀ s ∈ hostEndings, IsWord s := by
  decide +kernel

end Vocabulary

namespace Mixer

def mix (z : UInt64) : UInt64 :=
  let z := (z ^^^ (z >>> 30)) * 0xBF58476D1CE4E5B9
  let z := (z ^^^ (z >>> 27)) * 0x94D049BB133111EB
  z ^^^ (z >>> 31)

/-- The next word, and the counter after it. -/
def next (counter : UInt64) : UInt64 × UInt64 :=
  let counter := counter + 0x9E3779B97F4A7C15
  (mix counter, counter)

def several : Nat → Nat → StateM UInt64 Nat
  | 0, high => pure high
  | n + 1, high => do
    let word ← next
    several n (high * 0x10000000000000000 + word.toNat)

def below (n : Nat) (h : 0 < n) : StateM UInt64 (Fin n) := do
  let draw ← several (n.log2 / 64 + 1) 0
  pure ⟨draw % n, Nat.mod_lt _ h⟩

def oneOf (options : List String) (some : 0 < options.length) (words : ∀ s ∈ options, IsWord s) :
    StateM UInt64 Word := do
  let i ← below options.length some
  pure ⟨options[i], words _ (List.getElem_mem i.isLt)⟩

/-- The source that starts, without a seed, from the given word. -/
def source (entropy : UInt64) : RandomSource UInt64 where
  start seed := (seed.map UInt64.ofNat).getD entropy
  below := below
  word := oneOf Vocabulary.words (by decide) Vocabulary.isWord_words
  hostEnding := oneOf Vocabulary.hostEndings (by decide) Vocabulary.isWord_hostEndings

end Mixer

end PropSandbox

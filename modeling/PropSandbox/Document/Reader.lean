/-!
# Readers

A reader takes something off the front of a text, and answers it together with the rest, or fails.
-/

namespace PropSandbox

/-- Takes something off the front of a text. -/
abbrev Reader := StateT (List Char) Option

namespace Reader

/-- The rest of the text. -/
def rest : Reader (List Char) := get

/-- The next character, which stays. -/
def peek? : Reader (Option Char) := do
  return (← rest).head?

def next : Reader Char := fun text =>
  match text with
  | [] => none
  | c :: others => some (c, others)

/-- Takes the characters up to the first without a property. -/
def takeWhile (p : Char → Bool) : Reader (List Char) := fun text =>
  some (text.takeWhile p, text.dropWhile p)

/-- Leaves out the characters up to the first without a property. -/
def skipWhile (p : Char → Bool) : Reader Unit := fun text =>
  some ((), text.dropWhile p)

/-- Takes a given text if it comes next. -/
def accept (wanted : String) : Reader Bool := fun text =>
  if wanted.toList.isPrefixOf text then some (true, text.drop wanted.length)
  else some (false, text)

/-- Takes a given text, which has to come next. -/
def expect (wanted : String) : Reader Unit := do
  unless ← accept wanted do failure

/-- Takes some characters with a property; there has to be one. -/
def takeSome (p : Char → Bool) : Reader (List Char) := do
  let taken ← takeWhile p
  if taken.isEmpty then failure
  pure taken

/-- The outcome of a reader that has to use up a whole text. -/
def runAll {α : Type} (reader : Reader α) (text : List Char) : Option α :=
  match reader text with
  | some (a, []) => some a
  | _ => none

/-- A space or a tab. -/
def isBlank (c : Char) : Bool :=
  c == ' ' || c == '\t'

end Reader

/-- The value of a digit in any base up to sixteen. -/
def digitValue? (base : Nat) (c : Char) : Option Nat :=
  let digit? : Option Nat :=
    if c.isDigit then some (c.toNat - 48)
    else if 'a' ≤ c ∧ c ≤ 'f' then some (c.toNat - 87)
    else if 'A' ≤ c ∧ c ≤ 'F' then some (c.toNat - 55)
    else none
  digit?.filter (· < base)

/-- The number that digits write in a base, most significant first. There has to be a digit. -/
def naturalOfDigits? (base : Nat) (digits : List Char) : Option Nat :=
  if digits.isEmpty then none
  else digits.foldlM (fun n c => (digitValue? base c).map (n * base + ·)) 0

/-- The character of a code point, if the code point stands for one. -/
def charOfCode? (code : Nat) : Option Char :=
  if code.isValidChar then some (Char.ofNat code) else none

end PropSandbox

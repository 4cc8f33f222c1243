import PropSandbox.Document
import PropSandbox.Document.Numeral

/-!
# TOML values

The values of TOML that carry no names: strings in four forms, truth values, whole numbers of 64
bits with sign, and decimals. Underscores may stand between digits. Dates and times are not
accepted.
-/

namespace PropSandbox

namespace Toml

open Reader

/-! ## Numbers -/

/-- Digits without the underscores between them. -/
def joined? (isDigit : Char → Bool) : List Char → Option (List Char)
  | [] => none
  | [c] => if isDigit c then some [c] else none
  | c :: '_' :: rest => if isDigit c then (joined? isDigit rest).map (c :: ·) else none
  | c :: rest => if isDigit c then (joined? isDigit rest).map (c :: ·) else none

/-- The digits of a decimal number, which begins with a zero only if it is zero. -/
def decimalDigits? (text : List Char) : Option (List Char) :=
  (joined? Char.isDigit text).filter fun digits => digits.length = 1 || digits.head? != some '0'

/-- The number of digits in a base. -/
def based? (base : Nat) (text : List Char) : Option Nat :=
  (joined? (fun c => (digitValue? base c).isSome) text).bind (naturalOfDigits? base)

/-- A whole number. Only decimal ones take a sign. -/
def whole? (text : List Char) : Option Int :=
  match text with
  | '0' :: 'x' :: digits => (based? 16 digits).map Int.ofNat
  | '0' :: 'o' :: digits => (based? 8 digits).map Int.ofNat
  | '0' :: 'b' :: digits => (based? 2 digits).map Int.ofNat
  | text =>
    let (negative, digits) := Numeral.splitSign text
    ((decimalDigits? digits).bind (naturalOfDigits? 10)).map (Numeral.signed negative)

/-- Whether a text is an exponent after its mark. -/
def isExponent (text : List Char) : Bool :=
  (joined? Char.isDigit (Numeral.splitSign text).2).isSome

/-- Whether a text is what follows the whole digits of a decimal: a fraction, an exponent, or
both. -/
def isFraction : List Char → Bool
  | '.' :: rest =>
    let digits := rest.takeWhile fun c => c.isDigit || c == '_'
    (joined? Char.isDigit digits).isSome &&
      match rest.drop digits.length with
      | [] => true
      | c :: power => (c == 'e' || c == 'E') && isExponent power
  | c :: power => (c == 'e' || c == 'E') && isExponent power
  | [] => false

/-- A decimal; its size has to be that of a finite double. -/
def decimal? (text : List Char) : Option Double :=
  let size := (Numeral.splitSign text).2
  let digits := size.takeWhile fun c => c.isDigit || c == '_'
  if (decimalDigits? digits).isSome && isFraction (size.drop digits.length) then
    (Numeral.decimal? (text.filter (· != '_'))).filter Double.isFinite
  else none

/-- What a number or a truth value stands for. -/
def meaning? (text : List Char) : Option Meaning :=
  let (negative, size) := Numeral.splitSign text
  if text = "true".toList then some (.bool true)
  else if text = "false".toList then some (.bool false)
  else if size = "inf".toList then some (.number (.double (Double.infinity negative)))
  else if size = "nan".toList then some (.number (.double Double.nan))
  else
    match whole? text with
    | some n => if -0x8000000000000000 ≤ n ∧ n < 0x8000000000000000 then some (.number (.integer n)) else none
    | none => (decimal? text).map fun x => .number (.double x)

def bare : Reader Scalar := do
  let text ← takeSome fun c => c.isAlphanum || "+-._:".toList.contains c
  match meaning? text with
  | some meaning => pure (.plain meaning)
  | none => failure

/-! ## Strings -/

/-- Whether a string or a comment may hold a character as it is: no control character but the
tab. -/
def isAllowed (c : Char) : Bool :=
  c == '\t' || (32 ≤ c.toNat && c.toNat != 127)

/-- The character of a number of hexadecimal digits. -/
def coded (count : Nat) : Reader Char := do
  let digits := (← rest).take count
  set ((← rest).drop count)
  if digits.length < count then failure
  match (naturalOfDigits? 16 digits).bind charOfCode? with
  | some c => pure c
  | none => failure

/-- The character of an escape, after its backslash. -/
def escaped : Reader Char := do
  match ← next with
  | 'b' => pure '\x08'
  | 't' => pure '\t'
  | 'n' => pure '\n'
  | 'f' => pure '\x0c'
  | 'r' => pure '\r'
  | '"' => pure '"'
  | '\\' => pure '\\'
  | 'u' => coded 4
  | 'U' => coded 8
  | _ => failure

/-- The characters of a basic string up to its closing quote, which is taken. The bound is on the
number of steps. -/
def basic : Nat → Reader (List Char)
  | 0 => failure
  | steps + 1 => do
    match ← next with
    | '"' => pure []
    | '\\' => do
      let c ← escaped
      return c :: (← basic steps)
    | c =>
      unless isAllowed c do failure
      return c :: (← basic steps)

/-- Whether a backslash stands at the end of its line. -/
def lineEnds (text : List Char) : Bool :=
  (text.dropWhile isBlank).head? == some '\n'

/-- The characters of a string over several lines, up to its three closing quotes, which are taken;
one or two more quotes before them belong to the string. Basic strings have escapes, and a
backslash at the end of a line takes the blanks and line ends after it away. The bound is on the
number of steps. -/
def manyLines (quote : Char) (escapes : Bool) : Nat → Reader (List Char)
  | 0 => failure
  | steps + 1 => do
    let quotes ← takeWhile (· == quote)
    if 5 < quotes.length then failure
    else if 3 ≤ quotes.length then pure (quotes.drop 3)
    else
      match ← next with
      | '\\' =>
        if !escapes then return quotes ++ '\\' :: (← manyLines quote escapes steps)
        else if lineEnds (← rest) then do
          skipWhile fun c => isBlank c || c == '\n'
          return quotes ++ (← manyLines quote escapes steps)
        else do
          let c ← escaped
          return quotes ++ c :: (← manyLines quote escapes steps)
      | c =>
        unless isAllowed c || c == '\n' do failure
        return quotes ++ c :: (← manyLines quote escapes steps)

/-- A literal string, up to its closing quote. -/
def literal : Reader (List Char) := do
  let cs ← takeWhile fun c => isAllowed c && c != '\''
  expect "'"
  pure cs

/-- A string on one line, if one comes next. -/
def lineString? : Reader (Option String) := do
  if ← accept "\"" then return some (String.ofList (← basic ((← rest).length + 1)))
  else if ← accept "'" then return some (String.ofList (← literal))
  else pure none

/-- A string of any form, if one comes next. A line end right after three opening quotes is left
out. -/
def string? : Reader (Option String) := do
  if ← accept "\"\"\"" then
    let _ ← accept "\n"
    return some (String.ofList (← manyLines '"' true ((← rest).length + 1)))
  else if ← accept "'''" then
    let _ ← accept "\n"
    return some (String.ofList (← manyLines '\'' false ((← rest).length + 1)))
  else lineString?

end Toml

end PropSandbox

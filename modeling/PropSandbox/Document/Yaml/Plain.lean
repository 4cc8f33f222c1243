import PropSandbox.Document
import PropSandbox.Document.Numeral

/-!
# Plain scalars

A scalar written without quotes may stand for null, a truth value or a number; any other text
stands for itself. Whole numbers may be written in base ten, sixteen, eight or two. Digits after a
leading zero are text, and so is a decimal too large for a double.
-/

namespace PropSandbox

namespace Yaml

/-- The whole number of a plain text. -/
def whole? (text : List Char) : Option Int :=
  let (negative, digits) := Numeral.splitSign text
  let size? := match digits with
    | '0' :: 'x' :: rest => naturalOfDigits? 16 rest
    | '0' :: 'o' :: rest => naturalOfDigits? 8 rest
    | '0' :: 'b' :: rest => naturalOfDigits? 2 rest
    | '0' :: _ :: _ => none
    | digits => naturalOfDigits? 10 digits
  size?.map (Numeral.signed negative)

/-- Whether a text is made of digits with a leading zero. -/
def hasLeadingZero (text : List Char) : Bool :=
  match (Numeral.splitSign text).2 with
  | '0' :: c :: rest => (c :: rest).all Char.isDigit
  | _ => false

def double? (text : List Char) : Option Double :=
  let (negative, size) := Numeral.splitSign text
  if size ∈ [".inf".toList, ".Inf".toList, ".INF".toList] then some (Double.infinity negative)
  else if text ∈ [".nan".toList, ".NaN".toList, ".NAN".toList] then some Double.nan
  else if hasLeadingZero text then none
  else (Numeral.decimal? text).filter Double.isFinite

/-- Whether a whole number fits 128 bits, with or without sign. -/
def isRepresentable (n : Int) : Bool :=
  -0x80000000000000000000000000000000 ≤ n && n < 0x100000000000000000000000000000000

/-- What the text of a number stands for. -/
def number? (text : List Char) : Option Meaning :=
  match (whole? text).filter isRepresentable with
  | some n => some (if Number.IsWhole n then .number (.integer n) else .tooLarge)
  | none => (double? text).map fun x => .number (.double x)

/-- What a plain text stands for. -/
def meaning (text : String) : Meaning :=
  if text ∈ ["", "~", "null", "Null", "NULL"] then .null
  else if text ∈ ["true", "True", "TRUE"] then .bool true
  else if text ∈ ["false", "False", "FALSE"] then .bool false
  else (number? text.toList).getD (.text text)

/-- A plain scalar. It can always be read as its text. -/
def plainScalar (text : String) : Scalar :=
  ⟨meaning text, some text⟩

/-- What is left empty. -/
def void : Node :=
  .scalar (plainScalar "")

end Yaml

end PropSandbox

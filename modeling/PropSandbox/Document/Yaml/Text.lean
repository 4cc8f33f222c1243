import PropSandbox.Document.Reader
import PropSandbox.Document.Yaml.Plain

/-!
# The texts of scalars

Scalars are written plainly or in single or double quotes. A text that goes on over a line end is
folded: the blanks around the line end are dropped, a single line end becomes a space, and each
further one stands for a line feed.
-/

namespace PropSandbox

namespace Yaml

open Reader

/-- A blank or a line end. -/
def isSpace (c : Char) : Bool :=
  isBlank c || c == '\n'

/-- The characters that end a plain text inside a flow collection. -/
def isFlowMark (c : Char) : Bool :=
  c == ',' || c == '[' || c == ']' || c == '\x7b' || c == '\x7d'

/-- Whether a text is at its end or goes on with a space. -/
def spaceNext (text : List Char) : Bool :=
  text.head?.all isSpace

/-- What a run of blanks and line ends inside a text stands for. -/
def folded (run : List Char) : List Char :=
  match run.count '\n' with
  | 0 => run
  | 1 => [' ']
  | n + 1 => List.replicate n '\n'

/-! ## Quoted texts -/

/-- The characters of a text in single quotes, up to the closing quote, which is taken. A quote
inside is written twice. The bound is on the number of steps. -/
def singleQuoted : Nat → Reader (List Char)
  | 0 => failure
  | steps + 1 => do
    let run ← takeWhile isSpace
    match ← next with
    | '\'' =>
      if ← accept "'" then return folded run ++ '\'' :: (← singleQuoted steps)
      else pure (folded run)
    | c => return folded run ++ c :: (← singleQuoted steps)

/-- The character of a number of hexadecimal digits. -/
def coded (count : Nat) : Reader Char := do
  let digits := (← rest).take count
  set ((← rest).drop count)
  if digits.length < count then failure
  match (naturalOfDigits? 16 digits).bind charOfCode? with
  | some c => pure c
  | none => failure

/-- The characters an escape stands for, after its backslash. An escaped line end stands for
nothing, and neither do the blanks after it. -/
def escaped : Reader (List Char) := do
  match ← next with
  | '0' => pure ['\x00']
  | 'a' => pure ['\x07']
  | 'b' => pure ['\x08']
  | 't' | '\t' => pure ['\t']
  | 'n' => pure ['\n']
  | 'v' => pure ['\x0b']
  | 'f' => pure ['\x0c']
  | 'r' => pure ['\r']
  | 'e' => pure ['\x1b']
  | ' ' => pure [' ']
  | '"' => pure ['"']
  | '/' => pure ['/']
  | '\\' => pure ['\\']
  | 'N' => pure ['\u0085']
  | '_' => pure ['\u00a0']
  | 'L' => pure ['\u2028']
  | 'P' => pure ['\u2029']
  | 'x' => return [← coded 2]
  | 'u' => return [← coded 4]
  | 'U' => return [← coded 8]
  | '\n' => do
    skipWhile isBlank
    pure []
  | _ => failure

/-- The characters of a text in double quotes, up to the closing quote, which is taken. The bound
is on the number of steps. -/
def doubleQuoted : Nat → Reader (List Char)
  | 0 => failure
  | steps + 1 => do
    let run ← takeWhile isSpace
    match ← next with
    | '"' => pure (folded run)
    | '\\' => do
      let cs ← escaped
      return folded run ++ cs ++ (← doubleQuoted steps)
    | c => return folded run ++ c :: (← doubleQuoted steps)

/-- A quoted scalar, which stands for its text, if one comes next. -/
def quoted? : Reader (Option Scalar) := do
  let bound := (← rest).length + 1
  if ← accept "'" then return some (.ofText (String.ofList (← singleQuoted bound)))
  else if ← accept "\"" then return some (.ofText (String.ofList (← doubleQuoted bound)))
  else pure none

/-! ## Plain texts -/

/-- Whether a plain text ends before the characters that follow. -/
def plainEnds (inFlow afterBlank : Bool) : List Char → Bool
  | [] => true
  | '\n' :: _ => true
  | '#' :: _ => afterBlank
  | ':' :: rest => spaceNext rest || (inFlow && rest.head?.any isFlowMark)
  | c :: _ => inFlow && isFlowMark c

/-- The characters of a plain text on its line, with the blanks at its end. -/
def plainSpan (inFlow : Bool) : (afterBlank : Bool) → List Char → List Char
  | _, [] => []
  | afterBlank, c :: rest =>
    if plainEnds inFlow afterBlank (c :: rest) then []
    else c :: plainSpan inFlow (isBlank c) rest

/-- The part of a plain text on this line. The blanks after it stay. -/
def plainLine (inFlow : Bool) : Reader (List Char) := do
  let span := plainSpan inFlow true (← rest)
  let taken := (span.reverse.dropWhile isBlank).reverse
  set ((← rest).drop taken.length)
  pure taken

/-- Whether a plain text can begin here. -/
def plainBegins (inFlow : Bool) : List Char → Bool
  | [] => false
  | c :: rest =>
    if c == '-' || c == '?' || c == ':' then
      !(spaceNext rest || (inFlow && rest.head?.any isFlowMark))
    else !isSpace c && !isFlowMark c && !"#&*!|>'\"%@`".toList.contains c

/-- The run of blanks and line ends before a line that goes on with a plain text, if one does: the
line is at least at a floor, which no tab helps to reach, and is neither a comment nor a mark
between documents. -/
def continuation? (floor : Nat) (text : List Char) : Option (List Char) :=
  let run := text.takeWhile isSpace
  let after := text.drop run.length
  let margin := (run.reverse.takeWhile (· != '\n')).reverse
  let column := margin.length
  let marked := column == 0
    && ("---".toList.isPrefixOf after || "...".toList.isPrefixOf after) && spaceNext (after.drop 3)
  if run.contains '\n' && floor ≤ column && !(margin.take floor).contains '\t'
      && after.head?.any (· != '#') && !marked then some run
  else none

/-- The further lines of a plain text. The bound is on their number. -/
def plainLines (inFlow : Bool) (floor : Nat) : Nat → Reader (List Char)
  | 0 => pure []
  | bound + 1 => do
    match continuation? floor (← rest) with
    | none => pure []
    | some run => do
      set ((← rest).drop run.length)
      let line ← plainLine inFlow
      if line.isEmpty then pure []
      else return folded run ++ line ++ (← plainLines inFlow floor bound)

/-- A plain scalar whose further lines are at least at a floor. -/
def plain (inFlow : Bool) (floor : Nat) : Reader Scalar := do
  unless plainBegins inFlow (← rest) do failure
  let line ← plainLine inFlow
  let others ← plainLines inFlow floor (← rest).length
  pure (plainScalar (String.ofList (line ++ others)))

end Yaml

end PropSandbox

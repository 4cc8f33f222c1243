import PropSandbox.Path

/-!
# Path patterns

A pattern describes paths: `?` stands for any character of a name, `*` for any characters, `[...]`
for a character out of some ranges and `[!...]` for one outside of them. `**` stands alone between
slashes, for any number of directories.
-/

namespace PropSandbox

/-- What one part of a pattern stands for. -/
inductive GlobToken where
  | char (c : Char)
  | anyChar
  | anySequence
  /-- Any number of directories. -/
  | directories
  /-- A character in some of the ranges, or in none of them. -/
  | range (negated : Bool) (ranges : List (Char × Char))
  deriving DecidableEq, Repr

/-- What is wrong with a pattern. -/
inductive GlobFault where
  | wildcards
  | directories
  | range
  deriving DecidableEq, Repr

/-- A fault at a position, counted in characters. -/
structure GlobError where
  position : Nat
  fault : GlobFault
  deriving DecidableEq, Repr

def GlobFault.message : GlobFault → String
  | .wildcards => "wildcards are either regular `*` or recursive `**`"
  | .directories => "recursive wildcards must form a single path component"
  | .range => "invalid range pattern"

def GlobError.message (e : GlobError) : String :=
  "Pattern syntax error near position " ++ toString e.position ++ ": " ++ e.fault.message

namespace Glob

/-- The ranges between brackets: pairs joined by a hyphen, and single characters. -/
def ranges : List Char → List (Char × Char)
  | low :: '-' :: high :: rest => (low, high) :: ranges rest
  | c :: rest => (c, c) :: ranges rest
  | [] => []

/-- The characters up to a closing bracket, which does not count in first place, and the rest after
the bracket. -/
def bracket? : List Char → Option (List Char × List Char)
  | [] => none
  | first :: rest =>
    let inside := rest.takeWhile (· != ']')
    match rest.drop inside.length with
    | [] => none
    | _ :: after => some (first :: inside, after)

/-- The ranges after an opening bracket, and the rest. -/
def rangeToken? (text : List Char) : Option (GlobToken × List Char) :=
  match text with
  | '!' :: rest => (bracket? rest).map fun (inside, after) => (.range true (ranges inside), after)
  | text => (bracket? text).map fun (inside, after) => (.range false (ranges inside), after)

/-- The tokens of a text that begins at a position, after a character if there is one. The bound is
on the number of tokens. -/
def tokensFrom : (bound position : Nat) → (previous : Option Char) → List Char →
    Except GlobError (List GlobToken)
  | 0, _, _, _ => pure []
  | _, _, _, [] => pure []
  | bound + 1, position, previous, c :: rest =>
    let next (token : GlobToken) (taken : Nat) (after : List Char) := do
      let tokens ← tokensFrom bound (position + taken) ((c :: rest)[taken - 1]?) after
      pure (token :: tokens)
    if c = '?' then next .anyChar 1 rest
    else if c = '*' then
      match rest with
      | '*' :: '*' :: _ => throw ⟨position + 2, .wildcards⟩
      | '*' :: after =>
        if previous.all (· == '/') then
          match after with
          | [] => next .directories 2 []
          | '/' :: after => next .directories 3 after
          | _ => throw ⟨position + 2, .directories⟩
        else throw ⟨position - 1, .directories⟩
      | after => next .anySequence 1 after
    else if c = '[' then
      match rangeToken? rest with
      | some (token, after) => next token (rest.length + 1 - after.length) after
      | none => throw ⟨position, .range⟩
    else next (.char c) 1 rest

def tokens (pattern : String) : Except GlobError (List GlobToken) :=
  let cs := pattern.toList
  tokensFrom (cs.length + 1) 0 none cs

/-! ## Matching names -/

/-- Whether some end of a text has a property. -/
def someEnd (p : List Char → Bool) : List Char → Bool
  | [] => p []
  | c :: rest => p (c :: rest) || someEnd p rest

/-- Whether a character is in a range. -/
def inRange (c : Char) (range : Char × Char) : Bool :=
  range.1 ≤ c && c ≤ range.2

/-- Whether tokens match a whole name. -/
def nameMatches : List GlobToken → List Char → Bool
  | [], cs => cs.isEmpty
  | .anySequence :: ts, cs => someEnd (nameMatches ts) cs
  | .directories :: ts, cs => someEnd (nameMatches ts) cs
  | .anyChar :: ts, _ :: cs => nameMatches ts cs
  | .char expected :: ts, c :: cs => c == expected && nameMatches ts cs
  | .range negated ranges :: ts, c :: cs => ranges.any (inRange c) != negated && nameMatches ts cs
  | _ :: _, [] => false

/-- One name of a path in a pattern. -/
inductive Step where
  | literal (name : String)
  | wild (tokens : List GlobToken)
  /-- Any number of directories. -/
  | directories
  deriving DecidableEq, Repr

/-- The character a token stands for by itself. -/
def char? : GlobToken → Option Char
  | .char c => some c
  | _ => none

/-- The text of tokens that are all characters. -/
def literal? (ts : List GlobToken) : Option String :=
  (ts.mapM char?).map String.ofList

def stepOf (ts : List GlobToken) : Step :=
  if ts = [.directories] then .directories
  else
    match literal? ts with
    | some name => .literal name
    | none => .wild ts

/-- Any number of directories, stated twice in a row, says nothing more than once. -/
def collapsed : List Step → List Step
  | .directories :: .directories :: rest => collapsed (.directories :: rest)
  | step :: rest => step :: collapsed rest
  | [] => []

/-- The steps of a pattern, whose text has to be a pattern as a whole and name by name. -/
def steps (pattern : String) : Except GlobError (List Step) := do
  let _ ← tokens pattern
  let steps ← (Path.names pattern).mapM fun name => do
    pure (stepOf (← tokens name))
  pure (collapsed steps)

end Glob

end PropSandbox

import PropSandbox.Random.Words

/-!
# Recognizing random texts

What a random text is can be told from the text alone: a color, an address, a sentence with its
number of words, or a word.
-/

namespace PropSandbox

/-- What a random text is. -/
inductive TextForm where
  | color
  | url
  | sentence (words : Nat)
  | word
  deriving DecidableEq, Repr

namespace TextForm

/-- Some lower-case letters. -/
def isWord (cs : List Char) : Bool :=
  !cs.isEmpty && cs.all Char.isLower

/-- A hash sign and six hexadecimal digits. -/
def isColor : List Char → Bool
  | '#' :: digits => digits.length == 6 && digits.all fun c => c.isDigit || ('a' ≤ c && c ≤ 'f')
  | _ => false

/-- A host with an ending, and a page. -/
def isAddress (cs : List Char) : Bool :=
  let host := cs.takeWhile Char.isLower
  match cs.drop host.length with
  | '.' :: rest =>
    let ending := rest.takeWhile Char.isLower
    match rest.drop ending.length with
    | '/' :: page => !host.isEmpty && !ending.isEmpty && isWord page
    | _ => false
  | _ => false

def scheme : List Char := "https://".toList

/-- The number of words, up to three, that are joined by single spaces and end in a full stop. -/
def sentenceLength? (s : String) : Option Nat :=
  if s.toList.getLast? = some '.' then
    let words := (String.ofList s.toList.dropLast).splitOn " "
    if words.length ≤ 3 && words.all fun w => isWord w.toList then some words.length else none
  else none

/-- What a text is, if it is a random text. -/
def of? (s : String) : Option TextForm :=
  let cs := s.toList
  if isColor cs then some .color
  else if scheme.isPrefixOf cs && isAddress (cs.drop scheme.length) then some .url
  else
    match sentenceLength? s with
    | some words => some (.sentence words)
    | none => if isWord cs then some .word else none

end TextForm

end PropSandbox

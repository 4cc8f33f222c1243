import Mathlib.Data.List.Basic
import PropSandbox.Json.Text

/-!
# Texts of values

What a written value is made of. A number is a word of visible characters. A string is written
between quotation marks, and what stands for a character inside it is the character itself, a pair
that begins with a backslash, or a code of six characters; line ends, quotation marks and
backslashes of the string never stand for themselves.
-/

namespace PropSandbox

/-! ## Values inside a value -/

namespace Json

/-- The values directly inside a value. -/
def inner : Json → List Json
  | .array items => items
  | .object members => members.map Prod.snd
  | _ => []

mutual

/-- What holds of a value if it holds of the values directly inside holds of every value. -/
theorem induct {P : Json → Prop} (step : ∀ value, (∀ part ∈ value.inner, P part) → P value) :
    ∀ value, P value
  | .array items => step _ (inductItems step items)
  | .object members => step _ (inductMembers step members)
  | .null => step _ (List.forall_mem_nil _)
  | .bool _ => step _ (List.forall_mem_nil _)
  | .number _ => step _ (List.forall_mem_nil _)
  | .string _ => step _ (List.forall_mem_nil _)

theorem inductItems {P : Json → Prop} (step : ∀ value, (∀ part ∈ value.inner, P part) → P value) :
    ∀ items : List Json, ∀ part ∈ items, P part
  | [] => List.forall_mem_nil _
  | x :: xs => List.forall_mem_cons.2 ⟨induct step x, inductItems step xs⟩

theorem inductMembers {P : Json → Prop} (step : ∀ value, (∀ part ∈ value.inner, P part) → P value) :
    ∀ members : List (String × Json), ∀ part ∈ members.map Prod.snd, P part
  | [] => List.forall_mem_nil _
  | (_, x) :: xs => List.forall_mem_cons.2 ⟨induct step x, inductMembers step xs⟩

end

mutual

/-- A value and all values inside it, at whatever depth. -/
def parts : Json → List Json
  | .array items => .array items :: partsOfItems items
  | .object members => .object members :: partsOfMembers members
  | .null => [.null]
  | .bool b => [.bool b]
  | .number n => [.number n]
  | .string s => [.string s]
termination_by structural value => value

def partsOfItems : List Json → List Json
  | [] => []
  | x :: xs => parts x ++ partsOfItems xs
termination_by structural items => items

def partsOfMembers : List (String × Json) → List Json
  | [] => []
  | (_, x) :: xs => parts x ++ partsOfMembers xs
termination_by structural members => members

end

theorem partsOfItems_eq (items : List Json) : partsOfItems items = items.flatMap parts := by
  induction items with
  | nil => rfl
  | cons x xs ih => rw [partsOfItems, ih, List.flatMap_cons]

theorem partsOfMembers_eq (members : List (String × Json)) :
    partsOfMembers members = (members.map Prod.snd).flatMap parts := by
  induction members with
  | nil => rfl
  | cons member rest ih => rw [partsOfMembers, ih, List.map_cons, List.flatMap_cons]

theorem parts_eq (value : Json) : value.parts = value :: value.inner.flatMap parts := by
  cases value with
  | array items => rw [parts, partsOfItems_eq, inner]
  | object members => rw [parts, partsOfMembers_eq, inner]
  | _ => rfl

/-- A value and all values inside it have a property. -/
def Everywhere (P : Json → Prop) (value : Json) : Prop :=
  ∀ part ∈ value.parts, P part

instance (P : Json → Prop) [DecidablePred P] (value : Json) : Decidable (Everywhere P value) := by
  unfold Everywhere
  infer_instance

theorem everywhere_iff {P : Json → Prop} {value : Json} :
    Everywhere P value ↔ P value ∧ ∀ part ∈ value.inner, Everywhere P part := by
  rw [Everywhere, parts_eq, List.forall_mem_cons]
  refine and_congr_right fun _ => ?_
  simp only [List.mem_flatMap]
  constructor
  · intro each part member inside found
    exact each inside ⟨part, member, found⟩
  · rintro each inside ⟨part, member, found⟩
    exact each part member inside found

end Json

/-! ## Numbers -/

/-- A character that is neither white space nor a quotation mark. -/
def Visible (c : Char) : Prop :=
  c.isWhitespace = false ∧ c ≠ '"'

instance (c : Char) : Decidable (Visible c) := by
  unfold Visible
  infer_instance

theorem Visible.of_isDigit {c : Char} (digit : c.isDigit = true) : Visible c := by
  constructor
  · by_contra blank
    simp only [Char.isWhitespace, Bool.or_eq_false_iff, decide_eq_false_iff_not, not_and_or,
      not_not] at blank
    rcases blank with ((rfl | rfl) | rfl) | rfl <;> simp at digit
  · rintro rfl
    simp at digit

/-- A text of visible characters. -/
def Unbroken (text : String) : Prop :=
  ∀ c ∈ text.toList, Visible c

namespace Unbroken

variable {s t : String}

theorem append_iff : Unbroken (s ++ t) ↔ Unbroken s ∧ Unbroken t := by
  simp only [Unbroken, String.toList_append, List.forall_mem_append]

theorem ofList_iff {cs : List Char} : Unbroken (String.ofList cs) ↔ ∀ c ∈ cs, Visible c := by
  simp only [Unbroken, String.toList_ofList]

theorem toString_nat (n : Nat) : Unbroken (toString n) := by
  intro c member
  change c ∈ n.repr.toList at member
  rw [Nat.toList_repr] at member
  exact .of_isDigit (Nat.isDigit_of_mem_toDigits (by decide) (by decide) member)

theorem toString_int (n : Int) : Unbroken (toString n) := by
  rw [Int.toString_eq_repr, Int.repr_eq_if]
  split
  · exact toString_nat _
  · have sign : Unbroken "-" := by simp [Unbroken, Visible]
    exact append_iff.2 ⟨sign, toString_nat _⟩

/-- A decimal in a document is written with digits, points and exponent marks. -/
theorem write (d : Decimal) : Unbroken (DecimalLayout.document.write d) := by
  obtain ⟨zero, fraction, point⟩ : Unbroken "0" ∧ Unbroken "0." ∧ Unbroken "." := by
    simp [Unbroken, Visible]
  obtain ⟨whole, up, down⟩ : Unbroken DecimalLayout.document.wholeEnd ∧
      Unbroken DecimalLayout.document.exponentMark ∧
      Unbroken DecimalLayout.document.negativeExponentMark := by
    simp [DecimalLayout.document, Unbroken, Visible]
  have zeros : ∀ n, Unbroken (DecimalLayout.zeros n) := by
    intro n
    refine ofList_iff.2 fun c member => ?_
    obtain rfl := List.eq_of_mem_replicate member
    decide
  have digits := toString_nat d.coefficient
  have front : ∀ n, ∀ c ∈ (toString d.coefficient).toList.take n, Visible c :=
    fun n c member => digits c (List.mem_of_mem_take member)
  have back : ∀ n, ∀ c ∈ (toString d.coefficient).toList.drop n, Visible c :=
    fun n c member => digits c (List.mem_of_mem_drop member)
  simp only [DecimalLayout.write]
  split
  · simp only [append_iff, zero, whole, and_self]
  · split
    · split
      · simp only [append_iff, fraction, zeros, String.ofList_toList, digits, and_self]
      · split
        · simp only [append_iff, zeros, whole, String.ofList_toList, digits, and_self]
        · simp only [append_iff, ofList_iff, point, and_true]
          exact ⟨front _, back _⟩
    · have body : Unbroken (if ((toString d.coefficient).toList.drop 1).isEmpty then
          String.ofList ((toString d.coefficient).toList.take 1)
        else String.ofList ((toString d.coefficient).toList.take 1) ++ "." ++
          String.ofList ((toString d.coefficient).toList.drop 1)) := by
        split
        · exact ofList_iff.2 (front 1)
        · simp only [append_iff, ofList_iff, point, and_true]
          exact ⟨front 1, back 1⟩
      split
      · exact append_iff.2 ⟨append_iff.2 ⟨body, down⟩, toString_int _⟩
      · exact append_iff.2 ⟨append_iff.2 ⟨body, up⟩, toString_int _⟩

end Unbroken

theorem Number.unbroken_text (n : Number) : Unbroken n.text := by
  cases n with
  | integer n => exact .toString_int n
  | double x =>
    obtain ⟨nan, infinite, sign⟩ : Unbroken "NaN" ∧ Unbroken "inf" ∧ Unbroken "-" := by
      simp [Unbroken, Visible]
    have body : Unbroken
        (if x.isInfinite then "inf" else DecimalLayout.document.write x.shortest) := by
      split
      · exact infinite
      · exact .write _
    simp only [Number.text, Double.text]
    split
    · exact nan
    · split
      · exact Unbroken.append_iff.2 ⟨sign, body⟩
      · exact body

/-! No number is written without a character. -/

theorem Decimal.write_ne_empty (d : Decimal) : DecimalLayout.document.write d ≠ "" := by
  obtain ⟨whole, up, down⟩ : DecimalLayout.document.wholeEnd ≠ "" ∧
      DecimalLayout.document.exponentMark ≠ "" ∧
      DecimalLayout.document.negativeExponentMark ≠ "" := by
    simp [DecimalLayout.document]
  simp only [DecimalLayout.write]
  split
  · simp
  · split
    · split
      · simp
      · split
        · simp [whole]
        · simp
    · split
      · simp [down]
      · simp [up]

theorem Number.text_ne_empty (n : Number) : n.text ≠ "" := by
  cases n with
  | integer n =>
    rw [Number.text, Int.toString_eq_repr, Int.repr_eq_if]
    split
    · simp
    · simp
  | double x =>
    simp only [Number.text, Double.text]
    split
    · simp
    · split
      · simp
      · split
        · simp
        · exact x.shortest.write_ne_empty

/-! ## Strings -/

namespace Json

/-- What stands for a character inside a string. -/
inductive Escaped (c : Char) : List Char → Prop where
  | itself (noQuote : c ≠ '"') (noBackslash : c ≠ '\\') (high : 32 ≤ c.toNat) : Escaped c [c]
  | pair {letter : Char} (visible : letter.isWhitespace = false) : Escaped c ['\\', letter]
  | code {m n : Nat} (m_lt : m < 16) (n_lt : n < 16) :
      Escaped c ['\\', 'u', '0', '0', hexDigit m, hexDigit n]

theorem hexDigit_visible : ∀ n < 16, Visible (hexDigit n) ∧ hexDigit n ≠ '\\' := by
  decide

theorem escaped (c : Char) : Escaped c (escape c) := by
  unfold escape
  split
  · exact .pair (by decide)
  · exact .pair (by decide)
  · exact .pair (by decide)
  · exact .pair (by decide)
  · exact .pair (by decide)
  · exact .pair (by decide)
  · exact .pair (by decide)
  · rename_i noQuote noBackslash _ _ _ _ _
    split
    · rename_i control
      exact .code (by omega) (by omega)
    · rename_i printed
      exact .itself noQuote noBackslash (by omega)

/-- A string is written on one line. -/
theorem Escaped.no_line_end {c d : Char} {text : List Char} (escaped : Escaped c text)
    (member : d ∈ text) : d ≠ '\n' ∧ d ≠ '\r' := by
  cases escaped with
  | itself _ _ high =>
    obtain rfl := List.mem_singleton.1 member
    constructor
    · rintro rfl
      simp at high
    · rintro rfl
      simp at high
  | pair visible =>
    rcases List.mem_pair.1 member with rfl | rfl
    · decide
    · constructor
      · rintro rfl
        simp at visible
      · rintro rfl
        simp at visible
  | @code m n m_lt n_lt =>
    have digits : ∀ k < 16, hexDigit k ≠ '\n' ∧ hexDigit k ≠ '\r' := by decide
    simp only [List.mem_cons, List.not_mem_nil, or_false] at member
    rcases member with rfl | rfl | rfl | rfl | rfl | rfl
    · decide
    · decide
    · decide
    · decide
    · exact digits m m_lt
    · exact digits n n_lt

end Json

end PropSandbox

import PropSandbox.Double
import PropSandbox.Record

/-!
# JSON values

A fixture value is a JSON value. Whole numbers and doubles are told apart, so `1` and `1.0` are
different values, and the members of an object form a record: they are listed by ascending name.
-/

namespace PropSandbox

/-- A JSON number: a whole number, or a double for everything else. -/
inductive Number where
  | integer (n : Int)
  | double (x : Double)
  deriving DecidableEq, Inhabited

/-- A JSON value. -/
inductive Json where
  | null
  | bool (b : Bool)
  | number (n : Number)
  | string (s : String)
  | array (items : List Json)
  | object (members : List (String × Json))
  deriving Inhabited

namespace Number

/-- The same number: equal whole numbers, or the same double. -/
def same : Number → Number → Bool
  | .integer m, .integer n => m == n
  | .double x, .double y => x.same y
  | _, _ => false

theorem same_refl (n : Number) : n.same n = true := by
  cases n <;> simp [same, Double.same_refl]

/-- Whether a whole number can be written as one: it fits 64 bits, with or without sign. -/
def IsWhole (n : Int) : Prop :=
  -0x8000000000000000 ≤ n ∧ n < 0x10000000000000000

instance (n : Int) : Decidable (IsWhole n) := by
  unfold IsWhole
  infer_instance

end Number

namespace Json

def ofInt (n : Int) : Json := .number (.integer n)

def ofNat (n : Nat) : Json := .number (.integer n)

/-- The value of a double; what is no finite number has none and becomes null. -/
def ofDouble (x : Double) : Json :=
  if x.isFinite then .number (.double x) else .null

/-- The value of an optional text. -/
def ofText? : Option String → Json
  | some s => .string s
  | none => .null

def isNull : Json → Bool
  | .null => true
  | _ => false

theorem isNull_eq_false {value : Json} (h : value ≠ .null) : value.isNull = false := by
  cases value with
  | null => exact absurd rfl h
  | _ => rfl

def text? : Json → Option String
  | .string s => some s
  | _ => none

def items? : Json → Option (List Json)
  | .array items => some items
  | _ => none

def members? : Json → Option (Record Json)
  | .object members => some members
  | _ => none

/-- The member of a value under a name; only objects have members. -/
def member? (value : Json) (name : String) : Option Json :=
  value.members?.bind (Record.get? · name)

/-! ## Equality -/

mutual

/-- The same value: numbers by `Number.same`, all else by structure. -/
def same : Json → Json → Bool
  | .null, .null => true
  | .bool a, .bool b => a == b
  | .number m, .number n => m.same n
  | .string s, .string t => s == t
  | .array xs, .array ys => sameItems xs ys
  | .object xs, .object ys => sameMembers xs ys
  | _, _ => false
termination_by structural x => x

def sameItems : List Json → List Json → Bool
  | [], [] => true
  | x :: xs, y :: ys => same x y && sameItems xs ys
  | _, _ => false
termination_by structural xs => xs

def sameMembers : List (String × Json) → List (String × Json) → Bool
  | [], [] => true
  | (k, x) :: xs, (l, y) :: ys => k == l && same x y && sameMembers xs ys
  | _, _ => false
termination_by structural xs => xs

end

instance : BEq Json := ⟨same⟩

mutual

theorem same_refl : ∀ x : Json, x.same x = true
  | .null => rfl
  | .bool b => by simp [same]
  | .number n => by simp [same, Number.same_refl]
  | .string s => by simp [same]
  | .array xs => by simp [same, sameItems_refl xs]
  | .object xs => by simp [same, sameMembers_refl xs]

theorem sameItems_refl : ∀ xs : List Json, sameItems xs xs = true
  | [] => rfl
  | x :: xs => by simp [sameItems, same_refl x, sameItems_refl xs]

theorem sameMembers_refl : ∀ xs : List (String × Json), sameMembers xs xs = true
  | [] => rfl
  | (k, x) :: xs => by simp [sameMembers, same_refl x, sameMembers_refl xs]

end

/-! ## Order of members -/

mutual

/-- Every object inside a value lists its members by ascending name, each name once. -/
def Ordered : Json → Prop
  | .array xs => OrderedItems xs
  | .object xs => Record.Ascending xs ∧ OrderedMembers xs
  | _ => True
termination_by structural x => x

def OrderedItems : List Json → Prop
  | [] => True
  | x :: xs => Ordered x ∧ OrderedItems xs
termination_by structural xs => xs

def OrderedMembers : List (String × Json) → Prop
  | [] => True
  | (_, x) :: xs => Ordered x ∧ OrderedMembers xs
termination_by structural xs => xs

end

theorem Ordered.item {items : List Json} {item : Json} (ordered : (Json.array items).Ordered)
    (listed : item ∈ items) : item.Ordered := by
  change OrderedItems items at ordered
  induction items with
  | nil => cases listed
  | cons first rest ih =>
    rcases List.mem_cons.1 listed with rfl | later
    · exact ordered.1
    · exact ih later ordered.2

theorem Ordered.member {members : List (String × Json)} {name : String} {value : Json}
    (ordered : (Json.object members).Ordered)
    (found : Record.get? members name = some value) : value.Ordered := by
  have each : OrderedMembers members := ordered.2
  clear ordered
  induction members with
  | nil => cases found
  | cons first rest ih =>
    obtain ⟨other, old⟩ := first
    rw [Record.get?_cons] at found
    split at found
    · cases found
      exact each.1
    · exact ih found each.2

/-- A member that is not there counts as null. -/
theorem Ordered.field {members : List (String × Json)} (ordered : (Json.object members).Ordered)
    (name : String) : ((Record.get? members name).getD .null).Ordered := by
  cases found : Record.get? members name with
  | none => exact trivial
  | some value => exact ordered.member found

end Json

end PropSandbox

import PropSandbox.Json

/-!
# Cursors

A cursor is a path into a value: a member name or a list index at each level. One cursor both
reads and writes, and reaching deeper makes a new cursor.
-/

namespace PropSandbox

/-- One step of a cursor. -/
inductive Segment where
  | index (i : Nat)
  | key (name : String)
  deriving DecidableEq, Repr

/-- A path of steps, outermost first. -/
abbrev Cursor := List Segment

namespace Segment

def key? : Segment → Option String
  | .key name => some name
  | .index _ => none

def index? : Segment → Option Nat
  | .index i => some i
  | .key _ => none

/-- The bare text of a step. -/
def text : Segment → String
  | .index i => toString i
  | .key name => name

end Segment

namespace Json

/-- The part of a value one step below it. -/
def child? (value : Json) : Segment → Option Json
  | .key name => value.member? name
  | .index i => value.items?.bind (·[i]?)

end Json

namespace Cursor

def root : Cursor := []

def child (c : Cursor) (step : Segment) : Cursor :=
  c ++ [step]

/-- The innermost member name on a path. -/
def lastKey? (c : Cursor) : Option String :=
  c.reverse.findSome? Segment.key?

/-- The label of a path whose start is already written: `[i]` for an index, `.name` for a name,
and no point before a name that comes first of all. -/
def label : Cursor → String → String
  | [], written => written
  | .index i :: rest, written => label rest (written ++ "[" ++ toString i ++ "]")
  | .key name :: rest, written =>
    label rest (if written.isEmpty then name else written ++ "." ++ name)

/-- The text of a path in messages. -/
def text : Cursor → String
  | [] => "<root>"
  | c => label c ""

def get? : Cursor → Json → Option Json
  | [], value => some value
  | step :: rest, value => (value.child? step).bind (get? rest)

@[simp] theorem get?_nil (value : Json) : get? [] value = some value := rfl

@[simp] theorem get?_cons (step : Segment) (rest : Cursor) (value : Json) :
    get? (step :: rest) value = (value.child? step).bind (get? rest) := rfl

theorem get?_append (c d : Cursor) (value : Json) :
    get? (c ++ d) value = (get? c value).bind (get? d) := by
  induction c generalizing value with
  | nil => rfl
  | cons step rest ih =>
    simp only [List.cons_append, get?_cons]
    cases value.child? step <;> simp [ih]

/-- What is absent and what is null read the same, also further down. -/
theorem getD_get?_cons (step : Segment) (rest : Cursor) (root : Json) :
    (get? (step :: rest) root).getD .null =
      (get? rest ((root.child? step).getD .null)).getD .null := by
  rw [get?_cons]
  cases root.child? step with
  | some inner => rfl
  | none =>
    cases rest with
    | nil => rfl
    | cons next rest => cases next <;> rfl

/-! ## The JSON form -/

/-- The JSON form of a cursor: an array of names and indices. -/
def toJson (c : Cursor) : Json :=
  .array (c.map fun
    | .index i => .ofNat i
    | .key name => .string name)

/-- The step a JSON value stands for: a string, or a whole number from 0 to below `2 ^ 64`. -/
def stepOfJson? : Json → Option Segment
  | .string name => some (.key name)
  | .number (.integer n) => if 0 ≤ n ∧ n < 0x10000000000000000 then some (.index n.toNat) else none
  | _ => none

/-- The cursor a JSON value stands for. -/
def ofJson? : Json → Option Cursor
  | .array items => items.mapM stepOfJson?
  | _ => none

end Cursor

end PropSandbox

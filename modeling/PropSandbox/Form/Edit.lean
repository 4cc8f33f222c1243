import PropSandbox.Cursor.Write
import PropSandbox.Form

/-!
# Edits

An edit comes back from a form as a cursor and a change: set a value, clear it to null, remove an
item of a list, or append a generated one. An edit is applied to the value at the cursor, whose
type says what an appended item looks like.
-/

namespace PropSandbox

/-- A change to the value at a cursor. -/
inductive FieldEdit where
  | set (value : Json)
  | clear
  | removeItem (index : Nat)
  | appendItem

namespace FieldEdit

/-! ## The JSON form -/

def toJson : FieldEdit → Json
  | .set value => .object [("op", .string "set"), ("value", value)]
  | .clear => .object [("op", .string "clear")]
  | .removeItem index => .object [("op", .string "remove_item"), ("value", .ofNat index)]
  | .appendItem => .object [("op", .string "append_item")]

/-- The index a JSON value stands for. -/
def indexOfJson? : Json → Option Nat
  | .number (.integer n) => if 0 ≤ n ∧ n < 0x10000000000000000 then some n.toNat else none
  | _ => none

/-- The edit of an operation and a value that may be absent. -/
def ofParts? (op : String) (value : Option Json) : Option FieldEdit :=
  if op = "set" then value.map .set
  else if op = "remove_item" then (value.bind indexOfJson?).map .removeItem
  else if op = "clear" ∨ op = "append_item" then
    match value with
    | none | some .null => some (if op = "clear" then .clear else .appendItem)
    | some _ => none
  else none

/-- The name of an operation: a text, or the only name of an object that holds null under it. -/
def operation? : Json → Option String
  | .string op => some op
  | .object [(op, .null)] => some op
  | _ => none

/-- The edit a JSON value stands for: an object with the operation and its value, or an array of
the two. -/
def ofJson? : Json → Option FieldEdit
  | .object members => do
    let op ← (Record.get? members "op").bind operation?
    ofParts? op (Record.get? members "value")
  | .array [op, value] => (operation? op).bind fun op => ofParts? op (some value)
  | _ => none

/-! ## Applying edits -/

/-- The item type of a list type. -/
def itemType? (t : PropType) : Option PropType :=
  t.leaf?.bind fun leaf => if leaf.kind = .built .arrayOf then leaf.element? else none

variable {σ : Type}

/-- Removes an item of the list at a cursor. A list that is absent or null has no items. -/
def removeFrom (c : Cursor) (index : Nat) (root : Json) : Written Unit :=
  match c.get? root with
  | some (.array _) =>
    let w := Cursor.remove (c.child (.index index)) root
    ⟨w.result.map fun _ => (), w.value⟩
  | some .null | none => ⟨.error (.outOfBounds index 0), root⟩
  | some _ => ⟨.error (.notAList c.text), root⟩

/-- Appends a generated item to the list at a cursor. -/
def appendTo (config : GenerationConfig σ) (t : PropType) (c : Cursor) (root : Json) :
    StateM σ (Written Unit) :=
  match itemType? t with
  | none => pure ⟨.error (.notAList c.text), root⟩
  | some item =>
    let append (length : Nat) : StateM σ (Written Unit) := do
      let place := c.child (.index length)
      let value ← config.generate item place
      pure (Cursor.set value place root)
    match c.get? root with
    | some (.array items) => append items.length
    | some .null | none => append 0
    | some _ => pure ⟨.error (.notAList c.text), root⟩

/-- Applies an edit to the value at a cursor, which is of the given type. -/
def apply (config : GenerationConfig σ) (t : PropType) (c : Cursor) (root : Json) :
    FieldEdit → StateM σ (Written Unit)
  | .set value => pure (Cursor.set value c root)
  | .clear => pure (Cursor.set .null c root)
  | .removeItem index => pure (removeFrom c index root)
  | .appendItem => appendTo config t c root

end FieldEdit

end PropSandbox

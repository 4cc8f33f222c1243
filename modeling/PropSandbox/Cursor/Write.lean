import PropSandbox.Cursor
import PropSandbox.Marker

/-!
# Writing through cursors

Writing walks down a path and opens containers where it meets null: an empty object for a name, an
empty array for an index. A name that is missing is added, and an index equal to the length of its
list appends. A write that fails further down keeps the containers it has opened, so a write gives
back its result together with the value it leaves behind.
-/

namespace PropSandbox

/-- Why a value could not be reached, written or removed. -/
inductive CursorError where
  /-- A step into a value that has no parts of that sort. -/
  | typeMismatch (step : String) (found : String)
  /-- An index past the end of a list. -/
  | outOfBounds (index length : Nat)
  /-- Nothing at a path. -/
  | missing (path : String)
  /-- The whole value has no parent it could be taken from. -/
  | root
  /-- A list edit on something that is no list. -/
  | notAList (path : String)
  deriving DecidableEq, Repr

def CursorError.message : CursorError → String
  | .typeMismatch step found => s!"cannot address `{step}` inside a value of type `{found}`"
  | .outOfBounds index length => s!"index {index} is out of bounds for a list of length {length}"
  | .missing path => s!"no value at `{path}`"
  | .root => "the root value cannot be removed"
  | .notAList path => s!"`{path}` does not address a list"

/-- What a write answers, and the value it leaves behind. -/
structure Written (α : Type) where
  result : Except CursorError α
  value : Json

namespace Written

variable {α : Type}

/-- Puts the value a write left behind into a larger one. -/
def within (w : Written α) (f : Json → Json) : Written α :=
  { w with value := f w.value }

def Succeeded (w : Written α) : Prop :=
  ∃ a, w.result = .ok a

end Written

namespace Json

/-- A value made ready for a step: null becomes the empty container the step needs. -/
def opened : Json → Segment → Json
  | .null, .key _ => .object []
  | .null, .index _ => .array []
  | value, _ => value

end Json

namespace Cursor

def set (new : Json) : Cursor → Json → Written Unit
  | [], _ => ⟨.ok (), new⟩
  | step :: rest, target =>
    match step, target.opened step with
    | .key name, .object members =>
      (set new rest ((Record.get? members name).getD .null)).within fun inner =>
        .object (Record.insert members name inner)
    | .index i, .array items =>
      if i < items.length then
        (set new rest (items[i]?.getD .null)).within fun inner => .array (items.set i inner)
      else if i = items.length then
        (set new rest .null).within fun inner => .array (items ++ [inner])
      else ⟨.error (.outOfBounds i items.length), .array items⟩
    | step, other => ⟨.error (.typeMismatch step.text (Marker.typeName other)), other⟩

section

variable (new : Json) (name : String) (rest : Cursor) (members : List (String × Json))
  {i : Nat} {items : List Json}

/-! A write by the first step of its path: it goes on below, with a part that is there or with null
for one that is not, or it stops. -/

theorem set_key : set new (.key name :: rest) (.object members) =
    (set new rest ((Record.get? members name).getD .null)).within fun inner =>
      .object (Record.insert members name inner) := rfl

theorem set_key_null : set new (.key name :: rest) .null =
    (set new rest .null).within fun inner => .object [(name, inner)] := rfl

theorem set_index (within : i < items.length) : set new (.index i :: rest) (.array items) =
    (set new rest items[i]).within fun inner => .array (items.set i inner) := by
  simp [set, Json.opened, within]

theorem set_index_length : set new (.index items.length :: rest) (.array items) =
    (set new rest .null).within fun inner => .array (items ++ [inner]) := by
  simp [set, Json.opened]

theorem set_index_beyond (beyond : items.length < i) : set new (.index i :: rest) (.array items) =
    ⟨.error (.outOfBounds i items.length), .array items⟩ := by
  simp only [set, Json.opened]
  rw [if_neg (by omega), if_neg (by omega)]

theorem set_first_null : set new (.index 0 :: rest) .null =
    (set new rest .null).within fun inner => .array [inner] := rfl

/-- A list that is not there is opened before its length is looked at. -/
theorem set_later_null : set new (.index (i + 1) :: rest) .null =
    ⟨.error (.outOfBounds (i + 1) 0), .array []⟩ :=
  set_index_beyond new rest (Nat.succ_pos i)

end

/-- Takes the part one step below a container out of it. The path is the one messages name. -/
def takeOut (path : Cursor) (container : Json) (step : Segment) : Except CursorError (Json × Json) :=
  match step, container with
  | .key name, .object members =>
    match Record.get? members name with
    | some old => .ok (old, .object (Record.erase members name))
    | none => .error (.missing path.text)
  | .index i, .array items =>
    match items[i]? with
    | some old => .ok (old, .array (items.eraseIdx i))
    | none => .error (.outOfBounds i items.length)
  | step, other => .error (.typeMismatch step.text (Marker.typeName other))

/-- Removes the value at a path from its parent and answers it. -/
def remove (c : Cursor) (value : Json) : Written Json :=
  match c.getLast? with
  | none => ⟨.error .root, value⟩
  | some last =>
    let parent : Cursor := c.dropLast
    match get? parent value with
    | none => ⟨.error (.missing (text parent)), value⟩
    | some container =>
      match takeOut c container last with
      | .error e => ⟨.error e, value⟩
      | .ok (old, smaller) => ⟨.ok old, (set smaller parent value).value⟩

end Cursor

end PropSandbox

import PropSandbox.Document

/-!
# TOML tables

A text in TOML is a list of statements that fill one table. A header opens the table at a path, or
adds a table to the list at a path; an entry sets a value in the table that was opened last. No key
is set twice, a table is opened by one header at most, and a value that is written in full, as all
arrays and inline tables are, is closed. What a longer path implies on its way may still be opened
or extended later.
-/

namespace PropSandbox

namespace Toml

/-- A statement. -/
inductive Statement where
  | header (path : List String)
  | listHeader (path : List String)
  | entry (path : List String) (value : Node)

/-- How a table came to be. -/
inductive Origin where
  /-- On the way of a longer header. -/
  | implied
  /-- On the way of the path of an entry. -/
  | dotted
  | header
  deriving DecidableEq

/-- What a key holds while a table is filled. -/
inductive Slot where
  | closed (value : Node)
  | table (origin : Origin) (slots : List (String × Slot))
  /-- Tables added by headers; the last one is open. -/
  | tables (items : List Slot)

/-- A table while it is filled. -/
abbrev Slots := Record Slot

namespace Slot

mutual

/-- The finished value. -/
def toNode : Slot → Node
  | .closed value => value
  | .table _ slots => .mapping (entriesToNodes slots)
  | .tables items => .sequence (itemsToNodes items)
termination_by structural slot => slot

def itemsToNodes : List Slot → List Node
  | [] => []
  | item :: items => toNode item :: itemsToNodes items
termination_by structural items => items

def entriesToNodes : List (String × Slot) → List (Scalar × Node)
  | [] => []
  | (name, slot) :: slots => (.ofText name, toNode slot) :: entriesToNodes slots
termination_by structural slots => slots

end

end Slot

/-- Changes the table at a path. Missing tables on the way are made; a path of an entry does not
lead into a table that a header has opened. -/
def within (origin : Origin) (change : Slots → Option Slots) : List String → Slots → Option Slots
  | [], slots => change slots
  | name :: path, slots =>
    match Record.get? slots name with
    | none => do
      let inner ← within origin change path []
      some (Record.insert slots name (.table origin inner))
    | some (.table made inner) =>
      if origin = .dotted ∧ made = .header then none
      else do
        let inner ← within origin change path inner
        some (Record.insert slots name (.table made inner))
    | some (.tables items) =>
      match items.getLast? with
      | some (.table made inner) => do
        let inner ← within origin change path inner
        some (Record.insert slots name (.tables (items.dropLast ++ [.table made inner])))
      | _ => none
    | some (.closed _) => none

def openTable (name : String) (slots : Slots) : Option Slots :=
  match Record.get? slots name with
  | none => some (Record.insert slots name (.table .header []))
  | some (.table .implied inner) => some (Record.insert slots name (.table .header inner))
  | some _ => none

/-- Adds an empty table to the list under a key. -/
def addTable (name : String) (slots : Slots) : Option Slots :=
  match Record.get? slots name with
  | none => some (Record.insert slots name (.tables [.table .header []]))
  | some (.tables items) =>
    some (Record.insert slots name (.tables (items ++ [.table .header []])))
  | some _ => none

/-- Sets a key that is not set. -/
def setKey (name : String) (value : Node) (slots : Slots) : Option Slots :=
  match Record.get? slots name with
  | none => some (Record.insert slots name (.closed value))
  | some _ => none

/-- Sets the value at the path of an entry. -/
def setEntry (path : List String) (value : Node) (slots : Slots) : Option Slots :=
  path.getLast?.bind fun name => within .dotted (setKey name value) path.dropLast slots

/-- The table filled so far, and the path of the table opened last. -/
structure Filling where
  slots : Slots
  opened : List String

def Filling.step (filling : Filling) : Statement → Option Filling
  | .header path => do
    let name ← path.getLast?
    let slots ← within .implied (openTable name) path.dropLast filling.slots
    some ⟨slots, path⟩
  | .listHeader path => do
    let name ← path.getLast?
    let slots ← within .implied (addTable name) path.dropLast filling.slots
    some ⟨slots, path⟩
  | .entry path value => do
    let slots ← within .implied (setEntry path value) filling.opened filling.slots
    some { filling with slots }

def tableOf? (statements : List Statement) : Option Node := do
  let filling ← statements.foldlM Filling.step ⟨[], []⟩
  some (Slot.table .header filling.slots).toNode

end Toml

end PropSandbox

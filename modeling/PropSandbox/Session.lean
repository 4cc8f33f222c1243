import PropSandbox.Component
import PropSandbox.Fixture
import PropSandbox.Form.Edit
import PropSandbox.SandboxError

/-!
# Sessions

A session knows the list of components, the selected component with its prop types, and the
fixtures that are edited. What is loaded for a component is delivered with the key it was loaded
for, and is taken only while that key is selected. An operation that changes fixtures answers its
result together with the session it leaves behind.
-/

namespace PropSandbox

/-- The selected component, as far as it has been loaded. -/
structure Selection where
  key : String
  component : Option Component
  /-- The prop types of the component, inferred once when it was delivered. -/
  types : Option PropTypes
  fixtures : Option FixtureSet

/-- The state of a session. -/
structure Session where
  /-- The components that were listed last; absent before and while they are listed. -/
  componentList : Option (List ComponentSummary)
  selected : Option Selection

/-- A fixture instance that is edited: where it stands, and the path inside it. -/
structure InstancePlace where
  selection : Selection
  fixtures : FixtureSet
  index : Nat
  path : Cursor
  value : Json

namespace Selection

def loadedTypes (s : Selection) : Except SandboxError PropTypes :=
  match s.types with
  | some types => .ok types
  | none => .error (.componentNotFound s.key)

def loadedFixtures (s : Selection) : Except SandboxError FixtureSet :=
  match s.fixtures with
  | some set => .ok set
  | none => .error (.fixturesNotLoaded s.key)

end Selection

namespace FixtureSet

def instanceAt (set : FixtureSet) (index : Nat) : Except SandboxError Json :=
  match set.instances[index]? with
  | some value => .ok value
  | none => .error (.instanceOutOfRange index set.size)

end FixtureSet

namespace Cursor

/-- Splits the cursor of a form into the index of an instance and the path inside it. -/
def splitInstance : Cursor → Except SandboxError (Nat × Cursor)
  | [] => .error (.cursor .root)
  | .index index :: path => .ok (index, path)
  | .key name :: _ => .error (.cursor (.typeMismatch name "array"))

end Cursor

/-- The values of all props, by name. -/
def GenerationConfig.generateProps {σ : Type} (config : GenerationConfig σ) :
    PropTypes → StateM σ (Record Json)
  | [] => pure []
  | (name, t) :: rest => do
    let value ← config.generate t (Cursor.root.child (.key name))
    let others ← config.generateProps rest
    pure ((name, value) :: others)

namespace Session

/-- A session in which nothing has happened. -/
def fresh : Session := ⟨none, none⟩

/-! ## Loading -/

/-- Selects a key. Nothing is loaded for it yet. -/
def start (s : Session) (key : String) : Session :=
  { s with selected := some ⟨key, none, none, none⟩ }

/-- Changes the selection if a key is still selected, and answers whether it is. -/
def deliver (s : Session) (key : String) (change : Selection → Selection) : Bool × Session :=
  match s.selected with
  | some selection =>
    if selection.key = key then (true, { s with selected := some (change selection) })
    else (false, s)
  | none => (false, s)

/-- Delivers the component that was loaded for a key. -/
def componentDidLoad (s : Session) (lib : Library) (key : String) (c : Component) :
    Bool × Session :=
  s.deliver key fun selection => { selection with component := some c, types := some (c.types lib) }

/-- Delivers the fixtures that were loaded for a key. -/
def fixturesDidLoad (s : Session) (key : String) (set : FixtureSet) : Bool × Session :=
  s.deliver key fun selection => { selection with fixtures := some set }

/-! ## Reading -/

def selectedKey? (s : Session) : Option String :=
  s.selected.map Selection.key

def component? (s : Session) : Option Component :=
  s.selected.bind Selection.component

/-- The prop types of the selected component. -/
def types? (s : Session) : Option PropTypes :=
  s.selected.bind Selection.types

def fixtures? (s : Session) : Option FixtureSet :=
  s.selected.bind Selection.fixtures

/-- The selection, which has to be there. -/
def selection (s : Session) : Except SandboxError Selection :=
  match s.selected with
  | some selection => .ok selection
  | none => .error .noComponentSelected

/-- The form of an instance; its cursors begin with the index of the instance. -/
def form (s : Session) (index : Nat) : Except SandboxError (List FieldView) := do
  let selection ← s.selection
  let types ← selection.loadedTypes
  let set ← selection.loadedFixtures
  let value ← set.instanceAt index
  pure (types.form value (Cursor.root.child (.index index)))

/-- The verdicts on the props of an instance that are not accepted, by name. -/
def complaints (s : Session) (index : Nat) : Except SandboxError (List Verdict) := do
  let selection ← s.selection
  let types ← selection.loadedTypes
  let set ← selection.loadedFixtures
  let value ← set.instanceAt index
  let verdicts := types.map fun entry =>
    entry.2.check ((value.member? entry.1).getD .null) entry.1 selection.key
  pure (verdicts.filter fun verdict => !verdict.isAccepted)

/-- What saving stores, and under which key. -/
def toSave (s : Session) : Except SandboxError (String × FixtureSet) := do
  let selection ← s.selection
  let set ← selection.loadedFixtures
  pure (selection.key, set)

/-! ## Editing -/

/-- The session with other fixtures for a selection. -/
def withFixtures (s : Session) (selection : Selection) (set : FixtureSet) : Session :=
  { s with selected := some { selection with fixtures := some set } }

/-- The session with another value at the place of an instance. -/
def withInstance (s : Session) (place : InstancePlace) (value : Json) : Session :=
  s.withFixtures place.selection ⟨place.fixtures.instances.set place.index value⟩

/-- The instance that an update addresses. -/
def placeOfUpdate (s : Session) (c : Cursor) : Except SandboxError InstancePlace := do
  let selection ← s.selection
  let fixtures ← selection.loadedFixtures
  let (index, path) ← c.splitInstance
  let value ← fixtures.instanceAt index
  pure { selection, fixtures, index, path, value }

def update (s : Session) (c : Cursor) (value : Json) : Except SandboxError Unit × Session :=
  match s.placeOfUpdate c with
  | .error e => (.error e, s)
  | .ok place =>
    let w := Cursor.set value place.path place.value
    (w.result.mapError .cursor, s.withInstance place w.value)

/-- The instance that an edit addresses, and the type at its cursor. -/
def placeOfEdit (s : Session) (c : Cursor) : Except SandboxError (InstancePlace × PropType) := do
  let (index, path) ← c.splitInstance
  let selection ← s.selection
  let types ← selection.loadedTypes
  let t ← match types.at? path with
    | some t => pure t
    | none => throw (.cursor (.missing c.text))
  let fixtures ← selection.loadedFixtures
  let value ← fixtures.instanceAt index
  pure ({ selection, fixtures, index, path, value }, t)

variable {σ : Type}

/-- Applies an edit of a form to the fixtures. -/
def applyEdit (config : GenerationConfig σ) (s : Session) (c : Cursor) (edit : FieldEdit) :
    StateM σ (Except SandboxError Unit × Session) :=
  match s.placeOfEdit c with
  | .error e => pure (.error e, s)
  | .ok (place, t) => do
    let w ← edit.apply config t place.path place.value
    pure (w.result.mapError .cursor, s.withInstance place w.value)

/-- The selection and the types that a new instance is generated for. -/
def toGenerate (s : Session) : Except SandboxError (Selection × PropTypes) := do
  let selection ← s.selection
  let types ← selection.loadedTypes
  pure (selection, types)

/-- Appends a generated instance and answers its index. -/
def addFixture (config : GenerationConfig σ) (s : Session) :
    StateM σ (Except SandboxError Nat × Session) :=
  match s.toGenerate with
  | .error e => pure (.error e, s)
  | .ok (selection, types) => do
    let props ← config.generateProps types
    match selection.loadedFixtures with
    | .error e => pure (.error e, s)
    | .ok set =>
      pure (.ok set.size, s.withFixtures selection ⟨set.instances ++ [.object props]⟩)

end Session

end PropSandbox

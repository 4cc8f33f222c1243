import PropSandbox.Failure
import PropSandbox.Session

/-!
# What a session stands on

A session asks one place for components and keeps fixtures in another. Either place works in a
monad of its own and may fail; the session then stays as it was left at that point.
-/

namespace PropSandbox

/-- Where components come from. -/
structure ComponentSource (m : Type → Type) where
  list : ExceptT Failure m (List ComponentSummary)
  find : String → ExceptT Failure m (Option Component)

/-- Where fixtures are kept, by key. What was never saved is empty. -/
structure FixtureStore (m : Type → Type) where
  load : String → ExceptT Failure m FixtureSet
  save : String → FixtureSet → ExceptT Failure m Unit

/-- The two places outside a session. -/
structure Backing (m : Type → Type) where
  components : ComponentSource m
  fixtures : FixtureStore m

variable {m : Type → Type} [Monad m]

/-- A registry as a source of components. -/
def Registry.source (registry : Registry) : ComponentSource m where
  list := pure registry.summaries
  find key := pure (Record.get? registry key)

/-- A store that keeps fixtures in a record. -/
def FixtureStore.inMemory : FixtureStore (StateM (Record FixtureSet)) where
  load key := do
    return (Record.get? (← get) key).getD .empty
  save key set := modify fun stored => Record.insert stored key set

/-- Work on a session. A failure keeps what was done to the session before it. -/
abbrev SessionWork (m : Type → Type) := ExceptT Failure (StateT Session m)

namespace SessionWork

/-- Work outside, which does not touch the session. -/
def outside {α : Type} (work : ExceptT Failure m α) : SessionWork m α :=
  ExceptT.mk fun session => do
    return (← work.run, session)

/-- A result of the sandbox. -/
def result {α : Type} : Except SandboxError α → SessionWork m α
  | .ok a => pure a
  | .error e => throw (.sandbox e)

/-- Lists the components. While they are listed there is no list. -/
def loadComponentList (backing : Backing m) : SessionWork m (List ComponentSummary) := do
  modify fun s => { s with componentList := none }
  let summaries ← outside backing.components.list
  modify fun s => { s with componentList := some summaries }
  pure summaries

/-- Selects a component and loads it with its fixtures. -/
def select (backing : Backing m) (lib : Library) (key : String) : SessionWork m Unit := do
  modify fun s => s.start key
  match ← outside (backing.components.find key) with
  | none => throw (.sandbox (.componentNotFound key))
  | some c =>
    modify fun s => (s.componentDidLoad lib key c).2
    let set ← outside (backing.fixtures.load key)
    modify fun s => (s.fixturesDidLoad key set).2

/-- Stores the fixtures of the selected component. -/
def save (backing : Backing m) : SessionWork m Unit := do
  let (key, set) ← result (← get).toSave
  outside (backing.fixtures.save key set)

end SessionWork

end PropSandbox

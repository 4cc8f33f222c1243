import PropSandbox.Component.Folder
import PropSandbox.Fixture.Store
import PropSandbox.Settings.Loading

/-!
# The program

A run of the program reads its command line, loads the settings, fills a registry from the folder
of components, and carries out the command in a fresh session over the fixture files.
-/

namespace PropSandbox

/-- Why a run does not come to its command. -/
inductive Refusal where
  | usage (fault : UsageFault)
  | failure (failure : Failure)
  deriving DecidableEq, Repr

/-- What a run comes to: the number of components that were loaded, and the output of the command
or its failure. -/
structure Report where
  loaded : Nat
  output : Except Failure String

namespace Program

variable {m : Type → Type} [Monad m] {σ : Type}

/-- An instrumented library with nothing but the standard leaves. -/
def library : Library :=
  (Library.instrument Library.fresh).2

/-- Carries out the command of a command line. -/
def invoke (fs : FileSystem m) (source : RandomSource σ) (invocation : Invocation) :
    ExceptT Failure m Report := do
  let settings ← Settings.ofInvocation fs invocation
  let filled ← Filling.addFolder fs ⟨[], library, 0⟩ settings.componentsPath
  let backing : Backing m :=
    ⟨filled.registry.source, FixtureStore.inDirectory fs settings.fixturesPath⟩
  let work := Command.execute backing filled.library settings.generation source invocation.command
  let (output, _) ← ExceptT.lift (work.run.run Session.fresh)
  pure ⟨filled.loaded, output⟩

/-- Runs the program on a command line, given without the name of the program. -/
def run (fs : FileSystem m) (source : RandomSource σ) (words : List String) :
    m (Except Refusal Report) := do
  match Invocation.ofWords words with
  | .error fault => pure (.error (.usage fault))
  | .ok invocation => return (← (invoke fs source invocation).run).mapError .failure

end Program

end PropSandbox

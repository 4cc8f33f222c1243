import PropSandbox.SandboxError

/-!
# Failures

Why a piece of work fails that reaches beyond the sandbox: into files, settings, or the code of
custom validators.
-/

namespace PropSandbox

/-- Why a piece of work fails. -/
inductive Failure where
  | sandbox (error : SandboxError)
  /-- A fixture file that does not hold a fixture set. -/
  | unreadableFixtures
  /-- A settings file that does not hold settings. -/
  | unreadableSettings
  /-- The file system refuses. -/
  | fileAccess
  /-- A custom validator gave up. -/
  | aborted (text : String)
  | other (message : String)
  deriving DecidableEq, Repr

def Failure.message : Failure → String
  | .sandbox error => error.message
  | .unreadableFixtures => "The file does not hold fixtures"
  | .unreadableSettings => "The file does not hold settings"
  | .fileAccess => "The file cannot be read or written"
  | .aborted text => text
  | .other message => message

/-- Work that comes to a result goes on with it from where it left. -/
theorem Failure.run_bind_ok {τ α β : Type} {work : ExceptT Failure (StateM τ) α}
    {next : α → ExceptT Failure (StateM τ) β} {a : α} {state between : τ}
    (first : work.run.run state = (.ok a, between)) :
    (work >>= next).run.run state = (next a).run.run between := by
  rw [ExceptT.run_bind, StateT.run_bind, first]
  rfl

end PropSandbox

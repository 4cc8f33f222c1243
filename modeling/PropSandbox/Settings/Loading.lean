import PropSandbox.CommandLine
import PropSandbox.Document.Format
import PropSandbox.FileSystem
import PropSandbox.Settings.Faults
import PropSandbox.Settings.Source

/-!
# Loading settings

Settings come from a file if there is one. A path names the file itself, or leaves its ending open.
Relative directories start from where the file is or would be. What a command line gives counts
more than the file, and settings with faults are rejected.
-/

namespace PropSandbox

namespace Settings

variable {m : Type → Type} [Monad m]

/-- The endings of settings files, in the order in which they are looked for. -/
def endings : List String := ["toml", "json", "yaml", "yml"]

/-- The first file there is among the endings of a path. -/
def findEnding (fs : FileSystem m) (path : String) : List String → m (Option String)
  | [] => pure none
  | ending :: others => do
    let file := path ++ "." ++ ending
    if ← fs.isFile file then pure (some file) else findEnding fs path others

/-- The file that a path means. -/
def findFile (fs : FileSystem m) (path : String) : m (Option String) := do
  if ← fs.isFile path then pure (some path) else findEnding fs path endings

/-- The settings in a text. What is left empty has all the defaults. -/
def parse? (format : DocumentFormat) (text : String) : Option Settings :=
  (format.document? text).bind fun node =>
    match node with
    | .scalar ⟨.null, some ""⟩ => some .default
    | node => LenientSettings.settings? node

/-- The settings of the file that a path means. Without a file, without a format for it, or where
it cannot be read, all settings have their defaults. -/
def ofFile (fs : FileSystem m) (path : String) : ExceptT Failure m Settings := do
  let file? ← ExceptT.lift (findFile fs path)
  match file?.bind fun file => (DocumentFormat.ofPath? file).map (file, ·) with
  | none => pure .default
  | some (file, format) =>
    match ← ExceptT.lift (fs.read file).run with
    | .error _ => pure .default
    | .ok text =>
      match parse? format text with
      | some settings => pure settings
      | none => throw .unreadableSettings

/-- The settings themselves, unless they have faults. -/
def reviewed (s : Settings) : Except Failure Settings :=
  if s.faults.isEmpty then .ok s else .error (.other (rejection s.faults))

/-- The base name of settings files. -/
def baseName : String := "eidos"

def ofDirectory (fs : FileSystem m) (root : String) : ExceptT Failure m Settings := do
  let s ← ofFile fs (Path.join root baseName)
  ExceptT.mk (pure { s with root }.reviewed)

/-- The settings with what a command line gives. -/
def overridden (s : Settings) (invocation : Invocation) : Settings where
  sandbox :=
    { componentsDir := invocation.componentsDir.getD s.sandbox.componentsDir
      fixturesDir := invocation.fixturesDir.getD s.sandbox.fixturesDir }
  generation :=
    { s.generation with
      policy := invocation.policy.getD s.generation.policy
      seed := invocation.seed <|> s.generation.seed }
  root := s.root

def directoryOf (path : String) : String :=
  ((Path.parent? path).filter fun directory => !directory.isEmpty).getD "."

/-- The settings that a command line means. -/
def ofInvocation (fs : FileSystem m) (invocation : Invocation) : ExceptT Failure m Settings := do
  let s ← ofFile fs invocation.config
  let s := { s with root := directoryOf invocation.config }
  ExceptT.mk (pure (s.overridden invocation).reviewed)

end Settings

end PropSandbox

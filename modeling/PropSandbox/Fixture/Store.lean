import PropSandbox.Document.Format
import PropSandbox.FileSystem
import PropSandbox.Json.Text
import PropSandbox.Session.Backing

/-!
# Fixture files

A directory keeps the fixtures of each key in a file of its own. Fixtures are written as JSON; they
are read from a JSON file if there is one, and else from a YAML file.
-/

namespace PropSandbox

namespace FixtureStore

/-- The endings of fixture files with their formats, in the order in which they are looked for. -/
def endings : List (String × DocumentFormat) :=
  [("json", .json), ("yaml", .yaml), ("yml", .yaml)]

/-- The file of a key with an ending. -/
def filePath (directory key ending : String) : String :=
  Path.join directory (key ++ "." ++ ending)

/-- The fixtures in a text. Only JSON may write the set as an array. -/
def parse? (format : DocumentFormat) (text : String) : Option FixtureSet :=
  (format.document? text).bind
    (if format = .json then FixtureSet.ofNode? else FixtureSet.ofMapping?)

/-- The text that is written for fixtures. -/
def write (set : FixtureSet) : String :=
  set.toJson.pretty

variable {m : Type → Type} [Monad m]

/-- Loads the first file there is among some endings. Without a file there are no fixtures. -/
def loadFirst (fs : FileSystem m) (directory key : String) :
    List (String × DocumentFormat) → ExceptT Failure m FixtureSet
  | [] => pure .empty
  | (ending, format) :: others => do
    let path := filePath directory key ending
    if ← fs.present path then
      match parse? format (← fs.read path) with
      | some set => pure set
      | none => throw .unreadableFixtures
    else loadFirst fs directory key others

/-- A store that keeps fixtures in the files of a directory. -/
def inDirectory (fs : FileSystem m) (directory : String) : FixtureStore m where
  load key := loadFirst fs directory key endings
  save key set := do
    fs.createDirectory directory
    fs.write (filePath directory key "json") (write set)

end FixtureStore

end PropSandbox

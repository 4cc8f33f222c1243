import PropSandbox.Failure
import PropSandbox.Path

/-!
# File systems

All that the sandbox asks of a file system: what stands at a path, the names in a directory, and
reading and writing whole files of text.
-/

namespace PropSandbox

/-- Access to files in a monad. -/
structure FileSystem (m : Type → Type) where
  isFile : String → m Bool
  isDirectory : String → m Bool
  /-- Whether anything is at a path; refused if the path leads through a file. -/
  present : String → ExceptT Failure m Bool
  /-- The names in a directory, ascending. -/
  names : String → m (List String)
  /-- The text of a file; refused if the file holds no text. -/
  read : String → ExceptT Failure m String
  write : String → String → ExceptT Failure m Unit
  /-- Makes a directory together with the directories it is in. -/
  createDirectory : String → ExceptT Failure m Unit

end PropSandbox

import PropSandbox.Program
import PropSandbox.Random.Mixer

/-!
# The command line

Connects the program to the files, the arguments and the output of a process.
-/

namespace PropSandbox

namespace Terminal

/-- An action on files, whose errors count as refusals. -/
def attempt {α : Type} (action : IO α) : ExceptT Failure IO α :=
  ExceptT.mk do
    try
      return .ok (← action)
    catch _ =>
      return .error .fileAccess

/-- Whether anything is at a path. A way through a file is an error. -/
def present (path : String) : IO Bool := do
  try
    let _ ← ((← IO.currentDir) / path).metadata
    return true
  catch
    | .noFileOrDirectory .. => return false
    | e => throw e

/-- The names in a directory, ascending. -/
def names (path : String) : IO (List String) := do
  try
    let entries ← ((← IO.currentDir) / path).readDir
    return Record.keys (Record.ofList (entries.toList.map fun entry => (entry.fileName, ())))
  catch _ =>
    return []

def files : FileSystem IO where
  isFile path := do
    let place := (← IO.currentDir) / path
    return (← place.pathExists) && !(← place.isDir)
  isDirectory path := do
    ((← IO.currentDir) / path).isDir
  present path := attempt (present path)
  names := names
  read path := attempt (IO.FS.readFile path)
  write path text := attempt (IO.FS.writeFile path text)
  createDirectory path := attempt (IO.FS.createDirAll path)

def usage : String :=
  String.join <| List.map (· ++ "\n")
    ["Usage: eidos [OPTIONS] <COMMAND>",
     "",
     "Commands:",
     "  list                       List the declared components",
     "  infer COMPONENT            Print the inferred prop types of a component",
     "  generate COMPONENT         Generate fixture instances for a component",
     "  check COMPONENT            Validate every stored instance of a component",
     "  show COMPONENT             Print the stored instances as script literals",
     "  form COMPONENT [INSTANCE]  Print the editor form for one instance",
     "",
     "Options:",
     "  -c, --config FILE          Path to the configuration file",
     "      --components-dir DIR   Directory of component declarations",
     "      --fixtures-dir DIR     Directory of fixture files",
     "      --policy POLICY        Value generation policy, static or random",
     "      --seed SEED            Seed for the random policy",
     "  -h, --help                 Print help",
     "  -V, --version              Print version",
     "",
     "Options of generate:",
     "  -n, --count COUNT          Number of instances to generate",
     "      --save                 Write the fixtures back to the fixture store"]

/-- What is said about a command line that is no invocation. -/
def complaint : UsageFault → String
  | .nothingGiven => usage
  | .noCommand => "error: a command is required\n"
  | .unknownCommand => "error: unrecognized command\n"
  | .missingArgument => "error: a required argument was not provided\n"
  | .invalidNumber => "error: a value is not a number in range\n"
  | .invalidValue => "error: a value is missing or not allowed\n"
  | .unknownArgument => "error: unexpected argument\n"
  | .givenTwice => "error: an argument was given more than once\n"
  | .unexpectedValue => "error: an option takes no value\n"
  | .helpRequested => usage
  | .versionRequested => "eidos 0.1.0\n"

/-- Ends with a message about a failure. -/
def fail (failure : Failure) : IO UInt32 := do
  IO.eprintln ("Error: " ++ failure.message)
  return 1

/-- Reports on a command line that is no invocation. -/
def explain (fault : UsageFault) : IO UInt32 := do
  if fault = .helpRequested ∨ fault = .versionRequested then
    IO.print (complaint fault)
    return 0
  else
    IO.eprint (complaint fault)
    return 2

end Terminal

end PropSandbox

open PropSandbox in
/-- Runs the program once. Draws without a seed start from a word of chance. -/
def main (words : List String) : IO UInt32 := do
  let entropy ← IO.rand 0 0xFFFFFFFFFFFFFFFF
  match ← Program.run Terminal.files (Mixer.source (UInt64.ofNat entropy)) words with
  | .error (.usage fault) => Terminal.explain fault
  | .error (.failure failure) => Terminal.fail failure
  | .ok report =>
    match report.output with
    | .error failure => Terminal.fail failure
    | .ok output => do
      IO.print output
      return 0

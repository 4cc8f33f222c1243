import PropSandbox.FileSystem
import PropSandbox.Glob

/-!
# Searching for paths

The paths that match a pattern are found directory by directory. They are listed in the order of
their names, each directory before what is in it.
-/

namespace PropSandbox

namespace Glob

variable {m : Type → Type} [Monad m]

/-- Collects what is found for each of some names. -/
def forEach (names : List String) (find : String → m (List String)) : m (List String) := do
  return (← names.mapM find).flatten

def Step.accepts : Step → String → Bool
  | .literal expected, name => name == expected
  | .wild tokens, name => nameMatches tokens name.toList
  | .directories, _ => true

/-- How deep directories are searched. -/
def maxDepth : Nat := 256

/-- Finds a step in a directory and in all directories below it, nested at most so deep. A
directory is searched further after what is found for it. -/
def searchBelow (fs : FileSystem m) (step : Step) (found : String → m (List String)) :
    Nat → String → m (List String)
  | 0, _ => pure []
  | depth + 1, base => do
    let names ← if ← fs.isDirectory base then fs.names base else pure []
    forEach names fun name => do
      let path := Path.join base name
      let here ← if step.accepts name then found path else pure []
      return here ++ (← searchBelow fs step found depth path)

/-- The paths that steps lead to from a directory. -/
def search (fs : FileSystem m) : List Step → String → m (List String)
  | [], base => pure [base]
  | .literal name :: rest, base => do
    let path := Path.join base name
    match ← (fs.present path).run with
    | .ok true => search fs rest path
    | _ => pure []
  | .wild tokens :: rest, base => do
    if ← fs.isDirectory base then
      forEach (← fs.names base) fun name =>
        if nameMatches tokens name.toList then search fs rest (Path.join base name) else pure []
    else pure []
  | .directories :: [], base =>
    let found (path : String) : m (List String) := do
      return if ← fs.isDirectory path then [path] else []
    searchBelow fs .directories found maxDepth base
  | .directories :: step :: rest, base => searchBelow fs step (search fs rest) maxDepth base

def find (fs : FileSystem m) (pattern : String) : ExceptT Failure m (List String) :=
  match steps pattern with
  | .error e => throw (.other e.message)
  | .ok steps => ExceptT.lift (search fs steps (if Path.isAbsolute pattern then "/" else ""))

end Glob

end PropSandbox

import PropSandbox.Component
import PropSandbox.Document.Format
import PropSandbox.Glob.Search

/-!
# Component folders

A folder of component files fills a registry. The ending of a file says in which format it declares
its component; other files are left alone, and a file that cannot be read, declares no component or
declares a faulty one is passed over.
-/

namespace PropSandbox

/-- The component that a text declares. Only JSON may write a structure as an array. -/
def ComponentDeclaration.parse? (format : DocumentFormat) (text : String) :
    Option ComponentDeclaration :=
  (format.document? text).bind (if format = .json then ofNode? else ofMapping?)

/-- A registry while it is filled: the library its validators come from, and how many components
were registered. -/
structure Filling where
  registry : Registry
  library : Library
  loaded : Nat

namespace Filling

/-- Registers a declared component, unless its declaration is faulty. -/
def add (filling : Filling) (d : ComponentDeclaration) : Filling :=
  match (filling.registry.registerDeclared d).run filling.library with
  | (.ok registry, library) => ⟨registry, library, filling.loaded + 1⟩
  | (.error _, library) => { filling with library }

variable {m : Type → Type} [Monad m]

def addFile (fs : FileSystem m) (filling : Filling) (path : String) : m Filling := do
  match DocumentFormat.ofPath? path with
  | none => pure filling
  | some format =>
    match ← (fs.read path).run with
    | .error _ => pure filling
    | .ok text => pure (((ComponentDeclaration.parse? format text).map filling.add).getD filling)

/-- Registers the components of all files in a folder. The name of the folder may be a pattern. -/
def addFolder (fs : FileSystem m) (filling : Filling) (folder : String) :
    ExceptT Failure m Filling := do
  let paths ← Glob.find fs (folder ++ "/*")
  paths.foldlM (fun filling path => ExceptT.lift (addFile fs filling path)) filling

end Filling

end PropSandbox

import PropSandbox.Cursor.Write

/-!
# Sandbox errors

Why an operation of the sandbox cannot be carried out, and the message for it.
-/

namespace PropSandbox

/-- What is wrong with a prop declaration. -/
inductive DeclarationFault where
  /-- A shorthand that names no leaf. -/
  | notALeaf (name : String)
  /-- A full form without the member its type needs. -/
  | lacks (type needed : String)
  /-- A full form with a type nobody knows. -/
  | unknownType (name : String)
  deriving DecidableEq, Repr

def DeclarationFault.message : DeclarationFault → String
  | .notALeaf name => s!"`{name}` is not a leaf type; use the full form for constructed types"
  | .lacks type needed => s!"`{type}` needs `{needed}`"
  | .unknownType name => s!"unknown type `{name}`"

/-- Why the sandbox refuses. -/
inductive SandboxError where
  | componentNotFound (name : String)
  | noComponentSelected
  | fixturesNotLoaded (name : String)
  | instanceOutOfRange (index length : Nat)
  | invalidDeclaration (prop : String) (fault : DeclarationFault)
  | cursor (error : CursorError)
  deriving DecidableEq, Repr

def SandboxError.message : SandboxError → String
  | .componentNotFound name => s!"Component not found: {name}"
  | .noComponentSelected => "No component is selected"
  | .fixturesNotLoaded name => s!"Fixtures for `{name}` are not loaded"
  | .instanceOutOfRange index length => s!"Fixture instance {index} does not exist ({length} instances)"
  | .invalidDeclaration prop fault =>
    let reason := fault.message
    s!"Invalid declaration for prop `{prop}`: {reason}"
  | .cursor error =>
    let cause := error.message
    s!"Cursor error: {cause}"

end PropSandbox

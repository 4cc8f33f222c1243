/-!
# Prop errors

What a validator finds wrong with a prop, and the message it gives. An error names the prop by its
full path: a container that passes an error on puts its own name before it.
-/

namespace PropSandbox

/-- Where a checked value came from. -/
inductive Location where
  | prop | context | childContext
  deriving DecidableEq, Repr, Inhabited

def Location.text : Location → String
  | .prop => "prop"
  | .context => "context"
  | .childContext => "child context"

/-- Why a validator rejects a value. -/
inductive PropError where
  /-- A required value is absent or null. -/
  | missing (location : Location) (prop owner : String)
  /-- A value of the wrong type. -/
  | invalid (location : Location) (prop owner actual expected : String)
  /-- A custom validator's own complaint. -/
  | custom (text : String)
  deriving DecidableEq, Repr

namespace PropError

def message : PropError → String
  | .missing location prop owner =>
    let place := location.text
    s!"Required {place} `{prop}` was not specified in `{owner}`."
  | .invalid location prop owner actual expected =>
    let place := location.text
    s!"Invalid {place} `{prop}` of type `{actual}` supplied to `{owner}`, expected {expected}."
  | .custom text => text

/-- The prop an error names, if it names one. -/
def prop? : PropError → Option String
  | .missing _ prop _ => some prop
  | .invalid _ prop _ _ _ => some prop
  | .custom _ => none

def rename (f : String → String) : PropError → PropError
  | .missing location prop owner => .missing location (f prop) owner
  | .invalid location prop owner actual expected => .invalid location (f prop) owner actual expected
  | .custom text => .custom text

/-- The error seen from the record that holds the field. -/
def withinField (parent : String) (e : PropError) : PropError :=
  e.rename fun prop => parent ++ "." ++ prop

/-- The error seen from the list that holds the item. -/
def withinItem (parent : String) (index : Nat) (e : PropError) : PropError :=
  e.rename fun _ => parent ++ "[" ++ toString index ++ "]"

end PropError

/-- What running a validator comes to. A custom validator may also give up on the whole run. -/
inductive Verdict where
  | accepted
  | rejected (error : PropError)
  | aborted (text : String)
  deriving DecidableEq, Repr

namespace Verdict

def isAccepted : Verdict → Bool
  | .accepted => true
  | _ => false

def error? : Verdict → Option PropError
  | .rejected e => some e
  | _ => none

/-- The text with which a run was given up. -/
def abort? : Verdict → Option String
  | .aborted text => some text
  | _ => none

def mapError (f : PropError → PropError) : Verdict → Verdict
  | .rejected e => .rejected (f e)
  | verdict => verdict

/-- Goes on to a second check if the first accepts. -/
def andThen (first second : Verdict) : Verdict :=
  match first with
  | .accepted => second
  | verdict => verdict

end Verdict

end PropSandbox

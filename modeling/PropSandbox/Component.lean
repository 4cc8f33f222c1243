import PropSandbox.Declaration.Reading
import PropSandbox.Inference

/-!
# Components

A component, as the sandbox sees it, is a name, perhaps a description, and a validator for each of
its props. A component file declares the same with declarations in place of validators. The
registry keeps components under their names.
-/

namespace PropSandbox

/-- A UI component. -/
structure Component where
  name : String
  description : Option String
  props : Record Validator

/-- A component as it is listed. -/
structure ComponentSummary where
  name : String
  description : Option String
  props : List String
  deriving DecidableEq, Repr

namespace Component

def summary (c : Component) : ComponentSummary :=
  ⟨c.name, c.description, Record.keys c.props⟩

/-- The types of the props of a component. -/
def types (lib : Library) (c : Component) : PropTypes :=
  lib.inferRecord c.props

end Component

namespace ComponentSummary

def toJson (s : ComponentSummary) : Json :=
  .object
    [("name", .string s.name), ("description", .ofText? s.description),
     ("props", .array (s.props.map .string))]

end ComponentSummary

/-- A component as a file declares it. -/
structure ComponentDeclaration where
  name : String
  description : Option String
  props : Record Declaration

namespace ComponentDeclaration

/-- Builds the validators of declared props, in order, and adds them to the ones there are. -/
def buildProps (props : Record Validator) : Record Declaration → Building (Record Validator)
  | [] => pure props
  | (name, d) :: rest => do
    let v ← d.build name
    buildProps (Record.insert props name v) rest

def build (d : ComponentDeclaration) : Building Component := do
  let props ← buildProps [] d.props
  pure ⟨d.name, d.description, props⟩

/-- The JSON form of a declared component. -/
def toJson (d : ComponentDeclaration) : Json :=
  .object
    [("name", .string d.name), ("description", .ofText? d.description),
     ("props", .object (Record.mapValues Declaration.toJson d.props))]

def fieldNames : List String :=
  ["name", "description", "props"]

/-- Reads a declared component from its fields. Its name and description may be any scalars that
can be read as text. -/
def ofFields? (fields : Fields) : Option ComponentDeclaration := do
  let name ← (← fields "name").written?
  let description ← Node.optionally Node.written? (fields "description")
  let props ← Node.withDefault [] (Node.record? Scalar.written Declaration.ofNode?) (fields "props")
  some ⟨name, description, props⟩

def ofNode? (node : Node) : Option ComponentDeclaration :=
  (Fields.ofNode? fieldNames Scalar.written node).bind ofFields?

/-- Reads a declared component from a format that writes structures as mappings only. -/
def ofMapping? (node : Node) : Option ComponentDeclaration :=
  (Fields.ofMapping? fieldNames Scalar.written node).bind ofFields?

end ComponentDeclaration

/-- The components there are, by name. -/
abbrev Registry := Record Component

namespace Registry

/-- Puts a component under its name, in place of any other. -/
def register (registry : Registry) (c : Component) : Registry :=
  Record.insert registry c.name c

/-- Builds a declared component and registers it. A declaration with a fault changes nothing. -/
def registerDeclared (registry : Registry) (d : ComponentDeclaration) : Building Registry := do
  let c ← d.build
  pure (registry.register c)

/-- The summaries of all components, by name. -/
def summaries (registry : Registry) : List ComponentSummary :=
  registry.map fun entry => entry.2.summary

end Registry

end PropSandbox

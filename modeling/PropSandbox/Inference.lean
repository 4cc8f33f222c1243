import PropSandbox.PropType

/-!
# Inference

Inference follows the table of a library from a validator through the arguments that were recorded
for it. An argument is always older than the validator built from it, so its identity is smaller
and the walk ends; a validator that is not older than its user is not followed.
-/

namespace PropSandbox

namespace Library

/-- The type that a validator describes. -/
def infer (lib : Library) (v : Validator) : PropType :=
  match lib.metadata? v with
  | none => .unknown v
  | some metadata =>
    .known
      { kind := metadata.kind
        required := metadata.required
        arguments := metadata.argument.map fun argument =>
          [argument.map fun part =>
            if _older : part.id.number < v.id.number then infer lib part else .unknown part]
        validator := v }
termination_by v.id.number

/-- The types of a record of validators. -/
def inferRecord (lib : Library) (validators : Record Validator) : Record PropType :=
  Record.mapValues lib.infer validators

/-- The types of a list of validators. -/
def inferList (lib : Library) (validators : List Validator) : List PropType :=
  validators.map lib.infer

end Library

/-- The types of the props of a component. -/
abbrev PropTypes := Record PropType

namespace PropType

/-- The type of the part one step below a value of a type. -/
def below? (t : PropType) (step : Segment) : Option PropType :=
  t.leaf?.bind fun leaf =>
    match leaf.kind, step with
    | .built .shape, .key name => leaf.fields?.bind (Record.get? · name)
    | .built .objectOf, .key _ => leaf.element?
    | .built .arrayOf, .index _ => leaf.element?
    | _, _ => none

/-- The type at a path inside a value of a type. -/
def at? : PropType → Cursor → Option PropType
  | t, [] => some t
  | t, step :: rest => (t.below? step).bind fun inner => inner.at? rest

end PropType

namespace PropTypes

/-- The type at a path whose first step names a prop. -/
def at? (types : PropTypes) : Cursor → Option PropType
  | .key name :: rest => (Record.get? types name).bind fun t => t.at? rest
  | _ => none

end PropTypes

end PropSandbox

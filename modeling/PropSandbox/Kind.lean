/-!
# Kinds

The kind of a validator says what family of values it describes. Nine kinds are leaves, validators
on their own; six are built from arguments; every other name is the kind of an extension leaf that
a library was given.
-/

namespace PropSandbox

/-- The standard kinds of validators that take no arguments. -/
inductive LeafKind where
  | string | number | bool | array | object | func | any | node | element
  deriving DecidableEq, Repr

/-- The kinds of validators that are built from arguments. -/
inductive BuiltKind where
  | shape | arrayOf | objectOf | instanceOf | oneOf | oneOfType
  deriving DecidableEq, Repr

/-- The kind of a validator. -/
inductive Kind where
  | leaf (kind : LeafKind)
  | built (kind : BuiltKind)
  | extension (name : String)
  deriving DecidableEq, Repr

namespace LeafKind

/-- All standard leaf kinds, in the order of the vocabulary. -/
def all : List LeafKind :=
  [.string, .number, .bool, .array, .object, .func, .any, .node, .element]

def name : LeafKind → String
  | .string => "string"
  | .number => "number"
  | .bool => "bool"
  | .array => "array"
  | .object => "object"
  | .func => "func"
  | .any => "any"
  | .node => "node"
  | .element => "element"

theorem mem_all (kind : LeafKind) : kind ∈ all := by
  cases kind <;> decide

end LeafKind

namespace BuiltKind

/-- All built kinds, in the order of the vocabulary. -/
def all : List BuiltKind :=
  [.shape, .arrayOf, .objectOf, .instanceOf, .oneOf, .oneOfType]

def name : BuiltKind → String
  | .shape => "shape"
  | .arrayOf => "arrayOf"
  | .objectOf => "objectOf"
  | .instanceOf => "instanceOf"
  | .oneOf => "oneOf"
  | .oneOfType => "oneOfType"

end BuiltKind

namespace Kind

/-- The kinds every library knows: the leaves, then the built kinds. -/
def standard : List Kind :=
  LeafKind.all.map .leaf ++ BuiltKind.all.map .built

def name : Kind → String
  | .leaf kind => kind.name
  | .built kind => kind.name
  | .extension name => name

def isLeaf : Kind → Bool
  | .leaf _ => true
  | _ => false

def isBuilt : Kind → Bool
  | .built _ => true
  | _ => false

def isExtension : Kind → Bool
  | .extension _ => true
  | _ => false

/-- Whether two names differ at most in the case of ASCII letters. -/
def sameIgnoringCase (a b : String) : Bool :=
  a.toList.map Char.toLower == b.toList.map Char.toLower

/-- The standard kind with a name, the case of ASCII letters aside. -/
def standard? (text : String) : Option Kind :=
  standard.find? fun kind => sameIgnoringCase kind.name text

/-- The kind a name denotes exactly: a standard kind, or else an extension. -/
def ofName (text : String) : Kind :=
  (standard.find? fun kind => kind.name == text).getD (.extension text)

/-- The kind a declaration means by a name: a standard kind in any case, or else an extension. -/
def ofDeclaredName (text : String) : Kind :=
  (standard? text).getD (.extension text)

end Kind

end PropSandbox

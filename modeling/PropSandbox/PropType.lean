import PropSandbox.Cursor
import PropSandbox.Library

/-!
# Prop types

A prop type is what inference learned about a validator: its kind, whether a value is required,
and the types of its parts. Where nothing was recorded the type is unknown, and only the validator
is kept. Every type carries the validator its values are checked with; two types are equal when
they describe the same, whatever validators they carry.
-/

namespace PropSandbox

/-- The description of a validator, with parts of some type. A leaf has no arguments. A description
may list any number of them, but only the first one means anything. -/
structure Described (α : Type) where
  kind : Kind
  required : Bool
  arguments : Option (List (Argument α))
  validator : Validator

/-- The type of a prop. -/
inductive PropType where
  | known (leaf : Described PropType)
  | unknown (validator : Validator)

/-- The description at the root of a known type. -/
abbrev TypeLeaf := Described PropType

namespace PropType

def leaf? : PropType → Option TypeLeaf
  | .known leaf => some leaf
  | .unknown _ => none

def kind? (t : PropType) : Option Kind :=
  t.leaf?.map Described.kind

def isRequired : PropType → Bool
  | .known leaf => leaf.required
  | .unknown v => v.requiresValue

/-- The validator that values of a type are checked with. -/
def validator : PropType → Validator
  | .known leaf => leaf.validator
  | .unknown v => v

/-- The same type with a value required; an unknown type stays as it is. -/
def intoRequired : PropType → PropType
  | .known leaf =>
    if leaf.required then .known leaf
    else .known { leaf with required := true, validator := leaf.validator.required }
  | .unknown v => .unknown v

/-- Of a known type, the required flavor has the same arguments. -/
theorem intoRequired_known (leaf : TypeLeaf) :
    ∃ v, (known leaf).intoRequired = .known ⟨leaf.kind, true, leaf.arguments, v⟩ := by
  obtain ⟨kind, required, arguments, v⟩ := leaf
  cases required with
  | false => exact ⟨v.required, rfl⟩
  | true => exact ⟨v, rfl⟩

/-! ## Size -/

mutual

/-- The number of nodes of a type. Neither flags nor validators count. -/
def weight : PropType → Nat
  | .known leaf => weightLeaf leaf + 1
  | .unknown _ => 1
termination_by structural t => t

def weightLeaf : Described PropType → Nat
  | ⟨_, _, arguments, _⟩ => weightArguments arguments
termination_by structural leaf => leaf

def weightArguments : Option (List (Argument PropType)) → Nat
  | none => 0
  | some arguments => weightEach arguments
termination_by structural arguments => arguments

def weightEach : List (Argument PropType) → Nat
  | [] => 0
  | argument :: others => weightArgument argument + weightEach others
termination_by structural arguments => arguments

def weightArgument : Argument PropType → Nat
  | .element t => weight t
  | .candidates ts => weightAll ts
  | .fields ts => weightFields ts
  | _ => 0
termination_by structural argument => argument

def weightAll : List PropType → Nat
  | [] => 0
  | t :: ts => weight t + weightAll ts
termination_by structural ts => ts

def weightFields : List (String × PropType) → Nat
  | [] => 0
  | (_, t) :: ts => weight t + weightFields ts
termination_by structural ts => ts

end

theorem weight_intoRequired (t : PropType) : t.intoRequired.weight = t.weight := by
  cases t with
  | unknown => rfl
  | known leaf =>
    obtain ⟨_, _, _, _⟩ := leaf
    rw [intoRequired]
    split <;> rfl

theorem weight_le_weightAll {ts : List PropType} {t : PropType} (h : t ∈ ts) :
    t.weight ≤ weightAll ts := by
  induction ts with
  | nil => cases h
  | cons u us ih =>
    simp only [weightAll]
    cases h with
    | head => omega
    | tail _ h => have := ih h; omega

theorem weight_le_weightFields {ts : List (String × PropType)} {entry : String × PropType}
    (h : entry ∈ ts) : entry.2.weight ≤ weightFields ts := by
  induction ts with
  | nil => cases h
  | cons u us ih =>
    obtain ⟨name, t⟩ := u
    simp only [weightFields]
    cases h with
    | head => simp
    | tail _ h => have := ih h; omega

/-! ## Equality -/

mutual

/-- Whether two types describe the same. -/
def same : PropType → PropType → Bool
  | .known a, .known b => sameLeaf a b
  | .unknown v, .unknown w => v.same w
  | _, _ => false
termination_by structural t => t

def sameLeaf : Described PropType → Described PropType → Bool
  | ⟨kind, required, arguments, _⟩, other =>
    kind == other.kind && required == other.required && sameArguments arguments other.arguments
termination_by structural leaf => leaf

def sameArguments : Option (List (Argument PropType)) → Option (List (Argument PropType)) → Bool
  | none, none => true
  | some xs, some ys => sameEach xs ys
  | _, _ => false
termination_by structural arguments => arguments

def sameEach : List (Argument PropType) → List (Argument PropType) → Bool
  | [], [] => true
  | x :: xs, y :: ys => sameArgument x y && sameEach xs ys
  | _, _ => false
termination_by structural arguments => arguments

def sameArgument : Argument PropType → Argument PropType → Bool
  | .element t, .element u => same t u
  | .candidates ts, .candidates us => sameAll ts us
  | .fields ts, .fields us => sameFields ts us
  | .choices xs, .choices ys => Json.sameItems xs ys
  | .className a, .className b => a == b
  | _, _ => false
termination_by structural argument => argument

def sameAll : List PropType → List PropType → Bool
  | [], [] => true
  | t :: ts, u :: us => same t u && sameAll ts us
  | _, _ => false
termination_by structural ts => ts

def sameFields : List (String × PropType) → List (String × PropType) → Bool
  | [], [] => true
  | (a, t) :: ts, (b, u) :: us => a == b && same t u && sameFields ts us
  | _, _ => false
termination_by structural ts => ts

end

instance : BEq PropType := ⟨same⟩

end PropType

namespace Described

/-! ## The parts of a description -/

variable {α : Type}

/-- The argument that counts. -/
def argument? (leaf : Described α) : Option (Argument α) :=
  leaf.arguments.bind List.head?

/-- The item type of a list, the value type of a map. -/
def element? (leaf : Described α) : Option α :=
  match leaf.argument? with
  | some (.element t) => some t
  | _ => none

def fields? (leaf : Described α) : Option (Record α) :=
  match leaf.argument? with
  | some (.fields ts) => some ts
  | _ => none

def choices? (leaf : Described α) : Option (List Json) :=
  match leaf.argument? with
  | some (.choices values) => some values
  | _ => none

def candidates? (leaf : Described α) : Option (List α) :=
  match leaf.argument? with
  | some (.candidates ts) => some ts
  | _ => none

/-- The class of an instance. -/
def className? (leaf : Described α) : Option String :=
  match leaf.argument? with
  | some (.className name) => some name
  | _ => none

end Described

/-- A type that is smaller than a description, as its parts are. -/
abbrev Part (leaf : TypeLeaf) :=
  { t : PropType // t.weight < (PropType.known leaf).weight }

namespace Part

/-- The part with a value required. -/
def intoRequired {leaf : TypeLeaf} (part : Part leaf) : Part leaf :=
  ⟨part.val.intoRequired, by rw [PropType.weight_intoRequired]; exact part.property⟩

end Part

namespace Described

theorem weight_argument {leaf : TypeLeaf} {argument : Argument PropType}
    (h : leaf.argument? = some argument) :
    PropType.weightArgument argument < (PropType.known leaf).weight := by
  obtain ⟨_, _, arguments, _⟩ := leaf
  match arguments, h with
  | some (_ :: others), rfl =>
    simp only [PropType.weight, PropType.weightLeaf, PropType.weightArguments, PropType.weightEach]
    omega

theorem weight_element {leaf : TypeLeaf} {t : PropType}
    (h : leaf.argument? = some (.element t)) : t.weight < (PropType.known leaf).weight := by
  simpa [PropType.weightArgument] using weight_argument h

theorem weight_candidate {leaf : TypeLeaf} {ts : List PropType} {t : PropType}
    (h : leaf.argument? = some (.candidates ts)) (ht : t ∈ ts) :
    t.weight < (PropType.known leaf).weight := by
  have whole := weight_argument h
  have := PropType.weight_le_weightAll ht
  simp only [PropType.weightArgument] at whole
  omega

theorem weight_field {leaf : TypeLeaf} {ts : List (String × PropType)}
    {entry : String × PropType} (h : leaf.argument? = some (.fields ts)) (ht : entry ∈ ts) :
    entry.2.weight < (PropType.known leaf).weight := by
  have whole := weight_argument h
  have := PropType.weight_le_weightFields ht
  simp only [PropType.weightArgument] at whole
  omega

/-- The item or value type, as a part. -/
def elementPart? (leaf : TypeLeaf) : Option (Part leaf) :=
  match h : leaf.argument? with
  | some (.element t) => some ⟨t, weight_element h⟩
  | _ => none

/-- The field types, as parts; none for what is no shape. -/
def fieldParts (leaf : TypeLeaf) : Record (Part leaf) :=
  match h : leaf.argument? with
  | some (.fields ts) => ts.attach.map fun entry => (entry.val.1, ⟨entry.val.2, weight_field h entry.property⟩)
  | _ => []

/-- The candidates, as parts; none for what is no union. -/
def candidateParts (leaf : TypeLeaf) : List (Part leaf) :=
  match h : leaf.argument? with
  | some (.candidates ts) => ts.attach.map fun t => ⟨t.val, weight_candidate h t.property⟩
  | _ => []

/-! The parts are those that the argument lists. -/

theorem elementPart?_val {leaf : TypeLeaf} {t : PropType}
    (h : leaf.argument? = some (.element t)) : ∃ part, leaf.elementPart? = some part ∧ part.val = t := by
  unfold elementPart?
  split
  · rename_i found
    cases h.symm.trans found
    exact ⟨_, rfl, rfl⟩
  · rename_i other
    exact absurd h (other t)

theorem fieldParts_val {leaf : TypeLeaf} {ts : List (String × PropType)}
    (h : leaf.argument? = some (.fields ts)) :
    Record.mapValues Subtype.val leaf.fieldParts = ts := by
  unfold fieldParts
  split
  · rename_i found
    cases h.symm.trans found
    rw [Record.mapValues, List.map_map]
    exact List.attach_map_subtype_val ts
  · rename_i other
    exact absurd h (other ts)

theorem candidateParts_val {leaf : TypeLeaf} {ts : List PropType}
    (h : leaf.argument? = some (.candidates ts)) : leaf.candidateParts.map Subtype.val = ts := by
  unfold candidateParts
  split
  · rename_i found
    cases h.symm.trans found
    simp [Function.comp_def]
  · rename_i other
    exact absurd h (other ts)

theorem argument?_of_elementPart? {leaf : TypeLeaf} {part : Part leaf}
    (isPart : leaf.elementPart? = some part) : leaf.argument? = some (.element part.val) := by
  unfold elementPart? at isPart
  split at isPart
  · rename_i found
    cases isPart
    exact found
  · cases isPart

theorem argument?_of_fieldParts {leaf : TypeLeaf} {entry : String × Part leaf}
    (isPart : entry ∈ leaf.fieldParts) :
    ∃ declared, leaf.argument? = some (.fields declared) ∧ (entry.1, entry.2.val) ∈ declared := by
  unfold fieldParts at isPart
  split at isPart
  · rename_i declared found
    obtain ⟨field, _, rfl⟩ := List.mem_map.1 isPart
    exact ⟨declared, found, field.property⟩
  · cases isPart

theorem argument?_of_candidateParts {leaf : TypeLeaf} {part : Part leaf}
    (isPart : part ∈ leaf.candidateParts) :
    ∃ candidates, leaf.argument? = some (.candidates candidates) ∧ part.val ∈ candidates := by
  unfold candidateParts at isPart
  split at isPart
  · rename_i candidates found
    obtain ⟨candidate, _, rfl⟩ := List.mem_map.1 isPart
    exact ⟨candidates, found, candidate.property⟩
  · cases isPart

end Described

/-! ## The JSON form -/

namespace PropType

mutual

/-- The JSON form of a type. A function says what stands for the identity of a validator about
which nothing is known. -/
def toJson (identity : ValidatorId → Json) : PropType → Json
  | .known leaf => leafToJson identity leaf
  | .unknown v => .object [("opaque", identity v.id)]
termination_by structural t => t

def leafToJson (identity : ValidatorId → Json) : Described PropType → Json
  | ⟨kind, required, arguments, _⟩ =>
    .object <|
      [("kind", .string kind.name), ("required", .bool required)]
        ++ argumentsToJson identity arguments
termination_by structural leaf => leaf

def argumentsToJson (identity : ValidatorId → Json) :
    Option (List (Argument PropType)) → List (String × Json)
  | none => []
  | some arguments => [("args", .array (eachToJson identity arguments))]
termination_by structural arguments => arguments

def eachToJson (identity : ValidatorId → Json) : List (Argument PropType) → List Json
  | [] => []
  | argument :: others => argumentToJson identity argument :: eachToJson identity others
termination_by structural arguments => arguments

def argumentToJson (identity : ValidatorId → Json) : Argument PropType → Json
  | .element t => toJson identity t
  | .candidates ts => .array (allToJson identity ts)
  | .fields ts => .object (fieldsToJson identity ts)
  | .choices values => .array values
  | .className name => .string name
termination_by structural argument => argument

def allToJson (identity : ValidatorId → Json) : List PropType → List Json
  | [] => []
  | t :: ts => toJson identity t :: allToJson identity ts
termination_by structural ts => ts

def fieldsToJson (identity : ValidatorId → Json) : List (String × PropType) → List (String × Json)
  | [] => []
  | (name, t) :: ts => (name, toJson identity t) :: fieldsToJson identity ts
termination_by structural ts => ts

end

/-- An identity as its number. -/
def numbered (id : ValidatorId) : Json :=
  .ofNat id.number

end PropType

end PropSandbox

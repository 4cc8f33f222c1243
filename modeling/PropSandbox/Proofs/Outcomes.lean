import PropSandbox.Generation.Minimal
import PropSandbox.Generation.Random
import PropSandbox.Proofs.Plan

/-!
# Outcomes of generators

What a generator makes is told of every state it starts in, and so of every outcome of the draws
and of everything the decisions may remember (`Always`). Both policies that come with the program
fill every standard leaf with a value of its kind and differ in nothing else but the number of
items in a list (`Faithful`).
-/

namespace PropSandbox

/-- Work whose result has a property, whatever state it starts in. -/
def Always {σ α : Type} (work : StateM σ α) (P : α → Prop) : Prop :=
  ∀ s, P (work.run s).1

namespace Always

variable {σ α β : Type} {work : StateM σ α} {P P' : α → Prop} {Q : β → Prop}

theorem pure {result : α} (holds : P result) : Always (pure result : StateM σ α) P :=
  fun _ => holds

theorem trivial (work : StateM σ α) : Always work fun _ => True :=
  fun _ => True.intro

theorem bind {next : α → StateM σ β} (first : Always work P)
    (second : ∀ result, P result → Always (next result) Q) : Always (work >>= next) Q := by
  intro s
  exact second (work.run s).1 (first s) (work.run s).2

theorem mono (always : Always work P) (sub : ∀ result, P result → P' result) : Always work P' :=
  fun s => sub _ (always s)

end Always

/-! ## Leaves -/

/-- A value that is there and is one of a standard leaf. -/
def LeafKind.Fills (kind : LeafKind) (value : Json) : Prop :=
  value ≠ .null ∧ kind.Holds value

namespace LeafKind.Fills

theorem string (s : String) : LeafKind.string.Fills (.string s) :=
  ⟨nofun, .string s⟩

theorem number (n : Number) : LeafKind.number.Fills (.number n) :=
  ⟨nofun, .number n⟩

theorem bool (b : Bool) : LeafKind.bool.Fills (.bool b) :=
  ⟨nofun, .bool b⟩

theorem array (items : List Json) : LeafKind.array.Fills (.array items) :=
  ⟨nofun, .array items⟩

theorem func (name : String) : LeafKind.func.Fills (Marker.callback name) :=
  ⟨nofun, .func ⟨name, rfl⟩⟩

theorem any (s : String) : LeafKind.any.Fills (.string s) :=
  ⟨nofun, .any _⟩

theorem node (s : String) : LeafKind.node.Fills (.string s) :=
  ⟨nofun, .node (.string s)⟩

theorem element (tag : String) (props : Json) :
    LeafKind.element.Fills (Marker.element tag props) :=
  ⟨nofun, .element ⟨_, tag, rfl, rfl⟩⟩

/-- An object is no callback if its only member is not the one that marks a callback. -/
theorem object {members : Record Json} (unmarked : ∀ entry ∈ members, entry.1 ≠ "$fn") :
    LeafKind.object.Fills (.object members) := by
  refine ⟨nofun, .object ?_⟩
  rintro ⟨name, same⟩
  cases same
  exact unmarked _ List.mem_cons_self rfl

theorem minimalValue (kind : LeafKind) : kind.Fills kind.minimalValue := by
  cases kind with
  | string => exact string ""
  | number => exact number _
  | bool => exact bool false
  | array => exact array []
  | object => exact object nofun
  | func => exact func "noop"
  | any => exact any ""
  | node => exact node ""
  | element => exact element "div" _

end LeafKind.Fills

namespace RandomPolicy

variable {σ : Type} (policy : RandomPolicy) (source : RandomSource σ)

/-- The mark of a callback is no word. -/
theorem mark_not_word : ¬ IsWord "$fn" := by
  decide

theorem addWords_words {members : Record Json} (n : Nat)
    (words : ∀ entry ∈ members, IsWord entry.1) :
    Always (addWords source n members) fun members => ∀ entry ∈ members, IsWord entry.1 := by
  induction n generalizing members with
  | zero => exact .pure words
  | succ n ih =>
    refine (Always.trivial _).bind fun name _ => (Always.trivial _).bind fun value _ => ih ?_
    intro entry member
    rcases Record.mem_insert member with rfl | old
    · exact name.property
    · exact words entry old

/-- A random value of a leaf is one of its kind. -/
theorem leafValue_fills (path : Cursor) (kind : LeafKind) :
    Always (leafValue policy source path kind) kind.Fills := by
  cases kind with
  | string => exact (Always.trivial _).bind fun text _ => .pure (.string text)
  | number => exact (Always.trivial _).bind fun n _ => .pure (.number _)
  | bool => exact (Always.trivial _).bind fun b _ => .pure (.bool b)
  | array =>
    exact (Always.trivial _).bind fun count _ => (Always.trivial _).bind fun words _ =>
      .pure (.array _)
  | object =>
    refine (Always.trivial _).bind fun count _ => ?_
    refine (addWords_words source count (List.forall_mem_nil _)).bind fun members words =>
      .pure (.object ?_)
    intro entry member marked
    exact mark_not_word (marked ▸ words entry member)
  | func => exact .pure (.func _)
  | any => exact (Always.trivial _).bind fun word _ => .pure (.any word.val)
  | node => exact (Always.trivial _).bind fun text _ => .pure (.node text)
  | element => exact (Always.trivial _).bind fun tag _ => .pure (.element tag _)

end RandomPolicy

/-! ## Lists -/

/-- A generator of lists whose items all come from the item type. -/
def Generator.Lists {σ : Type} (generator : Generator σ) : Prop :=
  ∀ (leaf : TypeLeaf) (item : Part leaf) (path : Cursor)
    (recurse : Part leaf → Cursor → StateM σ Json) (choose : Chooser σ) (P : Json → Prop),
    leaf.elementPart? = some item → (∀ at', Always (recurse item at') P) →
    Always (generator leaf path recurse choose) fun value =>
      ∃ items, value = .array items ∧ ∀ entry ∈ items, P entry

variable {σ : Type}

theorem Generator.singletonList_lists : (Generator.singletonList : Generator σ).Lists := by
  intro leaf item path recurse choose P found each
  simp only [Generator.singletonList, found]
  refine (each _).bind fun value holds => .pure ⟨[value], rfl, ?_⟩
  exact List.forall_mem_singleton.2 holds

namespace RandomPolicy

theorem itemValues_each {leaf : TypeLeaf} {item : Part leaf}
    {recurse : Part leaf → Cursor → StateM σ Json} {P : Json → Prop}
    (each : ∀ at', Always (recurse item at') P) (path : Cursor) (n index : Nat) :
    Always (itemValues item path recurse n index) fun values => ∀ entry ∈ values, P entry := by
  induction n generalizing index with
  | zero => exact .pure nofun
  | succ n ih =>
    refine (each _).bind fun value holds => (ih (index + 1)).bind fun rest others => .pure ?_
    exact List.forall_mem_cons.2 ⟨holds, others⟩

theorem listOf_lists (policy : RandomPolicy) (source : RandomSource σ) :
    (listOf policy source).Lists := by
  intro leaf item path recurse choose P found each
  simp only [listOf, found]
  refine (Always.trivial _).bind fun count _ => ?_
  exact (itemValues_each each path count 0).bind fun values holds => .pure ⟨values, rfl, holds⟩

end RandomPolicy

/-! ## Tables -/

namespace GeneratorTable

/-- The generators of the two policies that come with the program. -/
inductive Shipped : GeneratorTable σ → Prop where
  | static : Shipped GenerationConfig.static.generators
  | random (policy : RandomPolicy) (source : RandomSource σ) :
      Shipped (policy.config source).generators

/-- A table that fills every leaf, makes lists of items, and makes all other built values as the
table of containers does. -/
structure Faithful (table : GeneratorTable σ) : Prop where
  leaf : ∀ kind, ∃ made, table (.leaf kind) = some made ∧
    ∀ leaf path recurse choose, Always (made leaf path recurse choose) kind.Fills
  list : ∃ made, table (.built .arrayOf) = some made ∧ made.Lists
  map : table (.built .objectOf) = some (.constant (.object []))
  shape : table (.built .shape) = some Generator.shape
  instanceOf : table (.built .instanceOf) = some Generator.instanceOf
  oneOf : table (.built .oneOf) = some Generator.oneOf
  oneOfType : table (.built .oneOfType) = some Generator.oneOfType

theorem static_faithful : (GenerationConfig.static : GenerationConfig σ).generators.Faithful where
  leaf kind := by
    refine ⟨.constant kind.minimalValue, ?_, fun _ _ _ _ => .pure (.minimalValue kind)⟩
    cases kind <;> rfl
  list := ⟨_, rfl, Generator.singletonList_lists⟩
  map := rfl
  shape := rfl
  instanceOf := rfl
  oneOf := rfl
  oneOfType := rfl

theorem random_faithful (policy : RandomPolicy) (source : RandomSource σ) :
    (policy.config source).generators.Faithful where
  leaf kind := by
    refine ⟨fun _ path _ _ => policy.leafValue source path kind, ?_,
      fun _ path _ _ => policy.leafValue_fills source path kind⟩
    cases kind <;> rfl
  list := ⟨_, rfl, policy.listOf_lists source⟩
  map := rfl
  shape := rfl
  instanceOf := rfl
  oneOf := rfl
  oneOfType := rfl

theorem Shipped.faithful {table : GeneratorTable σ} (shipped : Shipped table) : table.Faithful := by
  cases shipped with
  | static => exact static_faithful
  | random policy source => exact random_faithful policy source

end GeneratorTable

end PropSandbox

import PropSandbox.Generation.Minimal
import PropSandbox.Generation.Random

/-!
# Generations side by side

Two generations of one type, with different tables or over different states, are compared piece by
piece. A comparison that is kept where work is put together (`Comparison`) holds of whole
generations if it holds of the decisions and of the generators for the kinds that the type reaches
(`Comparison.generate`): a generator asks for no other parts than those that its description lists,
so no other generator has a say. The generators of containers keep every comparison.
-/

namespace PropSandbox

/-! ## The kinds that a type reaches -/

/-- The types of the parts that the generator of a container asks for: the items of a list, the
fields of a shape, the candidates of a union. -/
inductive Described.HasPart (leaf : TypeLeaf) : PropType → Prop where
  | item {t : PropType} (kind : leaf.kind = .built .arrayOf)
      (isItem : leaf.argument? = some (.element t)) : HasPart leaf t
  | field {fields : List (String × PropType)} {name : String} {t : PropType}
      (kind : leaf.kind = .built .shape) (isFields : leaf.argument? = some (.fields fields))
      (listed : (name, t) ∈ fields) : HasPart leaf t
  | candidate {candidates : List PropType} {t : PropType} (kind : leaf.kind = .built .oneOfType)
      (isCandidates : leaf.argument? = some (.candidates candidates))
      (listed : t ∈ candidates) : HasPart leaf t

/-- The kinds of a type and of its parts, at any depth. -/
inductive PropType.Reaches : PropType → Kind → Prop where
  | root (leaf : TypeLeaf) : Reaches (.known leaf) leaf.kind
  | part {leaf : TypeLeaf} {part : PropType} {kind : Kind} (isPart : leaf.HasPart part)
      (reaches : part.Reaches kind) : Reaches (.known leaf) kind

/-- A type reaches the same kinds when a value is required. -/
theorem PropType.Reaches.of_intoRequired {t : PropType} {kind : Kind}
    (reaches : t.intoRequired.Reaches kind) : t.Reaches kind := by
  cases t with
  | unknown => exact reaches
  | known leaf =>
    rw [intoRequired] at reaches
    split at reaches
    · exact reaches
    · cases reaches with
      | root => exact .root leaf
      | part isPart reaches =>
        refine .part ?_ reaches
        cases isPart with
        | item kind isItem => exact .item kind isItem
        | field kind isFields listed => exact .field kind isFields listed
        | candidate kind isCandidates listed => exact .candidate kind isCandidates listed

/-- A part that the generator of a description asks for. Unions ask for a candidate as required. -/
def Described.Asks (leaf : TypeLeaf) (part : Part leaf) : Prop :=
  leaf.HasPart part.val ∨
    ∃ candidate : Part leaf, leaf.HasPart candidate.val ∧ part = candidate.intoRequired

theorem Described.Asks.reaches {leaf : TypeLeaf} {part : Part leaf} {kind : Kind}
    (asks : leaf.Asks part) (reaches : part.val.Reaches kind) :
    (PropType.known leaf).Reaches kind := by
  rcases asks with isPart | ⟨candidate, isPart, rfl⟩
  · exact .part isPart reaches
  · exact .part isPart reaches.of_intoRequired

/-- The descriptions for which a value may be made in the course of a generation. -/
inductive PropType.Generates : PropType → TypeLeaf → Prop where
  | root (leaf : TypeLeaf) : Generates (.known leaf) leaf
  | part {leaf inner : TypeLeaf} {part : Part leaf} (asks : leaf.Asks part)
      (generates : part.val.Generates inner) : Generates (.known leaf) inner

theorem PropType.Generates.reaches {t : PropType} {leaf : TypeLeaf} (generates : t.Generates leaf) :
    t.Reaches leaf.kind := by
  induction generates with
  | root leaf => exact .root leaf
  | part asks _ ih => exact asks.reaches ih

/-- The numbers of options among which the generator of a description lets choose: its literals, or
its candidates. -/
def Described.Offers (leaf : TypeLeaf) (count : Nat) : Prop :=
  count = (Generator.options leaf).length ∨ count = leaf.candidateParts.length

/-! ## Comparisons -/

/-- A comparison of work that comes to the same results over two kinds of states. It holds of work
that is put together if it holds of the pieces. -/
structure Comparison (σ τ : Type) where
  Holds : {α : Type} → StateM σ α → StateM τ α → Prop
  pure : ∀ {α : Type} (result : α), Holds (Pure.pure result) (Pure.pure result)
  bind : ∀ {α β : Type} {work : StateM σ α} {other : StateM τ α} {next : α → StateM σ β}
    {otherNext : α → StateM τ β}, Holds work other →
      (∀ result, Holds (next result) (otherNext result)) →
      Holds (work >>= next) (other >>= otherNext)

namespace Comparison

variable {σ τ : Type}

/-- The same work. -/
def equality (σ : Type) : Comparison σ σ where
  Holds work other := work = other
  pure _ := rfl
  bind first second := by rw [first, funext second]

/-- The same work with a log, to which notes of a kind are added and nothing else. -/
def noting {ν : Type} (σ : Type) (Good : ν → Prop) : Comparison σ (σ × List ν) where
  Holds work noted := ∀ s log, ∃ notes,
    noted.run (s, log) = ((work.run s).1, (work.run s).2, log ++ notes) ∧ ∀ note ∈ notes, Good note
  pure result s log := ⟨[], by rw [List.append_nil]; rfl, nofun⟩
  bind {α β work other next otherNext} first second s log := by
    obtain ⟨notes, same, good⟩ := first s log
    obtain ⟨more, same', good'⟩ := second (work.run s).1 (work.run s).2 (log ++ notes)
    refine ⟨notes ++ more, ?_, List.forall_mem_append.2 ⟨good, good'⟩⟩
    rw [StateT.run_bind, same, ← List.append_assoc]
    exact same'

variable (c : Comparison σ τ) {leaf : TypeLeaf} {path : Cursor}

/-- A result that is put to use without further work. -/
theorem finish {α β : Type} {work : StateM σ α} {other : StateM τ α} (f : α → β)
    (holds : c.Holds work other) :
    c.Holds (work >>= fun result => Pure.pure (f result))
      (other >>= fun result => Pure.pure (f result)) :=
  c.bind holds fun result => c.pure (f result)

/-- Generators of which the comparison holds for a description, if it holds of the calls for the
parts that are asked for and of the choices among what is offered. -/
def Makes (leaf : TypeLeaf) (make : Generator σ) (other : Generator τ) : Prop :=
  ∀ (path : Cursor) (recurse : Part leaf → Cursor → StateM σ Json)
    (otherRecurse : Part leaf → Cursor → StateM τ Json) (choose : Chooser σ)
    (otherChoose : Chooser τ),
    (∀ part, leaf.Asks part → ∀ at', c.Holds (recurse part at') (otherRecurse part at')) →
    (∀ at' count, leaf.Offers count → c.Holds (choose at' count) (otherChoose at' count)) →
    c.Holds (make leaf path recurse choose) (other leaf path otherRecurse otherChoose)

/-! ## Containers -/

theorem makes_constant (leaf : TypeLeaf) (value : Json) :
    c.Makes leaf (Generator.constant value) (Generator.constant value) :=
  fun _ _ _ _ _ _ _ => c.pure value

theorem makes_singletonList (kind : leaf.kind = .built .arrayOf) :
    c.Makes leaf Generator.singletonList Generator.singletonList := by
  intro path recurse otherRecurse choose otherChoose asked _
  cases isItem : leaf.elementPart? with
  | none =>
    simp only [Generator.singletonList, isItem]
    exact c.pure _
  | some item =>
    simp only [Generator.singletonList, isItem]
    have isPart := Described.HasPart.item kind (Described.argument?_of_elementPart? isItem)
    exact c.finish _ (asked item (.inl isPart) _)

/-- The items of a list are asked for one after the other. -/
theorem itemValues {item : Part leaf} {recurse : Part leaf → Cursor → StateM σ Json}
    {otherRecurse : Part leaf → Cursor → StateM τ Json}
    (asked : ∀ at', c.Holds (recurse item at') (otherRecurse item at')) (path : Cursor)
    (n index : Nat) :
    c.Holds (RandomPolicy.itemValues item path recurse n index)
      (RandomPolicy.itemValues item path otherRecurse n index) := by
  induction n generalizing index with
  | zero => exact c.pure []
  | succ n ih => exact c.bind (asked _) fun value => c.finish _ (ih (index + 1))

theorem makes_listOf {policy : RandomPolicy} {source : RandomSource σ} {other : RandomSource τ}
    (kind : leaf.kind = .built .arrayOf)
    (counts : c.Holds (source.within policy.items) (other.within policy.items)) :
    c.Makes leaf (policy.listOf source) (policy.listOf other) := by
  intro path recurse otherRecurse choose otherChoose asked _
  cases isItem : leaf.elementPart? with
  | none =>
    simp only [RandomPolicy.listOf, isItem]
    exact c.pure _
  | some item =>
    simp only [RandomPolicy.listOf, isItem]
    have isPart := Described.HasPart.item kind (Described.argument?_of_elementPart? isItem)
    exact c.bind counts fun count =>
      c.finish _ (c.itemValues (asked item (.inl isPart)) path count 0)

/-- The fields of a shape are asked for one after the other. -/
theorem fieldValues {parts : Record (Part leaf)} {recurse : Part leaf → Cursor → StateM σ Json}
    {otherRecurse : Part leaf → Cursor → StateM τ Json}
    (asked : ∀ entry ∈ parts, ∀ at', c.Holds (recurse entry.2 at') (otherRecurse entry.2 at'))
    (path : Cursor) :
    c.Holds (Generator.fieldValues path recurse parts)
      (Generator.fieldValues path otherRecurse parts) := by
  induction parts with
  | nil => exact c.pure []
  | cons entry rest ih =>
    refine c.bind (asked entry List.mem_cons_self _) fun value => c.finish _ (ih ?_)
    exact fun later member => asked later (List.mem_cons_of_mem _ member)

theorem makes_shape (kind : leaf.kind = .built .shape) :
    c.Makes leaf Generator.shape Generator.shape := by
  intro path recurse otherRecurse choose otherChoose asked _
  refine c.finish _ (c.fieldValues (fun entry isPart => asked entry.2 (.inl ?_)) path)
  obtain ⟨declared, isFields, listed⟩ := Described.argument?_of_fieldParts isPart
  exact .field kind isFields listed

theorem makes_oneOf (leaf : TypeLeaf) : c.Makes leaf Generator.oneOf Generator.oneOf :=
  fun _ _ _ _ _ _ choices => c.finish _ (choices _ _ (.inl rfl))

theorem makes_oneOfType (kind : leaf.kind = .built .oneOfType) :
    c.Makes leaf Generator.oneOfType Generator.oneOfType := by
  intro path recurse otherRecurse choose otherChoose asked choices
  refine c.bind (choices _ _ (.inr rfl)) fun choice => ?_
  cases found : choice.bind (leaf.candidateParts[·]?) with
  | none => exact c.pure _
  | some candidate =>
    obtain ⟨i, -, isCandidate⟩ := Option.bind_eq_some_iff.1 found
    obtain ⟨candidates, isCandidates, listed⟩ :=
      Described.argument?_of_candidateParts (List.mem_of_getElem? isCandidate)
    exact asked candidate.intoRequired
      (.inr ⟨candidate, .candidate kind isCandidates listed, rfl⟩) path

/-- Every comparison holds of the generators of containers. -/
theorem makes_containers (leaf : TypeLeaf) :
    c.Makes leaf ((GeneratorTable.containers leaf.kind).getD (Generator.constant .null))
      ((GeneratorTable.containers leaf.kind).getD (Generator.constant .null)) := by
  cases kind : leaf.kind with
  | leaf | extension => exact c.makes_constant leaf .null
  | built built =>
    cases built with
    | arrayOf => exact c.makes_singletonList kind
    | objectOf => exact c.makes_constant leaf (.object [])
    | shape => exact c.makes_shape kind
    | instanceOf => exact fun _ _ _ _ _ _ _ => c.pure _
    | oneOf => exact c.makes_oneOf leaf
    | oneOfType => exact c.makes_oneOfType kind

/-! ## Whole generations -/

variable {config : GenerationConfig σ} {other : GenerationConfig τ}

theorem isNull (nullability : ∀ path leaf,
      c.Holds (config.nullability path leaf) (other.nullability path leaf))
    (path : Cursor) (leaf : TypeLeaf) :
    c.Holds (config.isNull path leaf) (other.isNull path leaf) := by
  by_cases required : leaf.required = true
  · rw [GenerationConfig.isNull, GenerationConfig.isNull, if_pos required, if_pos required]
    exact c.pure false
  · rw [GenerationConfig.isNull, GenerationConfig.isNull, if_neg required, if_neg required]
    exact nullability path leaf

theorem choose {path : Cursor} {count : Nat}
    (chooser : 0 < count → c.Holds (config.chooser path count) (other.chooser path count)) :
    c.Holds (config.choose path count) (other.choose path count) := by
  by_cases zero : count = 0
  · rw [GenerationConfig.choose, GenerationConfig.choose, if_pos zero, if_pos zero]
    exact c.pure none
  · rw [GenerationConfig.choose, GenerationConfig.choose, if_neg zero, if_neg zero]
    exact c.finish _ (chooser (Nat.pos_of_ne_zero zero))

/-- A comparison holds of two generations if, for every description they come to, it holds of the
question about null, and of the generators once it holds of the parts that are asked for. By
induction on the size of the type. -/
theorem generate_of_step (config : GenerationConfig σ) (other : GenerationConfig τ)
    {K : TypeLeaf → Prop}
    (nulls : ∀ path leaf, c.Holds (config.isNull path leaf) (other.isNull path leaf))
    (step : ∀ leaf path, K leaf →
      (∀ part : Part leaf, leaf.Asks part → ∀ at',
        c.Holds (config.generate part.val at') (other.generate part.val at')) →
      c.Holds
        (config.generator leaf.kind leaf path (fun part at' => config.generate part.val at')
          config.choose)
        (other.generator leaf.kind leaf path (fun part at' => other.generate part.val at')
          other.choose))
    {t : PropType} (reached : ∀ leaf, t.Generates leaf → K leaf) (path : Cursor) :
    c.Holds (config.generate t path) (other.generate t path) := by
  induction weight : t.weight using Nat.strongRecOn generalizing t path with
  | ind n ih =>
    cases t with
    | unknown =>
      rw [GenerationConfig.generate, GenerationConfig.generate]
      exact c.pure Json.null
    | known leaf =>
      rw [GenerationConfig.generate, GenerationConfig.generate]
      refine c.bind (nulls path leaf) fun null => ?_
      cases null with
      | true => exact c.pure Json.null
      | false =>
        refine step leaf path (reached _ (.root leaf)) fun part asks at' => ?_
        exact ih _ (weight ▸ part.property) (fun inner below => reached inner (.part asks below))
          at' rfl

/-- A comparison holds of two generations if it holds of the decisions and of the generators for the
kinds that the type reaches. -/
theorem generate (config : GenerationConfig σ) (other : GenerationConfig τ) {K : Kind → Prop}
    (nullability : ∀ path leaf,
      c.Holds (config.nullability path leaf) (other.nullability path leaf))
    (chooser : ∀ path count, c.Holds (config.chooser path count) (other.chooser path count))
    (makes : ∀ leaf, K leaf.kind →
      c.Makes leaf (config.generator leaf.kind) (other.generator leaf.kind))
    {t : PropType} (reached : ∀ kind, t.Reaches kind → K kind) (path : Cursor) :
    c.Holds (config.generate t path) (other.generate t path) :=
  c.generate_of_step config other (c.isNull nullability)
    (fun leaf path known asked => makes leaf known path _ _ _ _ asked
      fun at' count _ => c.choose fun _ => chooser at' count)
    (fun leaf generates => reached leaf.kind generates.reaches) path

end Comparison

end PropSandbox

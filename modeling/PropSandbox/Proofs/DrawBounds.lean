import PropSandbox.Proofs.Comparison
import PropSandbox.Proofs.Outcomes
import PropSandbox.Random.Mixer
import PropSandbox.Settings

/-!
# Bounds of random values

A random policy keeps its bounds in order however it came about: out of settings of any kind, and
through any changes in any order. So every range that is handed to the source of draws has a member
(`Ranges`), and whatever is drawn, every value that is made at any depth keeps to the pairs that
were set last (`Described.Keeps`). Both are told of a generation with a log of its draws and of the
calls that returned, which is the one without a log in everything else.
-/

namespace PropSandbox

variable {σ : Type}

/-! ## Policies -/

namespace RandomPolicy

/-- What a policy is built from. -/
inductive Basis where
  | default
  | settings (s : GenerationSettings)

namespace Basis

def policy : Basis → RandomPolicy
  | default => .default
  | settings s => s.randomPolicy

/-- The pair for the number of items, as it was given. -/
def items : Basis → Nat × Nat
  | default => (1, 4)
  | settings s => (s.minItems, s.maxItems)

/-- The pair for numbers, as it was given. -/
def numbers : Basis → Int × Int
  | default => (0, 100)
  | settings s => (s.numberMin, s.numberMax)

end Basis

/-- A change of a policy. -/
inductive Change where
  | items (a b : Nat)
  | numbers (a b : Int)
  | nullProbability (p : Double)
  | nullProbabilityOf (kind : Kind) (p : Double)

namespace Change

def apply (policy : RandomPolicy) : Change → RandomPolicy
  | items a b => policy.withItems a b
  | numbers a b => policy.withNumbers a b
  | nullProbability p => policy.withNullProbability p
  | nullProbabilityOf kind p => policy.withNullProbabilityOf kind p

def items? : Change → Option (Nat × Nat)
  | items a b => some (a, b)
  | _ => none

def numbers? : Change → Option (Int × Int)
  | numbers a b => some (a, b)
  | _ => none

end Change

/-- The policy after changes, one after the other. -/
def changed (basis : Basis) (changes : List Change) : RandomPolicy :=
  changes.foldl Change.apply basis.policy

/-- The pair for the number of items that was set last. -/
def lastItems (basis : Basis) (changes : List Change) : Nat × Nat :=
  (changes.filterMap Change.items?).getLast?.getD basis.items

/-- The pair for numbers that was set last. -/
def lastNumbers (basis : Basis) (changes : List Change) : Int × Int :=
  (changes.filterMap Change.numbers?).getLast?.getD basis.numbers

/-- A part of a policy that some changes set and the others leave alone is as it was set last. -/
theorem foldl_apply {β γ : Type} {part : RandomPolicy → γ} {set? : Change → Option β} {make : β → γ}
    (step : ∀ policy change,
      part (Change.apply policy change) = ((set? change).map make).getD (part policy))
    (changes : List Change) {policy : RandomPolicy} {first : β} (start : part policy = make first) :
    part (changes.foldl Change.apply policy) =
      make ((changes.filterMap set?).getLast?.getD first) := by
  induction changes generalizing policy first with
  | nil => exact start
  | cons change rest ih =>
    have next := step policy change
    cases isSet : set? change with
    | none =>
      rw [isSet] at next
      rw [List.filterMap_cons_none isSet]
      exact ih (next.trans start)
    | some pair =>
      rw [isSet] at next
      rw [List.filterMap_cons_some isSet, List.getLast?_cons, Option.getD_some]
      exact ih next

/-- The bounds on the number of items are those between the pair that was set last. -/
theorem changed_items (basis : Basis) (changes : List Change) :
    (changed basis changes).items =
      .between (lastItems basis changes).1 (lastItems basis changes).2 := by
  have step : ∀ policy change, (Change.apply policy change).items =
      ((Change.items? change).map fun pair => Bounds.between pair.1 pair.2).getD policy.items :=
    fun policy change => by cases change <;> rfl
  exact foldl_apply step changes (by cases basis <;> rfl)

theorem changed_numbers (basis : Basis) (changes : List Change) :
    (changed basis changes).numbers =
      .betweenInts (lastNumbers basis changes).1 (lastNumbers basis changes).2 := by
  have step : ∀ policy change, (Change.apply policy change).numbers =
      ((Change.numbers? change).map fun pair => Bounds.betweenInts pair.1 pair.2).getD
        policy.numbers :=
    fun policy change => by cases change <;> rfl
  exact foldl_apply step changes (by cases basis <;> rfl)

end RandomPolicy

/-! ## Draws within bounds -/

namespace RandomSource

variable (source : RandomSource σ)

theorem within_keeps (bounds : Bounds Nat) :
    Always (source.within bounds) fun n => bounds.low ≤ n ∧ n ≤ bounds.high := by
  have ordered := bounds.low_le_high
  refine (Always.trivial _).bind fun i _ => .pure ?_
  omega

theorem withinInts_keeps (bounds : Bounds Int) :
    Always (source.withinInts bounds) fun n => bounds.low ≤ n ∧ n ≤ bounds.high := by
  have ordered := bounds.low_le_high
  refine (Always.trivial _).bind fun i _ => .pure ?_
  omega

/-- What is certain always happens. -/
theorem chance_certain {p : Double} (possible : 0 < p.magnitude.numerator)
    (certain : p.magnitude.denominator ≤ p.magnitude.numerator) :
    Always (source.chance p) fun happens => happens = true := by
  refine (Always.trivial _).bind fun i _ => .pure (decide_eq_true ?_)
  calc i.val * p.magnitude.denominator
      ≤ i.val * p.magnitude.numerator := Nat.mul_le_mul_left _ certain
    _ < 0x10000000000000000 * p.magnitude.numerator := Nat.mul_lt_mul_of_pos_right i.isLt possible
    _ = p.magnitude.numerator * 0x10000000000000000 := Nat.mul_comm ..

theorem manyWords_length (n : Nat) :
    Always (source.manyWords n) fun words => words.length = n := by
  induction n with
  | zero => exact .pure rfl
  | succ n ih =>
    refine (Always.trivial _).bind fun word _ => ih.bind fun rest length => .pure ?_
    rw [List.length_cons, length]

end RandomSource

/-- A value of a description that keeps to bounds on the number of items and on numbers. -/
def Described.Keeps (leaf : TypeLeaf) (items : Bounds Nat) (numbers : Bounds Int) (value : Json) :
    Prop :=
  match leaf.kind with
  | .leaf .number => ∃ n : Int, value = .ofInt n ∧ numbers.low ≤ n ∧ n ≤ numbers.high
  | .leaf .array =>
    ∃ entries, value = .array entries ∧ items.low ≤ entries.length ∧ entries.length ≤ items.high
  | .leaf .object => ∃ members, value = .object members ∧ members.length ≤ items.high
  | .built .arrayOf => leaf.element? ≠ none →
    ∃ entries, value = .array entries ∧ items.low ≤ entries.length ∧ entries.length ≤ items.high
  | _ => True

namespace RandomPolicy

variable (policy : RandomPolicy) (source : RandomSource σ)

/-- Each pair of words adds a member at most. -/
theorem addWords_length (n : Nat) (members : Record Json) :
    Always (addWords source n members) fun made => made.length ≤ members.length + n := by
  induction n generalizing members with
  | zero => exact .pure (Nat.le_refl _)
  | succ n ih =>
    refine (Always.trivial _).bind fun name _ => (Always.trivial _).bind fun value _ => ?_
    refine (ih (Record.insert members name.val (.string value.val))).mono fun made bound => ?_
    have more := Record.length_insert_le members name.val (Json.string value.val)
    omega

theorem itemValues_length {leaf : TypeLeaf} (item : Part leaf) (path : Cursor)
    (recurse : Part leaf → Cursor → StateM σ Json) (n index : Nat) :
    Always (itemValues item path recurse n index) fun values => values.length = n := by
  induction n generalizing index with
  | zero => exact .pure rfl
  | succ n ih =>
    refine (Always.trivial _).bind fun value _ => (ih (index + 1)).bind fun rest length => .pure ?_
    rw [List.length_cons, length]

/-- What a generator of the policy makes keeps to the bounds, whatever the parts are. -/
theorem generator_keeps (leaf : TypeLeaf) (path : Cursor)
    (recurse : Part leaf → Cursor → StateM σ Json) (choose : Chooser σ) :
    Always ((policy.config source).generator leaf.kind leaf path recurse choose)
      (leaf.Keeps policy.items policy.numbers) := by
  unfold Described.Keeps
  split
  · rename_i kind
    rw [kind]
    exact (source.withinInts_keeps policy.numbers).bind fun n within => .pure ⟨n, rfl, within⟩
  · rename_i kind
    rw [kind]
    refine (source.within_keeps policy.items).bind fun count within =>
      (source.manyWords_length count).bind fun words length => .pure ⟨_, rfl, ?_⟩
    rwa [List.length_map, length]
  · rename_i kind
    rw [kind]
    refine (source.within_keeps policy.items).bind fun count within =>
      (addWords_length source count []).bind fun members length => .pure ⟨members, rfl, ?_⟩
    rw [List.length_nil, Nat.zero_add] at length
    exact Nat.le_trans length within.2
  · rename_i kind
    rw [kind]
    change Always (policy.listOf source leaf path recurse choose) _
    cases isItem : leaf.elementPart? with
    | none =>
      simp only [listOf, isItem]
      refine .pure fun given => ?_
      unfold Described.element? at given
      split at given
      · rename_i item found
        obtain ⟨part, isPart, -⟩ := Described.elementPart?_val found
        rw [isItem] at isPart
        cases isPart
      · exact absurd rfl given
    | some item =>
      simp only [listOf, isItem]
      refine (source.within_keeps policy.items).bind fun count within =>
        (itemValues_length item path recurse count 0).bind fun values length => .pure fun _ =>
          ⟨values, rfl, ?_⟩
      rwa [length]
  · exact .trivial _

/-- The value of a call is null, if none is required, or else keeps to the bounds. -/
theorem generate_keeps (leaf : TypeLeaf) (path : Cursor) :
    Always ((policy.config source).generate (.known leaf) path) fun value =>
      value = .null ∧ leaf.required = false ∨ leaf.Keeps policy.items policy.numbers value := by
  have optional : Always ((policy.config source).isNull path leaf) fun null =>
      null = true → leaf.required = false := by
    rw [GenerationConfig.isNull]
    split
    · exact .pure fun isNull => absurd isNull Bool.false_ne_true
    · rename_i notRequired
      exact (Always.trivial _).mono fun _ _ _ => Bool.eq_false_iff.2 notRequired
  rw [GenerationConfig.generate]
  refine optional.bind fun null notRequired => ?_
  cases null with
  | true => exact .pure (.inl ⟨rfl, notRequired rfl⟩)
  | false => exact (policy.generator_keeps source leaf path _ _).mono fun _ keeps => .inr keeps

end RandomPolicy

/-! ## Generations with a log -/

/-- What is written down in the course of a generation: how many numbers a range has from which one
is drawn, and what a call for a type returns. -/
inductive Deed where
  | drew (size : Nat)
  | returned (t : PropType) (value : Json)

/-- Does some work and leaves the log as it is. -/
def unlogged {α : Type} (work : StateM σ α) : StateM (σ × List Deed) α := fun (s, log) =>
  ((work.run s).1, (work.run s).2, log)

/-- The source with a log of the ranges that are handed to it. -/
def RandomSource.logged (source : RandomSource σ) : RandomSource (σ × List Deed) where
  start seed := (source.start seed, [])
  below n positive := do
    modify fun (s, log) => (s, log ++ [.drew n])
    unlogged (source.below n positive)
  word := unlogged source.word
  hostEnding := unlogged source.hostEnding

/-- Work for a call, whose result is written down. -/
def PropType.logged (t : PropType) (work : StateM (σ × List Deed) Json) :
    StateM (σ × List Deed) Json := do
  let value ← work
  modify fun (s, log) => (s, log ++ [.returned t value])
  pure value

theorem PropType.run_logged {t : PropType} {work : StateM (σ × List Deed) Json} {s s' : σ}
    {log log' : List Deed} {value : Json} (run : work.run (s, log) = (value, s', log')) :
    (t.logged work).run (s, log) = (value, s', log' ++ [.returned t value]) := by
  rw [logged, StateT.run_bind, run]
  rfl

/-- The generator with a log of the calls that it makes. -/
def Generator.logged (make : Generator (σ × List Deed)) : Generator (σ × List Deed) :=
  fun leaf path recurse choose =>
    make leaf path (fun part at' => part.val.logged (recurse part at')) choose

namespace RandomPolicy

variable (policy : RandomPolicy) (source : RandomSource σ)

/-- The configuration of the policy with a log of all draws and calls. -/
def loggedConfig : GenerationConfig (σ × List Deed) :=
  { policy.config source.logged with
    generators := fun kind => ((policy.config source.logged).generators kind).map Generator.logged }

/-- A call for a type with a log of all draws and calls, itself among them. -/
def loggedCall (t : PropType) (path : Cursor) : StateM (σ × List Deed) Json :=
  t.logged ((policy.loggedConfig source).generate t path)

end RandomPolicy

/-- The ranges that are handed to the source of draws, both ends included: the two pairs of bounds,
the numbers of words of a sentence, the tags of elements, colors, the parts of a probability, and
positions among the options that a description in a type offers. -/
inductive Ranges (t : PropType) (items : Bounds Nat) (numbers : Bounds Int) : Int → Int → Prop where
  | items : Ranges t items numbers items.low items.high
  | numbers : Ranges t items numbers numbers.low numbers.high
  | words : Ranges t items numbers 1 3
  | tags : Ranges t items numbers 0 (RandomPolicy.elementTags.length - 1)
  | colors : Ranges t items numbers 0 0xFFFFFF
  | chances : Ranges t items numbers 0 0xFFFFFFFFFFFFFFFF
  | options {leaf : TypeLeaf} {count : Nat} (generates : t.Generates leaf)
      (offers : leaf.Offers count) (some : 0 < count) :
      Ranges t items numbers 0 (count - 1)

/-- What is written down of a generation of a type within bounds. A number is drawn from a range that
has one, and a call for a known type returns null, if no value is required, or a value within the
bounds. -/
inductive Deed.Keeps (t : PropType) (items : Bounds Nat) (numbers : Bounds Int) : Deed → Prop where
  | drew {low high : Int} {size : Nat} (range : Ranges t items numbers low high)
      (inhabited : low ≤ high) (isSize : size = high - low + 1) : Keeps t items numbers (.drew size)
  | null {leaf : TypeLeaf} (optional : leaf.required = false) :
      Keeps t items numbers (.returned (.known leaf) .null)
  | value {leaf : TypeLeaf} {value : Json} (keeps : leaf.Keeps items numbers value) :
      Keeps t items numbers (.returned (.known leaf) value)
  | unknown {v : Validator} {value : Json} : Keeps t items numbers (.returned (.unknown v) value)

namespace RandomPolicy

variable (policy : RandomPolicy) (source : RandomSource σ) {t : PropType}

/-- The same work with a log of what keeps to the bounds of a policy, for a type. -/
def bounded (σ : Type) (t : PropType) : Comparison σ (σ × List Deed) :=
  .noting σ (Deed.Keeps t policy.items policy.numbers)

theorem bounded_unlogged {α : Type} (work : StateM σ α) :
    (policy.bounded σ t).Holds work (unlogged work) :=
  fun _ log => ⟨[], by rw [List.append_nil]; rfl, nofun⟩

theorem bounded_below {n : Nat} {low high : Int} (positive : 0 < n)
    (range : Ranges t policy.items policy.numbers low high) (inhabited : low ≤ high)
    (isSize : n = high - low + 1) :
    (policy.bounded σ t).Holds (source.below n positive) (source.logged.below n positive) :=
  fun _ _ => ⟨[.drew n], rfl, List.forall_mem_singleton.2 (.drew range inhabited isSize)⟩

theorem bounded_logged {part : PropType} {work : StateM σ Json}
    {other : StateM (σ × List Deed) Json} (holds : (policy.bounded σ t).Holds work other)
    (keeps : Always work fun value =>
      Deed.Keeps t policy.items policy.numbers (.returned part value)) :
    (policy.bounded σ t).Holds work (part.logged other) := by
  intro s log
  obtain ⟨deeds, same, good⟩ := holds s log
  refine ⟨deeds ++ [.returned part (work.run s).1], ?_,
    List.forall_mem_append.2 ⟨good, List.forall_mem_singleton.2 (keeps s)⟩⟩
  rw [PropType.run_logged same, List.append_assoc]

/-! ### Draws -/

theorem bounded_items :
    (policy.bounded σ t).Holds (source.within policy.items) (source.logged.within policy.items) := by
  have ordered := policy.items.low_le_high
  exact (policy.bounded σ t).finish _
    (policy.bounded_below source _ .items (by omega) (by omega))

theorem bounded_numbers :
    (policy.bounded σ t).Holds (source.withinInts policy.numbers)
      (source.logged.withinInts policy.numbers) := by
  have ordered := policy.numbers.low_le_high
  exact (policy.bounded σ t).finish _
    (policy.bounded_below source _ .numbers (by omega) (by omega))

theorem bounded_chance (p : Double) :
    (policy.bounded σ t).Holds (source.chance p) (source.logged.chance p) :=
  (policy.bounded σ t).finish _ (policy.bounded_below source _ .chances (by decide) (by decide))

/-! ### Texts -/

theorem bounded_manyWords (n : Nat) :
    (policy.bounded σ t).Holds (source.manyWords n) (source.logged.manyWords n) := by
  induction n with
  | zero => exact (policy.bounded σ t).pure []
  | succ n ih =>
    exact (policy.bounded σ t).bind (policy.bounded_unlogged source.word) fun word =>
      (policy.bounded σ t).finish _ ih

theorem bounded_sentence :
    (policy.bounded σ t).Holds source.sentence source.logged.sentence := by
  have counts : (policy.bounded σ t).Holds (source.within (Bounds.between 1 3))
      (source.logged.within (Bounds.between 1 3)) :=
    (policy.bounded σ t).finish _ (policy.bounded_below source _ .words (by decide) (by decide))
  exact (policy.bounded σ t).bind counts fun count =>
    (policy.bounded σ t).finish _ (policy.bounded_manyWords source count)

theorem bounded_url : (policy.bounded σ t).Holds source.url source.logged.url :=
  (policy.bounded σ t).bind (policy.bounded_unlogged source.word) fun _ =>
    (policy.bounded σ t).bind (policy.bounded_unlogged source.hostEnding) fun _ =>
      (policy.bounded σ t).finish _ (policy.bounded_unlogged source.word)

theorem bounded_color : (policy.bounded σ t).Holds source.color source.logged.color :=
  (policy.bounded σ t).finish _ (policy.bounded_below source _ .colors (by decide) (by decide))

theorem bounded_textFor (path : Cursor) :
    (policy.bounded σ t).Holds (textFor source path) (textFor source.logged path) := by
  unfold textFor
  dsimp only
  split
  · exact policy.bounded_color source
  · split
    · exact policy.bounded_url source
    · exact policy.bounded_sentence source

theorem bounded_addWords (n : Nat) (members : Record Json) :
    (policy.bounded σ t).Holds (addWords source n members) (addWords source.logged n members) := by
  induction n generalizing members with
  | zero => exact (policy.bounded σ t).pure members
  | succ n ih =>
    exact (policy.bounded σ t).bind (policy.bounded_unlogged source.word) fun name =>
      (policy.bounded σ t).bind (policy.bounded_unlogged source.word) fun value => ih _

theorem bounded_leafValue (path : Cursor) (kind : LeafKind) :
    (policy.bounded σ t).Holds (policy.leafValue source path kind)
      (policy.leafValue source.logged path kind) := by
  let c := policy.bounded σ t
  cases kind with
  | string => exact c.finish _ (policy.bounded_textFor source path)
  | number => exact c.finish _ (policy.bounded_numbers source)
  | bool => exact c.finish _ (policy.bounded_chance source _)
  | array =>
    exact c.bind (policy.bounded_items source) fun count =>
      c.finish _ (policy.bounded_manyWords source count)
  | object =>
    exact c.bind (policy.bounded_items source) fun count =>
      c.finish _ (policy.bounded_addWords source count [])
  | func => exact c.pure _
  | any => exact c.finish _ (policy.bounded_unlogged source.word)
  | node => exact c.finish _ (policy.bounded_sentence source)
  | element =>
    exact c.finish _ (c.finish _ (policy.bounded_below source _ .tags (by decide) (by decide)))

/-! ### Generations -/

theorem bounded_generator (leaf : TypeLeaf) :
    (policy.bounded σ t).Makes leaf ((policy.config source).generator leaf.kind)
      ((policy.config source.logged).generator leaf.kind) := by
  cases kind : leaf.kind with
  | leaf standard =>
    intro path _ _ _ _ _ _
    have value := @bounded_leafValue σ policy source t path standard
    cases standard <;> exact value
  | extension => exact (policy.bounded σ t).makes_constant leaf .null
  | built built =>
    have whole := (policy.bounded σ t).makes_containers leaf
    rw [kind] at whole
    cases built with
    | arrayOf => exact (policy.bounded σ t).makes_listOf kind (policy.bounded_items source)
    | objectOf | shape | instanceOf | oneOf | oneOfType => exact whole

theorem bounded_nullability (path : Cursor) (leaf : TypeLeaf) :
    (policy.bounded σ t).Holds (policy.isNull source path leaf)
      (policy.isNull source.logged path leaf) := by
  unfold isNull
  split
  · exact (policy.bounded σ t).pure false
  · exact policy.bounded_chance source _

theorem bounded_chooser {leaf : TypeLeaf} {count : Nat} (generates : t.Generates leaf)
    (offers : leaf.Offers count) (some : 0 < count) (path : Cursor) :
    (policy.bounded σ t).Holds (choose source path count) (choose source.logged path count) := by
  rw [choose, choose, dif_pos some, dif_pos some]
  exact (policy.bounded σ t).finish _
    (policy.bounded_below source some (.options generates offers some) (by omega) (by omega))

/-- Every call returns what may be written down of it. -/
theorem returned_keeps (part : PropType) (path : Cursor) :
    Always ((policy.config source).generate part path) fun value =>
      Deed.Keeps t policy.items policy.numbers (.returned part value) := by
  cases part with
  | unknown => exact (Always.trivial _).mono fun _ _ => .unknown
  | known leaf =>
    refine (policy.generate_keeps source leaf path).mono fun value keeps => ?_
    rcases keeps with ⟨rfl, optional⟩ | keeps
    · exact .null optional
    · exact .value keeps

theorem generator_loggedConfig (kind : Kind) : (policy.loggedConfig source).generator kind =
    ((policy.config source.logged).generator kind).logged := by
  simp only [GenerationConfig.generator, loggedConfig]
  cases (policy.config source.logged).generators kind <;> rfl

/-- A generation with a log is the one without a log, and all that is written down keeps to the
bounds of the policy. -/
theorem bounded_generate (t : PropType) (path : Cursor) :
    (policy.bounded σ t).Holds ((policy.config source).generate t path)
      ((policy.loggedConfig source).generate t path) := by
  let c := policy.bounded σ t
  have nulls : ∀ path leaf, c.Holds ((policy.config source).isNull path leaf)
      ((policy.loggedConfig source).isNull path leaf) :=
    c.isNull (policy.bounded_nullability source)
  refine c.generate_of_step _ _ nulls (fun leaf path generates asked => ?_)
    (fun _ generates => generates) path
  rw [generator_loggedConfig]
  -- a part is asked for by a call that writes down what it returns
  refine policy.bounded_generator source leaf path _ _ _ _ (fun part asks at' => ?_)
    fun at' count offers => c.choose fun some =>
      policy.bounded_chooser source generates offers some at'
  exact policy.bounded_logged (asked part asks at') (policy.returned_keeps source part.val at')

/-- Random values keep to the bounds of their policy. Whatever settings a policy is built from, or
none, and whatever changes it is taken through, every generation comes to a value by drawing from
ranges that are not empty, and every call at any depth returns a value within the pairs that were
given last, in whichever order each pair was given: numbers and the lengths of lists lie between the
two, and objects have no more members than the larger one says. Null stands only for what is not
required. This is told of a log of all draws and calls, which changes nothing. -/
theorem values_keep_bounds (source : RandomSource σ) (basis : Basis) (changes : List Change)
    (t : PropType) (path : Cursor) (s : σ) :
    ∃ value s' deeds,
      (((changed basis changes).config source).generate t path).run s = (value, s') ∧
      ((changed basis changes).loggedCall source t path).run (s, []) =
        (value, s', deeds ++ [.returned t value]) ∧
      ∀ deed ∈ deeds ++ [.returned t value], deed.Keeps t
        (.between (lastItems basis changes).1 (lastItems basis changes).2)
        (.betweenInts (lastNumbers basis changes).1 (lastNumbers basis changes).2) := by
  rw [← changed_items, ← changed_numbers]
  generalize changed basis changes = policy
  obtain ⟨deeds, same, good⟩ := policy.bounded_generate source t path s []
  refine ⟨_, _, deeds, rfl, PropType.run_logged same, List.forall_mem_append.2 ⟨good, ?_⟩⟩
  exact List.forall_mem_singleton.2 (policy.returned_keeps source t path s)

/-- Settings with which every optional value is null. -/
def nullSettings : GenerationSettings :=
  { GenerationSettings.default with nullProbability := .one, numberMin := 5, numberMax := 5 }

def optionalNumber : TypeLeaf :=
  ⟨.leaf .number, false, none, Library.fresh.standard .number⟩

/-- A call for a number that is not required may return null, which is no integer at all. -/
theorem optional_number_null :
    let policy := changed (.settings nullSettings) []
    let made := (((policy.config (Mixer.source 0)).generate (.known optionalNumber) []).run 0).1
    made = .null ∧ ¬ ∃ n : Int, made = .ofInt n ∧ 5 ≤ n ∧ n ≤ 5 := by
  intro policy made
  have asked : Always ((policy.config (Mixer.source 0)).isNull [] optionalNumber) (· = true) :=
    (Mixer.source 0).chance_certain (p := policy.nullProbabilityFor (.leaf .number))
      (by decide +kernel) (by decide +kernel)
  have null : made = .null := by
    have always : Always ((policy.config (Mixer.source 0)).generate (.known optionalNumber) [])
        (· = .null) := by
      rw [GenerationConfig.generate]
      refine asked.bind fun null isNull => ?_
      rw [if_pos isNull]
      exact .pure rfl
    exact always 0
  refine ⟨null, ?_⟩
  rintro ⟨n, same, -⟩
  rw [null] at same
  cases same

end RandomPolicy

end PropSandbox

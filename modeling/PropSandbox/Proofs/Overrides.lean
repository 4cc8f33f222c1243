import PropSandbox.Proofs.CallPaths
import PropSandbox.Proofs.Comparison

/-!
# Overrides

A generator that is put in place of another one for some kinds makes no difference to a type that
reaches none of these kinds: the values are the same, and the questions about null and the choices
on the way to them are the same, in the same order.
-/

namespace PropSandbox

variable {σ : Type}

/-! ## Tables that the program comes with -/

/-- The tables to which overrides are added: the one of containers, and the one that knows a
smallest value for every standard leaf as well. -/
inductive BasicTable where
  | containers
  | static

namespace BasicTable

def generators : BasicTable → GeneratorTable σ
  | containers => .containers
  | static => GenerationConfig.static.generators

/-- A basic table with any decisions. -/
def config (basic : BasicTable) (nullability : Nullability σ) (chooser : Chooser σ) :
    GenerationConfig σ :=
  ⟨basic.generators, nullability, chooser⟩

/-- Every comparison holds of the generators of a basic table. -/
theorem makes {τ : Type} (c : Comparison σ τ) (basic : BasicTable) (leaf : TypeLeaf) :
    c.Makes leaf ((basic.generators leaf.kind).getD (Generator.constant .null))
      ((basic.generators leaf.kind).getD (Generator.constant .null)) := by
  cases basic with
  | containers => exact c.makes_containers leaf
  | static =>
    cases kind : leaf.kind with
    | leaf standard => cases standard <;> exact c.makes_constant leaf _
    | extension => exact c.makes_constant leaf .null
    | built built =>
      have whole := c.makes_containers leaf
      rw [kind] at whole
      cases built <;> exact whole

/-- A comparison of the decisions holds of whole generations. -/
theorem generate {τ : Type} (c : Comparison σ τ) (basic : BasicTable) {nullability : Nullability σ}
    {chooser : Chooser σ} {otherNullability : Nullability τ} {otherChooser : Chooser τ}
    (nulls : ∀ path leaf, c.Holds (nullability path leaf) (otherNullability path leaf))
    (choices : ∀ path count, c.Holds (chooser path count) (otherChooser path count))
    (t : PropType) (path : Cursor) :
    c.Holds ((basic.config nullability chooser).generate t path)
      ((basic.config otherNullability otherChooser).generate t path) :=
  c.generate (basic.config nullability chooser) (basic.config otherNullability otherChooser)
    nulls choices (fun leaf (_ : True) => basic.makes c leaf) (fun _ _ => trivial) path

end BasicTable

/-! ## Overrides -/

/-- Overrides for kinds that a type does not reach make no difference to it. -/
theorem BasicTable.generate_merge (basic : BasicTable) (nullability : Nullability σ)
    (chooser : Chooser σ) {overrides : GeneratorTable σ} {t : PropType}
    (unused : ∀ kind, t.Reaches kind → overrides kind = none) (path : Cursor) :
    ((basic.config nullability chooser).merge overrides).generate t path =
      (basic.config nullability chooser).generate t path := by
  refine (Comparison.equality σ).generate ((basic.config nullability chooser).merge overrides)
    (basic.config nullability chooser) (fun _ _ => rfl) (fun _ _ => rfl) ?_ unused path
  intro leaf unused
  have same : ((basic.config nullability chooser).merge overrides).generator leaf.kind =
      (basic.config nullability chooser).generator leaf.kind := by
    simp only [GenerationConfig.generator, GenerationConfig.merge, GeneratorTable.union, unused]
    rfl
  rw [same]
  exact basic.makes (.equality σ) leaf

theorem GenerationConfig.merge_merge (config : GenerationConfig σ)
    (first second : GeneratorTable σ) :
    (config.merge first).merge second = config.merge (first.union second) := by
  have same : (config.generators.union first).union second =
      config.generators.union (first.union second) := by
    funext kind
    simp only [GeneratorTable.union]
    cases second kind <;> rfl
  rw [merge, merge, merge, same]

/-! ## Decisions that are noted -/

/-- Answers questions about null, and notes what was asked. -/
def Nullability.noted (nullability : Nullability σ) : Nullability (σ × Log) := fun path leaf => do
  let answer ← quietly (nullability path leaf)
  note (.askedNull leaf path)
  pure answer

/-- Chooses, and notes among how many options and which one. -/
def Chooser.noted (chooser : Chooser σ) : Chooser (σ × Log) := fun path count => do
  let answer ← quietly (chooser path count)
  note (.chose path count answer)
  pure answer

/-- Notes make no difference to what is generated. -/
theorem BasicTable.generate_noted (basic : BasicTable) (nullability : Nullability σ)
    (chooser : Chooser σ) (t : PropType) (path : Cursor) (s : σ) :
    ∃ log, ((basic.config nullability.noted chooser.noted).generate t path).run (s, []) =
      (((basic.config nullability chooser).generate t path).run s |>.1,
        ((basic.config nullability chooser).generate t path).run s |>.2, log) := by
  have nulls : ∀ path leaf, (Comparison.noting σ fun _ : Note => True).Holds
      (nullability path leaf) (nullability.noted path leaf) :=
    fun path leaf s log => ⟨[⟨[], .askedNull leaf path⟩], rfl, fun _ _ => trivial⟩
  have choices : ∀ path count, (Comparison.noting σ fun _ : Note => True).Holds
      (chooser path count) (chooser.noted path count) :=
    fun path count s log => ⟨_, rfl, fun _ _ => trivial⟩
  obtain ⟨log, same, -⟩ := basic.generate _ nulls choices t path s []
  exact ⟨log, same⟩

/-- Overrides are local. With a basic table and any decisions, which may remember what they were
asked, overrides for kinds that a type does not reach change nothing: neither the value, nor what
the decisions are asked, nor in what order. One override after another is an override by both at
once, of which the later one counts where both know a kind. -/
theorem overrides_are_local (basic : BasicTable) (nullability : Nullability σ)
    (chooser : Chooser σ) (t : PropType) (path : Cursor) :
    (∀ overrides : GeneratorTable σ, (∀ kind, t.Reaches kind → overrides kind = none) →
      ((basic.config nullability chooser).merge overrides).generate t path =
        (basic.config nullability chooser).generate t path) ∧
    (∀ overrides : GeneratorTable (σ × Log), (∀ kind, t.Reaches kind → overrides kind = none) →
      ∀ s, ∃ value s' log,
        ((basic.config nullability chooser).generate t path).run s = (value, s') ∧
        ((basic.config nullability.noted chooser.noted).generate t path).run (s, []) =
          (value, s', log) ∧
        (((basic.config nullability.noted chooser.noted).merge overrides).generate t path).run
          (s, []) = (value, s', log)) ∧
    ∀ (config : GenerationConfig σ) (first second : GeneratorTable σ),
      (config.merge first).merge second = config.merge (first.union second) := by
  refine ⟨fun overrides unused => basic.generate_merge nullability chooser unused path,
    fun overrides unused s => ?_, GenerationConfig.merge_merge⟩
  obtain ⟨log, noted⟩ := basic.generate_noted nullability chooser t path s
  refine ⟨_, _, log, rfl, noted, ?_⟩
  rw [basic.generate_merge nullability.noted chooser.noted unused path]
  exact noted

/-! ## An example -/

theorem wordType_reaches {kind : Kind} (reaches : wordType.Reaches kind) :
    kind = .leaf .string := by
  cases reaches with
  | root => rfl
  | part isPart => cases isPart <;> contradiction

theorem wordsType_reaches {kind : Kind} (reaches : wordsType.Reaches kind) :
    kind = .built .arrayOf ∨ kind = .leaf .string := by
  cases reaches with
  | root => exact .inl rfl
  | part isPart reaches =>
    cases isPart with
    | field kind | candidate kind => cases kind
    | item _ isItem =>
      cases isItem
      exact .inr (wordType_reaches reaches)

theorem pageType_reaches {kind : Kind} (reaches : pageType.Reaches kind) :
    kind = .built .shape ∨ kind = .built .arrayOf ∨ kind = .leaf .string := by
  cases reaches with
  | root => exact .inl rfl
  | part isPart reaches =>
    cases isPart with
    | item kind | candidate kind => cases kind
    | field _ isFields listed =>
      cases isFields
      cases List.mem_singleton.1 listed
      exact .inr (wordsType_reaches reaches)

/-- A generator that makes the number one of every number. -/
def onesOnly : GeneratorTable σ :=
  GeneratorTable.empty.insert (.leaf .number) (.constant (.ofNat 1))

/-- A page of words reaches no number, so what is made of numbers makes no difference to it. -/
theorem page_without_numbers :
    (∀ kind, pageType.Reaches kind → (onesOnly : GeneratorTable Unit) kind = none) ∧
    ((BasicTable.static.config .optionalIsNull .first).merge onesOnly).generate pageType [] =
      ((BasicTable.static.config .optionalIsNull .first).generate pageType [] :
        StateM Unit Json) := by
  have unused : ∀ kind, pageType.Reaches kind → (onesOnly : GeneratorTable Unit) kind = none := by
    intro kind reaches
    rcases pageType_reaches reaches with rfl | rfl | rfl <;> rfl
  exact ⟨unused, (overrides_are_local .static .optionalIsNull .first pageType []).1 _ unused⟩

end PropSandbox

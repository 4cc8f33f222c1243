import PropSandbox.Proofs.Inferred

/-!
# The chronicle of a library

A chronicle is a library that began fresh, with a log of the steps taken on it and the origins of
the validators at hand. An origin is the construction tree of a validator, in which each node knows
when it was made. Origin and log alone decide whether the library knows anything of a validator
(`Origin.Hidden`) and which leaves it answers with (`Chronicle.Vocabulary`).
-/

namespace PropSandbox

/-- What a step of work is remembered for. -/
inductive Mark where
  | instrument
  | define (name : String)
  | other
  deriving DecidableEq

/-- The construction tree of a validator. Nodes that can be known to a library, or not, by the time
at which they were made carry that time: the place of the step in the log. -/
inductive Origin where
  | standard (kind : LeafKind)
  | extension (name : String) (v : Validator) (time : Nat)
  | custom (v : Validator)
  | built (construction : Construction Origin) (v : Validator) (time : Nat)
  | required (origin : Origin)

namespace Origin

def validator : Origin → Validator
  | .standard kind => Library.fresh.standard kind
  | .extension _ v _ => v
  | .custom v => v
  | .built _ v _ => v
  | .required origin => origin.validator.required

/-- The origins a validator was made from. -/
def parts : Origin → List Origin
  | .built construction _ _ => construction.parts
  | .required origin => [origin]
  | _ => []

/-- What there is to record about a validator: its kind and its argument. -/
def record? : Origin → Option (Kind × Option (Argument Validator))
  | .standard kind => some (.leaf kind, none)
  | .extension name _ _ => some (.extension name, none)
  | .built construction _ _ =>
    some (.built construction.kind, some (construction.map validator).argument)
  | .custom _ => none
  | .required _ => none

/-- The identities that were given out for a validator; a required flavor has been given its own
before. -/
def ids : Origin → List ValidatorId
  | .required _ => []
  | o => [o.validator.id, o.validator.required.id]

/-- The root of the tree was made before a time. -/
def Before (time : Nat) : Origin → Prop
  | .extension _ _ made => made < time
  | .built _ _ made => made < time
  | .required origin => Before time origin
  | _ => True

/-- The validators of which a library with a log knows nothing: all of them, if it was never
instrumented; custom validators; what a constructor returned before the first instrumentation; an
extension leaf that had been replaced before it. The required flavor is known with the optional
one. -/
inductive Hidden (log : List Mark) : Origin → Prop where
  | never {o : Origin} (never : .instrument ∉ log) : Hidden log o
  | custom (v : Validator) : Hidden log (.custom v)
  | early {construction : Construction Origin} {v : Validator} {time : Nat}
      (early : ∀ s < time, log[s]? ≠ some .instrument) : Hidden log (.built construction v time)
  | replaced {name : String} {v : Validator} {time again : Nat} (later : time < again)
      (defined : log[again]? = some (.define name))
      (early : ∀ s < again, log[s]? ≠ some .instrument) : Hidden log (.extension name v time)
  | required {o : Origin} (hidden : Hidden log o) : Hidden log (.required o)

/-- The leaves that a library would answer for a kind, in either flavor: the standard ones, and the
extension leaves that have not been replaced. -/
inductive InForce (log : List Mark) : Origin → Prop where
  | standard (kind : LeafKind) : InForce log (.standard kind)
  | extension {name : String} {v : Validator} {time : Nat}
      (latest : ∀ again, time < again → log[again]? ≠ some (.define name)) :
      InForce log (.extension name v time)
  | required {o : Origin} (part : InForce log o) : InForce log (.required o)

/-! ## Growing logs -/

variable {log : List Mark} {mark : Mark} {o : Origin}

theorem getElem?_append_mark (mark : Mark) {t : Nat} (inside : t < log.length) :
    (log ++ [mark])[t]? = log[t]? :=
  List.getElem?_append_left inside

theorem not_instrument_of_notMem (never : .instrument ∉ log) (t : Nat) :
    log[t]? ≠ some .instrument :=
  fun found => never (List.mem_of_getElem? found)

/-- An entry of a log with one step more is an old one or the last. -/
theorem getElem?_append_mark_cases {t : Nat} {found : Mark}
    (there : (log ++ [mark])[t]? = some found) :
    log[t]? = some found ∨ t = log.length ∧ mark = found := by
  by_cases inside : t < log.length
  · rw [getElem?_append_mark mark inside] at there
    exact .inl there
  · obtain ⟨short, same⟩ := List.getElem?_eq_some_iff.1 there
    rw [List.length_append, List.length_singleton] at short
    have last : t = log.length := by omega
    subst last
    exact .inr ⟨rfl, by simpa using same⟩

/-- An instrumentation lies before the end of a log if and only if the log has one. -/
theorem not_instrument_iff :
    (∀ s < log.length, (log ++ [mark])[s]? ≠ some .instrument) ↔ .instrument ∉ log := by
  constructor
  · intro early found
    obtain ⟨s, less, same⟩ := List.mem_iff_getElem.1 found
    refine early s less ?_
    rw [getElem?_append_mark mark less, List.getElem?_eq_getElem less, same]
  · intro never s less
    rw [getElem?_append_mark mark less]
    exact not_instrument_of_notMem never s

theorem Before.mono {m n : Nat} (le : m ≤ n) : ∀ o : Origin, o.Before m → o.Before n
  | .standard _, _ => trivial
  | .extension _ _ _, before => Nat.lt_of_lt_of_le before le
  | .custom _, _ => trivial
  | .built _ _ _, before => Nat.lt_of_lt_of_le before le
  | .required o, before => Before.mono le o before

theorem hidden_required_iff : (required o).Hidden log ↔ o.Hidden log := by
  constructor
  · intro hidden
    cases hidden with
    | never never => exact .never never
    | required hidden => exact hidden
  · exact .required

/-- A later step tells nothing about what was made before, unless it is the first
instrumentation. -/
theorem hidden_append_iff (before : o.Before log.length)
    (known : mark ≠ .instrument ∨ .instrument ∈ log) :
    o.Hidden (log ++ [mark]) ↔ o.Hidden log := by
  have instrument : .instrument ∈ log ++ [mark] ↔ .instrument ∈ log := by
    rw [List.mem_append, List.mem_singleton]
    exact or_iff_left_of_imp fun same => known.resolve_left fun differ => differ same.symm
  constructor
  · intro hidden
    induction hidden with
    | never never => exact .never (mt instrument.2 never)
    | custom v => exact .custom v
    | early early =>
      refine .early fun s less => ?_
      rw [← getElem?_append_mark mark (Nat.lt_trans less before)]
      exact early s less
    | @replaced name v time again later defined early =>
      rcases getElem?_append_mark_cases defined with old | ⟨rfl, _⟩
      · obtain ⟨inside, _⟩ := List.getElem?_eq_some_iff.1 old
        refine .replaced later old fun s less => ?_
        rw [← getElem?_append_mark mark (Nat.lt_trans less inside)]
        exact early s less
      · exact .never (not_instrument_iff.1 early)
    | required _ ih => exact .required (ih before)
  · intro hidden
    induction hidden with
    | never never => exact .never (mt instrument.1 never)
    | custom v => exact .custom v
    | early early =>
      refine .early fun s less => ?_
      rw [getElem?_append_mark mark (Nat.lt_trans less before)]
      exact early s less
    | @replaced name v time again later defined early =>
      obtain ⟨inside, _⟩ := List.getElem?_eq_some_iff.1 defined
      rw [← getElem?_append_mark mark inside] at defined
      refine .replaced later defined fun s less => ?_
      rw [getElem?_append_mark mark (Nat.lt_trans less inside)]
      exact early s less
    | required _ ih => exact .required (ih before)

/-- What is built now is known if and only if the library has been instrumented before. -/
theorem hidden_built_now_iff {construction : Construction Origin} {v : Validator} :
    (built construction v log.length).Hidden (log ++ [mark]) ↔ .instrument ∉ log := by
  constructor
  · intro hidden
    cases hidden with
    | never never => exact fun found => never (List.mem_append_left _ found)
    | early early => exact not_instrument_iff.1 early
  · exact fun never => .early (not_instrument_iff.2 never)

/-- The same for a leaf that is defined now, which nothing has replaced yet. -/
theorem hidden_extension_now_iff {name : String} {v : Validator} :
    (extension name v log.length).Hidden (log ++ [.define name]) ↔ .instrument ∉ log := by
  constructor
  · intro hidden
    cases hidden with
    | never never => exact fun found => never (List.mem_append_left _ found)
    | replaced later defined =>
      obtain ⟨short, _⟩ := List.getElem?_eq_some_iff.1 defined
      rw [List.length_append, List.length_singleton] at short
      omega
  · exact fun never => .never (by simpa using never)

/-- The first instrumentation makes the leaves in force known and nothing else. -/
theorem hidden_instrumented_iff (never : .instrument ∉ log) :
    ∀ {o : Origin}, o.Before log.length → (o.Hidden (log ++ [.instrument]) ↔ ¬ o.InForce log)
  | .standard kind, _ => by
    refine iff_of_false (fun hidden => ?_) (not_not_intro (.standard kind))
    cases hidden with
    | never never => exact never (by simp)
  | .extension name v time, before => by
    constructor
    · intro hidden inForce
      cases inForce with
      | extension latest =>
        cases hidden with
        | never never => exact never (by simp)
        | @replaced _ _ _ again later defined early =>
          rcases getElem?_append_mark_cases defined with old | ⟨_, impossible⟩
          · exact latest again later old
          · cases impossible
    · intro notInForce
      by_cases replaced : ∃ again, time < again ∧ log[again]? = some (.define name)
      · obtain ⟨again, later, defined⟩ := replaced
        obtain ⟨inside, _⟩ := List.getElem?_eq_some_iff.1 defined
        rw [← getElem?_append_mark .instrument inside] at defined
        refine .replaced later defined fun s less => ?_
        rw [getElem?_append_mark _ (Nat.lt_trans less inside)]
        exact not_instrument_of_notMem never s
      · exact absurd (.extension fun again later defined => replaced ⟨again, later, defined⟩)
          notInForce
  | .custom v, _ => iff_of_true (.custom v) nofun
  | .built _ _ time, before => by
    refine iff_of_true (.early fun s less => ?_) nofun
    rw [getElem?_append_mark _ (Nat.lt_trans less before)]
    exact not_instrument_of_notMem never s
  | .required o, before => by
    have inner : o.Before log.length := before
    rw [hidden_required_iff, hidden_instrumented_iff never inner]
    exact not_congr ⟨.required, fun | .required part => part⟩

end Origin

/-! ## Steps -/

/-- A library with the log of the steps taken on it, and the origins of the validators at hand. -/
structure Chronicle where
  library : Library
  log : List Mark
  made : List Origin

namespace Chronicle

/-- A fresh library with its standard leaves at hand. -/
def opened : Chronicle :=
  ⟨.fresh, [], LeafKind.all.map .standard⟩

/-- The chronicle after a call that made a validator. -/
def after (c : Chronicle) (mark : Mark) (work : StateM Library Validator)
    (origin : Validator → Origin) : Chronicle :=
  ⟨(work.run c.library).2, c.log ++ [mark], origin (work.run c.library).1 :: c.made⟩

/-- One step on a library. -/
inductive Step (c : Chronicle) : Chronicle → Prop where
  | instrument : Step c ⟨(Library.instrument.run c.library).2, c.log ++ [.instrument], c.made⟩
  | defineLeaf (name : String) (holds : Json → Bool) :
      Step c (c.after (.define name) (Library.defineLeaf name holds) fun v =>
        .extension name v c.log.length)
  | custom (check : Check) : Step c (c.after .other (Library.custom check) .custom)
  | construct {construction : Construction Origin}
      (atHand : ∀ part ∈ construction.parts, part ∈ c.made) :
      Step c (c.after .other (construction.map Origin.validator).make fun v =>
        .built construction v c.log.length)
  | required {o : Origin} (atHand : o ∈ c.made) :
      Step c ⟨c.library, c.log ++ [.other], .required o :: c.made⟩

/-- Any number of steps. -/
abbrev Steps : Chronicle → Chronicle → Prop := Relation.ReflTransGen Step

end Chronicle

/-! ## The vocabulary -/

namespace Library

variable (lib : Library)

theorem noted_extensions (v : Validator) (kind : Kind) (argument : Option (Argument Validator)) :
    (lib.noted v kind argument).extensions = lib.extensions := by
  rw [noted]
  split <;> rfl

theorem make_extensions (construction : Construction Validator) :
    (construction.make.run lib).2.extensions = lib.extensions := by
  rw [Construction.make_eq]
  exact noted_extensions _ _ _ _

theorem defineLeaf_extensions (name : String) (holds : Json → Bool) :
    ((defineLeaf name holds).run lib).2.extensions =
      Record.insert lib.extensions name ((defineLeaf name holds).run lib).1 := by
  change Record.insert (Library.noted _ _ _ _).extensions name _ = _
  rw [noted_extensions]
  rfl

end Library

namespace Chronicle

/-- The extension leaves a library answers with are those in force. -/
structure Vocabulary (c : Chronicle) : Prop where
  before : ∀ o ∈ c.made, o.Before c.log.length
  standard : ∀ kind, .standard kind ∈ c.made
  ascending : Record.Ascending c.library.extensions
  extensions : ∀ name v, Record.get? c.library.extensions name = some v ↔
    ∃ time, .extension name v time ∈ c.made ∧ (Origin.extension name v time).InForce c.log

theorem opened_vocabulary : opened.Vocabulary where
  before o member := by
    obtain ⟨kind, _, rfl⟩ := List.mem_map.1 member
    trivial
  standard kind := List.mem_map_of_mem (LeafKind.mem_all kind)
  ascending := List.Pairwise.nil
  extensions name v := by
    refine iff_of_false nofun ?_
    rintro ⟨time, member, _⟩
    obtain ⟨kind, _, impossible⟩ := List.mem_map.1 member
    cases impossible

/-- Whether an extension leaf is in force is changed by no step but a definition of its name. -/
theorem inForce_append_iff {log : List Mark} {mark : Mark} {name : String} {v : Validator}
    {time : Nat} (other : mark ≠ .define name) :
    (Origin.extension name v time).InForce (log ++ [mark]) ↔
      (Origin.extension name v time).InForce log := by
  constructor
  · intro inForce
    cases inForce with
    | extension latest =>
      refine .extension fun again later defined => latest again later ?_
      rw [Origin.getElem?_append_mark _ (List.getElem?_eq_some_iff.1 defined).1]
      exact defined
  · intro inForce
    cases inForce with
    | extension latest =>
      refine .extension fun again later defined => ?_
      rcases Origin.getElem?_append_mark_cases defined with old | ⟨_, same⟩
      · exact latest again later old
      · exact other same

/-- A step that makes or changes no extension leaf. -/
theorem Vocabulary.grow {c c' : Chronicle} (vocabulary : c.Vocabulary) {mark : Mark}
    (log : c'.log = c.log ++ [mark]) (plain : ∀ name, mark ≠ .define name)
    (extensions : c'.library.extensions = c.library.extensions)
    (made : ∀ o ∈ c'.made,
      o ∈ c.made ∨ o.Before c'.log.length ∧ ∀ name v time, o ≠ .extension name v time)
    (kept : ∀ o ∈ c.made, o ∈ c'.made) : c'.Vocabulary where
  before o member := by
    rcases made o member with old | new
    · refine Origin.Before.mono ?_ o (vocabulary.before o old)
      rw [log, List.length_append]
      omega
    · exact new.1
  standard kind := kept _ (vocabulary.standard kind)
  ascending := by
    rw [extensions]
    exact vocabulary.ascending
  extensions name v := by
    rw [extensions, vocabulary.extensions, log]
    refine exists_congr fun time => ?_
    rw [inForce_append_iff (plain name)]
    refine and_congr_left fun _ => ⟨kept _, fun member => ?_⟩
    exact (made _ member).resolve_right fun new => new.2 name v time rfl

/-- Defining a leaf puts it in force and a former leaf of the name out of it. -/
theorem Vocabulary.defineLeaf {c : Chronicle} (vocabulary : c.Vocabulary) (name : String)
    (holds : Json → Bool) :
    (c.after (.define name) (Library.defineLeaf name holds) fun v =>
      .extension name v c.log.length).Vocabulary := by
  have inserted := Library.defineLeaf_extensions c.library name holds
  refine ⟨?_, ?_, ?_, ?_⟩
  · refine List.forall_mem_cons.2 ⟨?_, fun o old =>
      Origin.Before.mono ?_ o (vocabulary.before o old)⟩
    · simp [Origin.Before, after]
    · simp [after]
  · exact fun kind => List.mem_cons_of_mem _ (vocabulary.standard kind)
  · simp only [after]
    rw [inserted]
    exact Record.ascending_insert _ _ vocabulary.ascending
  · intro other w
    simp only [after, List.mem_cons]
    rw [inserted]
    by_cases same : other = name
    · subst same
      rw [Record.get?_insert_self]
      constructor
      · rintro ⟨⟩
        refine ⟨c.log.length, .inl rfl, .extension fun again later defined => ?_⟩
        obtain ⟨short, _⟩ := List.getElem?_eq_some_iff.1 defined
        rw [List.length_append, List.length_singleton] at short
        omega
      · rintro ⟨time, new | old, inForce⟩
        · cases new
          rfl
        -- a leaf made earlier has just been replaced
        · cases inForce with
          | extension latest =>
            exact absurd (by simp) (latest c.log.length (vocabulary.before _ old))
    · rw [Record.get?_insert_of_ne _ _ same, vocabulary.extensions]
      refine exists_congr fun time => ?_
      rw [inForce_append_iff (fun marked => same (Mark.define.inj marked).symm)]
      refine and_congr_left fun _ => ⟨.inr, fun member => member.resolve_left fun new => ?_⟩
      cases new
      exact same rfl

theorem Step.vocabulary {c c' : Chronicle} (step : c.Step c') (vocabulary : c.Vocabulary) :
    c'.Vocabulary := by
  cases step with
  | instrument =>
    refine vocabulary.grow rfl nofun ?_ (fun _ => .inl) fun _ => id
    by_cases already : c.library.instrumented = true
    · rw [Library.instrument_again already]
    · rw [Library.instrument_first already]
  | defineLeaf name holds => exact vocabulary.defineLeaf name holds
  | custom check =>
    refine vocabulary.grow rfl nofun rfl (fun o member => ?_) fun o => List.mem_cons_of_mem _
    rcases List.mem_cons.1 member with rfl | old
    · exact .inr ⟨trivial, nofun⟩
    · exact .inl old
  | construct atHand =>
    refine vocabulary.grow rfl nofun (Library.make_extensions ..) (fun o member => ?_)
      fun o => List.mem_cons_of_mem _
    rcases List.mem_cons.1 member with rfl | old
    · exact .inr ⟨by simp [Origin.Before, after], nofun⟩
    · exact .inl old
  | @required o atHand =>
    refine vocabulary.grow rfl nofun rfl (fun o' member => ?_) fun o => List.mem_cons_of_mem _
    rcases List.mem_cons.1 member with rfl | old
    · refine .inr ⟨Origin.Before.mono ?_ o (vocabulary.before o atHand), nofun⟩
      simp
    · exact .inl old

end Chronicle

end PropSandbox

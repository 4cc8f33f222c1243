import PropSandbox.Proofs.Chronicle

/-!
# What the table holds

The table of a library keeps to origins and log: a validator that is hidden by them has no entry,
and every other leaf or construction has its kind and argument recorded in both flavors
(`Chronicle.Kept`). Identities are never given out twice, so each step adds the entries of what it
made and leaves the others alone; the first instrumentation adds those of the leaves in force.
-/

namespace PropSandbox

namespace Library

variable {lib : Library}

theorem Adds.next_le {lib' : Library} {v : Validator} {kind : Kind}
    {argument : Option (Argument Validator)} (adds : lib.Adds lib' v kind argument) :
    lib.next ≤ lib'.next := by
  rw [adds.next]
  exact Nat.le_add_right _ _

/-! Nothing is recorded before the first instrumentation. -/

theorem noted_idle (idle : lib.instrumented ≠ true) (v : Validator) (kind : Kind)
    (argument : Option (Argument Validator)) : (lib.noted v kind argument).table = lib.table := by
  rw [noted, if_neg idle]

theorem make_idle (idle : lib.instrumented ≠ true) (construction : Construction Validator) :
    (construction.make.run lib).2.table = lib.table := by
  rw [Construction.make_eq]
  exact @noted_idle { lib with next := lib.next + 2 } idle _ _ _

theorem defineLeaf_idle (idle : lib.instrumented ≠ true) (name : String) (holds : Json → Bool) :
    ((defineLeaf name holds).run lib).2.table = lib.table :=
  @noted_idle { lib with next := lib.next + 2 } idle _ _ _

end Library

namespace Chronicle

/-- The identities of a leaf or a construction are the two numbers given out for it. -/
theorem mem_ids_iff {o : Origin} {entry : Kind × Option (Argument Validator)} {n : Nat}
    (isEntry : o.record? = some entry) (numbered : o.validator.Numbered n) {id : ValidatorId} :
    id ∈ o.ids ↔ id = ⟨n⟩ ∨ id = ⟨n + 1⟩ := by
  rw [← numbered.id, ← numbered.required_id]
  cases o with
  | custom => cases isEntry
  | required => cases isEntry
  | _ => simp [Origin.ids]

/-- What the table of a library holds of an origin at hand. -/
structure Keeps (c : Chronicle) (o : Origin) : Prop where
  parts : ∀ part ∈ o.parts, part ∈ c.made
  given : o.validator.id.number < c.library.next ∧ o.validator.required.id.number < c.library.next
  numbered : ∀ entry ∈ o.record?, ∃ n, o.validator.Numbered n ∧
    ∀ part ∈ o.parts, part.validator.id.number < n
  hidden : o.Hidden c.log → ∀ id ∈ o.ids, c.library.table.get? id = none
  told : ∀ entry ∈ o.record?, ¬ o.Hidden c.log →
    Library.Recorded c.library.table o.validator entry.1 entry.2

/-- A chronicle whose table holds what origins and log say, under identities that are never given
out twice. -/
structure Kept (c : Chronicle) : Prop where
  sound : c.library.Sound
  instrumented : c.library.instrumented = true ↔ .instrument ∈ c.log
  blank : .instrument ∉ c.log → c.library.table = []
  apart : ∀ o ∈ c.made, ∀ o' ∈ c.made, ∀ id ∈ o.ids, id ∈ o'.ids → o = o'
  made : ∀ o ∈ c.made, c.Keeps o

theorem opened_kept : opened.Kept where
  sound := Library.fresh_sound
  instrumented := iff_of_false nofun nofun
  blank _ := rfl
  apart o member o' member' id own own' := by
    obtain ⟨kind, _, rfl⟩ := List.mem_map.1 member
    obtain ⟨kind', _, rfl⟩ := List.mem_map.1 member'
    have numbered : ∀ kind, (Origin.standard kind).validator.Numbered (2 * Library.leafPlace kind) :=
      Library.standard_numbered
    rw [mem_ids_iff rfl (numbered _)] at own own'
    have same : Library.leafPlace kind = Library.leafPlace kind' := by
      rcases own with rfl | rfl <;> rcases own' with same | same <;> injection same <;> omega
    rw [Library.leafPlace_injective same]
  made o member := by
    obtain ⟨kind, _, rfl⟩ := List.mem_map.1 member
    refine ⟨nofun, Library.standard_number_lt kind, fun _ _ => ?_, fun _ _ _ => rfl,
      fun _ _ told => ?_⟩
    · exact ⟨_, Library.standard_numbered kind, nofun⟩
    · exact absurd (.never nofun) told

/-- A step that is not the first instrumentation: what was made before keeps its entries. -/
structure Grows (c c' : Chronicle) : Prop where
  log : ∃ mark, c'.log = c.log ++ [mark] ∧ (mark ≠ .instrument ∨ .instrument ∈ c.log)
  next : c.library.next ≤ c'.library.next
  agree : ∀ id, id.number < c.library.next →
    c'.library.table.get? id = c.library.table.get? id
  made : ∀ o ∈ c.made, o ∈ c'.made

variable {c c' : Chronicle}

theorem Grows.hidden_iff (grows : c.Grows c') {o : Origin} (before : o.Before c.log.length) :
    o.Hidden c'.log ↔ o.Hidden c.log := by
  obtain ⟨mark, log, known⟩ := grows.log
  rw [log]
  exact Origin.hidden_append_iff before known

theorem ids_cases {o : Origin} {id : ValidatorId} (own : id ∈ o.ids) :
    id = o.validator.id ∨ id = o.validator.required.id := by
  cases o with
  | required => cases own
  | _ => simpa [Origin.ids] using own

theorem Keeps.number_lt {o : Origin} (keeps : c.Keeps o) {id : ValidatorId} (own : id ∈ o.ids) :
    id.number < c.library.next := by
  rcases ids_cases own with rfl | rfl
  · exact keeps.given.1
  · exact keeps.given.2

theorem Keeps.later {o : Origin} (keeps : c.Keeps o) (grows : c.Grows c')
    (before : o.Before c.log.length) : c'.Keeps o where
  parts part member := grows.made part (keeps.parts part member)
  given := ⟨Nat.lt_of_lt_of_le keeps.given.1 grows.next, Nat.lt_of_lt_of_le keeps.given.2 grows.next⟩
  numbered := keeps.numbered
  hidden hidden id own := by
    rw [grows.agree id (keeps.number_lt own)]
    exact keeps.hidden ((grows.hidden_iff before).1 hidden) id own
  told entry isEntry told := by
    have recorded := keeps.told entry isEntry (mt (grows.hidden_iff before).2 told)
    exact Library.recorded_of_same recorded (grows.agree _ keeps.given.1)
      (grows.agree _ keeps.given.2)

theorem Grows.instrument_iff (grows : c.Grows c') :
    .instrument ∈ c'.log ↔ .instrument ∈ c.log := by
  obtain ⟨mark, log, known⟩ := grows.log
  rw [log, List.mem_append, List.mem_singleton]
  exact or_iff_left_of_imp fun same => known.resolve_left fun differ => differ same.symm

/-- A step with one more origin at hand, whose identities are new. -/
theorem Kept.push (kept : c.Kept) (vocabulary : c.Vocabulary) (grows : c.Grows c') {o : Origin}
    (made : c'.made = o :: c.made) (sound : c'.library.Sound)
    (instrumented : c'.library.instrumented = c.library.instrumented)
    (idle : c.library.instrumented ≠ true → c'.library.table = c.library.table)
    (new : ∀ id ∈ o.ids, c.library.next ≤ id.number) (keeps : c'.Keeps o) : c'.Kept where
  sound := sound
  instrumented := by rw [instrumented, kept.instrumented, grows.instrument_iff]
  blank never := by
    rw [grows.instrument_iff] at never
    rw [idle (mt kept.instrumented.1 never), kept.blank never]
  apart := by
    -- every identity of an old origin was given out before, and those of the new one were not
    have foreign : ∀ old ∈ c.made, ∀ id ∈ o.ids, id ∉ old.ids := fun old member id own own' =>
      Nat.lt_irrefl _ (Nat.lt_of_lt_of_le ((kept.made old member).number_lt own') (new id own))
    rw [made]
    intro first member second member' id own own'
    rcases List.mem_cons.1 member with rfl | old <;> rcases List.mem_cons.1 member' with rfl | old'
    · rfl
    · exact absurd own' (foreign _ old' id own)
    · exact absurd own (foreign _ old id own')
    · exact kept.apart _ old _ old' id own own'
  made := by
    rw [made]
    exact List.forall_mem_cons.2 ⟨keeps, fun old member =>
      (kept.made old member).later grows (vocabulary.before old member)⟩

/-- A new library validator is known at once if the library is instrumented. -/
theorem Kept.add (kept : c.Kept) (vocabulary : c.Vocabulary) (grows : c.Grows c') {o : Origin}
    {kind : Kind} {argument : Option (Argument Validator)} (made : c'.made = o :: c.made)
    (isEntry : o.record? = some (kind, argument))
    (adds : c.library.Adds c'.library o.validator kind argument)
    (idle : c.library.instrumented ≠ true → c'.library.table = c.library.table)
    (parts : ∀ part ∈ o.parts, part ∈ c.made)
    (hidden : o.Hidden c'.log ↔ .instrument ∉ c.log) : c'.Kept := by
  have numbered := adds.numbered
  have next := adds.next
  have new : ∀ id ∈ o.ids, c.library.next ≤ id.number := by
    intro id own
    rcases ids_cases own with rfl | rfl
    · exact Nat.le_of_eq (congrArg ValidatorId.number numbered.id).symm
    · rw [numbered.required_id]
      exact Nat.le_succ _
  refine kept.push vocabulary grows made (adds.sound kept.sound) adds.instrumented idle new ?_
  refine ⟨fun part member => grows.made part (parts part member), ?_, fun entry _ => ?_, ?_, ?_⟩
  · rw [numbered.id, numbered.required_id, next]
    constructor <;> dsimp only <;> omega
  · exact ⟨_, numbered, fun part member => (kept.made part (parts part member)).given.1⟩
  · intro unknown id own
    rw [hidden] at unknown
    rw [idle (mt kept.instrumented.1 unknown), kept.blank unknown]
    rfl
  · intro entry same told
    rw [hidden, Classical.not_not] at told
    cases isEntry.symm.trans same
    exact adds.recorded (kept.instrumented.2 told)

/-! ## Steps -/

/-- Making a validator is a step that is no instrumentation. -/
theorem grows_after {mark : Mark} {work : StateM Library Validator} {origin : Validator → Origin}
    (other : mark ≠ .instrument) (next : c.library.next ≤ (work.run c.library).2.next)
    (agree : ∀ id, id.number < c.library.next →
      (work.run c.library).2.table.get? id = c.library.table.get? id) :
    c.Grows (c.after mark work origin) where
  log := ⟨mark, rfl, .inl other⟩
  next := next
  agree := agree
  made _ := List.mem_cons_of_mem _

theorem Kept.defineLeaf (kept : c.Kept) (vocabulary : c.Vocabulary) (name : String)
    (holds : Json → Bool) :
    (c.after (.define name) (Library.defineLeaf name holds) fun v =>
      .extension name v c.log.length).Kept := by
  have adds := c.library.adds_defineLeaf name holds
  exact kept.add vocabulary (grows_after nofun adds.next_le adds.table) rfl rfl adds
    (fun idle => Library.defineLeaf_idle idle name holds) nofun Origin.hidden_extension_now_iff

theorem Kept.construct (kept : c.Kept) (vocabulary : c.Vocabulary)
    {construction : Construction Origin} (atHand : ∀ part ∈ construction.parts, part ∈ c.made) :
    (c.after .other (construction.map Origin.validator).make fun v =>
      .built construction v c.log.length).Kept := by
  have adds := c.library.adds_make (construction.map Origin.validator)
  have isEntry (v : Validator) : (Origin.built construction v c.log.length).record? =
      some (.built (construction.map Origin.validator).kind,
        some (construction.map Origin.validator).argument) := by
    rw [Construction.kind_map]
    rfl
  exact kept.add vocabulary (grows_after nofun adds.next_le adds.table) rfl (isEntry _) adds
    (fun idle => Library.make_idle idle _) atHand Origin.hidden_built_now_iff

theorem Kept.custom (kept : c.Kept) (vocabulary : c.Vocabulary) (check : Check) :
    (c.after .other (Library.custom check) .custom).Kept := by
  have grows : c.Grows (c.after .other (Library.custom check) .custom) :=
    grows_after nofun (Nat.le_succ _) fun _ _ => rfl
  have ids : ∀ id ∈ (Origin.custom ((Library.custom check).run c.library).1).ids,
      c.library.next ≤ id.number := by
    intro id own
    rcases ids_cases own with rfl | rfl <;> exact Nat.le_refl _
  refine kept.push vocabulary grows rfl (Library.custom_sound kept.sound check) rfl (fun _ => rfl)
    ids ⟨nofun, ?_, nofun, ?_, nofun⟩
  · exact ⟨Nat.lt_succ_self _, Nat.lt_succ_self _⟩
  · exact fun _ id own => kept.sound.unrecorded (ids id own)

theorem Kept.required (kept : c.Kept) (vocabulary : c.Vocabulary) {o : Origin}
    (atHand : o ∈ c.made) :
    (Chronicle.mk c.library (c.log ++ [.other]) (.required o :: c.made)).Kept := by
  have grows : c.Grows ⟨c.library, c.log ++ [.other], .required o :: c.made⟩ :=
    ⟨⟨.other, rfl, .inl nofun⟩, Nat.le_refl _, fun _ _ => rfl, fun _ => List.mem_cons_of_mem _⟩
  have given := (kept.made o atHand).given
  refine kept.push vocabulary grows rfl kept.sound rfl (fun _ => rfl) nofun
    ⟨List.forall_mem_singleton.2 (List.mem_cons_of_mem _ atHand), ?_, nofun, fun _ => nofun, nofun⟩
  refine ⟨given.2, ?_⟩
  rw [Origin.validator, Validator.required_required]
  exact given.2

/-- A library is instrumented once; doing it again changes nothing. -/
theorem Kept.grows_instrument (kept : c.Kept) (already : .instrument ∈ c.log) :
    c.Grows ⟨(Library.instrument.run c.library).2, c.log ++ [.instrument], c.made⟩ := by
  rw [Library.instrument_again (kept.instrumented.2 already)]
  exact ⟨⟨.instrument, rfl, .inr already⟩, Nat.le_refl _, fun _ _ => rfl, fun _ => id⟩

theorem Kept.instrument_again (kept : c.Kept) (vocabulary : c.Vocabulary)
    (already : .instrument ∈ c.log) :
    (Chronicle.mk (Library.instrument.run c.library).2 (c.log ++ [.instrument]) c.made).Kept := by
  have instrumented := kept.instrumented.2 already
  have logged : .instrument ∈ c.log ++ [.instrument] := List.mem_append_left _ already
  have made := fun o atHand =>
    (kept.made o atHand).later (kept.grows_instrument already) (vocabulary.before o atHand)
  rw [Library.instrument_again instrumented] at made ⊢
  exact ⟨kept.sound, iff_of_true instrumented logged, fun never => absurd logged never, kept.apart,
    made⟩

/-! ## The first instrumentation -/

/-- The leaves that a library would record are those in force. -/
theorem Vocabulary.mem_leaves_iff (vocabulary : c.Vocabulary) (sound : c.library.Sound)
    {entry : Kind × Validator} :
    entry ∈ c.library.leaves ↔ ∃ o ∈ c.made, o.InForce c.log ∧
      o.record? = some (entry.1, none) ∧ o.validator = entry.2 := by
  constructor
  · intro member
    rcases List.mem_append.1 member with standard | extension
    · obtain ⟨kind, _, rfl⟩ := List.mem_map.1 standard
      refine ⟨.standard kind, vocabulary.standard kind, .standard kind, rfl, ?_⟩
      rw [sound.standard]
      rfl
    · obtain ⟨⟨name, v⟩, listed, rfl⟩ := List.mem_map.1 extension
      obtain ⟨time, atHand, inForce⟩ := (vocabulary.extensions name v).1
        (Record.get?_of_mem vocabulary.ascending listed)
      exact ⟨_, atHand, inForce, rfl, rfl⟩
  · obtain ⟨kind, v⟩ := entry
    rintro ⟨o, atHand, inForce, isEntry, rfl⟩
    cases o with
    | standard kind =>
      cases isEntry
      refine List.mem_append_left _ (List.mem_map.2 ⟨kind, LeafKind.mem_all kind, ?_⟩)
      rw [sound.standard]
      rfl
    | extension name v time =>
      cases isEntry
      have known := (vocabulary.extensions name v).2 ⟨time, atHand, inForce⟩
      exact List.mem_append_right _ (List.mem_map.2 ⟨_, Record.mem_of_get? known, rfl⟩)
    | custom | required => cases isEntry
    | built => cases inForce

/-- A leaf in force is recorded, because no other leaf has one of its numbers. -/
theorem Kept.recorded_inForce (kept : c.Kept) (vocabulary : c.Vocabulary) {o : Origin}
    (atHand : o ∈ c.made) {kind : Kind} {argument : Option (Argument Validator)}
    (isEntry : o.record? = some (kind, argument)) (inForce : o.InForce c.log) :
    Library.Recorded (c.library.table.recordLeaves c.library.leaves) o.validator kind argument := by
  obtain ⟨n, numbered, _⟩ := (kept.made o atHand).numbered _ isEntry
  have none : argument = none := by
    cases inForce with
    | standard | extension =>
      cases isEntry
      rfl
    | required => cases isEntry
  subst none
  refine Library.recorded_recordLeaves numbered (fun entry member => ?_)
    (.inr ((vocabulary.mem_leaves_iff kept.sound).2 ⟨o, atHand, inForce, isEntry, rfl⟩))
  obtain ⟨o', atHand', inForce', isEntry', same⟩ := (vocabulary.mem_leaves_iff kept.sound).1 member
  obtain ⟨m, numbered', _⟩ := (kept.made o' atHand').numbered _ isEntry'
  have apart : ∀ id, id ∈ o.ids → id ∈ o'.ids → entry = (kind, o.validator) := by
    intro id own own'
    have one := kept.apart o atHand o' atHand' id own own'
    subst one
    cases isEntry.symm.trans isEntry'
    rw [same]
  simp only [mem_ids_iff isEntry numbered, mem_ids_iff isEntry' numbered'] at apart
  -- the leaf of the entry has a number in common with this one, and is this one, or none at all
  by_cases near : m = n ∨ m = n + 1 ∨ n = m + 1
  · left
    rcases near with rfl | rfl | rfl
    · exact apart ⟨m⟩ (.inl rfl) (.inl rfl)
    · exact apart ⟨n + 1⟩ (.inr rfl) (.inl rfl)
    · exact apart ⟨m + 1⟩ (.inl rfl) (.inr rfl)
  · exact .inr ⟨m, same ▸ numbered', by omega⟩

/-- What is not in force stays without an entry. -/
theorem Kept.unrecorded_of_not_inForce (kept : c.Kept) (vocabulary : c.Vocabulary)
    (never : .instrument ∉ c.log) {o : Origin} (atHand : o ∈ c.made) (notInForce : ¬ o.InForce c.log)
    {id : ValidatorId} (own : id ∈ o.ids) :
    (c.library.table.recordLeaves c.library.leaves).get? id = none := by
  cases found : (c.library.table.recordLeaves c.library.leaves).get? id with
  | none => rfl
  | some metadata =>
    rcases Library.get?_recordLeaves found with before | ⟨entry, member, own'⟩
    · rw [kept.blank never] at before
      cases before
    · obtain ⟨o', atHand', inForce, isEntry, same⟩ :=
        (vocabulary.mem_leaves_iff kept.sound).1 member
      obtain ⟨n, numbered, _⟩ := (kept.made o' atHand').numbered _ isEntry
      rw [← same, numbered.id, numbered.required_id] at own'
      have one := kept.apart o atHand o' atHand' id own ((mem_ids_iff isEntry numbered).2 own')
      exact absurd (one ▸ inForce) notInForce

theorem Kept.instrument (kept : c.Kept) (vocabulary : c.Vocabulary) (never : .instrument ∉ c.log) :
    (Chronicle.mk (Library.instrument.run c.library).2 (c.log ++ [.instrument]) c.made).Kept := by
  have logged : .instrument ∈ c.log ++ [.instrument] := List.mem_append_right _ List.mem_cons_self
  have first := mt kept.instrumented.1 never
  have sound := kept.sound.instrument
  rw [Library.instrument_first first] at sound ⊢
  refine ⟨sound, iff_of_true rfl logged, fun again => absurd logged again, kept.apart, ?_⟩
  intro o atHand
  have keeps := kept.made o atHand
  have hidden_iff := Origin.hidden_instrumented_iff never (vocabulary.before o atHand)
  refine ⟨keeps.parts, keeps.given, keeps.numbered, fun hidden id own => ?_, ?_⟩
  · exact kept.unrecorded_of_not_inForce vocabulary never atHand (hidden_iff.1 hidden) own
  · intro entry isEntry told
    refine kept.recorded_inForce vocabulary atHand isEntry ?_
    rwa [hidden_iff, Classical.not_not] at told

/-! ## All steps -/

/-- A step is the first instrumentation or leaves the entries of what was made before alone. -/
theorem Step.grows_or_first (step : c.Step c') (kept : c.Kept) :
    c.Grows c' ∨ .instrument ∉ c.log ∧
      c' = ⟨(Library.instrument.run c.library).2, c.log ++ [.instrument], c.made⟩ := by
  cases step with
  | instrument =>
    by_cases already : .instrument ∈ c.log
    · exact .inl (kept.grows_instrument already)
    · exact .inr ⟨already, rfl⟩
  | defineLeaf name holds =>
    have adds := c.library.adds_defineLeaf name holds
    exact .inl (grows_after nofun adds.next_le adds.table)
  | custom check => exact .inl (grows_after nofun (Nat.le_succ _) fun _ _ => rfl)
  | @construct construction atHand =>
    have adds := c.library.adds_make (construction.map Origin.validator)
    exact .inl (grows_after nofun adds.next_le adds.table)
  | required atHand =>
    exact .inl ⟨⟨.other, rfl, .inl nofun⟩, Nat.le_refl _, fun _ _ => rfl,
      fun _ => List.mem_cons_of_mem _⟩

theorem Step.kept (step : c.Step c') (kept : c.Kept) (vocabulary : c.Vocabulary) : c'.Kept := by
  cases step with
  | instrument =>
    by_cases already : .instrument ∈ c.log
    · exact kept.instrument_again vocabulary already
    · exact kept.instrument vocabulary already
  | defineLeaf name holds => exact kept.defineLeaf vocabulary name holds
  | custom check => exact kept.custom vocabulary check
  | construct atHand => exact kept.construct vocabulary atHand
  | required atHand => exact kept.required vocabulary atHand

/-- Every chronicle that began with a fresh library keeps its table. -/
theorem Steps.kept (steps : opened.Steps c) : c.Vocabulary ∧ c.Kept := by
  induction steps with
  | refl => exact ⟨opened_vocabulary, opened_kept⟩
  | tail _ step ih => exact ⟨step.vocabulary ih.1, step.kept ih.2 ih.1⟩

end Chronicle

end PropSandbox

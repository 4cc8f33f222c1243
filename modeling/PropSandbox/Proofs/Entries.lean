import PropSandbox.Proofs.Recall

/-!
# Entries of the table

Whatever is done with a library, its table has the two flavors of a validator together or not at
all, and tells the same of both but the flavor. Every number that was given out belongs to a
validator that was made (`Chronicle.Accounted`), so there are no entries besides these pairs. The
parts of an argument were made before the validator that has it: their numbers are smaller, and
following arguments through the table ends. An entry stays as it was recorded.
-/

namespace PropSandbox

/-! ## Pairs -/

namespace MetadataTable

/-- What a table holds of the two flavors of a validator: an entry for each, or none for either. The
entries tell their flavors apart and agree on kind and argument, and the parts of the argument have
smaller numbers than both. -/
structure Pairs (table : MetadataTable) (v : Validator) : Prop where
  both : (table.get? v.id).isSome ↔ (table.get? v.required.id).isSome
  optional : ∀ entry ∈ table.get? v.id, entry.required = false
  required : ∀ entry ∈ table.get? v.required.id, entry.required = true
  agree : ∀ entry ∈ table.get? v.id, ∀ other ∈ table.get? v.required.id,
    entry.kind = other.kind ∧ entry.argument = other.argument
  older : ∀ entry ∈ table.get? v.id, ∀ argument ∈ entry.argument, ∀ part ∈ argument.parts,
    part.id.number < v.id.number ∧ part.id.number < v.required.id.number

variable {table : MetadataTable} {v : Validator}

theorem pairs_of_unrecorded (optional : table.get? v.id = none)
    (required : table.get? v.required.id = none) : table.Pairs v := by
  constructor <;> simp [optional, required]

theorem pairs_of_recorded {kind : Kind} {argument : Option (Argument Validator)}
    (recorded : Library.Recorded table v kind argument)
    (older : ∀ known ∈ argument, ∀ part ∈ known.parts,
      part.id.number < v.id.number ∧ part.id.number < v.required.id.number) : table.Pairs v := by
  obtain ⟨optional, required⟩ := recorded
  refine ⟨?_, ?_, ?_, ?_, ?_⟩
  · simp [optional, required]
  · simp [optional]
  · simp [required]
  · simp [optional, required]
  · rw [optional]
    rintro _ ⟨⟩
    exact older

/-- The parts of either entry have smaller numbers than the entry. -/
theorem Pairs.number_lt (pairs : table.Pairs v) {id : ValidatorId}
    (own : id = v.id ∨ id = v.required.id) {entry : Metadata} (found : table.get? id = some entry)
    {argument : Argument Validator} (known : entry.argument = some argument) {part : Validator}
    (listed : part ∈ argument.parts) : part.id.number < id.number := by
  rcases own with rfl | rfl
  · exact (pairs.older entry found argument known part listed).1
  · obtain ⟨other, there⟩ := Option.isSome_iff_exists.1 (pairs.both.2 (by simp [found]))
    have same := (pairs.agree other there entry found).2
    exact (pairs.older other there argument (same.trans known) part listed).2

/-- One step from an entry to another through the table: from a validator to a part of its
argument. -/
def Leads (table : MetadataTable) (id part : ValidatorId) : Prop :=
  ∃ entry ∈ table.get? id, ∃ argument ∈ entry.argument, ∃ v ∈ argument.parts, v.id = part

end MetadataTable

namespace Chronicle

variable {c c' : Chronicle} {o : Origin}

/-- A leaf or a construction is recorded in both flavors if it is not hidden, and in neither if it
is. -/
theorem Keeps.pairs_entry (keeps : c.Keeps o) {kind : Kind} {argument : Option (Argument Validator)}
    (isEntry : o.record? = some (kind, argument))
    (parts : ∀ known ∈ argument, ∀ v ∈ known.parts, ∃ part ∈ o.parts, part.validator = v) :
    c.library.table.Pairs o.validator := by
  obtain ⟨n, numbered, below⟩ := keeps.numbered _ isEntry
  by_cases hidden : o.Hidden c.log
  · have unrecorded := keeps.hidden hidden
    simp only [mem_ids_iff isEntry numbered, ← numbered.id, ← numbered.required_id] at unrecorded
    exact MetadataTable.pairs_of_unrecorded (unrecorded _ (.inl rfl)) (unrecorded _ (.inr rfl))
  · refine MetadataTable.pairs_of_recorded (keeps.told _ isEntry hidden)
      fun known here v member => ?_
    obtain ⟨part, listed, rfl⟩ := parts known here v member
    have less := below part listed
    rw [numbered.id, numbered.required_id]
    exact ⟨less, Nat.lt_succ_of_lt less⟩

/-- The table pairs every validator at hand that is no required flavor. -/
theorem Kept.pairs (kept : c.Kept) (genuine : o.Genuine) (atHand : o ∈ c.made)
    (flavor : o.validator.requiresValue = false) : c.library.table.Pairs o.validator := by
  have keeps := kept.made o atHand
  induction genuine with
  | standard kind => exact keeps.pairs_entry rfl nofun
  | extension lib name holds time => exact keeps.pairs_entry rfl nofun
  | custom lib check =>
    have unrecorded := keeps.hidden (.custom _)
    exact MetadataTable.pairs_of_unrecorded (unrecorded _ (by simp [Origin.ids]))
      (unrecorded _ (by simp [Origin.ids]))
  | built lib time parts =>
    refine keeps.pairs_entry rfl ?_
    rintro _ ⟨⟩ v member
    exact exists_part member
  | @required o _ ih =>
    have part := keeps.parts o List.mem_cons_self
    -- the required flavor of a validator that has none is the validator itself
    have itself : o.validator.required = o.validator := by
      revert flavor
      simp only [Origin.validator, Validator.required, Validator.requiresValue]
      cases o.validator.flavor <;> simp
    rw [Origin.validator, itself] at flavor ⊢
    exact ih part flavor (kept.made o part)

/-! ## Numbers that were given out -/

/-- Every number that was given out is one of a validator at hand. -/
def Accounted (c : Chronicle) : Prop :=
  ∀ id : ValidatorId, id.number < c.library.next → ∃ o ∈ c.made, id ∈ o.ids

theorem opened_accounted : opened.Accounted := by
  have leaves : ∀ n < 18, ∃ kind ∈ LeafKind.all, ValidatorId.mk n ∈ (Origin.standard kind).ids := by
    decide
  intro id given
  obtain ⟨kind, listed, own⟩ := leaves id.number given
  exact ⟨_, List.mem_map_of_mem listed, own⟩

/-- New numbers belong to what was made with them. -/
theorem Accounted.push (accounted : c.Accounted) (made : c'.made = o :: c.made)
    (new : ∀ id : ValidatorId, c.library.next ≤ id.number → id.number < c'.library.next →
      id ∈ o.ids) : c'.Accounted := by
  intro id given
  rw [made]
  by_cases earlier : id.number < c.library.next
  · obtain ⟨old, atHand, own⟩ := accounted id earlier
    exact ⟨old, List.mem_cons_of_mem _ atHand, own⟩
  · exact ⟨o, List.mem_cons_self, new id (Nat.not_lt.1 earlier) given⟩

/-- A new library validator takes two numbers. -/
theorem Accounted.add (accounted : c.Accounted) (made : c'.made = o :: c.made)
    {entry : Kind × Option (Argument Validator)} (isEntry : o.record? = some entry)
    (adds : c.library.Adds c'.library o.validator entry.1 entry.2) : c'.Accounted := by
  refine accounted.push made fun ⟨n⟩ later given => ?_
  rw [adds.next] at given
  rw [mem_ids_iff isEntry adds.numbered, ValidatorId.mk.injEq, ValidatorId.mk.injEq]
  dsimp only at later given
  omega

theorem Step.accounted (step : c.Step c') (accounted : c.Accounted) : c'.Accounted := by
  cases step with
  | instrument =>
    have next : (Library.instrument.run c.library).2.next = c.library.next := by
      by_cases already : c.library.instrumented = true
      · rw [Library.instrument_again already]
      · rw [Library.instrument_first already]
    intro id given
    rw [next] at given
    exact accounted id given
  | defineLeaf name holds =>
    exact accounted.add rfl rfl (c.library.adds_defineLeaf name holds)
  | custom check =>
    refine accounted.push rfl fun ⟨n⟩ later given => ?_
    have same : n = c.library.next := Nat.le_antisymm (Nat.le_of_lt_succ given) later
    rw [same]
    exact List.mem_cons_self
  | @construct construction atHand =>
    refine accounted.add rfl rfl ?_
    have adds := c.library.adds_make (construction.map Origin.validator)
    rwa [Construction.kind_map] at adds
  | required =>
    exact accounted.push rfl fun id later given => absurd given (Nat.not_lt.2 later)

theorem Steps.accounted (steps : opened.Steps c) : c.Accounted := by
  induction steps with
  | refl => exact opened_accounted
  | tail _ step ih => exact step.accounted ih

/-- An entry is one of a validator at hand that is no required flavor. -/
theorem Accounted.of_entry (accounted : c.Accounted) (kept : c.Kept)
    (genuine : ∀ o ∈ c.made, o.Genuine) {id : ValidatorId} {entry : Metadata}
    (found : c.library.table.get? id = some entry) :
    ∃ o ∈ c.made, o.validator.requiresValue = false ∧
      (id = o.validator.id ∨ id = o.validator.required.id) := by
  obtain ⟨o, atHand, own⟩ := accounted id (kept.sound.given id entry found)
  refine ⟨o, atHand, ?_, ids_cases own⟩
  cases genuine o atHand with
  | required => cases own
  | built lib =>
    rw [Origin.validator, Construction.make_eq]
    rfl
  | _ => rfl

/-! ## Recorded for good -/

theorem Step.keeps_entry (step : c.Step c') (kept : c.Kept) {id : ValidatorId} {entry : Metadata}
    (found : c.library.table.get? id = some entry) :
    c'.library.table.get? id = some entry := by
  rcases step.grows_or_first kept with grows | ⟨never, rfl⟩
  · rw [grows.agree id (kept.sound.given id entry found), found]
  · rw [kept.blank never] at found
    cases found

theorem Steps.keeps_entry (steps : c.Steps c') (began : opened.Steps c) {id : ValidatorId}
    {entry : Metadata} (found : c.library.table.get? id = some entry) :
    c'.library.table.get? id = some entry := by
  induction steps with
  | refl => exact found
  | tail before step ih => exact step.keeps_entry (Steps.kept (began.trans before)).2 ih

end Chronicle

/-- What holds of the table of a library after any work that began with a fresh one: it pairs the
flavors of every validator that was made, has no entries besides, and following arguments through it
ends. Whatever is done next, its entries stay, and instrumenting the library once more leaves it as
it is. -/
theorem table_keeps_pairs {c : Chronicle} (steps : Chronicle.opened.Steps c) :
    (∀ o ∈ c.made, o.validator.requiresValue = false → c.library.table.Pairs o.validator) ∧
      (∀ id entry, c.library.table.get? id = some entry →
        ∃ o ∈ c.made, o.validator.requiresValue = false ∧
          (id = o.validator.id ∨ id = o.validator.required.id)) ∧
      WellFounded (fun part id => c.library.table.Leads id part) ∧
      (∀ c', c.Steps c' → ∀ id entry, c.library.table.get? id = some entry →
        c'.library.table.get? id = some entry) ∧
      (.instrument ∈ c.log → (Library.instrument.run c.library).2.table = c.library.table) := by
  have kept := steps.kept.2
  have genuine := steps.genuine
  have pairs := fun o atHand => kept.pairs (genuine o atHand) atHand
  have entries := fun id entry (found : c.library.table.get? id = some entry) =>
    steps.accounted.of_entry kept genuine found
  refine ⟨pairs, entries, ?_, fun c' later id entry => later.keeps_entry steps, fun logged => ?_⟩
  · refine Subrelation.wf ?_ (InvImage.wf ValidatorId.number Nat.lt_wfRel.wf)
    rintro _ id ⟨entry, found, argument, known, part, listed, rfl⟩
    obtain ⟨o, atHand, flavor, own⟩ := entries id entry found
    exact (pairs o atHand flavor).number_lt own found known listed
  · rw [Library.instrument_again (kept.instrumented.2 logged)]

/-- The union of a list that was made early and a required number has an entry for either flavor,
and keeps them when the library is instrumented again; the list has none. -/
theorem joined_keeps_pairs :
    let table := Chronicle.joined.library.table
    let union : ValidatorId := ⟨20⟩
    let again := (Library.instrument.run Chronicle.joined.library).2.table
    (∃ entry other, table.get? union = some entry ∧ table.get? ⟨21⟩ = some other ∧
      entry.kind = other.kind ∧ entry.argument = other.argument ∧ entry.required = false ∧
      other.required = true ∧ again.get? union = some entry ∧ again.get? ⟨21⟩ = some other) ∧
    table.get? Chronicle.earlyList.validator.id = none ∧
    table.Pairs Chronicle.earlyList.validator := by
  intro table union again
  obtain ⟨pairs, -, -, -, settled⟩ := table_keeps_pairs Chronicle.joined_steps
  have logged : .instrument ∈ Chronicle.joined.log := by decide
  have same : again = table := settled logged
  obtain ⟨entry, found⟩ := Option.isSome_iff_exists.1 (rfl : (table.get? union).isSome = true)
  obtain ⟨other, found'⟩ := Option.isSome_iff_exists.1 (rfl : (table.get? ⟨21⟩).isSome = true)
  have pair := pairs _ List.mem_cons_self rfl
  have agree := pair.agree entry found other found'
  have list := pairs Chronicle.earlyList (.tail _ (.tail _ (.head _))) rfl
  rw [same]
  exact ⟨⟨entry, other, found, found', agree.1, agree.2, pair.optional entry found,
    pair.required other found', found, found'⟩, rfl, list⟩

end PropSandbox

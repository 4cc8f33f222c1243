import Mathlib.Logic.Relation
import PropSandbox.Inference
import PropSandbox.Proofs.Plan

/-!
# Work with a library

A workshop is a library with the validators made on it so far, each with its plan. A step of work
defines a leaf, calls a constructor on validators that are at hand, takes the required flavor of
one, makes a custom validator, or instruments the library. Identities are given out in order and
none twice (`Library.Sound`), so what the table says about a validator is never changed by later
work.
-/

namespace PropSandbox

/-- A library with the validators at hand and the plans they were made by. -/
structure Workshop where
  library : Library
  made : List (Plan × Validator)

namespace Workshop

/-- The workshop of a library with its standard leaves at hand. -/
def opened (lib : Library) : Workshop :=
  ⟨lib, LeafKind.all.map fun kind => (.leaf kind, lib.standard kind)⟩

/-- The workshop after a piece of work that made a validator by a plan. -/
def after (w : Workshop) (plan : Plan) (work : StateM Library Validator) : Workshop :=
  ⟨(work.run w.library).2, (plan, (work.run w.library).1) :: w.made⟩

/-- One step of work. -/
inductive Step (w : Workshop) : Workshop → Prop where
  | instrument : Step w ⟨(Library.instrument.run w.library).2, w.made⟩
  | defineLeaf (name : String) (holds : Json → Bool) :
      Step w (w.after (.extension name holds) (Library.defineLeaf name holds))
  | custom (check : Check) : Step w (w.after (.custom check) (Library.custom check))
  | construct {construction : Construction (Plan × Validator)}
      (atHand : ∀ part ∈ construction.parts, part ∈ w.made) :
      Step w (w.after (.built (construction.map Prod.fst)) (construction.map Prod.snd).make)
  | required {plan : Plan} {v : Validator} (atHand : (plan, v) ∈ w.made) :
      Step w ⟨w.library, (.required plan, v.required) :: w.made⟩

/-- Any number of steps of work. -/
abbrev Steps : Workshop → Workshop → Prop := Relation.ReflTransGen Step

end Workshop

namespace Library

/-- The libraries that work on a fresh one leads to. -/
def Reachable (lib : Library) : Prop :=
  ∃ made, (Workshop.opened fresh).Steps ⟨lib, made⟩

/-- Both flavors of a validator are recorded in a table. -/
def Recorded (table : MetadataTable) (v : Validator) (kind : Kind)
    (argument : Option (Argument Validator)) : Prop :=
  table.get? v.id = some ⟨kind, false, argument⟩ ∧
    table.get? v.required.id = some ⟨kind, true, argument⟩

end Library

/-- An optional validator with a number of its own, and the next one for its required flavor. -/
structure Validator.Numbered (v : Validator) (n : Nat) : Prop where
  id : v.id = ⟨n⟩
  flavor : v.flavor = .optional ⟨n + 1⟩

namespace Validator.Numbered

variable {v : Validator} {n : Nat}

theorem required_id (numbered : v.Numbered n) : v.required.id = ⟨n + 1⟩ := by
  simp [Validator.required, numbered.flavor]

theorem record (numbered : v.Numbered n) (table : MetadataTable) (kind : Kind)
    (argument : Option (Argument Validator)) :
    Library.Recorded (table.record v kind argument) v kind argument := by
  refine ⟨?_, MetadataTable.get?_attach_self _ _ _⟩
  have differ : v.id ≠ v.required.id := by
    simp [numbered.id, numbered.required_id]
  rw [MetadataTable.record, MetadataTable.get?_attach_of_ne _ _ differ,
    MetadataTable.get?_attach_self]

/-- Recording a validator leaves the entries of all other numbers as they are. -/
theorem get?_record (numbered : v.Numbered n) (table : MetadataTable) (kind : Kind)
    (argument : Option (Argument Validator)) {id : ValidatorId}
    (other : id.number ≠ n ∧ id.number ≠ n + 1) :
    (table.record v kind argument).get? id = table.get? id := by
  apply MetadataTable.get?_record_of_ne
  · rintro rfl
    exact other.1 (by rw [numbered.id])
  · rintro rfl
    exact other.2 (by rw [numbered.required_id])

end Validator.Numbered

namespace Library

theorem standard_numbered (kind : LeafKind) :
    (fresh.standard kind).Numbered (2 * leafPlace kind) :=
  ⟨rfl, rfl⟩

theorem leafPlace_lt (kind : LeafKind) : leafPlace kind < 9 := by
  cases kind <;> decide

/-- What holds of every library that came from a fresh one: numbers are given out in order, the
first eighteen to the standard leaves, and instrumentation has recorded these. -/
structure Sound (lib : Library) : Prop where
  standard : lib.standard = fresh.standard
  room : 18 ≤ lib.next
  given : ∀ id metadata, lib.table.get? id = some metadata → id.number < lib.next
  extensions : ∀ entry ∈ lib.extensions, ∃ n, entry.2.Numbered n ∧ 18 ≤ n ∧ n + 1 < lib.next
  leaves : lib.instrumented = true →
    ∀ kind, Recorded lib.table (fresh.standard kind) (.leaf kind) none

theorem fresh_sound : fresh.Sound where
  standard := rfl
  room := Nat.le_refl 18
  given := nofun
  extensions := nofun
  leaves := nofun

variable {lib : Library}

/-- Numbers may be left out. -/
theorem Sound.ahead (sound : lib.Sound) {next : Nat} (later : lib.next ≤ next) :
    { lib with next }.Sound where
  standard := sound.standard
  room := Nat.le_trans sound.room later
  given id metadata found := Nat.lt_of_lt_of_le (sound.given id metadata found) later
  extensions entry member := by
    obtain ⟨n, numbered, room, used⟩ := sound.extensions entry member
    exact ⟨n, numbered, room, Nat.lt_of_lt_of_le used later⟩
  leaves := sound.leaves

/-- A number that was not given out has no entry. -/
theorem Sound.unrecorded (sound : lib.Sound) {id : ValidatorId} (new : lib.next ≤ id.number) :
    lib.table.get? id = none := by
  cases found : lib.table.get? id with
  | none => rfl
  | some metadata => exact absurd (sound.given id metadata found) (Nat.not_lt.2 new)

theorem standard_number_lt (kind : LeafKind) :
    (fresh.standard kind).id.number < 18 ∧ (fresh.standard kind).required.id.number < 18 := by
  have place := leafPlace_lt kind
  rw [(standard_numbered kind).id, (standard_numbered kind).required_id]
  constructor <;> dsimp only <;> omega

theorem recorded_of_same {table table' : MetadataTable} {v : Validator} {kind : Kind}
    {argument : Option (Argument Validator)} (recorded : Recorded table v kind argument)
    (same : table'.get? v.id = table.get? v.id)
    (same' : table'.get? v.required.id = table.get? v.required.id) :
    Recorded table' v kind argument :=
  ⟨same.trans recorded.1, same'.trans recorded.2⟩

/-- A record of a validator with numbers beyond the standard leaves keeps the library sound. -/
theorem Sound.noted (sound : lib.Sound) {v : Validator} {n : Nat} (numbered : v.Numbered n)
    (room : 18 ≤ n) (used : n + 1 < lib.next) (kind : Kind)
    (argument : Option (Argument Validator)) : (lib.noted v kind argument).Sound := by
  rw [Library.noted]
  split
  · refine ⟨sound.standard, sound.room, ?_, sound.extensions, ?_⟩
    · intro id metadata found
      by_cases own : id.number = n ∨ id.number = n + 1
      · rcases own with own | own <;> simp only [own] <;> omega
      · rw [numbered.get?_record _ _ _ (not_or.1 own)] at found
        exact sound.given id metadata found
    · intro instrumented kind
      have low := standard_number_lt kind
      refine recorded_of_same (sound.leaves instrumented kind) ?_ ?_
      · exact numbered.get?_record _ _ _ ⟨by omega, by omega⟩
      · exact numbered.get?_record _ _ _ ⟨by omega, by omega⟩
  · exact sound

/-- What making a library validator does: it takes two numbers, is recorded in both flavors under
instrumentation, and leaves the entries of all earlier numbers as they are. -/
structure Adds (lib lib' : Library) (v : Validator) (kind : Kind)
    (argument : Option (Argument Validator)) : Prop where
  numbered : v.Numbered lib.next
  next : lib'.next = lib.next + 2
  instrumented : lib'.instrumented = lib.instrumented
  recorded : lib.instrumented = true → Recorded lib'.table v kind argument
  table : ∀ id, id.number < lib.next → lib'.table.get? id = lib.table.get? id
  sound : lib.Sound → lib'.Sound

theorem adds_noted (lib : Library) {v : Validator} (numbered : v.Numbered lib.next) (kind : Kind)
    (argument : Option (Argument Validator)) :
    lib.Adds ({ lib with next := lib.next + 2 }.noted v kind argument) v kind argument where
  numbered := numbered
  next := by
    rw [noted]
    split <;> rfl
  instrumented := by
    rw [noted]
    split <;> rfl
  recorded instrumented := by
    rw [noted, if_pos instrumented]
    exact numbered.record _ _ _
  table id earlier := by
    rw [noted]
    split
    · exact numbered.get?_record _ _ _ ⟨by omega, by omega⟩
    · rfl
  sound sound := (sound.ahead (by omega)).noted numbered sound.room (Nat.lt_succ_self _) _ _

theorem adds_make (lib : Library) (construction : Construction Validator) :
    lib.Adds (construction.make.run lib).2 (construction.make.run lib).1
      (.built construction.kind) (some construction.argument) := by
  rw [Construction.make_eq]
  exact lib.adds_noted ⟨rfl, rfl⟩ _ _

theorem adds_defineLeaf (lib : Library) (name : String) (holds : Json → Bool) :
    lib.Adds ((defineLeaf name holds).run lib).2 ((defineLeaf name holds).run lib).1
      (.extension name) none := by
  have numbered : ((defineLeaf name holds).run lib).1.Numbered lib.next := ⟨rfl, rfl⟩
  obtain ⟨numbered, next, instrumented, recorded, table, sound⟩ :=
    lib.adds_noted numbered (.extension name) none
  refine ⟨numbered, next, instrumented, recorded, table, fun before => ?_⟩
  have noted := sound before
  refine ⟨noted.standard, noted.room, noted.given, fun entry member => ?_, noted.leaves⟩
  rcases Record.mem_insert member with rfl | old
  · exact ⟨lib.next, numbered, before.room, Nat.lt_of_lt_of_eq (Nat.lt_succ_self _) next.symm⟩
  · exact noted.extensions entry old

theorem custom_sound (sound : lib.Sound) (check : Check) : ((custom check).run lib).2.Sound :=
  sound.ahead (Nat.le_succ _)

/-! ## Instrumentation -/

end Library

/-- A table with a list of leaves recorded in it. -/
def MetadataTable.recordLeaves (table : MetadataTable) (leaves : List (Kind × Validator)) :
    MetadataTable :=
  leaves.foldl (fun table entry => table.record entry.2 entry.1 none) table

namespace Library

variable {lib : Library}

/-- Recording a list of leaves records each of them, if no two share a number. -/
theorem recorded_recordLeaves {entries : List (Kind × Validator)} {table : MetadataTable} {kind : Kind}
    {v : Validator} {n : Nat} (numbered : v.Numbered n)
    (distinct : ∀ entry ∈ entries, entry = (kind, v) ∨
      ∃ m, entry.2.Numbered m ∧ (m + 1 < n ∨ n + 1 < m))
    (listed : Recorded table v kind none ∨ (kind, v) ∈ entries) :
    Recorded (table.recordLeaves entries) v kind none := by
  induction entries generalizing table with
  | nil => exact listed.resolve_right nofun
  | cons entry rest ih =>
    refine ih (fun other member => distinct other (List.mem_cons_of_mem _ member)) ?_
    rcases distinct entry List.mem_cons_self with rfl | ⟨m, other, apart⟩
    · exact .inl (numbered.record table kind none)
    · rcases listed with before | member
      -- the pair of numbers of another leaf lies below or above that of `v`
      · refine .inl (recorded_of_same before ?_ ?_)
        · refine other.get?_record _ _ _ ?_
          rw [numbered.id]
          constructor <;> dsimp only <;> omega
        · refine other.get?_record _ _ _ ?_
          rw [numbered.required_id]
          constructor <;> dsimp only <;> omega
      · rcases List.mem_cons.1 member with rfl | later
        · exact .inl (numbered.record table kind none)
        · exact .inr later

/-- An entry made by recording leaves was there before or is the entry of a leaf. -/
theorem get?_recordLeaves {entries : List (Kind × Validator)} {table : MetadataTable} {id : ValidatorId}
    {metadata : Metadata} (found : (table.recordLeaves entries).get? id = some metadata) :
    table.get? id = some metadata ∨
      ∃ entry ∈ entries, id = entry.2.id ∨ id = entry.2.required.id := by
  induction entries generalizing table with
  | nil => exact .inl found
  | cons entry rest ih =>
    rcases ih found with before | ⟨later, member, own⟩
    · by_cases own : id = entry.2.id ∨ id = entry.2.required.id
      · exact .inr ⟨entry, List.mem_cons_self, own⟩
      · rw [not_or] at own
        rw [MetadataTable.get?_record_of_ne _ _ _ own.1 own.2] at before
        exact .inl before
    · exact .inr ⟨later, List.mem_cons_of_mem _ member, own⟩

/-- The leaves of a sound library are numbered below the next free number: the standard ones as
they always are, the extensions beyond them. -/
theorem Sound.mem_leaves (sound : lib.Sound) {entry : Kind × Validator}
    (member : entry ∈ lib.leaves) :
    (∃ kind, entry = (.leaf kind, fresh.standard kind)) ∨
      ∃ n, entry.2.Numbered n ∧ 18 ≤ n ∧ n + 1 < lib.next := by
  rcases List.mem_append.1 member with standard | extension
  · obtain ⟨kind, _, rfl⟩ := List.mem_map.1 standard
    exact .inl ⟨kind, by rw [sound.standard]⟩
  · obtain ⟨known, inExtensions, rfl⟩ := List.mem_map.1 extension
    exact .inr (sound.extensions known inExtensions)

theorem leafPlace_injective {kind other : LeafKind} (same : leafPlace kind = leafPlace other) :
    kind = other := by
  cases kind <;> cases other <;> simp_all [leafPlace]

/-- A library is instrumented once. -/
theorem instrument_again (already : lib.instrumented = true) :
    (Library.instrument.run lib).2 = lib := by
  simp [Library.instrument, StateT.run, already]

theorem instrument_first (first : lib.instrumented ≠ true) :
    (Library.instrument.run lib).2 =
      { lib with table := lib.table.recordLeaves lib.leaves, instrumented := true } := by
  simp [Library.instrument, MetadataTable.recordLeaves, StateT.run, first]

theorem Sound.number_lt_of_recordLeaves (sound : lib.Sound) {id : ValidatorId} {metadata : Metadata}
    (found : (lib.table.recordLeaves lib.leaves).get? id = some metadata) :
    id.number < lib.next := by
  rcases get?_recordLeaves found with before | ⟨entry, member, own⟩
  · exact sound.given id metadata before
  · have room := sound.room
    rcases sound.mem_leaves member with ⟨kind, rfl⟩ | ⟨n, numbered, _, used⟩
    · have low := standard_number_lt kind
      rcases own with rfl | rfl <;> dsimp only <;> omega
    · rw [numbered.id, numbered.required_id] at own
      rcases own with rfl | rfl <;> dsimp only <;> omega

/-- The leaves have numbers of their own, so no record of one covers that of another. -/
theorem Sound.recorded_standard (sound : lib.Sound) (kind : LeafKind) :
    Recorded (lib.table.recordLeaves lib.leaves) (fresh.standard kind) (.leaf kind) none := by
  refine recorded_recordLeaves (standard_numbered kind) (fun entry member => ?_) (.inr ?_)
  · have place := leafPlace_lt kind
    rcases sound.mem_leaves member with ⟨other, rfl⟩ | ⟨n, numbered, room, _⟩
    · by_cases same : other = kind
      · exact .inl (by rw [same])
      · have differ : leafPlace other ≠ leafPlace kind := fun h => same (leafPlace_injective h)
        exact .inr ⟨_, standard_numbered other, by omega⟩
    · exact .inr ⟨n, numbered, by omega⟩
  · refine List.mem_append_left _ (List.mem_map.2 ⟨kind, LeafKind.mem_all kind, ?_⟩)
    rw [sound.standard]

theorem Sound.instrument (sound : lib.Sound) : (Library.instrument.run lib).2.Sound := by
  by_cases already : lib.instrumented = true
  · rwa [instrument_again already]
  · rw [instrument_first already]
    exact ⟨sound.standard, sound.room, fun _ _ => sound.number_lt_of_recordLeaves,
      sound.extensions, fun _ => sound.recorded_standard⟩

end Library

namespace Workshop

/-- Work keeps a library sound. -/
theorem Step.sound {w w' : Workshop} (step : w.Step w') (sound : w.library.Sound) :
    w'.library.Sound := by
  cases step with
  | instrument => exact sound.instrument
  | defineLeaf name holds => exact (w.library.adds_defineLeaf name holds).sound sound
  | custom check => exact Library.custom_sound sound check
  | construct atHand => exact (w.library.adds_make _).sound sound
  | required => exact sound

theorem Steps.sound {w w' : Workshop} (steps : w.Steps w') (sound : w.library.Sound) :
    w'.library.Sound := by
  induction steps with
  | refl => exact sound
  | tail _ step ih => exact step.sound ih

end Workshop

/-- Every library that work on a fresh one leads to is sound. -/
theorem Library.Reachable.sound {lib : Library} (reachable : lib.Reachable) : lib.Sound := by
  obtain ⟨made, steps⟩ := reachable
  exact Workshop.Steps.sound steps Library.fresh_sound

end PropSandbox

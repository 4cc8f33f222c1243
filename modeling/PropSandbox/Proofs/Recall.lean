import PropSandbox.Proofs.Ledger

/-!
# What inference recalls

Inference follows a table, but what it finds is a tree: the construction tree of the validator, cut
off at the validators that are hidden (`Origin.Shows`). Every argument in the table is older than
what was built from it, so following the table without a guard ends as well (`Library.Tells`). Only
the first instrumentation changes what is found, and it tells of the leaves in force alone.
-/

namespace PropSandbox

namespace Library

/-- Following the table from a validator, wherever it leads, ends with a type. -/
inductive Tells (lib : Library) : Validator → PropType → Prop where
  | unknown {v : Validator} (unrecorded : lib.metadata? v = none) : Tells lib v (.unknown v)
  | known {v : Validator} {metadata : Metadata} {told : Validator → PropType}
      (recorded : lib.metadata? v = some metadata)
      (parts : ∀ argument ∈ metadata.argument, ∀ part ∈ argument.parts, Tells lib part (told part)) :
      Tells lib v (.known ⟨metadata.kind, metadata.required,
        metadata.argument.map fun argument => [argument.map told], v⟩)

variable {lib : Library}

theorem Tells.unique {v : Validator} {t t' : PropType} (tells : lib.Tells v t)
    (tells' : lib.Tells v t') : t = t' := by
  induction tells generalizing t' with
  | unknown unrecorded =>
    cases tells' with
    | unknown => rfl
    | known recorded => cases unrecorded.symm.trans recorded
  | @known v metadata told recorded parts ih =>
    cases tells' with
    | unknown unrecorded => cases unrecorded.symm.trans recorded
    | @known _ _ told' recorded' parts' =>
      cases recorded.symm.trans recorded'
      cases here : metadata.argument with
      | none => rfl
      | some argument =>
        have same : argument.map told = argument.map told' :=
          Argument.map_congr_parts fun part member =>
            ih argument here part member (parts' argument here part member)
        rw [Option.map_some, Option.map_some, same]

/-- If all parts are older, the guarded walk is the walk without a guard. -/
theorem tells_of_recorded {v : Validator} {kind : Kind} {required : Bool}
    {argument : Option (Argument Validator)}
    (recorded : lib.table.get? v.id = some ⟨kind, required, argument⟩)
    (older : ∀ known ∈ argument, ∀ part ∈ known.parts, part.id.number < v.id.number)
    (parts : ∀ known ∈ argument, ∀ part ∈ known.parts, lib.Tells part (lib.infer part)) :
    lib.Tells v (lib.infer v) := by
  rw [infer_of_recorded recorded older]
  exact .known recorded parts

theorem tells_of_unrecorded {v : Validator} (unrecorded : lib.table.get? v.id = none) :
    lib.Tells v (lib.infer v) := by
  rw [infer_of_unrecorded unrecorded]
  exact .unknown unrecorded

end Library

namespace Origin

/-- The types that show an origin under a log: each node with its kind, its own flavor and its
arguments, down to the hidden validators, which are shown as unknown and are not looked into. -/
inductive Shows (log : List Mark) : Origin → PropType → Prop where
  | hidden {o : Origin} (hidden : o.Hidden log) : Shows log o (.unknown o.validator)
  | standard {kind : LeafKind} (told : ¬ (standard kind).Hidden log) :
      Shows log (.standard kind) (.known ⟨.leaf kind, false, none, (standard kind).validator⟩)
  | extension {name : String} {v : Validator} {time : Nat}
      (told : ¬ (extension name v time).Hidden log) :
      Shows log (.extension name v time) (.known ⟨.extension name, false, none, v⟩)
  | built {construction : Construction Origin} {v : Validator} {time : Nat}
      {shown : Origin → PropType} (told : ¬ (built construction v time).Hidden log)
      (parts : ∀ part ∈ construction.parts, Shows log part (shown part)) :
      Shows log (.built construction v time)
        (.known ⟨.built construction.kind, false, some [(construction.map shown).argument], v⟩)
  | required {o : Origin} {t : PropType} (told : ¬ o.Hidden log) (part : Shows log o t) :
      Shows log (.required o) t.intoRequired

variable {log : List Mark} {o : Origin} {t t' : PropType}

theorem Shows.unknown_of_hidden (shows : o.Shows log t) (hidden : o.Hidden log) :
    t = .unknown o.validator := by
  cases shows with
  | hidden => rfl
  | standard told | extension told | built told => exact absurd hidden told
  | required told => exact absurd (hidden_required_iff.1 hidden) told

theorem Shows.known_of_told (shows : o.Shows log t) (told : ¬ o.Hidden log) :
    ∃ leaf, t = .known leaf := by
  induction shows with
  | hidden hidden => exact absurd hidden told
  | standard | extension | built => exact ⟨_, rfl⟩
  | required toldPart _ ih =>
    obtain ⟨leaf, rfl⟩ := ih toldPart
    rw [PropType.intoRequired]
    split <;> exact ⟨_, rfl⟩

theorem Shows.unknown_iff (shows : o.Shows log t) : t = .unknown o.validator ↔ o.Hidden log := by
  refine ⟨fun unknown => ?_, shows.unknown_of_hidden⟩
  by_cases hidden : o.Hidden log
  · exact hidden
  · obtain ⟨leaf, rfl⟩ := shows.known_of_told hidden
    cases unknown

theorem Shows.unique (shows : o.Shows log t) (shows' : o.Shows log t') : t = t' := by
  induction shows generalizing t' with
  | hidden hidden => exact (shows'.unknown_of_hidden hidden).symm
  | standard told =>
    cases shows' with
    | hidden hidden => exact absurd hidden told
    | standard => rfl
  | extension told =>
    cases shows' with
    | hidden hidden => exact absurd hidden told
    | extension => rfl
  | @built construction v time shown told parts ih =>
    cases shows' with
    | hidden hidden => exact absurd hidden told
    | @built _ _ _ shown' _ parts' =>
      have same : (construction.map shown).argument = (construction.map shown').argument := by
        rw [Construction.argument_map, Construction.argument_map]
        refine Argument.map_congr_parts fun part member => ?_
        have listed := Construction.mem_parts_of_argument member
        exact ih part listed (parts' part listed)
      rw [same]
  | required told _ ih =>
    cases shows' with
    | hidden hidden => exact absurd (hidden_required_iff.1 hidden) told
    | required _ part => rw [ih part]

/-- An origin whose validators are what the calls returned. -/
inductive Genuine : Origin → Prop where
  | standard (kind : LeafKind) : Genuine (.standard kind)
  | extension (lib : Library) (name : String) (holds : Json → Bool) (time : Nat) :
      Genuine (.extension name ((Library.defineLeaf name holds).run lib).1 time)
  | custom (lib : Library) (check : Check) : Genuine (.custom ((Library.custom check).run lib).1)
  | built (lib : Library) {construction : Construction Origin} (time : Nat)
      (parts : ∀ part ∈ construction.parts, Genuine part) :
      Genuine (.built construction ((construction.map validator).make.run lib).1 time)
  | required {o : Origin} (part : Genuine o) : Genuine (.required o)

end Origin

namespace Chronicle

variable {c c' : Chronicle} {o : Origin}

theorem Step.genuine (step : c.Step c') (genuine : ∀ o ∈ c.made, o.Genuine) :
    ∀ o ∈ c'.made, o.Genuine := by
  cases step with
  | instrument => exact genuine
  | defineLeaf name holds =>
    exact List.forall_mem_cons.2 ⟨.extension _ name holds _, genuine⟩
  | custom check => exact List.forall_mem_cons.2 ⟨.custom _ check, genuine⟩
  | construct atHand =>
    exact List.forall_mem_cons.2 ⟨.built _ _ fun part member => genuine part (atHand part member),
      genuine⟩
  | required atHand => exact List.forall_mem_cons.2 ⟨.required (genuine _ atHand), genuine⟩

theorem Steps.genuine (steps : opened.Steps c) : ∀ o ∈ c.made, o.Genuine := by
  induction steps with
  | refl =>
    intro o member
    obtain ⟨kind, _, rfl⟩ := List.mem_map.1 member
    exact .standard kind
  | tail _ step ih => exact step.genuine ih

/-- What inference finds for a validator at hand and for its required flavor. -/
structure Recalls (c : Chronicle) (o : Origin) : Prop where
  shows : o.Shows c.log (c.library.infer o.validator)
  hidden : o.Hidden c.log → c.library.infer o.validator.required = .unknown o.validator.required
  required : ¬ o.Hidden c.log →
    c.library.infer o.validator.required = (c.library.infer o.validator).intoRequired
  tells : c.library.Tells o.validator (c.library.infer o.validator)
  tellsRequired : c.library.Tells o.validator.required (c.library.infer o.validator.required)

/-- Nothing is found for a validator without entries. -/
theorem Keeps.recalls_hidden (keeps : c.Keeps o) (hidden : o.Hidden c.log)
    (own : o.validator.id ∈ o.ids) (ownRequired : o.validator.required.id ∈ o.ids) : c.Recalls o := by
  have unrecorded := keeps.hidden hidden _ own
  have unrecordedRequired := keeps.hidden hidden _ ownRequired
  refine ⟨?_, fun _ => Library.infer_of_unrecorded unrecordedRequired, fun told => absurd hidden told,
    Library.tells_of_unrecorded unrecorded, Library.tells_of_unrecorded unrecordedRequired⟩
  rw [Library.infer_of_unrecorded unrecorded]
  exact .hidden hidden

/-- A leaf or a construction that is not hidden is found with all its parts. -/
theorem Keeps.recalls_entry (keeps : c.Keeps o) {kind : Kind}
    {argument : Option (Argument Validator)} (isEntry : o.record? = some (kind, argument))
    (parts : ∀ known ∈ argument, ∀ v ∈ known.parts, ∃ part ∈ o.parts, part.validator = v)
    (recalls : ∀ part ∈ o.parts, c.Recalls part)
    (shows : ¬ o.Hidden c.log → o.Shows c.log
      (.known ⟨kind, false, argument.map fun known => [known.map c.library.infer], o.validator⟩)) :
    c.Recalls o := by
  obtain ⟨n, numbered, below⟩ := keeps.numbered _ isEntry
  by_cases hidden : o.Hidden c.log
  · exact keeps.recalls_hidden hidden ((mem_ids_iff isEntry numbered).2 (.inl numbered.id))
      ((mem_ids_iff isEntry numbered).2 (.inr numbered.required_id))
  · have recorded := keeps.told _ isEntry hidden
    have older : ∀ known ∈ argument, ∀ v ∈ known.parts, v.id.number < n := by
      intro known here v member
      obtain ⟨part, listed, rfl⟩ := parts known here v member
      exact below part listed
    have tells : ∀ known ∈ argument, ∀ v ∈ known.parts, c.library.Tells v (c.library.infer v) := by
      intro known here v member
      obtain ⟨part, listed, rfl⟩ := parts known here v member
      exact (recalls part listed).tells
    obtain ⟨found, required⟩ := Library.infer_flavors numbered recorded older
    refine ⟨found ▸ shows hidden, fun here => absurd here hidden, fun _ => required, ?_, ?_⟩
    · refine Library.tells_of_recorded recorded.1 (fun known here v member => ?_) tells
      rw [numbered.id]
      exact older known here v member
    · refine Library.tells_of_recorded recorded.2 (fun known here v member => ?_) tells
      rw [numbered.required_id]
      exact Nat.lt_succ_of_lt (older known here v member)

/-- The required flavor of a validator is found as the validator is. -/
theorem Recalls.intoRequired (recalls : c.Recalls o) : c.Recalls (.required o) := by
  have again : (Origin.required o).validator.required = (Origin.required o).validator :=
    o.validator.required_required
  refine ⟨?_, fun hidden => ?_, fun told => ?_, recalls.tellsRequired, ?_⟩
  · by_cases hidden : o.Hidden c.log
    · rw [Origin.validator, recalls.hidden hidden]
      exact .hidden (.required hidden)
    · rw [Origin.validator, recalls.required hidden]
      exact .required hidden recalls.shows
  · rw [again]
    exact recalls.hidden (Origin.hidden_required_iff.1 hidden)
  · rw [again, Origin.validator, recalls.required (mt Origin.hidden_required_iff.2 told),
      PropType.intoRequired_intoRequired]
  · rw [again]
    exact recalls.tellsRequired

/-- The parts of the recorded argument of a construction are those it was called on. -/
theorem exists_part {construction : Construction Origin} {v : Validator}
    (member : v ∈ (construction.map Origin.validator).argument.parts) :
    ∃ part ∈ construction.parts, part.validator = v := by
  have listed := Construction.mem_parts_of_argument member
  rw [Construction.parts_map] at listed
  exact List.mem_map.1 listed

/-- Every validator at hand is recalled; the induction is on its construction tree. -/
theorem Kept.recalls (kept : c.Kept) (genuine : o.Genuine) (atHand : o ∈ c.made) : c.Recalls o := by
  have keeps := kept.made o atHand
  induction genuine with
  | standard kind => exact keeps.recalls_entry rfl nofun nofun .standard
  | extension lib name holds time => exact keeps.recalls_entry rfl nofun nofun .extension
  | custom lib check =>
    exact keeps.recalls_hidden (.custom _) (by simp [Origin.ids]) (by simp [Origin.ids])
  | built lib time parts ih =>
    have recalls := fun part member =>
      ih part member (keeps.parts part member) (kept.made part (keeps.parts part member))
    refine keeps.recalls_entry rfl ?_ recalls fun told => ?_
    · rintro _ ⟨⟩ v member
      exact exists_part member
    · have shows := Origin.Shows.built told fun part member => (recalls part member).shows
      rw [Option.map_some, ← Construction.argument_map, Construction.map_map]
      exact shows
  | @required o _ ih =>
    have part := keeps.parts o List.mem_cons_self
    exact (ih part (kept.made o part)).intoRequired

/-- Of a validator at hand, a step changes what is found if and only if it is the first
instrumentation and the validator is a leaf in force. -/
theorem Step.infer_ne_iff (step : c.Step c') (vocabulary : c.Vocabulary) (kept : c.Kept)
    (genuine : ∀ o ∈ c.made, o.Genuine) (atHand : o ∈ c.made) :
    c'.library.infer o.validator ≠ c.library.infer o.validator ↔
      (.instrument ∉ c.log ∧ c'.log = c.log ++ [.instrument]) ∧ o.InForce c.log := by
  rcases step.grows_or_first kept with grows | ⟨never, rfl⟩
  · have same := Library.infer_of_agree grows.agree o.validator (kept.made o atHand).given.1
    refine iff_of_false (fun differ => differ same) ?_
    rintro ⟨⟨never, log⟩, _⟩
    refine never (grows.instrument_iff.1 ?_)
    rw [log]
    exact List.mem_append_right _ List.mem_cons_self
  · -- all was unknown before, so what changes is what is no longer hidden
    have before := (kept.recalls (genuine o atHand) atHand).shows
    have later := ((kept.instrument vocabulary never).recalls (genuine o atHand) atHand).shows
    have hidden_iff := Origin.hidden_instrumented_iff never (vocabulary.before o atHand)
    rw [before.unknown_of_hidden (.never never), Ne, later.unknown_iff, hidden_iff, Classical.not_not]
    exact (and_iff_right ⟨never, rfl⟩).symm

end Chronicle

/-- Inference at the end of any work on a fresh library: for every validator that was made,
following the table ends, and what is found is the construction tree of the validator, cut off at
the hidden ones. A further step changes nothing of it, except that the first instrumentation makes
the leaves in force known. -/
theorem infer_shows_origin {c : Chronicle} (steps : Chronicle.opened.Steps c) {o : Origin}
    (atHand : o ∈ c.made) :
    (∀ t, c.library.Tells o.validator t ↔ t = c.library.infer o.validator) ∧
      (∀ t, o.Shows c.log t ↔ t = c.library.infer o.validator) ∧
      (c.library.infer o.validator = .unknown o.validator ↔ o.Hidden c.log) ∧
      ∀ c', c.Step c' → (c'.library.infer o.validator ≠ c.library.infer o.validator ↔
        (.instrument ∉ c.log ∧ c'.log = c.log ++ [.instrument]) ∧ o.InForce c.log) := by
  obtain ⟨vocabulary, kept⟩ := steps.kept
  have genuine := steps.genuine
  have recalls := kept.recalls (genuine o atHand) atHand
  refine ⟨fun t => ⟨fun tells => tells.unique recalls.tells, ?_⟩,
    fun t => ⟨fun shows => shows.unique recalls.shows, ?_⟩, recalls.shows.unknown_iff,
    fun c' step => step.infer_ne_iff vocabulary kept genuine atHand⟩
  · rintro rfl
    exact recalls.tells
  · rintro rfl
    exact recalls.shows

/-! ## An example -/

namespace Chronicle

/-- A fresh library on which a list of numbers was made. -/
def listed : Chronicle :=
  opened.after .other (Construction.map Origin.validator (.arrayOf (.standard .number))).make
    fun v => .built (.arrayOf (.standard .number)) v 0

def earlyList : Origin :=
  .built (.arrayOf (.standard .number))
    ((Library.arrayOf (Library.fresh.standard .number)).run .fresh).1 0

/-- Then the library was instrumented and the required flavor of numbers taken. -/
def prepared : Chronicle :=
  ⟨(Library.instrument.run listed.library).2, [.other, .instrument, .other],
    .required (.standard .number) :: listed.made⟩

/-- A union of the early list and a required number. -/
def listOrNumber : Construction Origin :=
  .oneOfType [earlyList, .required (.standard .number)]

/-- The types that the parts of the union show. -/
def partType : Origin → PropType
  | .required (.standard kind) =>
    .known ⟨.leaf kind, true, none, (Library.fresh.standard kind).required⟩
  | o => .unknown o.validator

def joined : Chronicle :=
  prepared.after .other (listOrNumber.map Origin.validator).make fun v => .built listOrNumber v 3

theorem joined_steps : opened.Steps joined := by
  have number : Origin.standard .number ∈ opened.made := List.mem_map_of_mem (LeafKind.mem_all _)
  have list : opened.Step listed := .construct (List.forall_mem_singleton.2 number)
  have instrumented : listed.Step ⟨(Library.instrument.run listed.library).2, [.other, .instrument],
      listed.made⟩ := .instrument
  have required : Step ⟨(Library.instrument.run listed.library).2, [.other, .instrument],
      listed.made⟩ prepared := .required (List.mem_cons_of_mem _ number)
  have union : prepared.Step joined := .construct <| List.forall_mem_cons.2
    ⟨List.mem_cons_of_mem _ List.mem_cons_self, List.forall_mem_singleton.2 List.mem_cons_self⟩
  exact .tail (.tail (.tail (.single list) instrumented) required) union

end Chronicle

/-- The early list is unknown in the union, the number is known to be required. -/
theorem infer_listOrNumber :
    ∃ v, .built Chronicle.listOrNumber v 3 ∈ Chronicle.joined.made ∧
      Chronicle.joined.library.infer v = .known ⟨.built .oneOfType, false, some [.candidates
        [.unknown Chronicle.earlyList.validator,
          .known ⟨.leaf .number, true, none, (Library.fresh.standard .number).required⟩]], v⟩ := by
  have atHand : Origin.built Chronicle.listOrNumber _ 3 ∈ Chronicle.joined.made := List.mem_cons_self
  refine ⟨_, atHand, (((infer_shows_origin Chronicle.joined_steps atHand).2.1 _).1 ?_).symm⟩
  have logged : .instrument ∈ Chronicle.joined.log := by decide
  have early : Chronicle.earlyList.Hidden Chronicle.joined.log :=
    .early fun s less => absurd less (Nat.not_lt_zero s)
  have number : ¬ (Origin.standard .number).Hidden Chronicle.joined.log := by
    intro hidden
    cases hidden with
    | never never => exact never logged
  refine @Origin.Shows.built _ _ _ _ Chronicle.partType ?_ ?_
  · intro hidden
    cases hidden with
    | never never => exact never logged
    | early early => exact early 1 (by decide) rfl
  · refine List.forall_mem_cons.2 ⟨.hidden early, List.forall_mem_singleton.2 ?_⟩
    exact .required number (.standard number)

end PropSandbox

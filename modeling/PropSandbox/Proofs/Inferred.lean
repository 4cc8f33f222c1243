import PropSandbox.Proofs.Workshop
import PropSandbox.Proofs.Validation

/-!
# What inference tells

On an instrumented library inference recovers how a validator was made: the type it has for a
validator describes the plan, down to the parts and the flavors. What it has told once it tells
for good, because later work leaves the entries of older validators alone.
-/

namespace PropSandbox

namespace Argument

variable {α β : Type}

theorem map_congr_parts {f g : α → β} {argument : Argument α}
    (same : ∀ part ∈ argument.parts, f part = g part) : argument.map f = argument.map g := by
  cases argument with
  | element part => rw [map, map, same part List.mem_cons_self]
  | candidates parts => exact congrArg Argument.candidates (List.map_congr_left same)
  | fields fields =>
    refine congrArg Argument.fields (List.map_congr_left fun field member => ?_)
    rw [same field.2 (List.mem_map_of_mem member)]
  | _ => rfl

end Argument

namespace Construction

variable {α β γ : Type}

theorem map_map (f : α → β) (g : β → γ) (construction : Construction α) :
    (construction.map f).map g = construction.map fun part => g (f part) := by
  cases construction <;> simp [map, Record.mapValues, Function.comp_def]

end Construction

namespace Plan

/-- The types of validators that are made by a plan. -/
inductive Describes : Plan → PropType → Prop where
  | leaf (kind : LeafKind) (v : Validator) :
      Describes (.leaf kind) (.known ⟨.leaf kind, false, none, v⟩)
  | extension (name : String) (holds : Json → Bool) (v : Validator) :
      Describes (.extension name holds) (.known ⟨.extension name, false, none, v⟩)
  | custom (check : Check) (v : Validator) : Describes (.custom check) (.unknown v)
  | built {construction : Construction (Plan × PropType)}
      (parts : ∀ part ∈ construction.parts, Describes part.1 part.2) (v : Validator) :
      Describes (.built (construction.map Prod.fst))
        (.known ⟨.built construction.kind, false,
          some [(construction.map Prod.snd).argument], v⟩)
  | required {plan : Plan} {t : PropType} (part : Describes plan t) :
      Describes (.required plan) t.intoRequired

end Plan

theorem PropType.intoRequired_intoRequired (t : PropType) :
    t.intoRequired.intoRequired = t.intoRequired := by
  cases t with
  | unknown => rfl
  | known leaf =>
    rw [intoRequired]
    split
    · rename_i already
      rw [intoRequired, if_pos already]
    · rfl

theorem Validator.required_required (v : Validator) : v.required.required = v.required := by
  obtain ⟨id, flavor, check⟩ := v
  cases flavor <;> rfl

namespace Library

variable {lib lib' : Library}

theorem infer_validator (lib : Library) (v : Validator) : (lib.infer v).validator = v := by
  rw [infer]
  split <;> rfl

/-- Inference looks at no entry that is younger than the validator. -/
theorem infer_of_agree {n : Nat}
    (agree : ∀ id, id.number < n → lib'.table.get? id = lib.table.get? id) (v : Validator)
    (older : v.id.number < n) : lib'.infer v = lib.infer v := by
  rw [infer, infer, metadata?, metadata?, agree v.id older]
  cases lib.table.get? v.id with
  | none => rfl
  | some metadata =>
    -- a part that is not older is not followed, so it cannot tell the tables apart
    have same : ∀ part : Validator,
        (if _older : part.id.number < v.id.number then lib'.infer part else .unknown part) =
          if _older : part.id.number < v.id.number then lib.infer part else .unknown part := by
      intro part
      by_cases less : part.id.number < v.id.number
      · rw [dif_pos less, dif_pos less]
        exact infer_of_agree agree part (by omega)
      · rw [dif_neg less, dif_neg less]
    simp only [same]
termination_by v.id.number

theorem infer_of_unrecorded {v : Validator} (unrecorded : lib.table.get? v.id = none) :
    lib.infer v = .unknown v := by
  rw [infer, metadata?, unrecorded]

/-- The type of a recorded validator with parts that are all older. -/
theorem infer_of_recorded {v : Validator} {kind : Kind} {required : Bool}
    {argument : Option (Argument Validator)}
    (recorded : lib.table.get? v.id = some ⟨kind, required, argument⟩)
    (older : ∀ known ∈ argument, ∀ part ∈ known.parts, part.id.number < v.id.number) :
    lib.infer v = .known ⟨kind, required, argument.map fun known => [known.map lib.infer], v⟩ := by
  rw [infer, metadata?, recorded]
  cases argument with
  | none => rfl
  | some known =>
    have same : known.map (fun part =>
        if _older : part.id.number < v.id.number then lib.infer part else .unknown part) =
          known.map lib.infer := by
      refine Argument.map_congr_parts fun part member => ?_
      rw [dif_pos (older known rfl part member)]
    simp only [Option.map_some, same]

/-- Both flavors of a recorded validator are inferred, and they differ in the flavor alone. -/
theorem infer_flavors {v : Validator} {n : Nat} (numbered : v.Numbered n) {kind : Kind}
    {argument : Option (Argument Validator)} (recorded : Recorded lib.table v kind argument)
    (older : ∀ known ∈ argument, ∀ part ∈ known.parts, part.id.number < n) :
    lib.infer v = .known ⟨kind, false, argument.map fun known => [known.map lib.infer], v⟩ ∧
      lib.infer v.required = (lib.infer v).intoRequired := by
  have optional : lib.infer v =
      .known ⟨kind, false, argument.map fun known => [known.map lib.infer], v⟩ := by
    refine infer_of_recorded recorded.1 fun known here part member => ?_
    rw [numbered.id]
    exact older known here part member
  refine ⟨optional, ?_⟩
  rw [optional, infer_of_recorded recorded.2]
  · rfl
  · intro known here part member
    rw [numbered.required_id]
    exact Nat.lt_succ_of_lt (older known here part member)

/-- What a library knows of a validator that was made by a plan. -/
structure Knows (lib : Library) (plan : Plan) (v : Validator) : Prop where
  older : v.id.number < lib.next
  olderRequired : v.required.id.number < lib.next
  describes : plan.Describes (lib.infer v)
  required : lib.infer v.required = (lib.infer v).intoRequired
  built : plan.Plain → Built plan v

namespace Knows

variable {plan : Plan} {v : Validator}

/-- Later entries change nothing. -/
theorem later (knows : lib.Knows plan v) (next : lib.next ≤ lib'.next)
    (agree : ∀ id, id.number < lib.next → lib'.table.get? id = lib.table.get? id) :
    lib'.Knows plan v where
  older := Nat.lt_of_lt_of_le knows.older next
  olderRequired := Nat.lt_of_lt_of_le knows.olderRequired next
  describes := by
    rw [infer_of_agree agree v knows.older]
    exact knows.describes
  required := by
    rw [infer_of_agree agree v knows.older, infer_of_agree agree _ knows.olderRequired]
    exact knows.required
  built := knows.built

/-- The required flavor of a known validator is known. -/
theorem intoRequired (knows : lib.Knows plan v) : lib.Knows (.required plan) v.required where
  older := knows.olderRequired
  olderRequired := by
    rw [Validator.required_required]
    exact knows.olderRequired
  describes := by
    rw [knows.required]
    exact .required knows.describes
  required := by
    rw [Validator.required_required, knows.required, PropType.intoRequired_intoRequired]
  built plain := by
    cases plain with
    | required part => exact .required (knows.built part)

theorem standard (sound : lib.Sound) (instrumented : lib.instrumented = true) (kind : LeafKind) :
    lib.Knows (.leaf kind) (lib.standard kind) := by
  have low := standard_number_lt kind
  have room := sound.room
  obtain ⟨optional, required⟩ :=
    infer_flavors (standard_numbered kind) (sound.leaves instrumented kind) nofun
  rw [sound.standard]
  refine ⟨by omega, by omega, ?_, required, fun _ => .leaf kind⟩
  rw [optional]
  exact .leaf kind _

theorem added {kind : Kind} {argument : Option (Argument Validator)}
    (adds : lib.Adds lib' v kind argument) (instrumented : lib.instrumented = true)
    (older : ∀ known ∈ argument, ∀ part ∈ known.parts, part.id.number < lib.next)
    (describes : plan.Describes
      (.known ⟨kind, false, argument.map fun known => [known.map lib'.infer], v⟩))
    (built : plan.Plain → Built plan v) : lib'.Knows plan v := by
  have next := adds.next
  obtain ⟨optional, required⟩ := infer_flavors adds.numbered (adds.recorded instrumented) older
  refine ⟨?_, ?_, ?_, required, built⟩
  · rw [adds.numbered.id]
    dsimp only
    omega
  · rw [adds.numbered.required_id]
    dsimp only
    omega
  · rw [optional]
    exact describes

/-- A constructor called on known validators makes a known one. -/
theorem constructed {construction : Construction (Plan × Validator)}
    (instrumented : lib.instrumented = true)
    (parts : ∀ part ∈ construction.parts, lib.Knows part.1 part.2) :
    ((construction.map Prod.snd).make.run lib).2.Knows (.built (construction.map Prod.fst))
      ((construction.map Prod.snd).make.run lib).1 := by
  have built : (Plan.built (construction.map Prod.fst)).Plain →
      Built (.built (construction.map Prod.fst)) ((construction.map Prod.snd).make.run lib).1 := by
    intro plain
    refine .built lib fun part member => (parts part member).built ?_
    cases plain with
    | built plainParts =>
      rw [Construction.parts_map] at plainParts
      exact plainParts _ (List.mem_map_of_mem member)
  have adds := lib.adds_make (construction.map Prod.snd)
  generalize (construction.map Prod.snd).make.run lib = made at adds built ⊢
  obtain ⟨v, lib'⟩ := made
  have described : ∀ part ∈ (construction.map fun part => (part.1, lib'.infer part.2)).parts,
      Plan.Describes part.1 part.2 := by
    rw [Construction.parts_map]
    refine List.forall_mem_map.2 fun part member => ?_
    rw [infer_of_agree adds.table part.2 (parts part member).older]
    exact (parts part member).describes
  refine added adds instrumented ?_ ?_ built
  · rintro _ ⟨⟩ part member
    have listed := Construction.mem_parts_of_argument member
    rw [Construction.parts_map] at listed
    obtain ⟨entry, atHand, rfl⟩ := List.mem_map.1 listed
    exact (parts entry atHand).older
  · have describes := Plan.Describes.built described v
    rw [Construction.map_map, Construction.map_map, Construction.kind_map] at describes
    rw [Option.map_some, ← Construction.argument_map, Construction.map_map, Construction.kind_map]
    exact describes

theorem custom (sound : lib.Sound) (check : Check) :
    ((Library.custom check).run lib).2.Knows (.custom check) ((Library.custom check).run lib).1 := by
  have unknown : ((Library.custom check).run lib).2.infer ((Library.custom check).run lib).1 =
      .unknown ((Library.custom check).run lib).1 :=
    infer_of_unrecorded (sound.unrecorded (Nat.le_refl _))
  refine ⟨Nat.lt_succ_self _, Nat.lt_succ_self _, ?_, ?_, nofun⟩
  · rw [unknown]
    exact .custom check _
  · change ((Library.custom check).run lib).2.infer ((Library.custom check).run lib).1 = _
    rw [unknown]
    rfl

end Knows

end Library

namespace Workshop

/-- A workshop whose library is sound and instrumented and knows the validators at hand. -/
structure Documented (w : Workshop) : Prop where
  sound : w.library.Sound
  instrumented : w.library.instrumented = true
  knows : ∀ part ∈ w.made, w.library.Knows part.1 part.2

theorem Documented.opened {lib : Library} (sound : lib.Sound)
    (instrumented : lib.instrumented = true) : (Workshop.opened lib).Documented where
  sound := sound
  instrumented := instrumented
  knows part member := by
    obtain ⟨kind, _, rfl⟩ := List.mem_map.1 member
    exact .standard sound instrumented kind

/-- Work on an instrumented library documents itself. -/
theorem Step.documented {w w' : Workshop} (step : w.Step w') (documented : w.Documented) :
    w'.Documented := by
  have sound := step.sound documented.sound
  cases step with
  | instrument =>
    rw [Library.instrument_again documented.instrumented]
    exact documented
  | defineLeaf name holds =>
    have adds := w.library.adds_defineLeaf name holds
    refine ⟨sound, adds.instrumented.trans documented.instrumented, ?_⟩
    refine List.forall_mem_cons.2 ⟨?_, fun part member => ?_⟩
    · refine .added adds documented.instrumented (fun known none => ?_) (.extension name holds _)
        fun _ => .extension _ name holds
      cases none
    · exact (documented.knows part member).later (by rw [after, adds.next]; omega) adds.table
  | custom check =>
    refine ⟨sound, documented.instrumented, ?_⟩
    refine List.forall_mem_cons.2 ⟨.custom documented.sound check, fun part member => ?_⟩
    exact (documented.knows part member).later (Nat.le_succ _) fun _ _ => rfl
  | @construct construction atHand =>
    have parts := fun part member => documented.knows part (atHand part member)
    have adds := w.library.adds_make (construction.map Prod.snd)
    refine ⟨sound, adds.instrumented.trans documented.instrumented, ?_⟩
    refine List.forall_mem_cons.2 ⟨.constructed documented.instrumented parts, ?_⟩
    intro part member
    exact (documented.knows part member).later (by rw [after, adds.next]; omega) adds.table
  | required atHand =>
    refine ⟨sound, documented.instrumented, ?_⟩
    exact List.forall_mem_cons.2 ⟨(documented.knows _ atHand).intoRequired, documented.knows⟩

theorem Steps.documented {w w' : Workshop} (steps : w.Steps w') (documented : w.Documented) :
    w'.Documented := by
  induction steps with
  | refl => exact documented
  | tail _ step ih => exact step.documented ih

end Workshop

end PropSandbox

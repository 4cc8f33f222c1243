import Mathlib.Tactic.Choose
import PropSandbox.Declaration
import PropSandbox.Proofs.Recall
import PropSandbox.Proofs.TypeValues

/-!
# What a declaration describes

A declaration describes a type (`Declaration.Describes`): it names the kind, says of each node by
itself whether a value is required, and gives the argument in the member that belongs to the kind. On
an instrumented library the validator that is built from a declaration has that type, and it accepts
the values that the type describes.
-/

namespace PropSandbox

/-! ## Names -/

namespace Kind

/-- The kind that a name stands for in a declaration: the standard kind of that name, the case of
ASCII letters aside, and otherwise the extension leaf of exactly that name. -/
inductive Named : String → Kind → Prop where
  | standard {text : String} {kind : Kind} (listed : kind ∈ standard)
      (same : sameIgnoringCase kind.name text = true) : Named text kind
  | extension {text : String} (other : ∀ kind ∈ standard, sameIgnoringCase kind.name text ≠ true) :
      Named text (.extension text)

/-- No two standard names differ in case alone. -/
theorem eq_of_sameIgnoringCase : ∀ kind ∈ standard, ∀ other ∈ standard,
    sameIgnoringCase kind.name other.name = true → kind = other := by
  decide

theorem Named.unique {text : String} {kind other : Kind} (named : Named text kind)
    (named' : Named text other) : kind = other := by
  cases named with
  | standard listed same =>
    cases named' with
    | standard listed' same' =>
      rw [sameIgnoringCase, beq_iff_eq] at same same'
      refine eq_of_sameIgnoringCase _ listed _ listed' ?_
      rw [sameIgnoringCase, beq_iff_eq, same, same']
    | extension other => exact absurd same (other _ listed)
  | extension others =>
    cases named' with
    | standard listed same => exact absurd same (others _ listed)
    | extension => rfl

theorem named_ofDeclaredName (text : String) : Named text (ofDeclaredName text) := by
  rw [ofDeclaredName, standard?]
  cases found : standard.find? fun kind => sameIgnoringCase kind.name text with
  | none => exact .extension fun kind listed => by simpa using List.find?_eq_none.1 found kind listed
  | some kind =>
    have same := List.find?_some (p := fun kind : Kind => sameIgnoringCase kind.name text) found
    exact .standard (List.mem_of_find?_eq_some found) same

end Kind

namespace Declaration

/-- How a short form is read: a leaf name, with or without the ending that requires a value. -/
inductive Shorthand : String → String → Bool → Prop where
  | required (name : String) : Shorthand (name ++ ".isRequired") name true
  | optional {text : String} (plain : ∀ name, text ≠ name ++ ".isRequired") :
      Shorthand text text false

theorem isSuffixOf_requiredEnding_iff (text : String) :
    requiredEnding.isSuffixOf text.toList = true ↔ ∃ name, text = name ++ ".isRequired" := by
  rw [List.isSuffixOf_iff_suffix]
  constructor
  · rintro ⟨front, whole⟩
    refine ⟨String.ofList front, ?_⟩
    rw [← String.toList_inj, String.toList_append, String.toList_ofList]
    exact whole.symm
  · rintro ⟨name, rfl⟩
    rw [String.toList_append]
    exact List.suffix_append _ _

theorem shortParts_required (name : String) : shortParts (name ++ ".isRequired") = (name, true) := by
  have ends := (isSuffixOf_requiredEnding_iff (name ++ ".isRequired")).2 ⟨name, rfl⟩
  have front : (name ++ ".isRequired").toList.take
      ((name ++ ".isRequired").toList.length - requiredEnding.length) = name.toList := by
    have length : (".isRequired".toList).length = requiredEnding.length := rfl
    rw [String.toList_append, List.length_append, length, Nat.add_sub_cancel, List.take_left]
  simp only [shortParts]
  rw [if_pos ends, front, String.ofList_toList]

/-- A short form is read in one way. -/
theorem shorthand_iff {text name : String} {required : Bool} :
    Shorthand text name required ↔ shortParts text = (name, required) := by
  constructor
  · intro written
    cases written with
    | required => exact shortParts_required name
    | optional plain =>
      have other : requiredEnding.isSuffixOf text.toList ≠ true := by
        rw [Ne, isSuffixOf_requiredEnding_iff]
        rintro ⟨name, same⟩
        exact plain name same
      simp only [shortParts]
      rw [if_neg other]
  · by_cases ends : ∃ name, text = name ++ ".isRequired"
    · obtain ⟨front, rfl⟩ := ends
      rw [shortParts_required]
      rintro ⟨⟩
      exact .required name
    · have other := mt (isSuffixOf_requiredEnding_iff text).1 ends
      simp only [shortParts]
      rw [if_neg other]
      rintro ⟨⟩
      exact .optional (not_exists.1 ends)

end Declaration

/-! ## Described types -/

/-- The construction that a full form asks for: its argument stands in the member that belongs to the
kind, and all other members are ignored. -/
def FullDeclaration.construction? {α : Type} (form : FullDeclaration α) :
    BuiltKind → Option (Construction α)
  | .shape => form.fields.map .shape
  | .arrayOf => form.element.map .arrayOf
  | .objectOf => form.element.map .objectOf
  | .instanceOf => form.className.map .instanceOf
  | .oneOf => form.values.map .oneOf
  | .oneOfType => form.types.map .oneOfType

/-- The types that a declaration describes. They differ in their validators only. -/
inductive Declaration.Describes : Declaration → PropType → Prop where
  | short {text name : String} {required : Bool} {kind : Kind}
      (written : Shorthand text name required) (named : Kind.Named name kind)
      (single : kind.isBuilt = false) (v : Validator) :
      Describes (.short text) (.known ⟨kind, required, none, v⟩)
  | leaf {form : FullDeclaration Declaration} {kind : Kind} (named : Kind.Named form.type kind)
      (single : kind.isBuilt = false) (v : Validator) :
      Describes (.full form) (.known ⟨kind, form.required, none, v⟩)
  | built {form : FullDeclaration Declaration} {construction : Construction (Declaration × PropType)}
      (named : Kind.Named form.type (.built construction.kind))
      (taken : form.construction? construction.kind = some (construction.map Prod.fst))
      (parts : ∀ part ∈ construction.parts, Describes part.1 part.2) (v : Validator) :
      Describes (.full form)
        (.known ⟨.built construction.kind, form.required, some [(construction.map Prod.snd).argument],
          v⟩)

/-! ### No two types

A declaration describes one type, up to the validators in it. -/

namespace Declaration

theorem sameFields_of {fields others : List (String × Declaration × PropType)}
    (declared : Record.mapValues Prod.fst fields = Record.mapValues Prod.fst others)
    (each : ∀ field ∈ fields, ∀ t, field.2.1.Describes t → field.2.2.same t = true)
    (described : ∀ field ∈ others, field.2.1.Describes field.2.2) :
    PropType.sameFields (Record.mapValues Prod.snd fields) (Record.mapValues Prod.snd others) =
      true := by
  induction fields generalizing others with
  | nil =>
    cases others with
    | nil => rfl
    | cons => cases declared
  | cons field rest ih =>
    cases others with
    | nil => cases declared
    | cons other others =>
      obtain ⟨name, d, t⟩ := field
      obtain ⟨name', d', t'⟩ := other
      obtain ⟨same, sameRest⟩ := List.cons.inj declared
      cases same
      obtain ⟨first, each⟩ := List.forall_mem_cons.1 each
      obtain ⟨firstDescribed, described⟩ := List.forall_mem_cons.1 described
      have sameType := first t' firstDescribed
      have sameOthers := ih sameRest each described
      rw [Record.mapValues, Record.mapValues] at sameOthers ⊢
      simp [PropType.sameFields, sameType, sameOthers]

theorem sameAll_of {parts others : List (Declaration × PropType)}
    (declared : parts.map Prod.fst = others.map Prod.fst)
    (each : ∀ part ∈ parts, ∀ t, part.1.Describes t → part.2.same t = true)
    (described : ∀ part ∈ others, part.1.Describes part.2) :
    PropType.sameAll (parts.map Prod.snd) (others.map Prod.snd) = true := by
  induction parts generalizing others with
  | nil =>
    cases others with
    | nil => rfl
    | cons => cases declared
  | cons part rest ih =>
    cases others with
    | nil => cases declared
    | cons other others =>
      obtain ⟨d, t⟩ := part
      obtain ⟨d', t'⟩ := other
      obtain ⟨same, sameRest⟩ := List.cons.inj declared
      cases same
      obtain ⟨first, each⟩ := List.forall_mem_cons.1 each
      obtain ⟨firstDescribed, described⟩ := List.forall_mem_cons.1 described
      simp [PropType.sameAll, first t' firstDescribed, ih sameRest each described]

theorem sameArgument_of {construction other : Construction (Declaration × PropType)}
    (declared : construction.map Prod.fst = other.map Prod.fst)
    (each : ∀ part ∈ construction.parts, ∀ t, part.1.Describes t → part.2.same t = true)
    (described : ∀ part ∈ other.parts, part.1.Describes part.2) :
    PropType.sameArgument (construction.map Prod.snd).argument (other.map Prod.snd).argument =
      true := by
  cases construction with
  | shape fields =>
    cases other with
    | shape others =>
      have settled := congrArg Record.ofList (Construction.shape.inj declared)
      rw [← Record.mapValues_ofList, ← Record.mapValues_ofList] at settled
      simp only [Construction.map, Construction.argument, PropType.sameArgument]
      rw [← Record.mapValues_ofList, ← Record.mapValues_ofList]
      exact sameFields_of settled
        (fun field member => each _ (List.mem_map_of_mem (Record.mem_ofList member)))
        fun field member => described _ (List.mem_map_of_mem (Record.mem_ofList member))
    | _ => cases declared
  | arrayOf item =>
    cases other with
    | arrayOf item' =>
      have same := Construction.arrayOf.inj declared
      have describes := described item' List.mem_cons_self
      rw [← same] at describes
      exact each item List.mem_cons_self _ describes
    | _ => cases declared
  | objectOf part =>
    cases other with
    | objectOf part' =>
      have same := Construction.objectOf.inj declared
      have describes := described part' List.mem_cons_self
      rw [← same] at describes
      exact each part List.mem_cons_self _ describes
    | _ => cases declared
  | instanceOf className =>
    cases other with
    | instanceOf =>
      cases declared
      exact beq_self_eq_true className
    | _ => cases declared
  | oneOf choices =>
    cases other with
    | oneOf =>
      cases declared
      exact Json.sameItems_refl choices
    | _ => cases declared
  | oneOfType candidates =>
    cases other with
    | oneOfType others =>
      exact sameAll_of (Construction.oneOfType.inj declared) each described
    | _ => cases declared

/-- Two types that a declaration describes are the same. -/
theorem Describes.same {d : Declaration} {t t' : PropType} (describes : d.Describes t)
    (describes' : d.Describes t') : t.same t' = true := by
  induction describes generalizing t' with
  | short written named single =>
    cases describes' with
    | short written' named' =>
      obtain ⟨rfl, rfl⟩ := Prod.mk.inj ((shorthand_iff.1 written).symm.trans (shorthand_iff.1 written'))
      obtain rfl := named.unique named'
      simp [PropType.same, PropType.sameLeaf, PropType.sameArguments]
  | leaf named single =>
    cases describes' with
    | leaf named' =>
      obtain rfl := named.unique named'
      simp [PropType.same, PropType.sameLeaf, PropType.sameArguments]
    | built named' =>
      cases named.unique named'
      cases single
  | @built form construction named taken parts v ih =>
    cases describes' with
    | leaf named' single =>
      cases named.unique named'
      cases single
    | @built _ other named' taken' parts' =>
      have sameKind := Kind.built.inj (named.unique named')
      rw [← sameKind, taken] at taken'
      have argument := sameArgument_of (Option.some.inj taken') (fun part member t => ih part member)
        parts'
      simp [PropType.same, PropType.sameLeaf, PropType.sameArguments, PropType.sameEach, sameKind,
        argument]

end Declaration

/-! ## Equipped libraries -/

namespace Library

/-- The values that the extension leaf of a name accepts. -/
def Extension (lib : Library) (name : String) (value : Json) : Prop :=
  ∃ v, Record.get? lib.extensions name = some v ∧
    v.checkValue value "value" "sandbox" = .accepted

/-- An instrumented library that knows each of its extension leaves. -/
structure Equipped (lib : Library) : Prop where
  sound : lib.Sound
  instrumented : lib.instrumented = true
  extensions : ∀ name v, Record.get? lib.extensions name = some v →
    ∃ holds, lib.Knows (.extension name holds) v

/-- A library after constructors were called on it. -/
structure Later (lib lib' : Library) : Prop where
  next : lib.next ≤ lib'.next
  agree : ∀ id, id.number < lib.next → lib'.table.get? id = lib.table.get? id
  extensions : lib'.extensions = lib.extensions
  equipped : lib.Equipped → lib'.Equipped

variable {lib lib' lib'' : Library} {v : Validator} {kind : Kind} {plan : Plan}

theorem Later.refl (lib : Library) : lib.Later lib :=
  ⟨Nat.le_refl _, fun _ _ => rfl, rfl, id⟩

theorem Later.trans (first : lib.Later lib') (second : lib'.Later lib'') : lib.Later lib'' := by
  refine ⟨Nat.le_trans first.next second.next, fun id older => ?_, ?_, fun equipped => ?_⟩
  · rw [second.agree id (Nat.lt_of_lt_of_le older first.next), first.agree id older]
  · rw [second.extensions, first.extensions]
  · exact second.equipped (first.equipped equipped)

theorem later_make (lib : Library) (construction : Construction Validator) :
    lib.Later (construction.make.run lib).2 := by
  have adds := lib.adds_make construction
  have next : lib.next ≤ (construction.make.run lib).2.next := by
    rw [adds.next]
    omega
  refine ⟨next, adds.table, lib.make_extensions construction, fun equipped => ?_⟩
  refine ⟨adds.sound equipped.sound, adds.instrumented.trans equipped.instrumented, ?_⟩
  intro name v found
  rw [lib.make_extensions] at found
  obtain ⟨holds, knows⟩ := equipped.extensions name v found
  exact ⟨holds, knows.later next adds.table⟩

/-- An extension leaf holds of the values that its name stands for. -/
theorem extension_iff {name : String} {holds : Json → Bool}
    (found : Record.get? lib.extensions name = some v) (knows : lib.Knows (.extension name holds) v)
    {value : Json} (given : value ≠ .null) : holds value = true ↔ lib.Extension name value := by
  have fits := (knows.built (.extension name holds)).fits
  have accepted := (fits.decides [("value", value)] "value" "sandbox" .prop).accepted_iff
  rw [Record.get?_cons, if_pos rfl, Option.getD_some, Plan.accepts_extension_iff given] at accepted
  rw [← accepted]
  constructor
  · exact fun accepts => ⟨v, found, accepts⟩
  · rintro ⟨w, found', accepts⟩
    cases found.symm.trans found'
    exact accepts

/-- What inference has for a leaf. -/
theorem Equipped.leaf (equipped : lib.Equipped) (found : lib.leaf? kind = some v) :
    kind.isBuilt = false ∧ lib.infer v = .known ⟨kind, false, none, v⟩ ∧
      ∃ plan, lib.Knows plan v ∧ plan.Means lib.Extension := by
  have own := lib.infer_validator v
  cases kind with
  | leaf kind =>
    cases found
    have knows := Knows.standard equipped.sound equipped.instrumented kind
    have describes := knows.describes
    refine ⟨rfl, ?_, _, knows, .leaf kind⟩
    generalize lib.infer (lib.standard kind) = t at describes own
    cases describes
    cases own
    rfl
  | built kind => cases found
  | extension name =>
    obtain ⟨holds, knows⟩ := equipped.extensions name v found
    have describes := knows.describes
    refine ⟨rfl, ?_, _, knows, .extension fun value => extension_iff found knows⟩
    generalize lib.infer v = t at describes own
    cases describes
    cases own
    rfl

end Library

/-- A library instrumented in the course of any work knows its extension leaves. -/
theorem Chronicle.Steps.equipped {c : Chronicle} (steps : Chronicle.opened.Steps c)
    (instrumented : .instrument ∈ c.log) : c.library.Equipped := by
  obtain ⟨vocabulary, kept⟩ := steps.kept
  refine ⟨kept.sound, kept.instrumented.2 instrumented, fun name v found => ?_⟩
  obtain ⟨time, atHand, inForce⟩ := (vocabulary.extensions name v).1 found
  have keeps := kept.made _ atHand
  have genuine := steps.genuine _ atHand
  have recalls := kept.recalls genuine atHand
  have told : ¬ (Origin.extension name v time).Hidden c.log := by
    intro hidden
    cases hidden with
    | never never => exact never instrumented
    | replaced later defined =>
      cases inForce with
      | extension latest => exact latest _ later defined
  have shows := recalls.shows.unique (.extension told)
  cases genuine with
  | extension lib name holds =>
    refine ⟨holds, keeps.given.1, keeps.given.2, ?_, recalls.required told, fun _ => ?_⟩
    · rw [Origin.validator] at shows
      rw [shows]
      exact .extension name holds _
    · exact .extension lib name holds

/-! ## Rendered declarations -/

namespace Library

variable {lib lib' : Library} {d : Declaration} {v : Validator} {kind : Kind} {plan : Plan}

/-- A validator has the type that a declaration describes, and accepts what the type describes, as it
was made by a plan. -/
structure Renders (lib : Library) (d : Declaration) (v : Validator) : Prop where
  describes : d.Describes (lib.infer v)
  planned : ∃ plan, lib.Knows plan v ∧ plan.Means lib.Extension

theorem Later.extension_eq (later : lib.Later lib') : lib'.Extension = lib.Extension := by
  unfold Extension
  rw [later.extensions]

theorem Renders.later (renders : lib.Renders d v) (later : lib.Later lib') : lib'.Renders d v := by
  obtain ⟨plan, knows, means⟩ := renders.planned
  refine ⟨?_, plan, knows.later later.next later.agree, ?_⟩
  · rw [infer_of_agree later.agree v knows.older]
    exact renders.describes
  · rwa [later.extension_eq]

/-- The flag of a node decides about its flavor and nothing else. -/
theorem infer_flavored {arguments : Option (List (Argument PropType))}
    (optional : lib.infer v = .known ⟨kind, false, arguments, v⟩)
    (flavors : lib.infer v.required = (lib.infer v).intoRequired) (required : Bool) :
    lib.infer (Declaration.flavored v required) =
      .known ⟨kind, required, arguments, Declaration.flavored v required⟩ := by
  cases required with
  | false => exact optional
  | true =>
    rw [Declaration.flavored, if_pos rfl, flavors, optional]
    rfl

theorem Knows.flavored {extension : String → Json → Prop} (knows : lib.Knows plan v)
    (means : plan.Means extension) (required : Bool) :
    ∃ plan, lib.Knows plan (Declaration.flavored v required) ∧ plan.Means extension := by
  cases required with
  | false => exact ⟨plan, knows, means⟩
  | true => exact ⟨.required plan, knows.intoRequired, .required means⟩

/-- A constructor called on the validators of the parts renders the whole. -/
theorem Equipped.renders_construct (equipped : lib.Equipped) {form : FullDeclaration Declaration}
    {construction : Construction (Declaration × Validator)}
    (named : Kind.Named form.type (.built construction.kind))
    (taken : form.construction? construction.kind = some (construction.map Prod.fst))
    (parts : ∀ part ∈ construction.parts, lib.Renders part.1 part.2) :
    ((construction.map Prod.snd).make.run lib).2.Renders (.full form)
      (Declaration.flavored ((construction.map Prod.snd).make.run lib).1 form.required) := by
  have later := lib.later_make (construction.map Prod.snd)
  have adds := lib.adds_make (construction.map Prod.snd)
  have : Nonempty Plan := ⟨.leaf .any⟩
  choose! plan knows means using fun part member => (parts part member).planned
  let planned := construction.map fun part => (plan part, part.2)
  have plannedParts : ∀ part ∈ planned.parts, lib.Knows part.1 part.2 := by
    rw [Construction.parts_map]
    exact List.forall_mem_map.2 knows
  have wholeKnows := Knows.constructed equipped.instrumented plannedParts
  rw [Construction.map_map, Construction.map_map] at wholeKnows
  generalize (construction.map Prod.snd).make.run lib = made at later adds wholeKnows ⊢
  obtain ⟨v, lib'⟩ := made
  have wholeMeans : (Plan.built (construction.map plan)).Means lib'.Extension := by
    rw [later.extension_eq]
    refine .built ?_
    rw [Construction.parts_map]
    exact List.forall_mem_map.2 means
  -- the parts are recorded as they were made, and they are found as they were before
  have older : ∀ known ∈ some (construction.map Prod.snd).argument, ∀ part ∈ known.parts,
      part.id.number < lib.next := by
    rintro _ ⟨⟩ v member
    have listed := Construction.mem_parts_of_argument member
    rw [Construction.parts_map] at listed
    obtain ⟨part, isPart, rfl⟩ := List.mem_map.1 listed
    exact (knows part isPart).older
  obtain ⟨optional, flavors⟩ := infer_flavors adds.numbered (adds.recorded equipped.instrumented) older
  refine ⟨?_, wholeKnows.flavored wholeMeans form.required⟩
  rw [infer_flavored optional flavors, Option.map_some, Construction.kind_map,
    ← Construction.argument_map, Construction.map_map]
  have described : ∀ part ∈ (construction.map fun part => (part.1, lib'.infer part.2)).parts,
      Declaration.Describes part.1 part.2 := by
    rw [Construction.parts_map]
    exact List.forall_mem_map.2 fun part member => ((parts part member).later later).describes
  have describes := @Declaration.Describes.built form
    (construction.map fun part => (part.1, lib'.infer part.2)) ?_ ?_ described
    (Declaration.flavored v form.required)
  · rw [Construction.kind_map, Construction.map_map] at describes
    exact describes
  · rwa [Construction.kind_map]
  · rwa [Construction.kind_map, Construction.map_map]

/-- A leaf renders each declaration that names its kind. -/
theorem Equipped.flavored_leaf (equipped : lib.Equipped) (found : lib.leaf? kind = some v)
    (required : Bool) : kind.isBuilt = false ∧
      lib.infer (Declaration.flavored v required) =
        .known ⟨kind, required, none, Declaration.flavored v required⟩ ∧
      ∃ plan, lib.Knows plan (Declaration.flavored v required) ∧ plan.Means lib.Extension := by
  obtain ⟨single, optional, plan, knows, means⟩ := equipped.leaf found
  exact ⟨single, infer_flavored optional knows.required required, knows.flavored means required⟩

end Library

/-! ## Building -/

namespace Building

variable {α β : Type} {work : Building α} {next : α → Building β} {lib lib' : Library} {a : α} {b : β}

/-- Building comes to a result and leaves a library behind. -/
def Returns (work : Building α) (lib : Library) (result : α) (lib' : Library) : Prop :=
  work.run.run lib = (.ok result, lib')

theorem returns_pure {result : α} (returns : Returns (pure a) lib result lib') :
    result = a ∧ lib' = lib := by
  cases returns
  exact ⟨rfl, rfl⟩

theorem returns_bind (returns : Returns (work >>= next) lib b lib') :
    ∃ a between, Returns work lib a between ∧ Returns (next a) between b lib' := by
  unfold Returns at returns ⊢
  rw [ExceptT.run_bind, StateT.run_bind] at returns
  generalize StateT.run (ExceptT.run work) lib = outcome at returns
  obtain ⟨result, between⟩ := outcome
  cases result with
  | error e => cases returns
  | ok a => exact ⟨a, between, rfl, returns⟩

end Building

namespace Declaration

/-- The declarations inside a declaration, in whatever member they stand. -/
def parts : Declaration → List Declaration
  | .short _ => []
  | .full form =>
    form.element.toList ++ (form.fields.getD []).map Prod.snd ++ form.types.getD []

mutual

/-- What holds of a declaration if it holds of its parts holds of every declaration. -/
theorem induct {P : Declaration → Prop} (step : ∀ d, (∀ part ∈ d.parts, P part) → P d) :
    ∀ d, P d
  | .short _ => step _ nofun
  | .full form => step _ (inductForm step form)

theorem inductForm {P : Declaration → Prop} (step : ∀ d, (∀ part ∈ d.parts, P part) → P d) :
    ∀ form, ∀ part ∈ (Declaration.full form).parts, P part
  | ⟨type, required, element, fields, values, types, className⟩ => by
    intro part member
    rcases List.mem_append.1 member with member | isType
    · rcases List.mem_append.1 member with isElement | isField
      · exact inductElement step element part isElement
      · exact inductFields step fields part isField
    · exact inductTypes step types part isType

theorem inductElement {P : Declaration → Prop} (step : ∀ d, (∀ part ∈ d.parts, P part) → P d) :
    ∀ element : Option Declaration, ∀ part ∈ element.toList, P part
  | none => nofun
  | some d => List.forall_mem_singleton.2 (induct step d)

theorem inductFields {P : Declaration → Prop} (step : ∀ d, (∀ part ∈ d.parts, P part) → P d) :
    ∀ fields : Option (List (String × Declaration)), ∀ part ∈ (fields.getD []).map Prod.snd, P part
  | none => nofun
  | some fields => inductEachField step fields

theorem inductEachField {P : Declaration → Prop} (step : ∀ d, (∀ part ∈ d.parts, P part) → P d) :
    ∀ fields : List (String × Declaration), ∀ part ∈ fields.map Prod.snd, P part
  | [] => nofun
  | (_, d) :: rest => List.forall_mem_cons.2 ⟨induct step d, inductEachField step rest⟩

theorem inductTypes {P : Declaration → Prop} (step : ∀ d, (∀ part ∈ d.parts, P part) → P d) :
    ∀ types : Option (List Declaration), ∀ part ∈ types.getD [], P part
  | none => nofun
  | some types => inductEachType step types

theorem inductEachType {P : Declaration → Prop} (step : ∀ d, (∀ part ∈ d.parts, P part) → P d) :
    ∀ types : List Declaration, ∀ part ∈ types, P part
  | [] => nofun
  | d :: rest => List.forall_mem_cons.2 ⟨induct step d, inductEachType step rest⟩

end

/-- Building the declaration succeeds only with a validator that renders it. -/
def Faithful (d : Declaration) : Prop :=
  ∀ prop lib v lib', lib.Equipped → Building.Returns (d.build prop) lib v lib' →
    lib.Later lib' ∧ lib'.Renders d v

variable {prop : String} {lib lib' : Library} {v : Validator}

theorem leaf_returns {kind : Kind} {otherwise : DeclarationFault}
    (returns : Building.Returns (leaf kind prop otherwise) lib v lib') :
    lib.leaf? kind = some v ∧ lib' = lib := by
  obtain ⟨current, between, ⟨⟩, returns⟩ := Building.returns_bind returns
  cases found : lib.leaf? kind with
  | none =>
    simp only [found] at returns
    cases returns
  | some leaf =>
    simp only [found] at returns
    obtain ⟨rfl, same⟩ := Building.returns_pure returns
    exact ⟨rfl, same⟩

theorem Faithful.short (text : String) : (Declaration.short text).Faithful := by
  intro prop lib v lib' equipped returns
  rw [build] at returns
  obtain ⟨⟨name, required⟩, isParts⟩ : ∃ parts, shortParts text = parts := ⟨_, rfl⟩
  rw [isParts] at returns
  dsimp only at returns
  obtain ⟨leaf, between, isLeaf, finish⟩ := Building.returns_bind returns
  obtain ⟨found, rfl⟩ := leaf_returns isLeaf
  obtain ⟨rfl, rfl⟩ := Building.returns_pure finish
  obtain ⟨single, shows, planned⟩ := equipped.flavored_leaf found required
  refine ⟨.refl _, ?_, planned⟩
  rw [shows]
  exact .short (shorthand_iff.2 isParts) (Kind.named_ofDeclaredName name) single _

theorem buildEachField_returns {fields : List (String × Declaration)}
    {made : List (String × Validator)} (parts : ∀ d ∈ fields.map Prod.snd, d.Faithful)
    (equipped : lib.Equipped) (returns : Building.Returns (buildEachField prop fields) lib made lib') :
    lib.Later lib' ∧ ∃ pairs : List (String × Declaration × Validator),
      Record.mapValues Prod.fst pairs = fields ∧ Record.mapValues Prod.snd pairs = made ∧
      ∀ field ∈ pairs, lib'.Renders field.2.1 field.2.2 := by
  induction fields generalizing lib made lib' with
  | nil =>
    obtain ⟨rfl, rfl⟩ := Building.returns_pure returns
    exact ⟨.refl _, [], rfl, rfl, nofun⟩
  | cons field rest ih =>
    obtain ⟨name, d⟩ := field
    obtain ⟨first, others⟩ := List.forall_mem_cons.1 parts
    rw [buildEachField] at returns
    obtain ⟨v, between, built, returns⟩ := Building.returns_bind returns
    obtain ⟨later, renders⟩ := first _ _ _ _ equipped built
    obtain ⟨rest', after, builtRest, returns⟩ := Building.returns_bind returns
    obtain ⟨laterRest, pairs, rfl, rfl, each⟩ := ih others (later.equipped equipped) builtRest
    obtain ⟨rfl, rfl⟩ := Building.returns_pure returns
    exact ⟨later.trans laterRest, (name, d, v) :: pairs, rfl, rfl,
      List.forall_mem_cons.2 ⟨renders.later laterRest, each⟩⟩

theorem buildEachType_returns {types : List Declaration} {made : List Validator} {index : Nat}
    (parts : ∀ d ∈ types, d.Faithful) (equipped : lib.Equipped)
    (returns : Building.Returns (buildEachType prop index types) lib made lib') :
    lib.Later lib' ∧ ∃ pairs : List (Declaration × Validator),
      pairs.map Prod.fst = types ∧ pairs.map Prod.snd = made ∧
      ∀ part ∈ pairs, lib'.Renders part.1 part.2 := by
  induction types generalizing lib made lib' index with
  | nil =>
    obtain ⟨rfl, rfl⟩ := Building.returns_pure returns
    exact ⟨.refl _, [], rfl, rfl, nofun⟩
  | cons d rest ih =>
    obtain ⟨first, others⟩ := List.forall_mem_cons.1 parts
    rw [buildEachType] at returns
    obtain ⟨v, between, built, returns⟩ := Building.returns_bind returns
    obtain ⟨later, renders⟩ := first _ _ _ _ equipped built
    obtain ⟨rest', after, builtRest, returns⟩ := Building.returns_bind returns
    obtain ⟨laterRest, pairs, rfl, rfl, each⟩ := ih others (later.equipped equipped) builtRest
    obtain ⟨rfl, rfl⟩ := Building.returns_pure returns
    exact ⟨later.trans laterRest, (d, v) :: pairs, rfl, rfl,
      List.forall_mem_cons.2 ⟨renders.later laterRest, each⟩⟩

theorem buildElement_returns {type : String} {element : Option Declaration}
    (parts : ∀ d ∈ element.toList, d.Faithful) (equipped : lib.Equipped)
    (returns : Building.Returns (buildElement prop type element) lib v lib') :
    ∃ d, lib.Later lib' ∧ element = some d ∧ lib'.Renders d v := by
  cases element with
  | none => cases returns
  | some d =>
    obtain ⟨later, renders⟩ := List.forall_mem_singleton.1 parts _ _ _ _ equipped returns
    exact ⟨d, later, rfl, renders⟩

/-- A constructor that is called on the validators of the parts renders the full form. -/
theorem renders_built {form : FullDeclaration Declaration} {between : Library}
    (construction : Construction (Declaration × Validator))
    (named : Kind.Named form.type (.built construction.kind))
    (taken : form.construction? construction.kind = some (construction.map Prod.fst))
    (equipped : lib.Equipped) (later : lib.Later between)
    (parts : ∀ part ∈ construction.parts, between.Renders part.1 part.2)
    (returns : Building.Returns (do
      let made ← liftM (construction.map Prod.snd).make
      pure (flavored made form.required)) between v lib') :
    lib.Later lib' ∧ lib'.Renders (.full form) v := by
  obtain ⟨made, after, built, finish⟩ := Building.returns_bind returns
  obtain ⟨rfl, rfl⟩ := Building.returns_pure finish
  have whole := (later.equipped equipped).renders_construct named taken parts
  have afterwards := later.trans (between.later_make (construction.map Prod.snd))
  cases built
  exact ⟨afterwards, whole⟩

theorem renders_leaf {form : FullDeclaration Declaration} {kind : Kind} {otherwise : DeclarationFault}
    (named : Kind.Named form.type kind) (equipped : lib.Equipped)
    (returns : Building.Returns (do
      let made ← Declaration.leaf kind prop otherwise
      pure (flavored made form.required)) lib v lib') :
    lib.Later lib' ∧ lib'.Renders (.full form) v := by
  obtain ⟨leaf, between, isLeaf, finish⟩ := Building.returns_bind returns
  obtain ⟨found, rfl⟩ := leaf_returns isLeaf
  obtain ⟨rfl, rfl⟩ := Building.returns_pure finish
  obtain ⟨single, shows, planned⟩ := equipped.flavored_leaf found form.required
  refine ⟨.refl _, ?_, planned⟩
  rw [shows]
  exact .leaf named single _

theorem Faithful.full {form : FullDeclaration Declaration}
    (parts : ∀ part ∈ (Declaration.full form).parts, part.Faithful) :
    (Declaration.full form).Faithful := by
  intro prop lib v lib' equipped returns
  obtain ⟨type, required, element, fields, values, types, className⟩ := form
  have named := Kind.named_ofDeclaredName type
  rw [build, buildFull.eq_def] at returns
  dsimp only at returns
  simp only [Declaration.parts, List.forall_mem_append] at parts
  obtain ⟨⟨elementFaithful, fieldsFaithful⟩, typesFaithful⟩ := parts
  generalize Kind.ofDeclaredName type = kind at named returns
  cases kind with
  | leaf kind => exact renders_leaf named equipped returns
  | extension name => exact renders_leaf named equipped returns
  | built kind =>
    cases kind with
    | shape =>
      obtain ⟨made, between, builtFields, finish⟩ := Building.returns_bind returns
      cases fields with
      | none => cases builtFields
      | some fields =>
        obtain ⟨later, pairs, rfl, rfl, each⟩ :=
          buildEachField_returns fieldsFaithful equipped builtFields
        exact renders_built (.shape pairs) named rfl equipped later (List.forall_mem_map.2 each) finish
    | arrayOf =>
      obtain ⟨made, between, builtElement, finish⟩ := Building.returns_bind returns
      obtain ⟨d, later, rfl, each⟩ := buildElement_returns elementFaithful equipped builtElement
      exact renders_built (.arrayOf (d, made)) named rfl equipped later
        (List.forall_mem_singleton.2 each) finish
    | objectOf =>
      obtain ⟨made, between, builtElement, finish⟩ := Building.returns_bind returns
      obtain ⟨d, later, rfl, each⟩ := buildElement_returns elementFaithful equipped builtElement
      exact renders_built (.objectOf (d, made)) named rfl equipped later
        (List.forall_mem_singleton.2 each) finish
    | instanceOf =>
      cases className with
      | none => cases returns
      | some name =>
        refine renders_built (.instanceOf name) named rfl equipped (.refl lib) ?_ returns
        exact List.forall_mem_nil _
    | oneOf =>
      cases values with
      | none => cases returns
      | some values =>
        refine renders_built (.oneOf values) named rfl equipped (.refl lib) ?_ returns
        exact List.forall_mem_nil _
    | oneOfType =>
      obtain ⟨made, between, builtTypes, finish⟩ := Building.returns_bind returns
      cases types with
      | none => cases builtTypes
      | some types =>
        obtain ⟨later, pairs, rfl, rfl, each⟩ :=
          buildEachType_returns typesFaithful equipped builtTypes
        exact renders_built (.oneOfType pairs) named rfl equipped later each finish

/-- Every declaration is built faithfully; the induction is on the declarations inside. -/
theorem faithful (d : Declaration) : d.Faithful := by
  induction d using induct with
  | step d parts =>
    cases d with
    | short text => exact .short text
    | full form => exact .full parts

end Declaration

/-- On every instrumented library, a declaration that can be built makes a validator that inference
finds to be of the type that the declaration describes, the only one up to validators, and that
accepts the values that this type describes: no others, under whatever name and for whatever owner. -/
theorem build_described {c : Chronicle} (steps : Chronicle.opened.Steps c)
    (instrumented : .instrument ∈ c.log) {d : Declaration} {prop : String} {v : Validator}
    {lib' : Library} (returns : Building.Returns (d.build prop) c.library v lib') :
    d.Describes (lib'.infer v) ∧ (∀ t, d.Describes t → t.same (lib'.infer v) = true) ∧
      ∀ (holder : Record Json) (name owner : String) (location : Location),
        (v.validate holder name owner location = .accepted ↔
          (lib'.infer v).Admits c.library.Extension ((Record.get? holder name).getD .null)) ∧
        ((∃ error, v.validate holder name owner location = .rejected error) ↔
          ¬ (lib'.infer v).Admits c.library.Extension ((Record.get? holder name).getD .null)) := by
  obtain ⟨later, renders⟩ := d.faithful _ _ _ _ (steps.equipped instrumented) returns
  obtain ⟨plan, knows, means⟩ := renders.planned
  rw [later.extension_eq] at means
  refine ⟨renders.describes, fun t describes => describes.same renders.describes,
    fun holder name owner location => ?_⟩
  have decides := (knows.built means.plain).fits.decides holder name owner location
  rw [decides.accepted_iff, decides.rejected_iff, knows.describes.admits_iff means]
  exact ⟨.rfl, .rfl⟩

/-! ## An example -/

namespace Chronicle

/-- A library that knows colours, which are texts, when it is instrumented. -/
def painted : Chronicle :=
  opened.after (.define "Color") (Library.defineLeaf "Color" fun value => value.text?.isSome)
    fun v => .extension "Color" v 0

def palette : Chronicle :=
  ⟨(Library.instrument.run painted.library).2, [.define "Color", .instrument], painted.made⟩

theorem palette_steps : opened.Steps palette := by
  have colour : opened.Step painted := .defineLeaf "Color" fun value => value.text?.isSome
  have instrumented : painted.Step palette := .instrument
  exact .tail (.single colour) instrumented

end Chronicle

/-- A list of colours, none of them null. The list may be, and the class is ignored. -/
def coloursDeclaration : Declaration :=
  .full ⟨"ARRAYOF", false, some (.short "Color.isRequired"), none, none, none, some "Palette"⟩

/-- The list is built, and a null colour in it is not among the values that its type describes. -/
theorem build_colours : ∃ v lib',
    Building.Returns (coloursDeclaration.build "colours") Chronicle.palette.library v lib' ∧
      coloursDeclaration.Describes (lib'.infer v) ∧
      ¬ (lib'.infer v).Admits Chronicle.palette.library.Extension (.array [.string "red", .null]) := by
  have returns : Building.Returns (coloursDeclaration.build "colours") Chronicle.palette.library _ _ :=
    rfl
  have logged : Mark.instrument ∈ Chronicle.palette.log := by decide
  obtain ⟨describes, _, decides⟩ := build_described Chronicle.palette_steps logged returns
  have rejected := (decides [("colours", .array [.string "red", .null])] "colours" "Card" .prop).2
  exact ⟨_, _, returns, describes, rejected.1 ⟨_, rfl⟩⟩

end PropSandbox

import PropSandbox.Proofs.Inferred
import PropSandbox.Proofs.Outcomes
import PropSandbox.Random.Mixer

/-!
# Generated values are valid

A value generated for the type that inference has for a validator is accepted by the validator, at
every depth, whatever the decisions about null and whatever choice among the options. A required
type never generates null. The one thing asked of a plan is that there is something to choose:
every enumeration has a literal besides null and every union a candidate.
-/

namespace PropSandbox

/-- There is something to choose: a literal besides null, or a candidate. -/
def Construction.Inhabited {α : Type} : Construction α → Prop
  | .oneOf choices => ∃ choice ∈ choices, choice ≠ .null
  | .oneOfType candidates => candidates ≠ []
  | _ => True

/-- A plan of standard leaves, constructors and required flavors that leaves something to choose
wherever there is a choice. -/
inductive Plan.Generable : Plan → Prop where
  | leaf (kind : LeafKind) : Generable (.leaf kind)
  | built {construction : Construction Plan} (inhabited : construction.Inhabited)
      (parts : ∀ part ∈ construction.parts, Generable part) : Generable (.built construction)
  | required {plan : Plan} (part : Generable plan) : Generable (.required plan)

theorem Plan.Generable.plain {plan : Plan} (generable : plan.Generable) : plan.Plain := by
  induction generable with
  | leaf kind => exact .leaf kind
  | built _ _ ih => exact .built ih
  | required _ ih => exact .required ih

/-- A chooser that picks an option whenever there is one. -/
def Chooser.InRange {σ : Type} (chooser : Chooser σ) : Prop :=
  ∀ path count, 0 < count → Always (chooser path count) fun choice => ∃ i < count, choice = some i

namespace GenerationConfig

variable {σ : Type} {config : GenerationConfig σ}

theorem choose_inRange (inRange : config.chooser.InRange) : (config.choose).InRange := by
  intro path count positive
  rw [choose, if_neg (by omega)]
  refine (inRange path count positive).bind fun choice ⟨i, less, same⟩ => .pure ⟨i, less, ?_⟩
  rw [same, Option.filter_some]
  simp [less]

/-- A value is made by the generator of its kind, unless it is null where that is allowed. -/
theorem generate_known {leaf : TypeLeaf} {path : Cursor} {P : Json → Prop}
    (made : Always (config.generator leaf.kind leaf path
      (fun part at' => config.generate part.val at') config.choose) P)
    (null : leaf.required = false → P .null) : Always (config.generate (.known leaf) path) P := by
  rw [generate]
  cases required : leaf.required with
  | true =>
    have notNull : config.isNull path leaf = pure false := by
      rw [isNull, if_pos required]
    rw [notNull, pure_bind]
    exact made
  | false =>
    refine (Always.trivial _).bind fun decision _ => ?_
    cases decision with
    | true => exact .pure (null required)
    | false => exact made

/-- Values for a type are in the table of the plan, and for its required flavor they are not null
either. -/
structure Fills (config : GenerationConfig σ) (plan : Plan) (t : PropType) : Prop where
  asIs : ∀ path, Always (config.generate t path) plan.Accepts
  required : ∀ path, Always (config.generate t.intoRequired path) fun value =>
    value ≠ .null ∧ plan.Accepts value

namespace Fills

variable {plan : Plan} {t : PropType}

/-- A plan is filled if the generator of its kind fills it, in either flavor. -/
theorem of_generator {kind : Kind} {arguments : Option (List (Argument PropType))}
    {make : Generator σ} (optional : plan.isOptional = true)
    (found : config.generators kind = some make)
    (made : ∀ required v path, Always
      (make ⟨kind, required, arguments, v⟩ path (fun part at' => config.generate part.val at')
        config.choose)
      fun value => plan.Accepts value ∧ (required = true → value ≠ .null)) (v : Validator) :
    config.Fills plan (.known ⟨kind, false, arguments, v⟩) := by
  have same : config.generator kind = make := by
    rw [generator, found, Option.getD_some]
  rw [← same] at made
  refine ⟨fun path => ?_, fun path => ?_⟩
  · refine generate_known ((made false v path).mono fun value both => both.1) fun _ => ?_
    exact .null optional
  · change Always (config.generate (.known ⟨kind, true, arguments, v.required⟩) path) _
    exact generate_known
      ((made true v.required path).mono fun value both => ⟨both.2 rfl, both.1⟩) nofun

/-- The required flavor is filled as the plan of the required flavor. -/
theorem intoRequired (fills : config.Fills plan t) :
    config.Fills (.required plan) t.intoRequired where
  asIs path := (fills.required path).mono fun value both => .required both.1 both.2
  required path := by
    rw [PropType.intoRequired_intoRequired]
    exact (fills.required path).mono fun value both => ⟨both.1, .required both.1 both.2⟩

variable (v : Validator)

theorem leaf (faithful : config.generators.Faithful) (kind : LeafKind) :
    config.Fills (.leaf kind) (.known ⟨.leaf kind, false, none, v⟩) := by
  obtain ⟨make, found, fills⟩ := faithful.leaf kind
  refine of_generator rfl found (fun required v path => ?_) v
  exact (fills _ _ _ _).mono fun value both => ⟨.leaf both.1 both.2, fun _ => both.1⟩

theorem arrayOf (faithful : config.generators.Faithful) (item : config.Fills plan t) :
    config.Fills (.built (.arrayOf plan)) (.known ⟨.built .arrayOf, false, some [.element t], v⟩) := by
  obtain ⟨make, found, lists⟩ := faithful.list
  refine of_generator rfl found (fun required v path => ?_) v
  obtain ⟨part, isItem, same⟩ := Described.elementPart?_val
    (rfl : (⟨.built .arrayOf, required, some [.element t], v⟩ : TypeLeaf).argument? = some (.element t))
  refine (lists _ part path _ _ plan.Accepts isItem fun at' => ?_).mono ?_
  · rw [same]
    exact item.asIs at'
  · rintro _ ⟨items, rfl, holds⟩
    exact ⟨.arrayOf holds, nofun⟩

theorem objectOf (faithful : config.generators.Faithful) :
    config.Fills (.built (.objectOf plan))
      (.known ⟨.built .objectOf, false, some [.element t], v⟩) :=
  of_generator rfl faithful.map (fun _ _ _ => .pure ⟨.objectOf nofun, nofun⟩) v

theorem instanceOf (faithful : config.generators.Faithful) (className : String) :
    config.Fills (.built (.instanceOf className))
      (.known ⟨.built .instanceOf, false, some [.className className], v⟩) := by
  refine of_generator rfl faithful.instanceOf (fun required v path => ?_) v
  have accepted : (Plan.built (.instanceOf className)).Accepts (Marker.instanceOf className) :=
    .instanceOf ⟨_, rfl, rfl⟩
  exact .pure ⟨accepted, nofun⟩

/-- One of the literals that can be chosen is chosen, if there is one besides null. -/
theorem oneOf (faithful : config.generators.Faithful) (inRange : config.chooser.InRange)
    {choices : List Json} (inhabited : ∃ choice ∈ choices, choice ≠ .null) :
    config.Fills (.built (.oneOf choices))
      (.known ⟨.built .oneOf, false, some [.choices choices], v⟩) := by
  refine of_generator rfl faithful.oneOf (fun required v path => ?_) v
  generalize isLeaf : (⟨.built .oneOf, required, some [.choices choices], v⟩ : TypeLeaf) = leaf
  have options : Generator.options leaf =
      choices.filter fun value => !(required && value.isNull) := by
    rw [← isLeaf]
    rfl
  obtain ⟨choice, listed, given⟩ := inhabited
  have open' : choice ∈ Generator.options leaf := by
    rw [options]
    exact List.mem_filter.2 ⟨listed, by simp [Json.isNull_eq_false given]⟩
  refine (choose_inRange inRange path _ (List.length_pos_of_mem open')).bind
    fun picked ⟨i, less, same⟩ => .pure ?_
  rw [same, Option.bind_some, List.getElem?_eq_getElem less, Option.getD_some]
  have chosen := List.getElem_mem less
  generalize (Generator.options leaf)[i] = value at chosen ⊢
  rw [options, List.mem_filter] at chosen
  by_cases null : value = .null
  · rw [null] at chosen ⊢
    exact ⟨.null rfl, fun wanted => by simp [wanted, Json.isNull] at chosen⟩
  · exact ⟨.oneOf null chosen.1 (Json.same_refl value), fun _ => null⟩

/-- A value of a candidate, generated as required, is one of the union. -/
theorem oneOfType (faithful : config.generators.Faithful) (inRange : config.chooser.InRange)
    {candidates : List (Plan × PropType)} (inhabited : candidates ≠ [])
    (each : ∀ part ∈ candidates, config.Fills part.1 part.2) :
    config.Fills (.built (.oneOfType (candidates.map Prod.fst)))
      (.known ⟨.built .oneOfType, false, some [.candidates (candidates.map Prod.snd)], v⟩) := by
  refine of_generator rfl faithful.oneOfType (fun required v path => ?_) v
  generalize isLeaf : (⟨.built .oneOfType, required, some [.candidates (candidates.map Prod.snd)],
    v⟩ : TypeLeaf) = leaf
  have parts : leaf.candidateParts.map Subtype.val = candidates.map Prod.snd :=
    Described.candidateParts_val (by rw [← isLeaf]; rfl)
  have positive : 0 < leaf.candidateParts.length := by
    rw [← List.length_map (f := Subtype.val), parts, List.length_map]
    exact List.length_pos_iff.2 inhabited
  refine (choose_inRange inRange path _ positive).bind fun picked ⟨i, less, same⟩ => ?_
  have listed := List.mem_map_of_mem (f := Subtype.val) (List.getElem_mem less)
  rw [same, Option.bind_some, List.getElem?_eq_getElem less]
  generalize leaf.candidateParts[i] = part at listed ⊢
  rw [parts] at listed
  obtain ⟨candidate, isCandidate, type⟩ := List.mem_map.1 listed
  have fills := (each candidate isCandidate).required path
  rw [type] at fills
  refine fills.mono fun value both => ⟨?_, fun _ => both.1⟩
  exact .oneOfType both.1 (List.mem_map_of_mem isCandidate) both.2

/-- The members of a generated shape: every declared name has a value made for its field. -/
theorem fieldValues_each {leaf : TypeLeaf} {recurse : Part leaf → Cursor → StateM σ Json}
    {P : String → Json → Prop} {parts : Record (Part leaf)}
    (each : ∀ entry ∈ parts, ∀ at', Always (recurse entry.2 at') (P entry.1)) (path : Cursor) :
    Always (Generator.fieldValues path recurse parts) fun members =>
      ∀ name ∈ Record.keys parts, ∃ value, Record.get? members name = some value ∧ P name value := by
  induction parts with
  | nil => exact .pure nofun
  | cons entry rest ih =>
    obtain ⟨first, part⟩ := entry
    have others := ih fun entry member => each entry (List.mem_cons_of_mem _ member)
    refine (each _ List.mem_cons_self _).bind fun value holds => others.bind fun members rest => ?_
    refine .pure fun name member => ?_
    rw [Record.get?_cons]
    by_cases same : first = name
    · rw [if_pos same]
      exact ⟨value, rfl, same ▸ holds⟩
    · rw [if_neg same]
      exact rest name ((List.mem_cons.1 member).resolve_left fun head => same head.symm)

/-- A value that is accepted under a name by the plan of the field declared there, if there is one. -/
def ForField (declared : Record (Plan × PropType)) (name : String) (value : Json) : Prop :=
  ∀ field, Record.get? declared name = some field → field.1.Accepts value

/-- A value made for a part of a shape is one for the field declared under the name. -/
theorem generate_fieldPart {leaf : TypeLeaf} {fields : List (String × Plan × PropType)}
    (each : ∀ field ∈ fields, config.Fills field.2.1 field.2.2)
    (parts : Record.mapValues Subtype.val leaf.fieldParts =
      Record.mapValues Prod.snd (Record.ofList fields))
    {entry : String × Part leaf} (member : entry ∈ leaf.fieldParts) (path : Cursor) :
    Always (config.generate entry.2.val path) (ForField (Record.ofList fields) entry.1) := by
  have listed : (entry.1, entry.2.val) ∈ Record.mapValues Subtype.val leaf.fieldParts :=
    List.mem_map_of_mem member
  rw [parts] at listed
  obtain ⟨⟨name, declared⟩, isField, same⟩ := List.mem_map.1 listed
  obtain ⟨rfl, type⟩ := Prod.mk.inj same
  rw [← type]
  refine ((each _ (Record.mem_ofList isField)).asIs path).mono fun value accepted field found => ?_
  rw [Record.get?_of_mem (Record.ascending_ofList fields) isField] at found
  cases found
  exact accepted

theorem shape (faithful : config.generators.Faithful) {fields : List (String × Plan × PropType)}
    (each : ∀ field ∈ fields, config.Fills field.2.1 field.2.2) :
    config.Fills (.built (.shape (Record.mapValues Prod.fst fields)))
      (.known ⟨.built .shape, false,
        some [.fields (Record.ofList (Record.mapValues Prod.snd fields))], v⟩) := by
  refine of_generator rfl faithful.shape (fun required v path => ?_) v
  rw [← Record.mapValues_ofList]
  generalize isLeaf : (⟨.built .shape, required,
    some [.fields (Record.mapValues Prod.snd (Record.ofList fields))], v⟩ : TypeLeaf) = leaf
  have parts : Record.mapValues Subtype.val leaf.fieldParts =
      Record.mapValues Prod.snd (Record.ofList fields) :=
    Described.fieldParts_val (by rw [← isLeaf]; rfl)
  refine (fieldValues_each (fun _ => generate_fieldPart each parts) path).bind
    fun members made => .pure ⟨.shape ?_, nofun⟩
  rw [← Record.mapValues_ofList]
  refine List.forall_mem_map.2 fun field isField => ?_
  have declared : field.1 ∈ Record.keys leaf.fieldParts := by
    rw [← Record.keys_mapValues Subtype.val, parts, Record.keys_mapValues]
    exact List.mem_map_of_mem isField
  obtain ⟨value, found, accepted⟩ := made field.1 declared
  rw [found, Option.getD_some]
  exact accepted field.2 (Record.get?_of_mem (Record.ascending_ofList fields) isField)

/-- What a constructor builds is filled if its parts are and there is something to choose. -/
theorem built (faithful : config.generators.Faithful) (inRange : config.chooser.InRange)
    {construction : Construction (Plan × PropType)}
    (inhabited : (construction.map Prod.fst).Inhabited)
    (parts : ∀ part ∈ construction.parts, config.Fills part.1 part.2) :
    config.Fills (.built (construction.map Prod.fst))
      (.known ⟨.built construction.kind, false,
        some [(construction.map Prod.snd).argument], v⟩) := by
  cases construction with
  | shape fields =>
    exact .shape v faithful fun field member => parts _ (List.mem_map_of_mem member)
  | arrayOf item => exact .arrayOf v faithful (parts item List.mem_cons_self)
  | objectOf value => exact .objectOf v faithful
  | instanceOf className => exact .instanceOf v faithful className
  | oneOf choices => exact .oneOf v faithful inRange inhabited
  | oneOfType candidates =>
    exact .oneOfType v faithful inRange (fun none => inhabited (by rw [none]; rfl)) parts

/-- The type of a plan is filled, part by part. -/
theorem of_describes (faithful : config.generators.Faithful) (inRange : config.chooser.InRange)
    (describes : plan.Describes t) (generable : plan.Generable) : config.Fills plan t := by
  induction describes with
  | leaf kind v => exact .leaf v faithful kind
  | extension => cases generable
  | custom => cases generable
  | built parts v ih =>
    cases generable with
    | built inhabited generable =>
      rw [Construction.parts_map] at generable
      exact .built v faithful inRange inhabited fun part member =>
        ih part member (generable _ (List.mem_map_of_mem member))
  | required part ih =>
    cases generable with
    | required generable => exact (ih generable).intoRequired

end Fills

end GenerationConfig

theorem PropType.intoRequired_of_isRequired {t : PropType} (required : t.isRequired = true) :
    t.intoRequired = t := by
  cases t with
  | unknown => rfl
  | known leaf => exact if_pos required

/-- A value generated for an inferred type is accepted, and a required type never generates null:
for every validator made on an instrumented library, every path, every nullability, every chooser
that answers in range, and the generators of either policy under every outcome of the draws. -/
theorem generate_accepted {σ : Type} {lib : Library} (reachable : lib.Reachable)
    (instrumented : lib.instrumented = true) {w : Workshop}
    (work : (Workshop.opened lib).Steps w) {plan : Plan} {v : Validator}
    (made : (plan, v) ∈ w.made) (generable : plan.Generable) {config : GenerationConfig σ}
    (shipped : config.generators.Shipped) (inRange : config.chooser.InRange) (path : Cursor)
    (s : σ) :
    (w.library.infer v).accepts ((config.generate (w.library.infer v) path).run s).1 = true ∧
      ((w.library.infer v).isRequired = true →
        ((config.generate (w.library.infer v) path).run s).1 ≠ .null) := by
  have documented := work.documented (.opened reachable.sound instrumented)
  have knows := documented.knows (plan, v) made
  have fills := GenerationConfig.Fills.of_describes shipped.faithful inRange knows.describes
    generable
  constructor
  · have accepted := fills.asIs path s
    have decides := (knows.built generable.plain).fits.decides
      [("value", ((config.generate (w.library.infer v) path).run s).1)] "value" "sandbox" .prop
    rw [PropType.accepts, PropType.explain, PropType.check, Library.infer_validator,
      Validator.checkValue, decides.accepted_iff.2 accepted]
    rfl
  · intro required
    have given := fills.required path s
    rw [PropType.intoRequired_of_isRequired required] at given
    exact given.1

/-- The choosers of both policies answer in range. -/
theorem Chooser.first_inRange {σ : Type} : (Chooser.first : Chooser σ).InRange := by
  intro path count positive
  rw [Chooser.first, if_pos positive]
  exact .pure ⟨0, positive, rfl⟩

theorem RandomPolicy.choose_inRange {σ : Type} (source : RandomSource σ) :
    (RandomPolicy.choose source).InRange := by
  intro path count positive
  rw [RandomPolicy.choose, dif_pos positive]
  exact (Always.trivial _).bind fun i _ => .pure ⟨i.val, i.isLt, rfl⟩

/-- Cells are made in four steps of work. -/
theorem cells_made {lib : Library} (standard : lib.standard = Library.fresh.standard) :
    ∃ made, (Workshop.opened lib).Steps ⟨(cells.run lib).2, made⟩ ∧
      (cellsPlan, (cells.run lib).1) ∈ made := by
  have number : (Plan.leaf .number, Library.fresh.standard .number) ∈
      (Workshop.opened lib).made := by
    rw [← standard]
    exact List.mem_map_of_mem (LeafKind.mem_all .number)
  let auto := (Library.oneOf [.null, .string "auto"]).run lib
  let cell := (Library.oneOfType [Library.fresh.standard .number, auto.1]).run auto.2
  let list := (Library.arrayOf cell.1).run cell.2
  let first : Workshop := ⟨auto.2, (autoPlan, auto.1) :: (Workshop.opened lib).made⟩
  let second : Workshop := ⟨cell.2, (cellPlan, cell.1) :: first.made⟩
  let third : Workshop := ⟨list.2, (.built (.arrayOf cellPlan), list.1) :: second.made⟩
  have opening : (Workshop.opened lib).Step first :=
    @Workshop.Step.construct _ (.oneOf [.null, .string "auto"]) nofun
  have middle : first.Step second :=
    @Workshop.Step.construct first (.oneOfType [(.leaf .number, _), (autoPlan, auto.1)])
      (List.forall_mem_cons.2 ⟨List.mem_cons_of_mem _ number,
        List.forall_mem_singleton.2 List.mem_cons_self⟩)
  have closing : second.Step third :=
    @Workshop.Step.construct second (.arrayOf (cellPlan, cell.1))
      (List.forall_mem_singleton.2 List.mem_cons_self)
  have flavored : third.Step ⟨list.2, (cellsPlan, list.1.required) :: third.made⟩ :=
    .required List.mem_cons_self
  exact ⟨_, (((Relation.ReflTransGen.single opening).tail middle).tail closing).tail flavored,
    List.mem_cons_self⟩

theorem cells_generable : cellsPlan.Generable := by
  have auto : autoPlan.Generable :=
    .built ⟨.string "auto", by simp, nofun⟩ nofun
  have cell : cellPlan.Generable :=
    .built nofun (List.forall_mem_cons.2 ⟨.leaf .number, List.forall_mem_singleton.2 auto⟩)
  exact .required (.built trivial (List.forall_mem_singleton.2 cell))

/-- Random cells are accepted, and there always are some. -/
theorem generate_cells :
    let made := cells.run (Library.instrument.run .fresh).2
    let t := made.2.infer made.1
    let config := RandomPolicy.default.config (Mixer.source 0)
    let value := ((config.generate t [.key "rows"]).run 7).1
    t.accepts value = true ∧ value ≠ .null := by
  obtain ⟨entries, work, made⟩ := @cells_made (Library.instrument.run .fresh).2 rfl
  have reachable : (Library.instrument.run .fresh).2.Reachable :=
    ⟨_, Relation.ReflTransGen.single .instrument⟩
  have accepted := generate_accepted reachable rfl work made cells_generable
    (.random RandomPolicy.default (Mixer.source 0)) (RandomPolicy.choose_inRange (Mixer.source 0))
    [.key "rows"] 7
  refine ⟨accepted.1, accepted.2 ?_⟩
  rw [Library.infer]
  rfl

end PropSandbox

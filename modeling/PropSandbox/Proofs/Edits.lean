import PropSandbox.Proofs.ListEdits
import PropSandbox.Proofs.Typed

/-!
# Well-typed edits

An edit that succeeds amounts to one write of a new value at its cursor, and a write that succeeds
puts parts into containers from the inside out. If the types tell what is accepted, a new value that
its own type accepts leaves every container around it accepted, so a valid instance stays valid.
-/

namespace PropSandbox

namespace Cursor

variable {new root part : Json} {step : Segment} {rest c d : Cursor}

/-- Every proper prefix of a path, except for the root, reads a value that is not null. -/
def Reaches (c : Cursor) (root : Json) : Prop :=
  ∀ d : Cursor, d <+: c → d ≠ [] → d ≠ c → ∃ part, d.get? root = some part ∧ part ≠ .null

theorem Reaches.head (reaches : Reaches (step :: rest) root) (further : rest ≠ []) :
    ∃ part, root.child? step = some part ∧ part ≠ .null := by
  obtain ⟨part, found, given⟩ := reaches [step] ⟨rest, rfl⟩ (List.cons_ne_nil _ _)
    fun same => further (List.cons.inj same).2.symm
  rw [get?_cons] at found
  cases here : root.child? step with
  | none => simp [here] at found
  | some inner =>
    rw [here] at found
    cases found
    exact ⟨_, rfl, given⟩

theorem Reaches.tail (reaches : Reaches (step :: rest) root) :
    Reaches rest ((root.child? step).getD .null) := by
  rintro d ⟨e, rfl⟩ notRoot proper
  obtain ⟨part, found, given⟩ := reaches (step :: d) ⟨e, rfl⟩ (List.cons_ne_nil _ _)
    fun same => proper (List.cons.inj same).2
  rw [get?_cons] at found
  cases here : root.child? step with
  | none => simp [here] at found
  | some inner =>
    rw [here] at found
    exact ⟨part, found, given⟩

end Cursor

/-! ## Typed writes -/

namespace Plan.Types

variable {plan : Plan} {t inner : PropType} {c : Cursor} {root part value : Json}

/-- The type at a path of a typed type is typed. -/
theorem at' (types : plan.Types t) (isAt : t.at? c = some inner) :
    ∃ below : Plan, below.Types inner := by
  induction c generalizing plan t with
  | nil =>
    cases isAt
    exact ⟨plan, types⟩
  | cons step rest ih =>
    obtain ⟨middle, below, further⟩ := Option.bind_eq_some_iff.1 isAt
    obtain ⟨part, partTypes⟩ := types.part below
    exact ih partTypes further

/-- What an accepted value holds at a path is accepted by the type there. -/
theorem get?_accepted (types : plan.Types t) (isAt : t.at? c = some inner)
    (accepted : t.accepts root = true) (found : c.get? root = some part) :
    inner.accepts part = true := by
  induction c generalizing plan t root with
  | nil =>
    cases isAt
    cases found
    exact accepted
  | cons step rest ih =>
    obtain ⟨middle, below, further⟩ := Option.bind_eq_some_iff.1 isAt
    obtain ⟨held, child, found⟩ := Option.bind_eq_some_iff.1 found
    obtain ⟨_, partTypes⟩ := types.part below
    exact ih partTypes further ((types.governs below).child root held accepted child) found

/-- A write of an accepted value leaves the whole accepted. The containers on the way are there, so
each of them is accepted and has its part put in. -/
theorem set_accepted (types : plan.Types t) (isAt : t.at? c = some inner)
    (new : inner.accepts value = true) (reaches : c.Reaches root)
    (whole : c ≠ [] → root ≠ .null ∧ t.accepts root = true)
    (succeeded : (c.set value root).Succeeded) : t.accepts (c.set value root).value = true := by
  induction c generalizing plan t root with
  | nil =>
    cases isAt
    exact new
  | cons step rest ih =>
    obtain ⟨middle, below, further⟩ := Option.bind_eq_some_iff.1 isAt
    obtain ⟨given, accepted⟩ := whole (List.cons_ne_nil _ _)
    obtain ⟨_, partTypes⟩ := types.part below
    have governs := types.governs below
    rcases Cursor.takes_or_stops root step with takes | ⟨_, e, stops⟩
    · rw [Cursor.set_cons takes] at succeeded ⊢
      rw [Written.within, Json.withPart_of_ne_null given]
      refine governs.put root _ given accepted (ih partTypes further reaches.tail ?_ succeeded)
      intro notLast
      obtain ⟨part, child, partGiven⟩ := reaches.head notLast
      rw [child]
      exact ⟨partGiven, governs.child root part accepted child⟩
    · rw [stops] at succeeded
      exact absurd succeeded Written.not_succeeded_error

end Plan.Types

namespace PropTypes

variable {types : PropTypes} {t : PropType} {c : Cursor} {props value part : Json}

/-- An object whose declared props are all accepted by their types. -/
def Accepts (types : PropTypes) (props : Json) : Prop :=
  ∃ members, props = .object members ∧ ∀ name t, Record.get? types name = some t →
    t.accepts ((Record.get? members name).getD .null) = true

/-- Types that all tell what is accepted. -/
def Typed (types : PropTypes) : Prop :=
  ∀ name t, Record.get? types name = some t → ∃ plan : Plan, plan.Types t

/-- A path that has a type starts with a declared prop. -/
theorem declared_of_at? (isAt : types.at? c = some t) :
    ∃ name rest whole, c = .key name :: rest ∧ Record.get? types name = some whole ∧
      whole.at? rest = some t := by
  cases c with
  | nil => cases isAt
  | cons step rest =>
    cases step with
    | index => cases isAt
    | key name =>
      obtain ⟨whole, declared, further⟩ := Option.bind_eq_some_iff.1 isAt
      exact ⟨name, rest, whole, rfl, declared, further⟩

theorem Typed.at' (typed : types.Typed) (isAt : types.at? c = some t) :
    ∃ plan : Plan, plan.Types t := by
  obtain ⟨name, rest, whole, rfl, declared, further⟩ := declared_of_at? isAt
  obtain ⟨plan, types⟩ := typed name whole declared
  exact types.at' further

theorem Typed.get?_accepted (typed : types.Typed) (accepts : types.Accepts props)
    (isAt : types.at? c = some t) (found : c.get? props = some part) : t.accepts part = true := by
  obtain ⟨members, rfl, all⟩ := accepts
  obtain ⟨name, rest, whole, rfl, declared, further⟩ := declared_of_at? isAt
  obtain ⟨plan, planned⟩ := typed name whole declared
  obtain ⟨held, here, below⟩ := Option.bind_eq_some_iff.1 found
  have accepted := all name whole declared
  rw [show Record.get? members name = some held from here] at accepted
  exact planned.get?_accepted further accepted below

/-- A write of a value that its type accepts keeps all declared props accepted. -/
theorem Typed.set_accepted (typed : types.Typed) (accepts : types.Accepts props)
    (isAt : types.at? c = some t) (new : t.accepts value = true) (reaches : c.Reaches props)
    (succeeded : (c.set value props).Succeeded) : types.Accepts (c.set value props).value := by
  obtain ⟨members, rfl, all⟩ := accepts
  obtain ⟨name, rest, whole, rfl, declared, further⟩ := declared_of_at? isAt
  obtain ⟨plan, planned⟩ := typed name whole declared
  rw [Cursor.set_key] at succeeded ⊢
  refine ⟨_, rfl, fun other t isOther => ?_⟩
  by_cases same : other = name
  · subst same
    cases declared.symm.trans isOther
    rw [Record.get?_insert_self, Option.getD_some]
    -- only a write below the prop asks what the prop held, as it must not open a container there
    refine planned.set_accepted further new reaches.tail (fun notLast => ?_) succeeded
    obtain ⟨part, found, given⟩ := reaches.head notLast
    have accepted := all other whole declared
    rw [show Record.get? members other = some part from found] at accepted ⊢
    exact ⟨given, accepted⟩
  · rw [Record.get?_insert_of_ne _ _ same]
    exact all other t isOther

end PropTypes

/-! ## Edits -/

namespace FieldEdit

variable {σ : Type} {config : GenerationConfig σ} {plan : Plan} {t item : PropType} {c : Cursor}
  {root value : Json} {edit : FieldEdit} {s : σ}

/-- The edits that suit a type: a value it accepts, null where none is required, and the removal or
the generation of an item of a list. An item can be generated by the generators of either policy if
there is something to choose wherever its type offers a choice. -/
inductive WellTyped (config : GenerationConfig σ) (t : PropType) : FieldEdit → Prop where
  | set {value : Json} (accepted : t.accepts value = true) : WellTyped config t (.set value)
  | clear (optional : t.isRequired = false) : WellTyped config t .clear
  | removeItem (isList : t.kind? = some (.built .arrayOf)) (index : Nat) :
      WellTyped config t (.removeItem index)
  | appendItem {item : PropType} (isItem : itemType? t = some item) (generable : item.Generable)
      (shipped : config.generators.Shipped) (inRange : config.chooser.InRange) :
      WellTyped config t .appendItem

/-- The item type of a list is the type below each of its indices. -/
theorem itemType?_eq_below? (t : PropType) (i : Nat) : itemType? t = t.below? (.index i) := by
  cases t with
  | unknown => rfl
  | known leaf =>
    obtain ⟨kind, _, _, _⟩ := leaf
    cases kind with
    | built kind => cases kind <;> rfl
    | _ => rfl

theorem exists_item (types : plan.Types t) (isList : t.kind? = some (.built .arrayOf)) :
    ∃ item, itemType? t = some item := by
  induction types with
  | leaf | extension => cases isList
  | @built construction v =>
    cases construction with
    | arrayOf item => exact ⟨item.2, rfl⟩
    | _ => cases isList
  | @required plan t types ih =>
    rw [PropType.kind?_intoRequired] at isList
    rw [itemType?_eq_below? _ 0, PropType.below?_intoRequired, ← itemType?_eq_below?]
    exact ih isList

/-- An edit that succeeds amounts to a write of one value. -/
structure Writes (t : PropType) (c : Cursor) (root : Json) (outcome : Written Unit) (new : Json) :
    Prop where
  accepted : t.accepts new = true
  succeeded : (Cursor.set new c root).Succeeded
  value : outcome.value = (Cursor.set new c root).value

theorem removeFrom_writes (types : plan.Types t) (isList : t.kind? = some (.built .arrayOf))
    (held : ∀ part, c.get? root = some part → t.accepts part = true) {index : Nat}
    (succeeded : (removeFrom c index root).Succeeded) :
    ∃ new, Writes t c root (removeFrom c index root) new := by
  obtain ⟨item, isItem⟩ := exists_item types isList
  rw [itemType?_eq_below? t index] at isItem
  obtain ⟨items, found, inside⟩ := removeFrom_succeeded_iff.1 succeeded
  rw [removeFrom_of_items found inside] at succeeded ⊢
  refine ⟨_, ?_, succeeded, rfl⟩
  rw [types.accepts_items_iff isItem]
  have each := (types.accepts_items_iff isItem items).1 (held _ found)
  exact fun entry member => each entry (List.mem_of_mem_eraseIdx member)

theorem appendTo_writes (types : plan.Types t) (isItem : itemType? t = some item)
    (generable : item.Generable) (shipped : config.generators.Shipped)
    (inRange : config.chooser.InRange)
    (held : ∀ part, c.get? root = some part → t.accepts part = true)
    (succeeded : ((appendTo config t c root).run s).1.Succeeded) :
    ∃ new, Writes t c root ((appendTo config t c root).run s).1 new := by
  have below := (itemType?_eq_below? t 0).symm.trans isItem
  obtain ⟨part, partTypes⟩ := types.part below
  rcases appendTo_cases config isItem c root s with ⟨items, place, lists, same⟩ | ⟨_, same⟩
  · rw [same] at succeeded ⊢
    refine ⟨_, ?_, succeeded, rfl⟩
    rw [types.accepts_items_iff below, List.forall_mem_append, List.forall_mem_singleton]
    refine ⟨?_, ?_⟩
    · rcases Cursor.get?_of_lists lists with rfl | found
      · exact nofun
      · exact (types.accepts_items_iff below items).1 (held _ found)
    · exact partTypes.accepts_iff.2 <|
        (GenerationConfig.Fills.of_describes shipped.faithful inRange partTypes.describes
          (partTypes.generable generable)).asIs place s
  · rw [same] at succeeded
    exact absurd succeeded Written.not_succeeded_error

/-- A well-typed edit that succeeds writes a value that the type accepts. -/
theorem WellTyped.writes (wellTyped : edit.WellTyped config t) (types : plan.Types t)
    (held : ∀ part, c.get? root = some part → t.accepts part = true)
    (succeeded : ((edit.apply config t c root).run s).1.Succeeded) :
    ∃ new, Writes t c root ((edit.apply config t c root).run s).1 new := by
  cases wellTyped with
  | set accepted => exact ⟨_, accepted, succeeded, rfl⟩
  | clear optional => exact ⟨.null, types.accepts_null_iff.2 optional, succeeded, rfl⟩
  | removeItem isList index => exact removeFrom_writes types isList held succeeded
  | appendItem isItem generable shipped inRange =>
    exact appendTo_writes types isItem generable shipped inRange held succeeded

end FieldEdit

/-- The types of validators at hand tell what is accepted, if nothing in them is unknown. -/
theorem Chronicle.typed_inferRecord {c : Chronicle} (steps : Chronicle.opened.Steps c)
    {validators : Record Validator} (made : ∀ entry ∈ validators, ∃ o ∈ c.made, o.validator = entry.2)
    (transparent : ∀ entry ∈ validators, (c.library.infer entry.2).Transparent) :
    PropTypes.Typed (c.library.inferRecord validators) := by
  intro name t declared
  rw [Library.inferRecord, Record.get?_mapValues, Option.map_eq_some_iff] at declared
  obtain ⟨v, found, rfl⟩ := declared
  have member := Record.mem_of_get? found
  obtain ⟨o, atHand, rfl⟩ := made _ member
  obtain ⟨plan, types, _⟩ :=
    steps.kept.2.types (steps.genuine o atHand) atHand (transparent _ member)
  exact ⟨plan, types⟩

/-- An instance that is valid stays valid under well-typed edits: for every record of types that
inference has for validators made in any work on a fresh library, with nothing unknown in them, and
for an edit at any cursor that goes through values which are not null. -/
theorem apply_keeps_valid {σ : Type} {c : Chronicle} (steps : Chronicle.opened.Steps c)
    {validators : Record Validator} (made : ∀ entry ∈ validators, ∃ o ∈ c.made, o.validator = entry.2)
    (transparent : ∀ entry ∈ validators, (c.library.infer entry.2).Transparent) {props : Json}
    (valid : PropTypes.Accepts (c.library.inferRecord validators) props) {path : Cursor}
    {t : PropType} (isAt : PropTypes.at? (c.library.inferRecord validators) path = some t)
    (reaches : path.Reaches props) {config : GenerationConfig σ} {edit : FieldEdit}
    (wellTyped : edit.WellTyped config t) {s : σ}
    (succeeded : ((edit.apply config t path props).run s).1.Succeeded) :
    PropTypes.Accepts (c.library.inferRecord validators)
      ((edit.apply config t path props).run s).1.value := by
  have typed := Chronicle.typed_inferRecord steps made transparent
  obtain ⟨plan, types⟩ := typed.at' isAt
  obtain ⟨new, accepted, written, value⟩ := wellTyped.writes types
    (fun part found => typed.get?_accepted valid isAt found) succeeded
  rw [value]
  exact typed.set_accepted valid isAt accepted reaches written

/-! ## An example -/

namespace Chronicle

/-- A fresh library, instrumented. -/
def instrumented : Chronicle :=
  ⟨(Library.instrument.run .fresh).2, [.instrument], opened.made⟩

/-- The same with a list of numbers. -/
def withRows : Chronicle :=
  instrumented.after .other (Construction.map Origin.validator (.arrayOf (.standard .number))).make
    fun v => .built (.arrayOf (.standard .number)) v 1

def rows : Validator :=
  ((Library.arrayOf (Library.fresh.standard .number)).run instrumented.library).1

/-- The type of a list of numbers. -/
def rowsType : PropType :=
  .known ⟨.built .arrayOf, false,
    some [.element (.known ⟨.leaf .number, false, none, Library.fresh.standard .number⟩)], rows⟩

theorem withRows_steps : opened.Steps withRows :=
  have first : opened.Step instrumented := .instrument
  have number : Origin.standard .number ∈ instrumented.made :=
    List.mem_map_of_mem (LeafKind.mem_all _)
  .tail (.single first) (.construct (List.forall_mem_singleton.2 number))

theorem infer_rows : withRows.library.infer rows = rowsType := by
  have number : withRows.library.infer (Library.fresh.standard .number) =
      .known ⟨.leaf .number, false, none, Library.fresh.standard .number⟩ :=
    @Library.infer_of_recorded _ _ (.leaf .number) false none rfl nofun
  have list := @Library.infer_of_recorded withRows.library rows (.built .arrayOf) false
    (some (.element (Library.fresh.standard .number))) rfl ?_
  · rw [Option.map_some, Argument.map, number] at list
    exact list
  · rintro _ ⟨⟩ part member
    cases List.mem_singleton.1 member
    decide

theorem rowsType_transparent : rowsType.Transparent := by
  refine .known ?_
  rintro _ ⟨⟩ part member
  cases List.mem_singleton.1 member
  exact .known nofun

end Chronicle

/-- A generated item is appended to a list of one number, and the props stay valid. -/
theorem append_row_valid :
    let types := Chronicle.withRows.library.inferRecord [("rows", Chronicle.rows)]
    let props : Json := .object [("rows", .array [.ofNat 1])]
    let edit : FieldEdit := .appendItem
    let config : GenerationConfig Unit := .static
    PropTypes.Accepts types
      ((edit.apply config Chronicle.rowsType [.key "rows"] props).run ()).1.value := by
  intro types props edit config
  have same : types = [("rows", Chronicle.rowsType)] := by
    simp only [types, Library.inferRecord, Record.mapValues, List.map_cons, List.map_nil,
      Chronicle.infer_rows]
  have made : ∀ entry ∈ [("rows", Chronicle.rows)],
      ∃ o ∈ Chronicle.withRows.made, o.validator = entry.2 :=
    List.forall_mem_singleton.2 ⟨_, List.mem_cons_self, rfl⟩
  have transparent : ∀ entry ∈ [("rows", Chronicle.rows)],
      (Chronicle.withRows.library.infer entry.2).Transparent := by
    refine List.forall_mem_singleton.2 ?_
    rw [Chronicle.infer_rows]
    exact Chronicle.rowsType_transparent
  have valid : PropTypes.Accepts types props := by
    refine ⟨_, rfl, fun name t declared => ?_⟩
    rw [same, Record.get?_cons] at declared
    split at declared
    · rename_i isRows
      subst isRows
      cases declared
      decide
    · cases declared
  have isAt : PropTypes.at? types [.key "rows"] = some Chronicle.rowsType := by
    rw [same]
    rfl
  have reaches : Cursor.Reaches [.key "rows"] props := by
    rintro d isPrefix notRoot proper
    rcases List.prefix_cons_iff.1 isPrefix with rfl | ⟨e, rfl, shorter⟩
    · exact absurd rfl notRoot
    · rw [List.prefix_nil.1 shorter] at proper
      exact absurd rfl proper
  have wellTyped : edit.WellTyped config Chronicle.rowsType :=
    .appendItem rfl (.leaf _ _ _) .static Chooser.first_inRange
  exact apply_keeps_valid Chronicle.withRows_steps made transparent valid isAt reaches wellTyped
    ⟨(), rfl⟩

end PropSandbox

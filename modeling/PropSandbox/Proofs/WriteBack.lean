import PropSandbox.Proofs.Edits
import PropSandbox.Proofs.FailedEdits
import PropSandbox.Proofs.Forms

/-!
# Writing back through a form

A form hands out the cursors of its views, and what is written at such a cursor shows in the view.
The value that a view stands in hosts its step (`Json.Hosts`): an item of a list is there, and a
name can be put into an object or into null. A write along hosted steps succeeds, leaves the steps
of every type around it as they were, and changes no part beside its path. So the form of the new
instance has the same views, up to those above and below the one that was written.
-/

namespace PropSandbox

/-! ## Hosts -/

/-- A value that a form shows a part of at a step, and that takes another part there: an object or
null under any name, a list at each of its indices. -/
inductive Json.Hosts : Json → Segment → Prop where
  | null (name : String) : Hosts .null (.key name)
  | member (members : List (String × Json)) (name : String) : Hosts (.object members) (.key name)
  | item {items : List Json} {i : Nat} (inside : i < items.length) : Hosts (.array items) (.index i)

/-- A value whose fields can be shown and written: an object, or null in its place. -/
inductive Json.Holder : Json → Prop where
  | null : Holder .null
  | object (members : List (String × Json)) : Holder (.object members)

theorem Json.Holder.hosts {value : Json} (holder : value.Holder) (name : String) :
    value.Hosts (.key name) := by
  cases holder with
  | null => exact .null name
  | object members => exact .member members name

namespace Json.Hosts

variable {value : Json} {step : Segment}

theorem takes (hosts : value.Hosts step) : value.Takes step := by
  cases hosts with
  | null name => exact .newMember name
  | member members name => exact .member members name
  | item inside => exact .item (Nat.le_of_lt inside)

/-- A type takes the same steps through a value after a part has been put in. -/
theorem steps_withPart (hosts : value.Hosts step) (part : Json) (t : PropType) :
    t.steps (value.withPart step part) = t.steps value := by
  cases hosts with
  | null name => rfl
  | member members name => rfl
  | @item items i inside =>
    have indices : ∀ inner : PropType,
        ((items.set i part).mapIdx fun j _ => (Segment.index j, inner)) =
          items.mapIdx fun j _ => (Segment.index j, inner) := by
      intro inner
      refine List.ext_getElem (by simp) fun j _ _ => ?_
      rw [List.getElem_mapIdx, List.getElem_mapIdx]
    simp only [PropType.steps, Json.withPart, Json.opened, Json.put, if_pos inside, Json.items?,
      Option.getD_some, indices]

end Json.Hosts

/-! ## Hosted paths -/

namespace Cursor

/-- Every value on the way of a path hosts the step from it. -/
def Hosted : Cursor → Json → Prop
  | [], _ => True
  | step :: rest, value => value.Hosts step ∧ Hosted rest ((value.child? step).getD .null)

variable {c d : Cursor} {root new : Json} {t inner : PropType}

theorem Hosted.succeeded (hosted : c.Hosted root) (new : Json) : (c.set new root).Succeeded := by
  induction c generalizing root with
  | nil => exact ⟨(), rfl⟩
  | cons step rest ih => exact succeeded_cons_iff.2 ⟨hosted.1.takes, ih hosted.2⟩

/-- A type leads where it led before the write, except further on from the path that was written. -/
theorem Hosted.leads_set (hosted : c.Hosted root) (new : Json) (leads : t.Leads root d inner)
    (notBelow : c <+: d → d = c) : t.Leads (c.set new root).value d inner := by
  induction c generalizing root d t with
  | nil =>
    cases notBelow List.nil_prefix
    cases leads
    exact .here
  | cons step rest ih =>
    cases leads with
    | here => exact .here
    | @step _ _ _ _ other d isStep further =>
      have takes := hosted.1.takes
      rw [set_cons takes, Written.within]
      refine .step (by rwa [hosted.1.steps_withPart]) ?_
      by_cases same : other = step
      · subst same
        rw [takes.child?_withPart, Option.getD_some]
        refine ih hosted.2 further fun longer => ?_
        exact (List.cons.inj (notBelow (List.cons_prefix_cons.2 ⟨rfl, longer⟩))).2
      · rwa [takes.child?_withPart_of_ne _ same]

end Cursor

/-! ## Forms -/

namespace PropType

variable {t inner : PropType} {value : Json} {step : Segment} {path : Cursor}

/-- A shape with declared fields; its views are records. -/
def IsRecord (t : PropType) : Prop :=
  ∃ leaf declared, t = .known leaf ∧ leaf.kind = .built .shape ∧
    leaf.argument? = some (.fields declared)

theorem IsRecord.affordance_ofType (record : t.IsRecord) (label : String) (value : Json)
    (cursor : Cursor) : ∃ fields, (FieldView.ofType label value cursor t).affordance = .record fields := by
  obtain ⟨⟨kind, required, arguments, v⟩, declared, rfl, rfl, isFields⟩ := record
  match arguments, isFields with
  | some (_ :: _), rfl => exact ⟨_, rfl⟩

/-- The steps of a type are hosted, if a record is no scalar. -/
theorem hosts_of_mem_steps (isStep : (step, inner) ∈ t.steps value)
    (holder : t.IsRecord → value.Holder) : value.Hosts step := by
  obtain ⟨leaf, rfl, ⟨_, _, i, inside, rfl⟩ | ⟨declared, name, isShape, isFields, rfl, _⟩⟩ :=
    mem_steps_cases isStep
  · cases value with
    | array items => exact .item inside
    | _ => exact absurd inside (Nat.not_lt_zero i)
  · exact (holder ⟨leaf, declared, rfl, isShape, isFields⟩).hosts name

/-- So the paths of a type are hosted, if no record on the way is a scalar. -/
theorem Leads.hosted (leads : t.Leads value path inner)
    (records : ∀ d e record, d ++ e = path → e ≠ [] → t.Leads value d record → record.IsRecord →
      ((d.get? value).getD .null).Holder) : path.Hosted value := by
  induction leads with
  | here => trivial
  | @step t _ _ value step rest isStep further ih =>
    refine ⟨hosts_of_mem_steps isStep fun isRecord => ?_, ih fun d e record whole last leads => ?_⟩
    · exact records [] (step :: rest) t rfl (List.cons_ne_nil _ _) .here isRecord
    · rw [← Cursor.getD_get?_cons]
      exact records (step :: d) e record (by rw [List.cons_append, whole]) last (.step isStep leads)

end PropType

namespace FieldView

variable {label : String} {value : Json} {cursor : Cursor} {t : PropType} {items : List FieldView}

/-- Only the views of lists list items. -/
theorem list_of_affordance (isList : (ofType label value cursor t).affordance = .list items) :
    ∃ leaf item, t = .known leaf ∧ leaf.kind = .built .arrayOf ∧
      leaf.argument? = some (.element item) := by
  have nests := nests_ofType label value cursor t
  rw [isList] at nests
  cases nests with
  | list kind element => exact ⟨_, _, rfl, kind, element⟩
  | scalar _ noList => exact absurd rfl (noList _)

theorem affordance_of_list {leaf : TypeLeaf} {item : PropType} (kind : leaf.kind = .built .arrayOf)
    (element : leaf.argument? = some (.element item)) :
    (ofType label value cursor (.known leaf)).affordance =
      .list ((value.items?.getD []).mapIdx fun i part =>
        ofType (label ++ "[" ++ toString i ++ "]") part (cursor.child (.index i)) item) := by
  obtain ⟨_, required, arguments, v⟩ := leaf
  cases kind
  match arguments, element with
  | some (_ :: _), rfl => rfl

/-- One more item makes one more view, after the others. -/
theorem affordance_append (isList : (ofType label value cursor t).affordance = .list items)
    (part : Json) : ∃ added,
      (ofType label (.array (value.items?.getD [] ++ [part])) cursor t).affordance =
        .list (items ++ [added]) := by
  obtain ⟨leaf, item, rfl, kind, element⟩ := list_of_affordance isList
  rw [affordance_of_list kind element] at isList ⊢
  cases isList
  exact ⟨_, congrArg Affordance.list List.mapIdx_concat⟩

end FieldView

namespace PropTypes

variable {types : PropTypes} {props new : Json} {base c d : Cursor} {t u : PropType} {w : FieldView}

/-- The shape that has the props for its fields. -/
def whole (types : PropTypes) : PropType :=
  .known ⟨.built .shape, true, some [.fields types], Library.fresh.standard .object⟩

/-- The label of a path in a form: the name of its prop, with what follows it. -/
def title : Cursor → String
  | .key name :: rest => name ++ Cursor.suffix rest
  | c => Cursor.suffix c

/-- The view in a form of what a path reads. -/
def viewAt (props : Json) (base c : Cursor) (t : PropType) : FieldView :=
  .ofType (title c) ((c.get? props).getD .null) (base ++ c) t

theorem ofPath_eq_viewAt (props : Json) (base : Cursor) (name : String) (rest : Cursor)
    (t : PropType) :
    FieldView.ofPath name ((props.member? name).getD .null) (base.child (.key name)) rest t =
      viewAt props base (.key name :: rest) t := by
  rw [FieldView.ofPath, viewAt, title, Cursor.getD_get?_cons, Cursor.child, List.append_assoc]
  rfl

theorem mem_steps_whole_iff {step : Segment} :
    (step, t) ∈ types.whole.steps props ↔ ∃ name, step = .key name ∧ (name, t) ∈ types := by
  have steps : types.whole.steps props = types.map fun entry => (.key entry.1, entry.2) := rfl
  rw [steps, List.mem_map]
  constructor
  · rintro ⟨⟨name, _⟩, listed, ⟨⟩⟩
    exact ⟨name, rfl, listed⟩
  · rintro ⟨name, rfl, listed⟩
    exact ⟨_, listed, rfl⟩

/-- The views in a form are those of the paths below all props. -/
theorem mem_form_views_iff : w ∈ (types.form props base).flatMap FieldView.views ↔
    ∃ c t, c ≠ [] ∧ types.whole.Leads props c t ∧ w = viewAt props base c t := by
  constructor
  · intro member
    obtain ⟨view, inForm, below⟩ := List.mem_flatMap.1 member
    obtain ⟨⟨name, t⟩, declared, rfl⟩ := List.mem_map.1 inForm
    obtain ⟨rest, inner, leads, rfl⟩ := FieldView.mem_views_iff.1 below
    have isStep : (Segment.key name, t) ∈ types.whole.steps props :=
      mem_steps_whole_iff.2 ⟨name, rfl, declared⟩
    exact ⟨.key name :: rest, inner, List.cons_ne_nil _ _, .step isStep leads,
      ofPath_eq_viewAt ..⟩
  · rintro ⟨c, t, notRoot, leads, rfl⟩
    cases leads with
    | here => exact absurd rfl notRoot
    | @step _ inner _ _ step rest isStep further =>
      obtain ⟨name, rfl, declared⟩ := mem_steps_whole_iff.1 isStep
      exact List.mem_flatMap.2 ⟨_, List.mem_map_of_mem declared,
        FieldView.mem_views_iff.2 ⟨rest, t, further, (ofPath_eq_viewAt ..).symm⟩⟩

theorem Ordered.whole (ordered : types.Ordered) : types.whole.Ordered := by
  refine .known ?_ ?_
  · rintro _ ⟨⟩
    exact ordered.names
  · rintro _ ⟨⟩
    exact List.forall_mem_map.2 ordered.each

theorem at?_whole (notRoot : c ≠ []) : types.whole.at? c = types.at? c := by
  cases c with
  | nil => exact absurd rfl notRoot
  | cons step rest => cases step <;> rfl

theorem cursor_viewAt (props : Json) (base c : Cursor) (t : PropType) :
    (viewAt props base c t).cursor = base ++ c :=
  FieldView.cursor_ofType ..

theorem value_viewAt (props : Json) (base c : Cursor) (t : PropType) :
    (viewAt props base c t).value = (c.get? props).getD .null :=
  FieldView.value_ofType ..

end PropTypes

namespace FieldView

/-- Every record around a view of a form holds an object, or null in its place. -/
def Writable (w : FieldView) (form : List FieldView) : Prop :=
  ∀ record ∈ form.flatMap views, ∀ fields, record.affordance = .record fields →
    record.cursor <+: w.cursor → record.cursor ≠ w.cursor → record.value.Holder

/-- A form that a write at the cursor of one of its views has changed: another view stands in the
place of that one, under the same label, and the views beside it are as they were. -/
structure Rewritten (w : FieldView) (form : List FieldView) (w' : FieldView)
    (form' : List FieldView) : Prop where
  shown : w' ∈ form'.flatMap views
  cursor : w'.cursor = w.cursor
  label : w'.label = w.label
  kept : ∀ other ∈ form.flatMap views, w.cursor.Apart other.cursor → other ∈ form'.flatMap views

end FieldView

namespace PropTypes

variable {types : PropTypes} {props new : Json} {base c d : Cursor} {t u : PropType} {w : FieldView}

/-- A writable view stands at a path whose values host each step. -/
theorem hosted_of_writable (holder : props.Holder) (leads : types.whole.Leads props c t)
    (writable : (viewAt props base c t).Writable (types.form props base)) : c.Hosted props := by
  refine leads.hosted fun d e record isPath last leads isRecord => ?_
  by_cases atRoot : d = []
  · rw [atRoot]
    exact holder
  · have member : viewAt props base d record ∈ (types.form props base).flatMap FieldView.views :=
      mem_form_views_iff.2 ⟨d, record, atRoot, leads, rfl⟩
    obtain ⟨fields, shows⟩ := isRecord.affordance_ofType _ _ _
    have holds := writable _ member fields shows
    rw [cursor_viewAt, cursor_viewAt, value_viewAt, ← isPath] at holds
    refine holds ((List.prefix_append_right_inj base).2 (List.prefix_append d e)) fun same => ?_
    exact last (List.self_eq_append_right.1 (List.append_cancel_left same))

/-- A write along a hosted path rewrites the form. -/
theorem rewritten (hosted : c.Hosted props) (notRoot : c ≠ [])
    (leads : types.whole.Leads props c t) (new : Json) :
    (viewAt props base c t).Rewritten (types.form props base)
      (.ofType (title c) new (base ++ c) t) (types.form (c.set new props).value base) := by
  refine ⟨?_, ?_, ?_, fun other member apart => ?_⟩
  · refine mem_form_views_iff.2 ⟨c, t, notRoot, hosted.leads_set new leads fun _ => rfl, ?_⟩
    rw [viewAt, Cursor.get?_set (hosted.succeeded new)]
    rfl
  · rw [cursor_viewAt, FieldView.cursor_ofType]
  · rw [viewAt, FieldView.label_ofType, FieldView.label_ofType]
  · obtain ⟨d, u, elsewhere, further, rfl⟩ := mem_form_views_iff.1 member
    rw [Cursor.Apart, cursor_viewAt, cursor_viewAt, List.prefix_append_right_inj,
      List.prefix_append_right_inj] at apart
    refine mem_form_views_iff.2
      ⟨d, u, elsewhere, hosted.leads_set new further fun longer => absurd longer apart.1, ?_⟩
    rw [viewAt, viewAt, Cursor.get?_set_of_apart apart]

end PropTypes

/-! ## Sessions -/

namespace Session

variable {s : Session} {types : PropTypes} {set : FixtureSet} {i : Nat} {props : Json}
  {path : Cursor} {t : PropType}

/-- A session with a component and fixtures. -/
structure Loaded (s : Session) (types : PropTypes) (set : FixtureSet) : Prop where
  types : s.types? = some types
  fixtures : s.fixtures? = some set

theorem Loaded.exists_selection (loaded : s.Loaded types set) :
    ∃ current, s.selected = some current ∧ current.types = some types ∧
      current.fixtures = some set := by
  obtain ⟨current, selected, isTyped⟩ := Option.bind_eq_some_iff.1 loaded.types
  have fixtures := loaded.fixtures
  rw [fixtures?, selected] at fixtures
  exact ⟨current, selected, isTyped, fixtures⟩

theorem Loaded.form (loaded : s.Loaded types set) (stored : set.instances[i]? = some props) :
    s.form i = .ok (types.form props [.index i]) := by
  obtain ⟨current, selected, isTyped, isLoaded⟩ := loaded.exists_selection
  simp only [Session.form, selection, selected, Selection.loadedTypes, isTyped,
    Selection.loadedFixtures, isLoaded, FixtureSet.instanceAt, stored, bind, Except.bind]
  rfl

/-- What an edit of a form answers, and the session it leaves. -/
theorem Loaded.applyEdit {σ : Type} (loaded : s.Loaded types set)
    (stored : set.instances[i]? = some props) (typed : types.at? path = some t)
    (config : GenerationConfig σ) (edit : FieldEdit) (state : σ) :
    ∃ s', ((s.applyEdit config (.index i :: path) edit).run state).1 =
        ((((edit.apply config t path props).run state).1).result.mapError .cursor, s') ∧
      s'.Loaded types
        ⟨set.instances.set i (((edit.apply config t path props).run state).1).value⟩ := by
  obtain ⟨current, selected, isTyped, isLoaded⟩ := loaded.exists_selection
  have place : s.placeOfEdit (.index i :: path) = .ok (⟨current, set, i, path, props⟩, t) := by
    simp only [placeOfEdit, Cursor.splitInstance, selection, selected, Selection.loadedTypes,
      isTyped, typed, Selection.loadedFixtures, isLoaded, FixtureSet.instanceAt, stored, bind,
      Except.bind]
    rfl
  rw [Session.applyEdit, place]
  exact ⟨_, rfl, isTyped, rfl⟩

/-- An edit of an instance that goes well: it succeeds, the instance has a new form, and all other
instances are as they were. -/
structure Refreshes (s : Session) (i : Nat) (outcome : Except SandboxError Unit × Session)
    (form' : List FieldView) : Prop where
  ok : outcome.1 = .ok ()
  form : outcome.2.form i = .ok form'
  others : ∀ j, j ≠ i → outcome.2.instance? j = s.instance? j

/-- An edit that amounts to a write along a hosted path goes well. -/
theorem Loaded.refreshes {σ : Type} {config : GenerationConfig σ} {edit : FieldEdit} {state : σ}
    {new : Json} (loaded : s.Loaded types set) (stored : set.instances[i]? = some props)
    (typed : types.at? path = some t) (hosted : path.Hosted props)
    (writes : ((edit.apply config t path props).run state).1 = path.set new props) :
    s.Refreshes i ((s.applyEdit config (.index i :: path) edit).run state).1
      (types.form (path.set new props).value [.index i]) := by
  obtain ⟨s', outcome, loaded'⟩ := loaded.applyEdit stored typed config edit state
  rw [writes] at outcome loaded'
  rw [outcome]
  refine ⟨?_, ?_, fun j differ => ?_⟩
  · obtain ⟨_, result⟩ := hosted.succeeded new
    rw [result]
    rfl
  · refine loaded'.form ?_
    exact List.getElem?_set_self (List.getElem?_eq_some_iff.1 stored).1
  · rw [instance?, instance?, loaded'.fixtures, loaded.fixtures]
    exact List.getElem?_set_ne differ.symm

/-- In a session with a component and fixtures, the cursors of a form write back: a value that is set
at the cursor of a view is shown there, an item that is appended comes after the items shown there,
and nothing beside changes. -/
theorem cursors_write_back {σ : Type} (loaded : s.Loaded types set) (ordered : types.Ordered)
    (stored : set.instances[i]? = some props) (holder : props.Holder) (config : GenerationConfig σ)
    (state : σ) :
    ∃ form, s.form i = .ok form ∧ ∀ w ∈ form.flatMap FieldView.views, w.Writable form →
      (∀ new, ∃ w' form', s.Refreshes i ((s.applyEdit config w.cursor (.set new)).run state).1 form' ∧
        w.Rewritten form w' form' ∧ w'.value = new) ∧
      ∀ views items, w.affordance = .list views → w.value.Lists items → ∃ item added w' form',
        s.Refreshes i ((s.applyEdit config w.cursor .appendItem).run state).1 form' ∧
        w.Rewritten form w' form' ∧ w'.value = .array (items ++ [item]) ∧
        w'.affordance = .list (views ++ [added]) := by
  refine ⟨_, loaded.form stored, fun w member writable => ?_⟩
  obtain ⟨c, t, notRoot, leads, rfl⟩ := PropTypes.mem_form_views_iff.1 member
  have hosted := PropTypes.hosted_of_writable holder leads writable
  have typed : types.at? c = some t := by
    rw [← PropTypes.at?_whole notRoot]
    exact (ordered.whole.at?_eq leads).1
  rw [PropTypes.cursor_viewAt]
  refine ⟨fun new => ?_, fun views items isList lists => ?_⟩
  · exact ⟨_, _, loaded.refreshes stored typed hosted rfl,
      PropTypes.rewritten hosted notRoot leads new, FieldView.value_ofType ..⟩
  · rw [PropTypes.value_viewAt] at lists
    obtain ⟨leaf, itemType, rfl, kind, element⟩ := FieldView.list_of_affordance isList
    have isItem : FieldEdit.itemType? (.known leaf) = some itemType := by
      simp [FieldEdit.itemType?, PropType.leaf?, kind, Described.element?, element]
    rcases FieldEdit.appendTo_cases config isItem c props state with
      ⟨there, place, same, appended⟩ | ⟨noList, _⟩
    · rw [← same.items?, lists.items?] at appended
      obtain ⟨added, shows⟩ := FieldView.affordance_append isList
        ((config.generate itemType place).run state).1
      rw [lists.items?] at shows
      exact ⟨_, added, _, _, loaded.refreshes stored typed hosted appended,
        PropTypes.rewritten hosted notRoot leads _, FieldView.value_ofType .., shows⟩
    · exact absurd lists (noList items)

/-! ### Two users -/

/-- A user whose tags are not there. -/
def untaggedUser : Json :=
  .object [("user", .object [("tags", .null)])]

/-- A session with an instance that is null and an untagged user. -/
def users : Session :=
  ⟨none, some ⟨"User", some ⟨"User", none, []⟩, some [("user", userType)],
    some ⟨[.null, untaggedUser]⟩⟩⟩

theorem users_loaded : users.Loaded [("user", userType)] ⟨[.null, untaggedUser]⟩ :=
  ⟨rfl, rfl⟩

/-- The view of the tags. -/
def tagsView : FieldView :=
  .ofType "user.tags" .null [.index 1, .key "user", .key "tags"] textsType

theorem tagsView_mem : tagsView ∈
    (PropTypes.form [("user", userType)] untaggedUser [.index 1]).flatMap FieldView.views :=
  List.getElem_mem (n := 2) (by decide)

theorem tagsView_writable :
    tagsView.Writable (PropTypes.form [("user", userType)] untaggedUser [.index 1]) := by
  intro record member fields isRecord _ _
  match record, member with
  | _, .head _ => exact .object _
  | _, .tail _ (.head _) => cases isRecord
  | _, .tail _ (.tail _ (.head _)) => cases isRecord

/-- The tags can be set, and a first one can be appended to what is not there. -/
theorem tags_write_back :
    let edited (edit : FieldEdit) :=
      ((users.applyEdit .static [.index 1, .key "user", .key "tags"] edit).run ()).1
    (∃ w' form', users.Refreshes 1 (edited (.set (.array [.string "a"]))) form' ∧
        w' ∈ form'.flatMap FieldView.views ∧ w'.value = .array [.string "a"]) ∧
      ∃ item w' form', users.Refreshes 1 (edited .appendItem) form' ∧
        w' ∈ form'.flatMap FieldView.views ∧ w'.value = .array [item] := by
  intro edited
  obtain ⟨form, isForm, writes⟩ := cursors_write_back users_loaded userTypes_ordered (i := 1) rfl
    (.object _) .static ()
  cases isForm
  obtain ⟨sets, appends⟩ := writes tagsView tagsView_mem tagsView_writable
  obtain ⟨w, form, refreshes, rewritten, value⟩ := sets (.array [.string "a"])
  obtain ⟨item, _, w', form', refreshes', rewritten', value', _⟩ := appends [] [] rfl .null
  exact ⟨⟨w, form, refreshes, rewritten.shown, value⟩,
    ⟨item, w', form', refreshes', rewritten'.shown, value'⟩⟩

end Session

end PropSandbox

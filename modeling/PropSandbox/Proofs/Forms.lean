import Mathlib.Data.List.Nodup
import PropSandbox.Form
import PropSandbox.Proofs.Faults
import PropSandbox.Proofs.Recall

/-!
# The views of a form

Below the view of a value stand the views of its parts, one for each step that its type takes
(`PropType.steps`). Cursors, types, values and labels all take the same step, so every view of a
form is the view of what its cursor reads, built from the type at its cursor, and no cursor comes
twice.
-/

namespace PropSandbox

theorem Record.nodup_keys {α : Type} {record : Record α} (ascending : Record.Ascending record) :
    (Record.keys record).Nodup := by
  refine List.Pairwise.imp (fun {name other} less => ?_) ascending
  rintro rfl
  exact String.lt_irrefl name less

theorem Segment.key_injective : Function.Injective Segment.key :=
  fun _ _ => Segment.key.inj

theorem Cursor.child_injective (c : Cursor) : Function.Injective c.child :=
  fun _ _ same => (List.cons.inj (List.append_cancel_left same)).1

/-! ## Trees of views -/

namespace FieldView

mutual

/-- All views of a tree, each before the views below it. -/
def views : FieldView → List FieldView
  | ⟨label, cursor, value, required, verdict, affordance⟩ =>
    ⟨label, cursor, value, required, verdict, affordance⟩ :: viewsWithin affordance
termination_by structural view => view

def viewsWithin : Affordance FieldView → List FieldView
  | .list items => viewsAmong items
  | .record fields => viewsAmong fields
  | _ => []
termination_by structural affordance => affordance

def viewsAmong : List FieldView → List FieldView
  | [] => []
  | view :: others => views view ++ viewsAmong others
termination_by structural views => views

end

theorem viewsAmong_eq (nested : List FieldView) : viewsAmong nested = nested.flatMap views := by
  induction nested with
  | nil => rfl
  | cons view others ih => rw [viewsAmong, ih, List.flatMap_cons]

theorem views_eq (view : FieldView) : view.views = view :: view.nested.flatMap views := by
  obtain ⟨label, cursor, value, required, verdict, affordance⟩ := view
  rw [views]
  cases affordance with
  | list | record => exact congrArg _ (viewsAmong_eq _)
  | _ => rfl

mutual

/-- What holds of a view if it holds of the views just below it holds of every view. -/
theorem induct {P : FieldView → Prop} (step : ∀ view, (∀ w ∈ view.nested, P w) → P view) :
    ∀ view, P view
  | ⟨label, cursor, value, required, verdict, affordance⟩ => by
    apply step
    cases affordance with
    | list items => exact inductAmong step items
    | record fields => exact inductAmong step fields
    | _ => nofun

theorem inductAmong {P : FieldView → Prop} (step : ∀ view, (∀ w ∈ view.nested, P w) → P view) :
    ∀ views : List FieldView, ∀ view ∈ views, P view
  | [] => nofun
  | view :: others => List.forall_mem_cons.2 ⟨induct step view, inductAmong step others⟩

end

end FieldView

/-! ## The steps of a type -/

namespace PropType

/-- The steps from a value of a type to the parts that have views, each with the type of the part:
the indices of a list, or the declared names of a shape. -/
def steps (t : PropType) (value : Json) : List (Segment × PropType) :=
  match t.leaf? with
  | none => []
  | some leaf =>
    match leaf.argument? with
    | some (.element item) =>
      if leaf.kind = .built .arrayOf then
        (value.items?.getD []).mapIdx fun i _ => (.index i, item)
      else []
    | some (.fields declared) =>
      if leaf.kind = .built .shape then declared.map fun field => (.key field.1, field.2) else []
    | _ => []

/-- The paths along the steps of a type through a value, each with the type that it comes to. -/
inductive Leads : PropType → Json → Cursor → PropType → Prop where
  | here {t : PropType} {value : Json} : Leads t value [] t
  | step {t inner last : PropType} {value : Json} {step : Segment} {rest : Cursor}
      (isStep : (step, inner) ∈ t.steps value)
      (further : Leads inner ((value.child? step).getD .null) rest last) :
      Leads t value (step :: rest) last

/-- A type whose records all list their names in order, each once. -/
inductive Ordered : PropType → Prop where
  | unknown (v : Validator) : Ordered (.unknown v)
  | known {leaf : TypeLeaf}
      (fields : ∀ declared, leaf.argument? = some (.fields declared) → Record.Ascending declared)
      (parts : ∀ argument ∈ leaf.argument?, ∀ part ∈ argument.parts, Ordered part) :
      Ordered (.known leaf)

end PropType

namespace FieldView

/-- The view of a part, one step below the view of a value. -/
def ofPart (label : String) (value : Json) (cursor : Cursor) (part : Segment × PropType) :
    FieldView :=
  ofType (label ++ Cursor.suffix [part.1]) ((value.child? part.1).getD .null)
    (cursor.child part.1) part.2

/-- The views of the fields of a record. -/
theorem ofFields_eq (label : String) (value : Json) (cursor : Cursor)
    (declared : List (String × PropType)) :
    ofFields label value cursor declared =
      (declared.map fun field => (Segment.key field.1, field.2)).map (ofPart label value cursor) := by
  induction declared with
  | nil => rfl
  | cons field rest ih =>
    obtain ⟨name, t⟩ := field
    rw [ofFields, ih, List.map_cons, List.map_cons]
    simp [ofPart, Cursor.suffix, Json.child?, String.append_assoc]

/-- The views of the items of a list. -/
theorem items_eq (label : String) (value : Json) (cursor : Cursor) (t : PropType) :
    ((value.items?.getD []).mapIdx fun i item =>
        ofType (label ++ "[" ++ toString i ++ "]") item (cursor.child (.index i)) t) =
      ((value.items?.getD []).mapIdx fun i _ => (Segment.index i, t)).map
        (ofPart label value cursor) := by
  refine List.ext_getElem? fun i => ?_
  rw [List.getElem?_mapIdx, List.getElem?_map, List.getElem?_mapIdx, Option.map_map]
  cases found : (value.items?.getD [])[i]? with
  | none => rfl
  | some item =>
    have child : value.child? (.index i) = some item := by
      cases value with
      | array items => exact found
      | _ => cases found
    simp [ofPart, child, Cursor.suffix, String.append_assoc]

/-- How the view of a value of a type nests: a list of items, a record of fields, or nothing. -/
inductive Nests (label : String) (value : Json) (cursor : Cursor) :
    PropType → Affordance FieldView → Prop where
  | list {leaf : TypeLeaf} {item : PropType} (kind : leaf.kind = .built .arrayOf)
      (element : leaf.argument? = some (.element item)) :
      Nests label value cursor (.known leaf) (.list (((value.items?.getD []).mapIdx fun i _ =>
        (Segment.index i, item)).map (ofPart label value cursor)))
  | record {leaf : TypeLeaf} {declared : List (String × PropType)} (kind : leaf.kind = .built .shape)
      (fields : leaf.argument? = some (.fields declared)) :
      Nests label value cursor (.known leaf) (.record ((declared.map fun field =>
        (Segment.key field.1, field.2)).map (ofPart label value cursor)))
  | scalar {t : PropType} {affordance : Affordance FieldView} (noSteps : t.steps value = [])
      (noList : ∀ items, affordance ≠ .list items)
      (noRecord : ∀ fields, affordance ≠ .record fields) :
      Nests label value cursor t affordance

theorem Nests.plain {label : String} {value : Json} {cursor : Cursor} {t : PropType}
    (noSteps : t.steps value = []) (kind : Kind) (options : List Json) :
    Nests label value cursor t (FieldView.plain value kind options) := by
  cases kind with
  | leaf kind => cases kind <;> exact .scalar noSteps nofun nofun
  | built kind => cases kind <;> exact .scalar noSteps nofun nofun
  | extension => exact .scalar noSteps nofun nofun

theorem nests_ofType (label : String) (value : Json) (cursor : Cursor) (t : PropType) :
    Nests label value cursor t (ofType label value cursor t).affordance := by
  cases t with
  | unknown => exact .scalar rfl nofun nofun
  | known leaf =>
    obtain ⟨kind, required, arguments, v⟩ := leaf
    match arguments with
    | none | some [] => exact .plain rfl ..
    | some (.choices _ :: _) | some (.candidates _ :: _) | some (.className _ :: _) =>
      exact .plain rfl ..
    | some (.element item :: others) =>
      by_cases isList : kind = .built .arrayOf
      · subst isList
        have nests := @Nests.list label value cursor
          ⟨.built .arrayOf, required, some (.element item :: others), v⟩ item rfl rfl
        rw [← items_eq] at nests
        exact nests
      · have same : ofArgument label value cursor kind (.element item) =
            FieldView.plain value kind [] := by
          rw [ofArgument]
          exact isList
        have nests := @Nests.plain label value cursor
          (.known ⟨kind, required, some (.element item :: others), v⟩) (if_neg isList) kind []
        rw [← same] at nests
        exact nests
    | some (.fields declared :: others) =>
      by_cases isRecord : kind = .built .shape
      · subst isRecord
        have nests := @Nests.record label value cursor
          ⟨.built .shape, required, some (.fields declared :: others), v⟩ declared rfl rfl
        rw [← ofFields_eq] at nests
        exact nests
      · have same : ofArgument label value cursor kind (.fields declared) =
            FieldView.plain value kind [] := by
          rw [ofArgument]
          exact isRecord
        have nests := @Nests.plain label value cursor
          (.known ⟨kind, required, some (.fields declared :: others), v⟩) (if_neg isRecord) kind []
        rw [← same] at nests
        exact nests

/-- The views just below the view of a value are those of its parts. -/
theorem nested_ofType (label : String) (value : Json) (cursor : Cursor) (t : PropType) :
    (ofType label value cursor t).nested = (t.steps value).map (ofPart label value cursor) := by
  have nests := nests_ofType label value cursor t
  rw [nested]
  generalize (ofType label value cursor t).affordance = affordance at nests
  cases nests with
  | list kind element => simp [PropType.steps, PropType.leaf?, kind, element]
  | record kind fields => simp [PropType.steps, PropType.leaf?, kind, fields]
  | scalar noSteps noList noRecord =>
    rw [noSteps]
    split
    · exact absurd rfl (noList _)
    · exact absurd rfl (noRecord _)
    · rfl

end FieldView

namespace PropType

variable {t inner : PropType} {value : Json} {step : Segment}

/-- The steps that a type takes: the indices of a list, each to the item type, or the names of a
shape. -/
theorem mem_steps_cases {t : PropType} (member : (step, inner) ∈ t.steps value) :
    ∃ leaf, t = .known leaf ∧
      ((leaf.kind = .built .arrayOf ∧ leaf.argument? = some (.element inner) ∧
          ∃ i < (value.items?.getD []).length, step = .index i) ∨
        ∃ declared name, leaf.kind = .built .shape ∧ leaf.argument? = some (.fields declared) ∧
          step = .key name ∧ (name, inner) ∈ declared) := by
  cases t with
  | unknown => cases member
  | known leaf =>
    refine ⟨leaf, rfl, ?_⟩
    simp only [steps, leaf?] at member
    split at member
    · rename_i item isElement
      split at member
      · rename_i isList
        obtain ⟨i, inside, same⟩ := List.mem_mapIdx.1 member
        cases same
        exact .inl ⟨isList, isElement, i, inside, rfl⟩
      · cases member
    · rename_i declared isFields
      split at member
      · rename_i isRecord
        obtain ⟨field, listed, same⟩ := List.mem_map.1 member
        cases same
        exact .inr ⟨declared, field.1, isRecord, isFields, rfl, listed⟩
      · cases member
    · cases member

theorem Ordered.part {leaf : TypeLeaf} (ordered : (PropType.known leaf).Ordered)
    {argument : Argument PropType} (isArgument : leaf.argument? = some argument)
    (listed : t ∈ argument.parts) : t.Ordered := by
  cases ordered with
  | known _ parts => exact parts argument isArgument t listed

theorem Ordered.intoRequired (ordered : t.Ordered) : t.intoRequired.Ordered := by
  cases ordered with
  | unknown v => exact .unknown v
  | known fields parts =>
    rw [PropType.intoRequired]
    split
    · exact .known fields parts
    · exact .known fields parts

theorem below?_item {leaf : TypeLeaf} (kind : leaf.kind = .built .arrayOf)
    (isElement : leaf.argument? = some (.element t)) (i : Nat) :
    (known leaf).below? (.index i) = some t := by
  simp [below?, leaf?, kind, Described.element?, isElement]

theorem Ordered.below?_field {leaf : TypeLeaf} (ordered : (PropType.known leaf).Ordered)
    (kind : leaf.kind = .built .shape) {declared : List (String × PropType)}
    (isFields : leaf.argument? = some (.fields declared)) {name : String}
    (listed : (name, t) ∈ declared) : (PropType.known leaf).below? (.key name) = some t := by
  cases ordered with
  | known fields _ =>
    simp [PropType.below?, leaf?, kind, Described.fields?, isFields,
      Record.get?_of_mem (fields declared isFields) listed]

/-- Every step leads to the type below it. -/
theorem Ordered.below?_eq (ordered : t.Ordered) (member : (step, inner) ∈ t.steps value) :
    t.below? step = some inner ∧ inner.Ordered := by
  obtain ⟨leaf, rfl, ⟨isList, isElement, i, _, rfl⟩ |
    ⟨declared, name, isRecord, isFields, rfl, listed⟩⟩ := mem_steps_cases member
  · exact ⟨below?_item isList isElement i, ordered.part isElement List.mem_cons_self⟩
  · exact ⟨ordered.below?_field isRecord isFields listed,
      ordered.part isFields (List.mem_map_of_mem listed)⟩

/-- Every path leads to the type at it. -/
theorem Ordered.at?_eq {path : Cursor} (ordered : t.Ordered) (leads : t.Leads value path inner) :
    t.at? path = some inner ∧ inner.Ordered := by
  induction leads with
  | here => exact ⟨rfl, ordered⟩
  | step isStep _ ih =>
    obtain ⟨further, innerOrdered⟩ := ordered.below?_eq isStep
    rw [at?, further]
    exact ih innerOrdered

/-- No step is taken twice. -/
theorem Ordered.nodup_steps (ordered : t.Ordered) (value : Json) :
    ((t.steps value).map Prod.fst).Nodup := by
  cases ordered with
  | unknown => exact List.nodup_nil
  | known fields parts =>
    simp only [steps, leaf?]
    split
    · split
      · rw [List.Nodup, List.pairwise_map, List.pairwise_iff_getElem]
        intro i j _ _ less
        simpa using Nat.ne_of_lt less
      · exact List.nodup_nil
    · rename_i declared isFields
      split
      · have names := (Record.nodup_keys (fields declared isFields)).map Segment.key_injective
        rw [Record.keys, List.map_map] at names
        rw [List.map_map]
        exact names
      · exact List.nodup_nil
    · exact List.nodup_nil

end PropType

theorem Cursor.suffix_cons (step : Segment) (rest : Cursor) :
    suffix (step :: rest) = suffix [step] ++ suffix rest := by
  cases step <;> simp [suffix]

namespace FieldView

variable {label : String} {value : Json} {cursor : Cursor} {t : PropType} {w : FieldView}

/-- The view of what a path reads, below the view of a value. -/
def ofPath (label : String) (value : Json) (cursor path : Cursor) (t : PropType) : FieldView :=
  ofType (label ++ Cursor.suffix path) ((Cursor.get? path value).getD .null) (cursor ++ path) t

theorem ofPath_nil (label : String) (value : Json) (cursor : Cursor) (t : PropType) :
    ofPath label value cursor [] t = ofType label value cursor t := by
  simp [ofPath, Cursor.suffix]

theorem ofPath_cons (label : String) (value : Json) (cursor : Cursor) (step : Segment)
    (rest : Cursor) (t : PropType) :
    ofPath label value cursor (step :: rest) t =
      ofPath (label ++ Cursor.suffix [step]) ((value.child? step).getD .null) (cursor.child step)
        rest t := by
  rw [ofPath, ofPath, Cursor.suffix_cons step rest, Cursor.getD_get?_cons, String.append_assoc,
    Cursor.child, List.append_assoc]
  rfl

/-- The views in the tree of a value are those of its paths. -/
theorem mem_views_iff : w ∈ (ofType label value cursor t).views ↔
    ∃ path inner, t.Leads value path inner ∧ w = ofPath label value cursor path inner := by
  constructor
  · intro member
    generalize isTree : ofType label value cursor t = tree at member
    induction tree using induct generalizing label value cursor t with
    | step tree ih =>
      subst isTree
      rw [views_eq] at member
      rcases List.mem_cons.1 member with rfl | below
      · exact ⟨[], t, .here, (ofPath_nil ..).symm⟩
      · obtain ⟨child, isChild, below⟩ := List.mem_flatMap.1 below
        have inTree := isChild
        rw [nested_ofType] at inTree
        obtain ⟨⟨step, inner⟩, isStep, rfl⟩ := List.mem_map.1 inTree
        obtain ⟨path, last, leads, rfl⟩ := ih _ isChild rfl below
        exact ⟨step :: path, last, .step isStep leads, (ofPath_cons ..).symm⟩
  · rintro ⟨path, inner, leads, rfl⟩
    induction leads generalizing label cursor with
    | here =>
      rw [ofPath_nil, views_eq]
      exact List.mem_cons_self
    | step isStep _ ih =>
      rw [ofPath_cons, views_eq, nested_ofType]
      exact List.mem_cons_of_mem _ (List.mem_flatMap.2 ⟨_, List.mem_map_of_mem isStep, ih⟩)

/-- Every view in the tree of a value is that of what its path reads, built from the type there. -/
theorem exists_path_of_mem_views (ordered : t.Ordered)
    (member : w ∈ (ofType label value cursor t).views) :
    ∃ (path : Cursor) (inner : PropType), t.at? path = some inner ∧ inner.Ordered ∧
      w = ofType (label ++ Cursor.suffix path) ((Cursor.get? path value).getD .null) (cursor ++ path)
        inner := by
  obtain ⟨path, inner, leads, rfl⟩ := mem_views_iff.1 member
  obtain ⟨isAt, innerOrdered⟩ := ordered.at?_eq leads
  exact ⟨path, inner, isAt, innerOrdered, rfl⟩

theorem cursor_ofType (label : String) (value : Json) (cursor : Cursor) (t : PropType) :
    (ofType label value cursor t).cursor = cursor := by
  cases t <;> rfl

/-- Views at steps from a cursor, each built from a type in order. -/
def AtSteps (children : List FieldView) (cursor : Cursor) : Prop :=
  ∀ child ∈ children, ∃ (step : Segment) (label : String) (value : Json) (inner : PropType),
    inner.Ordered ∧ child = ofType label value (cursor.child step) inner

/-- The cursors below a view go on from its own. -/
theorem AtSteps.cursor_of_mem_views {children : List FieldView} (built : AtSteps children cursor)
    {child : FieldView} (isChild : child ∈ children) (isBelow : w ∈ child.views) :
    ∃ (step : Segment) (path : Cursor), child.cursor = cursor.child step ∧
      w.cursor = cursor ++ step :: path := by
  obtain ⟨step, label, value, inner, ordered, rfl⟩ := built child isChild
  obtain ⟨path, _, _, _, rfl⟩ := exists_path_of_mem_views ordered isBelow
  refine ⟨step, path, cursor_ofType .., ?_⟩
  rw [cursor_ofType, Cursor.child, List.append_assoc]
  rfl

/-- Below views at different steps, no cursor comes twice. -/
theorem AtSteps.nodup_cursors {children : List FieldView} (built : AtSteps children cursor)
    (apart : (children.map FieldView.cursor).Nodup)
    (each : ∀ child ∈ children, (child.views.map FieldView.cursor).Nodup) :
    ((children.flatMap views).map FieldView.cursor).Nodup := by
  rw [List.map_flatMap, List.nodup_flatMap]
  refine ⟨each, ?_⟩
  rw [List.Nodup, List.pairwise_map] at apart
  refine apart.imp_of_mem fun {child other} isChild isOther differ => ?_
  intro c inChild inOther
  obtain ⟨w, isBelow, rfl⟩ := List.mem_map.1 inChild
  obtain ⟨w', isBelow', same⟩ := List.mem_map.1 inOther
  obtain ⟨step, path, isAt, whole⟩ := built.cursor_of_mem_views isChild isBelow
  obtain ⟨step', path', isAt', whole'⟩ := built.cursor_of_mem_views isOther isBelow'
  -- equal cursors take the same first step, and then the two views are at one cursor
  rw [whole, whole'] at same
  have sameStep := (List.cons.inj (List.append_cancel_left same)).1
  rw [isAt, isAt', sameStep] at differ
  exact differ rfl

/-- No two views in the tree of a value have the same cursor. -/
theorem nodup_cursors (ordered : t.Ordered) (label : String) (value : Json) (cursor : Cursor) :
    ((ofType label value cursor t).views.map FieldView.cursor).Nodup := by
  generalize isTree : ofType label value cursor t = tree
  induction tree using induct generalizing label value cursor t with
  | step tree ih =>
    subst isTree
    have built : AtSteps (ofType label value cursor t).nested cursor := by
      intro child isChild
      rw [nested_ofType] at isChild
      obtain ⟨⟨step, inner⟩, isStep, rfl⟩ := List.mem_map.1 isChild
      exact ⟨step, _, _, inner, (ordered.below?_eq isStep).2, rfl⟩
    have apart : ((ofType label value cursor t).nested.map FieldView.cursor).Nodup := by
      have cursors := (ordered.nodup_steps value).map cursor.child_injective
      rw [List.map_map] at cursors
      rw [nested_ofType, List.map_map]
      refine (congrArg List.Nodup (List.map_congr_left fun part _ => ?_)).mp cursors
      exact (cursor_ofType ..).symm
    rw [views_eq, List.map_cons, List.nodup_cons]
    refine ⟨fun again => ?_, built.nodup_cursors apart fun child isChild => ?_⟩
    · obtain ⟨w, inTree, same⟩ := List.mem_map.1 again
      obtain ⟨child, isChild, isBelow⟩ := List.mem_flatMap.1 inTree
      obtain ⟨step, path, _, whole⟩ := built.cursor_of_mem_views isChild isBelow
      rw [whole, cursor_ofType] at same
      simpa using congrArg List.length same
    · obtain ⟨step, _, _, inner, innerOrdered, rfl⟩ := built child isChild
      exact ih _ isChild innerOrdered _ _ _ rfl

/-! ## Forms -/

theorem value_ofType (label : String) (value : Json) (cursor : Cursor) (t : PropType) :
    (ofType label value cursor t).value = value := by
  cases t <;> rfl

theorem label_ofType (label : String) (value : Json) (cursor : Cursor) (t : PropType) :
    (ofType label value cursor t).label = label := by
  cases t <;> rfl

/-- A view agrees with the operations on cursors and types at a path that starts with a declared
prop: it is built from the type there and shows what the path reads, and the views just below it are
those of the items of its list, in order, or of its declared fields, in the order of their names. -/
structure Agrees (w : FieldView) (types : PropTypes) (props : Json) (base : Cursor) (name : String)
    (rest : Cursor) (t : PropType) : Prop where
  cursor : w.cursor = base ++ .key name :: rest
  isAt : types.at? (.key name :: rest) = some t
  built : w = ofType w.label w.value w.cursor t
  required : w.required = t.isRequired
  valid : w.valid = t.accepts w.value
  value : w.value = (Cursor.get? (.key name :: rest) props).getD .null
  label : name ≠ "" → w.label = Cursor.label rest name
  list : ∀ items, w.affordance = .list items →
    items.map (fun view => (view.cursor, view.value)) =
      (w.value.items?.getD []).mapIdx fun i item => (w.cursor.child (.index i), item)
  record : ∀ fields, w.affordance = .record fields → ∃ leaf declared, t = .known leaf ∧
    leaf.fields? = some declared ∧ Record.Ascending declared ∧
    fields.map (fun view => (view.cursor, view.value)) =
      declared.map fun field =>
        (w.cursor.child (.key field.1), (w.value.member? field.1).getD .null)

theorem list_ofType {items : List FieldView}
    (isList : (ofType label value cursor t).affordance = .list items) :
    items.map (fun view => (view.cursor, view.value)) =
      (value.items?.getD []).mapIdx fun i item => (cursor.child (.index i), item) := by
  have nests := nests_ofType label value cursor t
  rw [isList] at nests
  cases nests with
  | list =>
    rw [← items_eq]
    refine List.ext_getElem? fun i => ?_
    rw [List.getElem?_map, List.getElem?_mapIdx, List.getElem?_mapIdx, Option.map_map]
    refine congrArg (Option.map · _) (funext fun item => ?_)
    rw [Function.comp_apply, cursor_ofType, value_ofType]
  | scalar _ noList => exact absurd rfl (noList _)

theorem record_ofType {fields : List FieldView}
    (isRecord : (ofType label value cursor t).affordance = .record fields) (ordered : t.Ordered) :
    ∃ leaf declared, t = .known leaf ∧ leaf.fields? = some declared ∧ Record.Ascending declared ∧
      fields.map (fun view => (view.cursor, view.value)) =
        declared.map fun field =>
          (cursor.child (.key field.1), (value.member? field.1).getD .null) := by
  have nests := nests_ofType label value cursor t
  rw [isRecord] at nests
  cases nests with
  | @record leaf declared kind isFields =>
    cases ordered with
    | known ascending =>
      refine ⟨leaf, declared, rfl, by simp [Described.fields?, isFields], ascending _ isFields, ?_⟩
      rw [List.map_map, List.map_map]
      refine List.map_congr_left fun field _ => ?_
      simp only [Function.comp_apply, ofPart, cursor_ofType, value_ofType]
      rfl
  | scalar _ _ noRecord => exact absurd rfl (noRecord _)

end FieldView

namespace PropTypes

/-- Types by ascending name, whose records are all in order as well. -/
structure Ordered (types : PropTypes) : Prop where
  names : Record.Ascending types
  each : ∀ entry ∈ types, entry.2.Ordered

variable {types : PropTypes} {props : Json} {base : Cursor}

/-- Each view in a form agrees with the operations at its path. -/
theorem Ordered.agrees (ordered : types.Ordered) {w : FieldView}
    (member : w ∈ (types.form props base).flatMap FieldView.views) :
    ∃ name rest t, w.Agrees types props base name rest t := by
  obtain ⟨view, inForm, below⟩ := List.mem_flatMap.1 member
  obtain ⟨⟨name, whole⟩, declared, rfl⟩ := List.mem_map.1 inForm
  obtain ⟨rest, t, isAt, innerOrdered, rfl⟩ :=
    FieldView.exists_path_of_mem_views (ordered.each _ declared) below
  have found := Record.get?_of_mem ordered.names declared
  refine ⟨name, rest, t, ?_, ?_, ?_, ?_, ?_, ?_, ?_, ?_, ?_⟩
  · rw [FieldView.cursor_ofType, Cursor.child, List.append_assoc]
    rfl
  · rw [at?, found]
    exact isAt
  · rw [FieldView.label_ofType, FieldView.value_ofType, FieldView.cursor_ofType]
  · cases t <;> rfl
  · cases t <;> rfl
  · rw [FieldView.value_ofType, Cursor.getD_get?_cons]
    rfl
  · intro named
    rw [FieldView.label_ofType, Cursor.label_eq_suffix rest named]
  · intro items isList
    rw [FieldView.value_ofType, FieldView.cursor_ofType]
    exact FieldView.list_ofType isList
  · intro fields isRecord
    rw [FieldView.value_ofType, FieldView.cursor_ofType]
    exact FieldView.record_ofType isRecord innerOrdered

theorem Ordered.nodup_cursors (ordered : types.Ordered) (props : Json) (base : Cursor) :
    (((types.form props base).flatMap FieldView.views).map FieldView.cursor).Nodup := by
  have built : FieldView.AtSteps (types.form props base) base := by
    intro child inForm
    obtain ⟨entry, declared, rfl⟩ := List.mem_map.1 inForm
    exact ⟨.key entry.1, entry.1, _, entry.2, ordered.each _ declared, rfl⟩
  have apart : ((types.form props base).map FieldView.cursor).Nodup := by
    have cursors :=
      ((Record.nodup_keys ordered.names).map Segment.key_injective).map base.child_injective
    rw [Record.keys, List.map_map, List.map_map] at cursors
    rw [form, List.map_map]
    refine (congrArg List.Nodup (List.map_congr_left fun entry _ => ?_)).mp cursors
    exact (FieldView.cursor_ofType ..).symm
  refine built.nodup_cursors apart fun child inForm => ?_
  obtain ⟨step, label, value, t, inner, rfl⟩ := built child inForm
  exact FieldView.nodup_cursors inner ..

end PropTypes

/-- Every view in a form, at any depth and for any types and values, agrees with the operations on
cursors and types, and no two have the same cursor. -/
theorem form_agrees {types : PropTypes} (ordered : types.Ordered) (props : Json) (base : Cursor) :
    (∀ w ∈ (types.form props base).flatMap FieldView.views,
        ∃ name rest t, w.Agrees types props base name rest t) ∧
      (((types.form props base).flatMap FieldView.views).map FieldView.cursor).Nodup :=
  ⟨fun _ member => ordered.agrees member, ordered.nodup_cursors props base⟩

/-! ## Inferred types -/

/-- A type that shows an origin is in order, as constructors sort the fields they are given. -/
theorem Origin.Shows.ordered {log : List Mark} {o : Origin} {t : PropType} (shows : o.Shows log t) :
    t.Ordered := by
  induction shows with
  | hidden => exact .unknown _
  | standard | extension => exact .known nofun nofun
  | @built construction v time shown _ _ ih =>
    refine .known (fun declared isFields => ?_) ?_
    · cases construction with
      | shape fields =>
        cases isFields
        exact Record.ascending_ofList _
      | _ => cases isFields
    · rintro _ ⟨⟩ part member
      have listed := Construction.mem_parts_of_argument member
      rw [Construction.parts_map] at listed
      obtain ⟨origin, isPart, rfl⟩ := List.mem_map.1 listed
      exact ih origin isPart
  | required _ _ ih => exact ih.intoRequired

/-- So forms of inferred types agree with cursors and types without any condition. -/
theorem Chronicle.ordered_inferRecord {c : Chronicle} (steps : Chronicle.opened.Steps c)
    {validators : Record Validator} (names : Record.Ascending validators)
    (made : ∀ entry ∈ validators, ∃ o ∈ c.made, o.validator = entry.2) :
    PropTypes.Ordered (c.library.inferRecord validators) := by
  refine ⟨?_, List.forall_mem_map.2 fun entry declared => ?_⟩
  · rw [Record.Ascending, Library.inferRecord, Record.keys_mapValues]
    exact names
  · obtain ⟨o, atHand, same⟩ := made entry declared
    rw [← same]
    exact (steps.kept.2.recalls (steps.genuine o atHand) atHand).shows.ordered

/-! ## An example -/

/-- Texts, and a list of texts, described by hand. -/
def textType : PropType :=
  .known ⟨.leaf .string, false, none, Library.fresh.standard .string⟩

def textsType : PropType :=
  .known ⟨.built .arrayOf, false, some [.element textType], Library.fresh.standard .array⟩

/-- A user with a name and a list of tags. -/
def userType : PropType :=
  .known ⟨.built .shape, true, some [.fields [("name", textType), ("tags", textsType)]],
    Library.fresh.standard .object⟩

theorem userTypes_ordered : PropTypes.Ordered [("user", userType)] := by
  have text : textType.Ordered := .known nofun nofun
  have texts : textsType.Ordered := by
    refine .known nofun ?_
    rintro _ ⟨⟩ part member
    rwa [List.mem_singleton.1 member]
  refine ⟨List.pairwise_singleton _ _, List.forall_mem_singleton.2 (.known ?_ ?_)⟩
  · rintro _ ⟨⟩
    unfold Record.Ascending
    decide
  · rintro _ ⟨⟩
    exact List.forall_mem_cons.2 ⟨text, List.forall_mem_singleton.2 texts⟩

/-- A form of five views: the name is not there, and one of the tags is not a text. -/
theorem user_form_agrees :
    let props : Json := .object [("user", .object [("tags", .array [.string "a", .ofNat 1])])]
    let form := PropTypes.form [("user", userType)] props [.index 0]
    (form.flatMap FieldView.views).map FieldView.label =
        ["user", "user.name", "user.tags", "user.tags[0]", "user.tags[1]"] ∧
      (∀ w ∈ form.flatMap FieldView.views,
        ∃ name rest t, w.Agrees [("user", userType)] props [.index 0] name rest t) ∧
      ((form.flatMap FieldView.views).map FieldView.cursor).Nodup := by
  intro props form
  exact ⟨by decide, form_agrees userTypes_ordered props [.index 0]⟩

end PropSandbox

import PropSandbox.Proofs.Edits
import PropSandbox.Proofs.WriteBack

/-!
# What a form calls valid

A form checks every view by itself, whatever stands around it: the value of a field under a name
that stands for no prop, the whole record under the same name. A type that tells what is accepted
depends on the value alone, so the flags agree: a record or a list is valid if and only if all that
is shown in it is, what is valid at the top is valid throughout, and a session complains of the
props whose views at the top are not valid.
-/

namespace PropSandbox

namespace PropType

variable {t : PropType} {value : Json}

/-- A value with the parts that a form shows of the values of a type: an object for a shape, an
array for a list. -/
inductive Holds (t : PropType) : Json → Prop where
  | record (isShape : t.kind? = some (.built .shape)) (members : List (String × Json)) :
      Holds t (.object members)
  | list (isList : t.kind? = some (.built .arrayOf)) (items : List Json) : Holds t (.array items)

theorem Holds.ne_null (holds : t.Holds value) : value ≠ .null := by
  cases holds <;> nofun

theorem holds_intoRequired_iff : t.intoRequired.Holds value ↔ t.Holds value := by
  constructor
  · rintro (⟨isShape, members⟩ | ⟨isList, items⟩)
    · exact .record (kind?_intoRequired t ▸ isShape) members
    · exact .list (kind?_intoRequired t ▸ isList) items
  · rintro (⟨isShape, members⟩ | ⟨isList, items⟩)
    · exact .record ((kind?_intoRequired t).trans isShape) members
    · exact .list ((kind?_intoRequired t).trans isList) items

theorem steps_intoRequired (t : PropType) (value : Json) :
    t.intoRequired.steps value = t.steps value := by
  cases t with
  | unknown => rfl
  | known leaf =>
    rw [intoRequired]
    split <;> rfl

end PropType

namespace Plan.Types

variable {plan : Plan} {t : PropType} {value : Json}

theorem steps_shape (fields : List (String × Plan × PropType)) (v : Validator) (value : Json) :
    PropType.steps (.known ⟨.built .shape, false,
        some [((Construction.shape fields).map Prod.snd).argument], v⟩) value =
      (Record.ofList fields).map fun field => (.key field.1, field.2.2) := by
  rw [Construction.map, Construction.argument, ← Record.mapValues_ofList]
  exact List.map_map ..

/-- What a type says of an array at each of its indices it says of each item. -/
theorem forall_items_iff (item : PropType) (items : List Json) :
    (∀ part ∈ items.mapIdx fun i _ => (Segment.index i, item),
        part.2.accepts (((Json.array items).child? part.1).getD .null) = true) ↔
      ∀ entry ∈ items, item.accepts entry = true := by
  have child : ∀ i (inside : i < items.length),
      ((Json.array items).child? (.index i)).getD .null = items[i] := fun i inside => by
    rw [show (Json.array items).child? (.index i) = items[i]? from rfl,
      List.getElem?_eq_getElem inside, Option.getD_some]
  constructor
  · intro each entry member
    obtain ⟨i, inside, rfl⟩ := List.getElem_of_mem member
    rw [← child i inside]
    exact each _ (List.mem_mapIdx.2 ⟨i, inside, rfl⟩)
  · intro each part member
    obtain ⟨i, inside, rfl⟩ := List.mem_mapIdx.1 member
    rw [child i inside]
    exact each _ (List.getElem_mem inside)

/-- A container is accepted if and only if its type accepts it part by part. -/
theorem accepts_steps_iff (types : plan.Types t) (holds : t.Holds value) :
    t.accepts value = true ↔
      ∀ part ∈ t.steps value, part.2.accepts ((value.child? part.1).getD .null) = true := by
  induction types with
  | leaf | extension =>
    cases holds with
    | record isShape => cases isShape
    | list isList => cases isList
  | @built construction v settled parts fits =>
    -- of the six constructions only shapes and lists have parts with views
    have types := Types.built settled parts fits
    cases construction with
    | shape fields =>
      cases holds with
      | list isList => cases isList
      | record _ members =>
        have each : ∀ field ∈ fields, field.2.1.Types field.2.2 := fun field listed =>
          parts field.2 (List.mem_map_of_mem listed)
        have given : Json.object members ≠ .null := nofun
        refine (types.accepts_shape_iff each given).trans ?_
        rw [show (Construction.shape fields).kind = .shape from rfl, steps_shape,
          List.forall_mem_map]
        constructor
        · rintro ⟨_, same, each⟩
          cases same
          exact each
        · exact fun each => ⟨members, rfl, each⟩
    | arrayOf item =>
      cases holds with
      | record isShape => cases isShape
      | list _ items =>
        exact (types.accepts_items_iff (i := 0) rfl items).trans (forall_items_iff _ items).symm
    | _ =>
      cases holds with
      | record isShape => cases isShape
      | list isList => cases isList
  | @required plan t types ih =>
    rw [types.accepts_intoRequired_iff holds.ne_null, PropType.steps_intoRequired]
    exact ih (PropType.holds_intoRequired_iff.1 holds)

/-- The verdict on a value depends on neither the name of the prop nor the owner. -/
theorem check_decides (types : plan.Types t) (value : Json) (prop owner : String) :
    (t.check value prop owner).Decides (t.accepts value = true) := by
  have decides := types.fits.decides [(prop, value)] prop owner .prop
  rw [Record.get?_cons, if_pos rfl, Option.getD_some] at decides
  exact decides.congr types.accepts_iff.symm

end Plan.Types

namespace FieldView

variable {label : String} {value : Json} {cursor : Cursor} {t : PropType} {plan : Plan}

theorem valid_ofType (label : String) (value : Json) (cursor : Cursor) (t : PropType) :
    (ofType label value cursor t).valid = t.accepts value := by
  cases t <;> rfl

/-- The view of a container is valid if and only if the views just below it are. -/
theorem valid_iff_nested (types : plan.Types t) (holds : t.Holds value) :
    (ofType label value cursor t).valid = true ↔
      ∀ view ∈ (ofType label value cursor t).nested, view.valid = true := by
  rw [valid_ofType, types.accepts_steps_iff holds, nested_ofType, List.forall_mem_map]
  refine forall₂_congr fun part _ => ?_
  rw [ofPart, valid_ofType]

/-- The flag of a view over an object or an array says whether all flags just below it are set. -/
structure Composed (w : FieldView) : Prop where
  record : ∀ members fields, w.value = .object members → w.affordance = .record fields →
    (w.valid = true ↔ ∀ field ∈ fields, field.valid = true)
  list : ∀ items views, w.value = .array items → w.affordance = .list views →
    (w.valid = true ↔ ∀ view ∈ views, view.valid = true)

theorem composed_ofType (types : plan.Types t) (label : String) (value : Json) (cursor : Cursor) :
    (ofType label value cursor t).Composed := by
  have nests := nests_ofType label value cursor t
  constructor
  · intro members fields isObject isRecord
    rw [value_ofType] at isObject
    subst isObject
    have nested : (ofType label (.object members) cursor t).nested = fields := by
      rw [nested, isRecord]
    rw [isRecord] at nests
    cases nests with
    | @record leaf declared kind =>
      rw [← nested]
      have isShape : (PropType.known leaf).kind? = some (.built .shape) := congrArg some kind
      exact valid_iff_nested types (.record isShape members)
    | scalar _ _ noRecord => exact absurd rfl (noRecord _)
  · intro items views isArray isList
    rw [value_ofType] at isArray
    subst isArray
    have nested : (ofType label (.array items) cursor t).nested = views := by
      rw [nested, isList]
    rw [isList] at nests
    cases nests with
    | @list leaf item kind =>
      rw [← nested]
      have isArrayOf : (PropType.known leaf).kind? = some (.built .arrayOf) := congrArg some kind
      exact valid_iff_nested types (.list isArrayOf items)
    | scalar _ noList => exact absurd rfl (noList _)

end FieldView

/-! ## Props -/

namespace PropTypes

variable {types : PropTypes} {props part : Json} {c : Cursor} {t : PropType}

/-- What a path reads is accepted by the type at the path, if the props are accepted by theirs. -/
theorem Typed.accepted_at (typed : types.Typed)
    (all : ∀ name t, Record.get? types name = some t →
      t.accepts ((props.member? name).getD .null) = true)
    (isAt : types.at? c = some t) (found : c.get? props = some part) : t.accepts part = true := by
  cases props with
  | object members => exact typed.get?_accepted ⟨members, rfl, all⟩ isAt found
  | _ =>
    obtain ⟨name, rest, whole, rfl, _⟩ := declared_of_at? isAt
    cases found

/-- The view of a declared prop at the top of a form. -/
def topView (props : Json) (base : Cursor) (entry : String × PropType) : FieldView :=
  .ofType entry.1 ((props.member? entry.1).getD .null) (base.child (.key entry.1)) entry.2

/-- The verdict on a declared prop of an instance. -/
def verdictOn (props : Json) (owner : String) (entry : String × PropType) : Verdict :=
  entry.2.check ((props.member? entry.1).getD .null) entry.1 owner

/-- The verdict on a prop agrees with its view, and a prop that is not accepted is rejected. -/
theorem verdictOn_cases {plan : Plan} {entry : String × PropType} (types : plan.Types entry.2)
    (props : Json) (owner : String) (base : Cursor) :
    (verdictOn props owner entry = .accepted ∧ (topView props base entry).valid = true) ∨
      (∃ error, verdictOn props owner entry = .rejected error) ∧
        (topView props base entry).valid = false := by
  rw [topView, FieldView.valid_ofType, verdictOn]
  rcases types.check_decides ((props.member? entry.1).getD .null) entry.1 owner with
    accepted | ⟨rejected, fails⟩
  · exact .inl accepted
  · exact .inr ⟨rejected, Bool.eq_false_iff.2 fails⟩

end PropTypes

namespace Session

variable {s : Session} {types : PropTypes} {set : FixtureSet} {i : Nat} {props : Json}

theorem Loaded.complaints (loaded : s.Loaded types set) (stored : set.instances[i]? = some props) :
    ∃ key, s.selectedKey? = some key ∧ s.complaints i =
      .ok ((types.map (PropTypes.verdictOn props key)).filter
        fun verdict => !verdict.isAccepted) := by
  obtain ⟨current, selected, isTyped, isLoaded⟩ := loaded.exists_selection
  refine ⟨current.key, by rw [selectedKey?, selected, Option.map_some], ?_⟩
  simp only [Session.complaints, selection, selected, Selection.loadedTypes, isTyped,
    Selection.loadedFixtures, isLoaded, FixtureSet.instanceAt, stored, bind, Except.bind]
  rfl

/-- The complaints about an instance are the verdicts on the props whose views are not valid. -/
theorem Loaded.complaints_eq (loaded : s.Loaded types set) (stored : set.instances[i]? = some props)
    (typed : ∀ entry ∈ types, ∃ plan : Plan, plan.Types entry.2) (base : Cursor) :
    ∃ key, s.selectedKey? = some key ∧ s.complaints i =
        .ok ((types.filter fun entry => !(PropTypes.topView props base entry).valid).map
          (PropTypes.verdictOn props key)) ∧
      ∀ entry ∈ types, (PropTypes.topView props base entry).valid = false →
        ∃ error, PropTypes.verdictOn props key entry = .rejected error := by
  obtain ⟨key, isKey, complaints⟩ := loaded.complaints stored
  refine ⟨key, isKey, ?_, ?_⟩
  · have same :
        types.filter ((fun verdict => !verdict.isAccepted) ∘ PropTypes.verdictOn props key) =
          types.filter fun entry => !(PropTypes.topView props base entry).valid := by
      refine List.filter_congr fun entry declared => ?_
      obtain ⟨plan, types⟩ := typed entry declared
      rw [Function.comp_apply]
      rcases PropTypes.verdictOn_cases types props key base with
        ⟨accepted, valid⟩ | ⟨⟨error, rejected⟩, invalid⟩
      · rw [accepted, valid, Verdict.isAccepted]
      · rw [rejected, invalid, Verdict.isAccepted]
        exact Verdict.noConfusion
    rw [complaints, List.filter_map, same]
  · intro entry declared invalid
    obtain ⟨plan, types⟩ := typed entry declared
    rcases PropTypes.verdictOn_cases types props key base with ⟨_, valid⟩ | ⟨rejected, _⟩
    · exact absurd (invalid.symm.trans valid) Bool.false_ne_true
    · exact rejected

end Session

/-- Let the types be those that inference has for validators made in any work on a fresh library,
with nothing unknown in them. Then every view in the tree of a value is composed of the views below
it. If the values of all props are accepted by their types, each part of the props is accepted by
the type at its path. And of every instance a session complains of the props whose views are not
valid at the top of the form, in order, and rejects each of them. -/
theorem form_valid_compositional {c : Chronicle} (steps : Chronicle.opened.Steps c)
    {validators : Record Validator} (names : Record.Ascending validators)
    (made : ∀ entry ∈ validators, ∃ o ∈ c.made, o.validator = entry.2)
    (transparent : ∀ entry ∈ validators, (c.library.infer entry.2).Transparent) :
    (∀ entry ∈ c.library.inferRecord validators, ∀ label value cursor,
        ∀ w ∈ (FieldView.ofType label value cursor entry.2).views, w.Composed) ∧
      (∀ props : Json,
        (∀ entry ∈ c.library.inferRecord validators,
          entry.2.accepts ((props.member? entry.1).getD .null) = true) →
        ∀ path t part, PropTypes.at? (c.library.inferRecord validators) path = some t →
          path.get? props = some part → t.accepts part = true) ∧
      ∀ (s : Session) (set : FixtureSet) (i : Nat) (props : Json),
        s.Loaded (c.library.inferRecord validators) set → set.instances[i]? = some props →
        ∃ key, s.selectedKey? = some key ∧
          s.form i = .ok ((c.library.inferRecord validators).map
            (PropTypes.topView props [.index i])) ∧
          s.complaints i = .ok (((c.library.inferRecord validators).filter fun entry =>
            !(PropTypes.topView props [.index i] entry).valid).map
              (PropTypes.verdictOn props key)) ∧
          ∀ entry ∈ c.library.inferRecord validators,
            (PropTypes.topView props [.index i] entry).valid = false →
            ∃ error, PropTypes.verdictOn props key entry = .rejected error := by
  have ordered := Chronicle.ordered_inferRecord steps names made
  have typed := Chronicle.typed_inferRecord steps made transparent
  have planned : ∀ entry ∈ c.library.inferRecord validators, ∃ plan : Plan, plan.Types entry.2 :=
    fun entry declared => typed entry.1 entry.2 (Record.get?_of_mem ordered.names declared)
  refine ⟨fun entry declared label value cursor w member => ?_, fun props all path t part => ?_,
    fun s set i props loaded stored => ?_⟩
  · obtain ⟨plan, types⟩ := planned entry declared
    obtain ⟨path, inner, isAt, _, rfl⟩ :=
      FieldView.exists_path_of_mem_views (ordered.each entry declared) member
    obtain ⟨below, innerTypes⟩ := types.at' isAt
    exact FieldView.composed_ofType innerTypes ..
  · exact typed.accepted_at fun name t declared => all (name, t) (Record.mem_of_get? declared)
  · obtain ⟨key, isKey, complaints, rejected⟩ := loaded.complaints_eq stored planned [.index i]
    exact ⟨key, isKey, loaded.form stored, complaints, rejected⟩

/-! ## An example -/

namespace Chronicle

theorem infer_rowsRecord :
    withRows.library.inferRecord [("rows", rows)] = [("rows", rowsType)] := by
  simp only [Library.inferRecord, Record.mapValues, List.map_cons, List.map_nil, infer_rows]

end Chronicle

namespace Session

/-- A list of numbers, one of which is a text. -/
def mixedRows : Json :=
  .object [("rows", .array [.ofNat 1, .string "a"])]

/-- A session with such a list, and with one of numbers. -/
def sheet : Session :=
  ⟨none, some ⟨"Sheet", some ⟨"Sheet", none, []⟩,
    some [("rows", Chronicle.rowsType)],
    some ⟨[mixedRows, .object [("rows", .array [.ofNat 1])]]⟩⟩⟩

/-- The list of the first instance is complained of, as the text in it is not valid; in the second
one the number is accepted as the list is. -/
theorem sheet_complaints :
    (∃ view items error, sheet.form 0 = .ok [view] ∧ view.affordance = .list items ∧
        items.map FieldView.valid = [true, false] ∧ view.valid = false ∧
        sheet.complaints 0 = .ok [.rejected error]) ∧
      ∀ t, PropTypes.at? [("rows", Chronicle.rowsType)] [.key "rows", .index 0] = some t →
        t.accepts (.ofNat 1) = true := by
  have made : ∀ entry ∈ [("rows", Chronicle.rows)],
      ∃ o ∈ Chronicle.withRows.made, o.validator = entry.2 :=
    List.forall_mem_singleton.2 ⟨_, List.mem_cons_self, rfl⟩
  have names : Record.Ascending [("rows", Chronicle.rows)] := List.pairwise_singleton ..
  have transparent : ∀ entry ∈ [("rows", Chronicle.rows)],
      (Chronicle.withRows.library.infer entry.2).Transparent := by
    refine List.forall_mem_singleton.2 ?_
    rw [Chronicle.infer_rows]
    exact Chronicle.rowsType_transparent
  obtain ⟨composed, accepted, complaints⟩ :=
    form_valid_compositional Chronicle.withRows_steps names made transparent
  rw [Chronicle.infer_rowsRecord] at composed accepted complaints
  refine ⟨?_, fun t isAt => ?_⟩
  · obtain ⟨key, _, form, complained, rejected⟩ := complaints sheet _ 0 mixedRows ⟨rfl, rfl⟩ rfl
    let view := PropTypes.topView mixedRows [.index 0] ("rows", Chronicle.rowsType)
    have shown : view ∈ view.views := by
      rw [FieldView.views_eq]
      exact List.mem_cons_self
    have whole := (composed _ List.mem_cons_self _ _ _ view shown).list _ _ rfl rfl
    have invalid : view.valid = false := by
      rw [Bool.eq_false_iff, Ne, whole]
      decide
    obtain ⟨error, rejects⟩ := rejected _ List.mem_cons_self invalid
    refine ⟨view, _, error, form, rfl, by decide, invalid, ?_⟩
    rw [complained, List.filter_cons_of_pos (by rw [invalid]; rfl), ← rejects]
    rfl
  · refine accepted (.object [("rows", .array [.ofNat 1])]) ?_ [.key "rows", .index 0] t _ isAt rfl
    exact List.forall_mem_singleton.2 (by decide)

end Session

end PropSandbox

import PropSandbox.Proofs.ListEdits
import PropSandbox.Session

/-!
# Edits that fail

A write opens containers on its way down and knows only at the last step whether it fits. What it
opens for a name is always good for what follows, and so is a list that is opened for its first
item. So a failed write leaves a trace in one case only: the path goes through a list that is not
there and asks for an item other than the first. Then the list is left behind, empty, with
whatever had to be opened around it. All other failures change nothing, and no failure touches an
instance that was not addressed.
-/

namespace PropSandbox

namespace Cursor

/-- A failed write that leaves an empty list behind: the path asks for a later item of a list that
is absent or null, and the value is left as if the empty list had been written in its place. -/
inductive LeavesList (root : Json) : Cursor → CursorError → Json → Prop where
  | mk {before after : Cursor} {i : Nat} {left : Json}
      (absent : (get? before root).getD .null = .null)
      (written : set (.array []) before root = ⟨.ok (), left⟩) :
      LeavesList root (before ++ .index (i + 1) :: after) (.outOfBounds (i + 1) 0) left

/-- What a failed write may leave: the value it found, or the value with a list left behind. -/
def Leaves (root : Json) (c : Cursor) (e : CursorError) (left : Json) : Prop :=
  left = root ∨ LeavesList root c e left

variable {new root left : Json} {c rest : Cursor} {e : CursorError} {step : Segment}

/-- A list left behind in a part is left behind in the whole. -/
theorem LeavesList.below (takes : root.Takes step)
    (leaves : LeavesList ((root.child? step).getD .null) rest e left) :
    LeavesList root (step :: rest) e (root.withPart step left) := by
  obtain ⟨absent, opened⟩ := leaves
  refine @mk root (step :: _) _ _ _ ?_ ?_
  · rw [getD_get?_cons]
    exact absent
  · rw [set_cons takes, opened]
    rfl

/-- A path that goes on never leaves null behind. -/
theorem set_cons_ne_null (new : Json) (step : Segment) (rest : Cursor) (root : Json) :
    (set new (step :: rest) root).value ≠ .null := by
  rcases takes_or_stops root step with takes | ⟨_, e, stops⟩
  · rw [set_cons takes]
    exact Json.put_ne_null (root.opened_ne_null step) step _
  · rw [stops]
    exact root.opened_ne_null step

/-- A first step that fails leaves what was opened for it, an empty list if anything. -/
theorem Leaves.of_stops
    (stops : ∀ new rest, set new (step :: rest) root = ⟨.error e, root.opened step⟩)
    (rest : Cursor) : Leaves root (step :: rest) e (root.opened step) := by
  by_cases given : root = .null
  · subst given
    cases step with
    | key name => cases stops .null []
    | index i =>
      cases i with
      | zero => cases stops .null []
      | succ i =>
        cases (stops .null []).symm.trans (set_later_null .null [])
        exact .inr (@LeavesList.mk .null [] rest i _ rfl rfl)
  · exact .inl (Json.opened_of_ne_null given step)

/-- A write that fails changes nothing, or leaves a list behind. -/
theorem set_failed (failed : (set new c root).result = .error e) :
    Leaves root c e (set new c root).value := by
  induction c generalizing root with
  | nil => cases failed
  | cons step rest ih =>
    rcases takes_or_stops root step with takes | ⟨_, _, stops⟩
    · rw [set_cons takes] at failed ⊢
      rcases ih failed with same | leaves
      · -- a part that is as it was is there, since a write under null would have opened it
        cases found : root.child? step with
        | some inner =>
          rw [found] at same
          refine .inl ?_
          rw [Written.within, same]
          exact Json.withPart_child found
        | none =>
          rw [found] at same failed
          cases rest with
          | nil => cases failed
          | cons next rest => exact absurd same (set_cons_ne_null new next rest .null)
      · exact .inr (leaves.below takes)
    · rw [stops] at failed ⊢
      cases failed
      exact .of_stops stops rest

end Cursor

/-! ## Edits of a form -/

namespace FieldEdit

variable {σ : Type} {config : GenerationConfig σ} {t : PropType} {c : Cursor} {root : Json}
  {e : CursorError} {s : σ}

theorem appendTo_failed (failed : ((appendTo config t c root).run s).1.result = .error e) :
    Cursor.Leaves root c e ((appendTo config t c root).run s).1.value := by
  cases isItem : itemType? t with
  | none =>
    rw [appendTo_of_no_item isItem]
    exact .inl rfl
  | some item =>
    rcases appendTo_cases config isItem c root s with ⟨items, place, _, writes⟩ | ⟨_, stops⟩
    · rw [writes] at failed ⊢
      exact Cursor.set_failed failed
    · rw [stops]
      exact .inl rfl

theorem apply_failed {edit : FieldEdit}
    (failed : ((edit.apply config t c root).run s).1.result = .error e) :
    Cursor.Leaves root c e ((edit.apply config t c root).run s).1.value := by
  cases edit with
  | set value => exact Cursor.set_failed failed
  | clear => exact Cursor.set_failed failed
  | removeItem index => exact .inl (removeFrom_failed failed)
  | appendItem => exact appendTo_failed failed

end FieldEdit

/-! ## Edits of a session -/

/-- A place is the one that a cursor addresses in the fixtures of a session. -/
structure InstancePlace.Addressed (place : InstancePlace) (s : Session) (c : Cursor) : Prop where
  selected : s.selected = some place.selection
  loaded : place.selection.fixtures = some place.fixtures
  cursor : c = .index place.index :: place.path
  stored : place.fixtures.instances[place.index]? = some place.value

theorem Cursor.splitInstance_ok {c path : Cursor} {index : Nat}
    (split : c.splitInstance = .ok (index, path)) : c = .index index :: path := by
  unfold Cursor.splitInstance at split
  split at split <;> cases split
  rfl

theorem FixtureSet.instanceAt_ok {set : FixtureSet} {index : Nat} {value : Json}
    (found : set.instanceAt index = .ok value) : set.instances[index]? = some value := by
  unfold FixtureSet.instanceAt at found
  split at found <;> cases found
  assumption

theorem Selection.loadedFixtures_ok {selection : Selection} {set : FixtureSet}
    (found : selection.loadedFixtures = .ok set) : selection.fixtures = some set := by
  unfold Selection.loadedFixtures at found
  split at found <;> cases found
  assumption

theorem Selection.loadedTypes_ok {selection : Selection} {types : PropTypes}
    (found : selection.loadedTypes = .ok types) : selection.types = some types := by
  unfold Selection.loadedTypes at found
  split at found <;> cases found
  assumption

/-- Steps that succeed in a row have each succeeded. -/
theorem bind_eq_ok {ε α β : Type} {first : Except ε α} {next : α → Except ε β} {b : β}
    (succeeded : (first >>= next) = .ok b) : ∃ a, first = .ok a ∧ next a = .ok b := by
  cases first with
  | error _ => cases succeeded
  | ok a => exact ⟨a, rfl, succeeded⟩

namespace Session

variable {s s' : Session} {c : Cursor}

theorem selection_ok {selection : Selection} (found : s.selection = .ok selection) :
    s.selected = some selection := by
  unfold Session.selection at found
  split at found <;> cases found
  assumption

theorem withFixtures_self {selection : Selection} {set : FixtureSet}
    (selected : s.selected = some selection) (loaded : selection.fixtures = some set) :
    s.withFixtures selection set = s := by
  rw [withFixtures, ← loaded, ← selected]

/-- The instance at an index. -/
def instance? (s : Session) (i : Nat) : Option Json :=
  s.fixtures?.bind fun set => set.instances[i]?

theorem placeOfUpdate_addressed {place : InstancePlace} (found : s.placeOfUpdate c = .ok place) :
    place.Addressed s c := by
  obtain ⟨selection, selected, found⟩ := bind_eq_ok found
  obtain ⟨fixtures, loaded, found⟩ := bind_eq_ok found
  obtain ⟨⟨index, path⟩, split, found⟩ := bind_eq_ok found
  obtain ⟨value, stored, found⟩ := bind_eq_ok found
  cases found
  exact ⟨selection_ok selected, Selection.loadedFixtures_ok loaded, Cursor.splitInstance_ok split,
    FixtureSet.instanceAt_ok stored⟩

theorem placeOfEdit_addressed {place : InstancePlace} {t : PropType}
    (found : s.placeOfEdit c = .ok (place, t)) : place.Addressed s c := by
  obtain ⟨⟨index, path⟩, split, found⟩ := bind_eq_ok found
  obtain ⟨selection, selected, found⟩ := bind_eq_ok found
  obtain ⟨types, _, found⟩ := bind_eq_ok found
  cases typed : types.at? path with
  | none =>
    simp only [typed] at found
    cases found
  | some _ =>
    simp only [typed, pure_bind] at found
    obtain ⟨fixtures, loaded, found⟩ := bind_eq_ok found
    obtain ⟨value, stored, found⟩ := bind_eq_ok found
    cases found
    exact ⟨selection_ok selected, Selection.loadedFixtures_ok loaded, Cursor.splitInstance_ok split,
      FixtureSet.instanceAt_ok stored⟩

theorem withInstance_unchanged {place : InstancePlace} (addressed : place.Addressed s c) :
    s.withInstance place place.value = s := by
  obtain ⟨inside, same⟩ := List.getElem?_eq_some_iff.1 addressed.stored
  rw [withInstance, ← same, List.set_getElem_self]
  exact withFixtures_self addressed.selected addressed.loaded

/-- What a call to change the fixtures at a cursor may answer, and the session it leaves. -/
inductive EditCall (s : Session) (c : Cursor) : Except SandboxError Unit × Session → Prop where
  | update (value : Json) : EditCall s c (s.update c value)
  | edit {σ : Type} (config : GenerationConfig σ) (edit : FieldEdit) (state : σ) :
      EditCall s c ((s.applyEdit config c edit).run state).1

/-- A call fails before it changes anything, or leaves in the instance it addressed whatever a write
left behind. -/
theorem editCall_cases {outcome : Except SandboxError Unit × Session}
    (call : s.EditCall c outcome) :
    (∃ e, outcome = (.error e, s)) ∨
      ∃ (place : InstancePlace) (w : Written Unit), place.Addressed s c ∧
        outcome = (w.result.mapError .cursor, s.withInstance place w.value) ∧
        ∀ e, w.result = .error e → Cursor.Leaves place.value place.path e w.value := by
  cases call with
  | update value =>
    unfold update
    split
    · exact .inl ⟨_, rfl⟩
    · rename_i place found
      exact .inr ⟨place, _, placeOfUpdate_addressed found, rfl, fun e => Cursor.set_failed⟩
  | edit config edit state =>
    unfold applyEdit
    split
    · exact .inl ⟨_, rfl⟩
    · rename_i place t found
      exact .inr ⟨place, _, placeOfEdit_addressed found, rfl, fun e => FieldEdit.apply_failed⟩

/-- A failed call that leaves an empty list in the instance that it addressed, and changes nothing
else. -/
inductive LeavesList (s : Session) : Cursor → SandboxError → Session → Prop where
  | mk {selection : Selection} {fixtures : FixtureSet} {index : Nat} {path : Cursor}
      {value left : Json} {e : CursorError} (selected : s.selected = some selection)
      (loaded : selection.fixtures = some fixtures)
      (stored : fixtures.instances[index]? = some value)
      (leaves : Cursor.LeavesList value path e left) :
      LeavesList s (.index index :: path) (.cursor e)
        (s.withFixtures selection ⟨fixtures.instances.set index left⟩)

/-- A call that fails leaves every instance as it was, or an empty list in the one it addressed. -/
theorem editCall_failed {e : SandboxError} (call : s.EditCall c (.error e, s')) :
    s' = s ∨ s.LeavesList c e s' := by
  rcases editCall_cases call with ⟨_, unchanged⟩ | ⟨place, w, addressed, outcome, kept⟩
  · exact .inl (Prod.mk.inj unchanged).2
  · obtain ⟨failed, rfl⟩ := Prod.mk.inj outcome
    cases result : w.result with
    | ok _ =>
      rw [result] at failed
      cases failed
    | error error =>
      rw [result] at failed
      cases failed
      rcases kept error result with same | leaves
      · rw [same]
        exact .inl (withInstance_unchanged addressed)
      · rw [addressed.cursor]
        exact .inr (.mk addressed.selected addressed.loaded addressed.stored leaves)

/-- A session with one instance, whose tags are null. -/
def untagged : Session :=
  ⟨none, some ⟨"Card", some ⟨"Card", none, []⟩, some [], some ⟨[.object [("tags", .null)]]⟩⟩⟩

/-- The same with an empty list of tags. -/
def emptyTags : Session :=
  ⟨none, some ⟨"Card", some ⟨"Card", none, []⟩, some [], some ⟨[.object [("tags", .array [])]]⟩⟩⟩

/-- The second tag cannot be written where there is no first one, but the list is opened. -/
theorem update_untagged : untagged.EditCall [.index 0, .key "tags", .index 1]
    (.error (.cursor (.outOfBounds 1 0)), emptyTags) :=
  .update (.string "b")

theorem untagged_leaves_list : emptyTags = untagged ∨
    untagged.LeavesList [.index 0, .key "tags", .index 1] (.cursor (.outOfBounds 1 0)) emptyTags :=
  editCall_failed update_untagged

/-- So failed calls do change fixtures. -/
theorem failed_edits_not_atomic :
    ¬ ∀ (s s' : Session) (c : Cursor) (e : SandboxError), s.component?.isSome = true →
      s.fixtures?.isSome = true → s.EditCall c (.error e, s') → s'.fixtures? = s.fixtures? := by
  intro atomic
  have same := atomic untagged emptyTags _ _ rfl rfl update_untagged
  change some (FixtureSet.mk [.object [("tags", .array [])]]) =
    some (FixtureSet.mk [.object [("tags", .null)]]) at same
  cases same

end Session

end PropSandbox

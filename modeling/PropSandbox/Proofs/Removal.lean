import PropSandbox.Proofs.Writes

/-!
# Laws of removals

A removal looks the parent of its path up and writes it back without the part, so it succeeds
exactly where its path reads a value. A member that is removed leaves nothing at its name; an item
that is removed lets the later items of its list move up by one. Written back, a member or a last
item stands where it stood before.
-/

namespace PropSandbox

namespace Json

variable {value part : Json} {step : Segment}

/-- A container without the part at a step. -/
def without : Json → Segment → Json
  | .object members, .key name => .object (Record.erase members name)
  | .array items, .index i => .array (items.eraseIdx i)
  | value, _ => value

theorem Ordered.child? (ordered : value.Ordered) (found : value.child? step = some part) :
    part.Ordered := by
  cases Json.takes_of_child? found with
  | newMember name => cases found
  | newItem => cases found
  | member members name => exact ordered.member found
  | item inside => exact ordered.item (List.mem_of_getElem? found)

theorem Ordered.get? {c : Cursor} (ordered : value.Ordered) (found : c.get? value = some part) :
    part.Ordered := by
  induction c generalizing value with
  | nil =>
    cases found
    exact ordered
  | cons step rest ih =>
    obtain ⟨inner, here, further⟩ := Option.bind_eq_some_iff.1 found
    exact ih (ordered.child? here) further

end Json

namespace Cursor

variable {new root part old smaller : Json} {step : Segment} {c d : Cursor} {e : CursorError}
  {name : String} {i : Nat}

theorem get?_child (c : Cursor) (step : Segment) (root : Json) :
    get? (c.child step) root = (get? c root).bind (·.child? step) := by
  rw [child, get?_append]
  congr 1
  funext value
  cases h : value.child? step <;> simp [h]

/-- Every path but the root has a parent and a last step. -/
theorem root_or_child (c : Cursor) :
    c = Cursor.root ∨ ∃ (parent : Cursor) (step : Segment), c = parent.child step := by
  rcases List.eq_nil_or_concat c with rfl | ⟨parent, step, rfl⟩
  · exact .inl rfl
  · exact .inr ⟨parent, step, List.concat_eq_append⟩

theorem child_ne_root (c : Cursor) (step : Segment) : c.child step ≠ Cursor.root :=
  List.append_ne_nil_of_right_ne_nil c (List.cons_ne_nil step [])

theorem exists_parent (found : get? (c.child step) root = some old) :
    ∃ part, get? c root = some part ∧ part.child? step = some old := by
  rw [get?_child] at found
  exact Option.bind_eq_some_iff.1 found

/-! ## One removal -/

theorem takeOut_of_child? (found : part.child? step = some old) (path : Cursor) :
    takeOut path part step = .ok (old, part.without step) := by
  cases Json.takes_of_child? found with
  | newMember name => cases found
  | newItem => cases found
  | member members name =>
    rw [takeOut, show Record.get? members name = some old from found]
    rfl
  | @item items i inside =>
    rw [takeOut, show items[i]? = some old from found]
    rfl

theorem takeOut_of_none (absent : part.child? step = none) (path : Cursor) :
    ∃ e, takeOut path part step = .error e := by
  cases part with
  | object members =>
    cases step with
    | key name =>
      refine ⟨.missing path.text, ?_⟩
      rw [takeOut, show Record.get? members name = none from absent]
    | index i => exact ⟨_, rfl⟩
  | array items =>
    cases step with
    | key name => exact ⟨_, rfl⟩
    | index i =>
      refine ⟨.outOfBounds i items.length, ?_⟩
      rw [takeOut, show items[i]? = none from absent]
  | _ => cases step <;> exact ⟨_, rfl⟩

/-- A removal answers the part at its path and writes the parent without it. -/
theorem remove_child (found : get? c root = some part) (inside : part.child? step = some old) :
    remove (c.child step) root = ⟨.ok old, (set (part.without step) c root).value⟩ := by
  have last : (c.child step).getLast? = some step := List.getLast?_concat
  have parent : (c.child step).dropLast = c := List.dropLast_concat
  unfold remove
  simp only [last, parent, found, takeOut_of_child? inside]

theorem remove_child_of_none (absent : get? (c.child step) root = none) :
    ∃ e, remove (c.child step) root = ⟨.error e, root⟩ := by
  have last : (c.child step).getLast? = some step := List.getLast?_concat
  have parent : (c.child step).dropLast = c := List.dropLast_concat
  rw [get?_child] at absent
  unfold remove
  simp only [last, parent]
  cases found : get? c root with
  | none => exact ⟨_, rfl⟩
  | some part =>
    rw [found] at absent
    obtain ⟨e, stops⟩ := takeOut_of_none absent (c.child step)
    exact ⟨e, by simp only [stops]⟩

/-- A removal that fails changes nothing. -/
theorem remove_failed (failed : (remove c root).result = .error e) :
    (remove c root).value = root := by
  rcases root_or_child c with rfl | ⟨parent, step, rfl⟩
  · rfl
  · cases there : get? (parent.child step) root with
    | none =>
      obtain ⟨_, stops⟩ := remove_child_of_none there
      rw [stops]
    | some old =>
      obtain ⟨part, found, inside⟩ := exists_parent there
      rw [remove_child found inside] at failed
      cases failed

/-- A removal succeeds exactly where its path reads a value, and answers it. -/
theorem remove_ok_iff :
    (remove c root).result = .ok old ↔ c ≠ Cursor.root ∧ get? c root = some old := by
  rcases root_or_child c with rfl | ⟨parent, step, rfl⟩
  · exact ⟨nofun, fun ⟨notRoot, _⟩ => absurd rfl notRoot⟩
  · cases there : get? (parent.child step) root with
    | none =>
      obtain ⟨_, stops⟩ := remove_child_of_none there
      simp [stops]
    | some part =>
      obtain ⟨container, found, inside⟩ := exists_parent there
      simp [remove_child found inside, child_ne_root]

/-! ## What a removal leaves -/

theorem Apart.child_cases (apart : Apart (c.child step) d) :
    Apart c d ∨ ∃ other rest, other ≠ step ∧ d = c ++ other :: rest := by
  have notAbove : ¬ d <+: c := fun shorter => apart.2 (shorter.trans (List.prefix_append c [step]))
  by_cases below : c <+: d
  · obtain ⟨rest, rfl⟩ := below
    cases rest with
    | nil => exact absurd (by simp) notAbove
    | cons other rest =>
      refine .inr ⟨other, rest, ?_, rfl⟩
      rintro rfl
      exact apart.1 (by simp [child])
  · exact .inl ⟨below, notAbove⟩

/-- Below a path that was written stands what was written. -/
theorem get?_append_set (succeeded : (set new c root).Succeeded) (d : Cursor) :
    get? (c ++ d) (set new c root).value = get? d new := by
  rw [get?_append, get?_set succeeded, Option.bind_some]

/-- A part that completes its container again completes the whole. -/
theorem set_child_restores (found : get? c root = some part)
    (back : set old [step] smaller = ⟨.ok (), part⟩) :
    set old (c.child step) (set smaller c root).value = ⟨.ok (), root⟩ := by
  have succeeded : (set smaller c root).Succeeded := set_succeeded_of_get? found
  have written : set old [step] ((get? c (set smaller c root).value).getD .null) =
      ⟨.ok (), part⟩ := by
    rw [get?_set succeeded]
    exact back
  rw [child, set_append written, set_set succeeded, set_get? found]

/-- A value without a member: its name reads nothing, all that is beside it is as it was, and the
member can be put back. -/
structure LosesMember (root : Json) (parent : Cursor) (name : String) (old left : Json) :
    Prop where
  gone : get? (parent.child (.key name)) left = none
  others : ∀ d, Apart (parent.child (.key name)) d → get? d left = get? d root
  restored : set old (parent.child (.key name)) left = ⟨.ok (), root⟩

/-- A value without an item: its list is one shorter, the items before are as they were, each later
item has moved up by one, all that is beside the list is as it was, and a last item can be put back. -/
structure LosesItem (root : Json) (parent : Cursor) (i : Nat) (old left : Json) : Prop where
  shorter : ∃ items fewer, get? parent root = some (.array items) ∧
    get? parent left = some (.array fewer) ∧ items.length = fewer.length + 1
  before : ∀ j rest, j < i →
    get? (parent ++ .index j :: rest) left = get? (parent ++ .index j :: rest) root
  after : ∀ j rest, i ≤ j →
    get? (parent ++ .index j :: rest) left = get? (parent ++ .index (j + 1) :: rest) root
  others : ∀ d, Apart parent d → get? d left = get? d root
  restored : ∀ items, get? parent root = some (.array items) → items.length = i + 1 →
    set old (parent.child (.index i)) left = ⟨.ok (), root⟩

theorem losesMember (ordered : root.Ordered) {members : List (String × Json)}
    (found : get? c root = some (.object members)) (inside : Record.get? members name = some old) :
    LosesMember root c name old (set (.object (Record.erase members name)) c root).value := by
  have succeeded : (set (.object (Record.erase members name)) c root).Succeeded :=
    set_succeeded_of_get? found
  have ascending : Record.Ascending members := (ordered.get? found).1
  refine ⟨?_, fun d apart => ?_, ?_⟩
  · rw [get?_child, get?_set succeeded]
    exact Record.get?_erase_self ascending name
  · rcases apart.child_cases with beside | ⟨other, rest, differ, rfl⟩
    · exact get?_set_of_apart beside _ root
    · rw [get?_append_set succeeded, get?_append, found, Option.bind_some, get?_cons, get?_cons]
      cases other with
      | index i => rfl
      | key other =>
        have kept := Record.get?_erase_of_ne members fun same => differ (congrArg Segment.key same)
        exact congrArg (Option.bind · (get? rest)) kept
  · refine set_child_restores found ?_
    rw [set_key]
    have whole := Record.insert_erase ascending inside
    exact congrArg (fun members => Written.mk (.ok ()) (Json.object members)) whole

theorem losesItem {items : List Json} (found : get? c root = some (.array items))
    (inside : items[i]? = some old) :
    LosesItem root c i old (set (.array (items.eraseIdx i)) c root).value := by
  have succeeded : (set (.array (items.eraseIdx i)) c root).Succeeded := set_succeeded_of_get? found
  obtain ⟨within, rfl⟩ := List.getElem?_eq_some_iff.1 inside
  have length : items.length = (items.eraseIdx i).length + 1 := by
    rw [List.length_eraseIdx_of_lt within]
    omega
  refine ⟨⟨items, _, found, get?_set succeeded, length⟩, fun j rest less => ?_,
    fun j rest more => ?_, fun d apart => get?_set_of_apart apart _ root, fun all isAll last => ?_⟩
  · rw [get?_append_set succeeded, get?_append, found, Option.bind_some, get?_cons, get?_cons]
    exact congrArg (Option.bind · (get? rest)) (List.getElem?_eraseIdx_of_lt less)
  · rw [get?_append_set succeeded, get?_append, found, Option.bind_some, get?_cons, get?_cons]
    exact congrArg (Option.bind · (get? rest)) (List.getElem?_eraseIdx_of_ge more)
  · cases found.symm.trans isAll
    refine set_child_restores found ?_
    have whole : items.eraseIdx i ++ [items[i]] = items := by
      rw [List.eraseIdx_eq_take_drop_succ, List.drop_of_length_le (Nat.le_of_eq last),
        List.append_nil, List.take_append_getElem, List.take_of_length_le (Nat.le_of_eq last)]
    have place : (items.eraseIdx i).length = i := by omega
    have appended : set items[i] [.index (items.eraseIdx i).length] (.array (items.eraseIdx i)) =
        ⟨.ok (), .array (items.eraseIdx i ++ [items[i]])⟩ := set_index_length _ []
    rwa [place, whole] at appended

/-- A removal succeeds exactly where its path reads a value below the root, and answers that value;
if it fails it changes nothing. What it leaves has lost the member, or the item, that the path ends
in. -/
theorem removal_laws (ordered : root.Ordered) (c : Cursor) :
    (∀ old, (remove c root).result = .ok old ↔ c ≠ Cursor.root ∧ get? c root = some old) ∧
      (∀ e, (remove c root).result = .error e → (remove c root).value = root) ∧
      (∀ parent name old, c = parent.child (.key name) → (remove c root).result = .ok old →
        LosesMember root parent name old (remove c root).value) ∧
      ∀ parent i old, c = parent.child (.index i) → (remove c root).result = .ok old →
        LosesItem root parent i old (remove c root).value := by
  refine ⟨fun old => remove_ok_iff, fun e failed => remove_failed failed, ?_, ?_⟩
  · rintro parent name old rfl removed
    obtain ⟨container, found, inside⟩ := exists_parent (remove_ok_iff.1 removed).2
    rw [remove_child found inside]
    cases Json.takes_of_child? inside with
    | newMember => cases inside
    | member members => exact losesMember ordered found inside
  · rintro parent i old rfl removed
    obtain ⟨container, found, inside⟩ := exists_parent (remove_ok_iff.1 removed).2
    rw [remove_child found inside]
    cases Json.takes_of_child? inside with
    | newItem => cases inside
    | item => exact losesItem found inside

/-- The last tag is removed, or the tags as a whole. -/
theorem tags_removed :
    let root : Json := .object [("tags", .array [.string "a", .string "b"])]
    let tags : Cursor := [.key "tags"]
    root.Ordered ∧
      LosesItem root tags 1 (.string "b") (.object [("tags", .array [.string "a"])]) ∧
      LosesMember root Cursor.root "tags" (.array [.string "a", .string "b"]) (.object []) := by
  intro root tags
  have ordered : root.Ordered :=
    ⟨List.pairwise_singleton _ _, ⟨trivial, trivial, trivial⟩, trivial⟩
  obtain ⟨_, _, _, items⟩ := removal_laws ordered (tags.child (.index 1))
  obtain ⟨_, _, members, _⟩ := removal_laws ordered tags
  exact ⟨ordered, items tags 1 _ rfl rfl, members Cursor.root "tags" _ rfl rfl⟩

end Cursor

end PropSandbox

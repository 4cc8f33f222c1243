import PropSandbox.Form.Edit
import PropSandbox.Generation.Minimal
import PropSandbox.Proofs.Removal

/-!
# List edits

An item is appended by a write of the longer list, whether the list was there or was opened for its
first item, and an item is removed by a write of the shorter list. So a list edit that succeeds
changes the list at its cursor as it should and nothing beside, and the removal of the last item
takes an append back.
-/

namespace PropSandbox

theorem Written.eq_of_succeeded {w : Written Unit} (succeeded : w.Succeeded) :
    w = ⟨.ok (), w.value⟩ := by
  obtain ⟨⟨⟩, result⟩ := succeeded
  obtain ⟨_, _⟩ := w
  cases result
  rfl

/-- The items that one more is appended to: those of a list, or none where there is null. -/
inductive Json.Lists : Json → List Json → Prop where
  | null : Lists .null []
  | array (items : List Json) : Lists (.array items) items

theorem Json.Lists.items? {value : Json} {items : List Json} (lists : value.Lists items) :
    value.items?.getD [] = items := by
  cases lists <;> rfl

namespace Cursor

variable {c : Cursor} {root new : Json} {items : List Json}

theorem get?_of_lists (lists : ((get? c root).getD .null).Lists items) :
    items = [] ∨ get? c root = some (.array items) := by
  cases found : get? c root with
  | none =>
    rw [found] at lists
    cases lists
    exact .inl rfl
  | some part =>
    rw [found, Option.getD_some] at lists
    cases lists with
    | null => exact .inl rfl
    | array => exact .inr rfl

/-- A write of an item after the last is a write of the longer list. -/
theorem set_child_length (lists : ((get? c root).getD .null).Lists items) (value : Json) :
    set value (c.child (.index items.length)) root = set (.array (items ++ [value])) c root := by
  refine set_append ?_
  -- null is opened to an empty list, so both cases write below the path a list with one item more
  generalize (get? c root).getD .null = list at lists
  cases lists with
  | null => rfl
  | array =>
    rw [set_index_length]
    rfl

/-- A value that reads something new at a path, and what it read before at every path beside. -/
structure Changed (c : Cursor) (root new left : Json) : Prop where
  reads : get? c left = some new
  others : ∀ d, Apart c d → get? d left = get? d root

theorem changed_set (succeeded : (set new c root).Succeeded) :
    Changed c root new (set new c root).value :=
  ⟨get?_set succeeded, fun _ apart => get?_set_of_apart apart new root⟩

end Cursor

namespace FieldEdit

variable {σ : Type} {config : GenerationConfig σ} {t item : PropType} {c : Cursor} {root : Json}
  {items : List Json} {k : Nat} {s : σ}

/-! ## Appending -/

theorem appendTo_of_no_item (noItem : itemType? t = none) :
    ((appendTo config t c root).run s).1 = ⟨.error (.notAList c.text), root⟩ := by
  unfold appendTo
  rw [noItem]
  rfl

theorem appendTo_of_lists (isItem : itemType? t = some item)
    (lists : ((c.get? root).getD .null).Lists items) :
    ((appendTo config t c root).run s).1 =
      Cursor.set (.array (items ++
        [((config.generate item (c.child (.index items.length))).run s).1])) c root := by
  have longer := Cursor.set_child_length lists
  rw [← longer]
  unfold appendTo
  simp only [isItem]
  cases found : c.get? root with
  | none =>
    rw [found] at lists
    cases lists
    rfl
  | some list =>
    rw [found, Option.getD_some] at lists
    cases lists with
    | null => rfl
    | array => rfl

theorem appendTo_of_not_lists (isItem : itemType? t = some item)
    (noList : ∀ items, ¬ ((c.get? root).getD .null).Lists items) :
    ((appendTo config t c root).run s).1 = ⟨.error (.notAList c.text), root⟩ := by
  unfold appendTo
  simp only [isItem]
  cases found : c.get? root with
  | none =>
    rw [found] at noList
    exact absurd .null (noList [])
  | some list =>
    rw [found, Option.getD_some] at noList
    cases list with
    | null => exact absurd .null (noList [])
    | array items => exact absurd (.array items) (noList items)
    | _ => rfl

/-- An item is appended by a write of the longer list, if there is a list or null. -/
theorem appendTo_cases (config : GenerationConfig σ) (isItem : itemType? t = some item)
    (c : Cursor) (root : Json) (s : σ) :
    (∃ items place, ((c.get? root).getD .null).Lists items ∧
        ((appendTo config t c root).run s).1 =
          Cursor.set (.array (items ++ [((config.generate item place).run s).1])) c root) ∨
      ((∀ items, ¬ ((c.get? root).getD .null).Lists items) ∧
        ((appendTo config t c root).run s).1 = ⟨.error (.notAList c.text), root⟩) := by
  by_cases list : ∃ items, ((c.get? root).getD .null).Lists items
  · obtain ⟨items, lists⟩ := list
    exact .inl ⟨items, _, lists, appendTo_of_lists isItem lists⟩
  · have noList := not_exists.1 list
    exact .inr ⟨noList, appendTo_of_not_lists isItem noList⟩

/-! ## Removing -/

/-- An item is removed by a write of the shorter list. -/
theorem removeFrom_of_items (found : c.get? root = some (.array items))
    (inside : k < items.length) :
    removeFrom c k root = Cursor.set (.array (items.eraseIdx k)) c root := by
  have child : (Json.array items).child? (.index k) = some items[k] :=
    List.getElem?_eq_getElem inside
  rw [Written.eq_of_succeeded (Cursor.set_succeeded_of_get? found), removeFrom, found]
  simp only [Cursor.remove_child found child]
  rfl

theorem removeFrom_of_no_item
    (noItem : ¬ ∃ items, c.get? root = some (.array items) ∧ k < items.length) :
    ∃ e, removeFrom c k root = ⟨.error e, root⟩ := by
  unfold removeFrom
  split
  · rename_i items found
    have absent : Cursor.get? (c.child (.index k)) root = none := by
      rw [Cursor.get?_child, found]
      exact List.getElem?_eq_none (Nat.le_of_not_lt fun inside => noItem ⟨items, found, inside⟩)
    obtain ⟨e, stops⟩ := Cursor.remove_child_of_none absent
    rw [stops]
    exact ⟨e, rfl⟩
  · exact ⟨_, rfl⟩
  · exact ⟨_, rfl⟩
  · exact ⟨_, rfl⟩

theorem removeFrom_succeeded_iff : (removeFrom c k root).Succeeded ↔
    ∃ items, c.get? root = some (.array items) ∧ k < items.length := by
  by_cases isItem : ∃ items, c.get? root = some (.array items) ∧ k < items.length
  · obtain ⟨items, found, inside⟩ := isItem
    rw [removeFrom_of_items found inside]
    exact iff_of_true (Cursor.set_succeeded_of_get? found) ⟨items, found, inside⟩
  · obtain ⟨e, stops⟩ := removeFrom_of_no_item isItem
    rw [stops]
    exact iff_of_false Written.not_succeeded_error isItem

theorem removeFrom_failed {e : CursorError} (failed : (removeFrom c k root).result = .error e) :
    (removeFrom c k root).value = root := by
  by_cases isItem : ∃ items, c.get? root = some (.array items) ∧ k < items.length
  · obtain ⟨⟨⟩, succeeded⟩ := removeFrom_succeeded_iff.2 isItem
    rw [succeeded] at failed
    cases failed
  · obtain ⟨_, stops⟩ := removeFrom_of_no_item isItem
    rw [stops]

/-! ## Exactly one thing -/

theorem itemType?_of_element {leaf : TypeLeaf} (kind : leaf.kind = .built .arrayOf)
    (element : leaf.element? = some item) : itemType? (.known leaf) = some item := by
  simp [itemType?, PropType.leaf?, kind, element]

theorem appendTo_changed (isItem : itemType? t = some item)
    (succeeded : ((appendTo config t c root).run s).1.Succeeded) :
    ∃ items, ((c.get? root).getD .null).Lists items ∧
      c.Changed root (.array (items ++
        [((config.generate item (c.child (.index items.length))).run s).1]))
        ((appendTo config t c root).run s).1.value := by
  by_cases list : ∃ items, ((c.get? root).getD .null).Lists items
  · obtain ⟨items, lists⟩ := list
    rw [appendTo_of_lists isItem lists] at succeeded ⊢
    exact ⟨items, lists, Cursor.changed_set succeeded⟩
  · rw [appendTo_of_not_lists isItem (not_exists.1 list)] at succeeded
    exact absurd succeeded Written.not_succeeded_error

/-- An item that was appended to a list is taken back. -/
theorem removeFrom_appendTo (config : GenerationConfig σ) (isItem : itemType? t = some item)
    (found : c.get? root = some (.array items)) (s : σ) :
    ((appendTo config t c root).run s).1.Succeeded ∧
      removeFrom c items.length ((appendTo config t c root).run s).1.value = ⟨.ok (), root⟩ := by
  have lists : ((c.get? root).getD .null).Lists items := by
    rw [found]
    exact .array items
  rw [appendTo_of_lists isItem lists]
  generalize ((config.generate item (c.child (.index items.length))).run s).1 = new
  have succeeded : (Cursor.set (.array (items ++ [new])) c root).Succeeded :=
    Cursor.set_succeeded_of_get? found
  refine ⟨succeeded, ?_⟩
  rw [removeFrom_of_items (Cursor.get?_set succeeded) (by simp), Cursor.set_set succeeded,
    List.eraseIdx_append_of_length_le (Nat.le_refl _), Nat.sub_self, List.eraseIdx_cons_zero,
    List.append_nil, Cursor.set_get? found]

/-- List edits change one list and nothing beside. An item that is appended comes after those that
were read, or after none where there was null or nothing, and its value is made for its place. An
item is removed exactly if there is one at the index, and if not nothing changes. What was appended
to a list is taken back by a removal. -/
theorem list_edits {σ : Type} (config : GenerationConfig σ) (c : Cursor) (root : Json) (s : σ) :
    (∀ (leaf : TypeLeaf) (item : PropType), leaf.kind = .built .arrayOf →
        leaf.element? = some item →
      let appended := ((FieldEdit.appendItem.apply config (.known leaf) c root).run s).1
      (appended.Succeeded → ∃ items, ((c.get? root).getD .null).Lists items ∧
        c.Changed root (.array (items ++
          [((config.generate item (c.child (.index items.length))).run s).1])) appended.value) ∧
      ∀ items, c.get? root = some (.array items) → appended.Succeeded ∧ ∀ t later,
        (((FieldEdit.removeItem items.length).apply config t c appended.value).run later).1 =
          ⟨.ok (), root⟩) ∧
    ∀ t k, let removed := (((FieldEdit.removeItem k).apply config t c root).run s).1
      (removed.Succeeded ↔ ∃ items, c.get? root = some (.array items) ∧ k < items.length) ∧
      (∀ items, c.get? root = some (.array items) → removed.Succeeded →
        c.Changed root (.array (items.eraseIdx k)) removed.value) ∧
      ∀ e, removed.result = .error e → removed.value = root := by
  refine ⟨fun leaf item kind element => ⟨fun succeeded => ?_, fun items found => ?_⟩,
    fun t k => ⟨removeFrom_succeeded_iff, fun items found succeeded => ?_,
      fun e failed => removeFrom_failed failed⟩⟩
  · exact appendTo_changed (itemType?_of_element kind element) succeeded
  · obtain ⟨succeeded, restored⟩ :=
      removeFrom_appendTo config (itemType?_of_element kind element) found s
    exact ⟨succeeded, fun t later => restored⟩
  · obtain ⟨all, isAll, inside⟩ := removeFrom_succeeded_iff.1 succeeded
    cases found.symm.trans isAll
    change c.Changed root _ (removeFrom c k root).value
    rw [removeFrom_of_items found inside]
    exact Cursor.changed_set (Cursor.set_succeeded_of_get? found)

/-- A list of numbers that must be there. -/
def numbers : TypeLeaf :=
  ⟨.built .arrayOf, false, some [.element (.known ⟨.leaf .number, true, none,
    (Library.fresh.standard .number).required⟩)], Library.fresh.standard .array⟩

/-- A row is appended to one row and taken back, or the one row is removed. -/
theorem rows_edited :
    let root : Json := .object [("rows", .array [.ofNat 1])]
    let rows : Cursor := [.key "rows"]
    let edited (edit : FieldEdit) (value : Json) : Written Unit :=
      ((edit.apply .static (.known numbers) rows value).run ()).1
    let appended := edited .appendItem root
    (∃ row, rows.Changed root (.array [.ofNat 1, row]) appended.value) ∧
      edited (.removeItem 1) appended.value = ⟨.ok (), root⟩ ∧
      rows.Changed root (.array []) (edited (.removeItem 0) root).value := by
  intro root rows edited appended
  obtain ⟨appends, removes⟩ := list_edits .static rows root ()
  obtain ⟨changes, restores⟩ := appends numbers _ rfl rfl
  obtain ⟨succeeded, restored⟩ := restores [.ofNat 1] rfl
  obtain ⟨removed, shortens, _⟩ := removes (.known numbers) 0
  obtain ⟨items, lists, changed⟩ := changes succeeded
  cases lists
  exact ⟨⟨_, changed⟩, restored _ (), shortens _ rfl (removed.2 ⟨_, rfl, Nat.zero_lt_one⟩)⟩

end FieldEdit

end PropSandbox

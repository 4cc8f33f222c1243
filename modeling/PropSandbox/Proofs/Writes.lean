import PropSandbox.Cursor.Write

/-!
# Laws of writes

A write along a path takes its steps one by one: at each it opens what is null, goes on with the
part below, and puts back what the rest of the path made of that part. So its laws come from the
laws of one step: a container shows the part that was put in, no other part changes, a second part
takes the place of the first, and parts at two steps go in in any order.
-/

namespace PropSandbox

theorem Written.not_succeeded_error {α : Type} {e : CursorError} {value : Json} :
    ¬ Written.Succeeded (⟨.error e, value⟩ : Written α) := by
  rintro ⟨_, ⟨⟩⟩

/-! ## One step -/

namespace Json

variable {value part first second : Json} {step other : Segment}

/-- A container with a part put in at a step: in place of the part there, as a new member, or after
the last item. -/
def put : Json → Segment → Json → Json
  | .object members, .key name, part => .object (Record.insert members name part)
  | .array items, .index i, part =>
    .array (if i < items.length then items.set i part else items ++ [part])
  | value, _, _ => value

theorem put_ne_null (given : value ≠ .null) (step : Segment) (part : Json) :
    value.put step part ≠ .null := by
  unfold put
  split
  · exact nofun
  · exact nofun
  · exact given

theorem opened_of_ne_null (given : value ≠ .null) (step : Segment) :
    value.opened step = value := by
  cases value with
  | null => exact absurd rfl given
  | _ => cases step <;> rfl

theorem opened_ne_null (value : Json) (step : Segment) : value.opened step ≠ .null := by
  cases value with
  | null => cases step <;> exact nofun
  | _ => cases step <;> exact nofun

/-- What is opened for a step has no parts yet. -/
theorem child?_opened (value : Json) (step other : Segment) :
    (value.opened step).child? other = value.child? other := by
  cases value with
  | null => cases step <;> cases other <;> rfl
  | _ => cases step <;> rfl

/-- A value with a part written at a step, opened for it if the value is null. -/
def withPart (value : Json) (step : Segment) (part : Json) : Json :=
  (value.opened step).put step part

theorem withPart_of_ne_null (given : value ≠ .null) (step : Segment) (part : Json) :
    value.withPart step part = value.put step part := by
  rw [withPart, opened_of_ne_null given]

/-- A value that takes a part at a step: an object under any name, a list in place of an item or
after the last one, and null what begins a new object or a new list. -/
inductive Takes : Json → Segment → Prop where
  | newMember (name : String) : Takes .null (.key name)
  | newItem : Takes .null (.index 0)
  | member (members : List (String × Json)) (name : String) : Takes (.object members) (.key name)
  | item {items : List Json} {i : Nat} (inside : i ≤ items.length) :
      Takes (.array items) (.index i)

theorem takes_of_child? (found : value.child? step = some part) : value.Takes step := by
  cases value with
  | object members =>
    cases step with
    | key name => exact .member members name
    | index i => cases found
  | array items =>
    cases step with
    | key name => cases found
    | index i => exact .item (Nat.le_of_lt (List.getElem?_eq_some_iff.1 found).1)
  | _ => cases step <;> cases found

/-- Putting back the part that is there changes nothing. -/
theorem withPart_child (found : value.child? step = some part) :
    value.withPart step part = value := by
  cases takes_of_child? found with
  | newMember name => cases found
  | newItem => cases found
  | member members name => exact congrArg object (Record.insert_get? found)
  | @item items i inside =>
    obtain ⟨within, rfl⟩ := List.getElem?_eq_some_iff.1 found
    simp [withPart, opened, put, within]

namespace Takes

theorem child?_withPart (takes : value.Takes step) (part : Json) :
    (value.withPart step part).child? step = some part := by
  cases takes with
  | newMember name => exact Record.get?_insert_self [] name part
  | newItem => rfl
  | member members name => exact Record.get?_insert_self members name part
  | @item items i inside =>
    change (if i < items.length then items.set i part else items ++ [part])[i]? = some part
    split
    · simp [*]
    · have last : i = items.length := by omega
      simp [last]

theorem child?_withPart_of_ne (takes : value.Takes step) (part : Json) (differ : other ≠ step) :
    (value.withPart step part).child? other = value.child? other := by
  cases takes with
  | newMember name =>
    cases other with
    | index i => rfl
    | key other => exact Record.get?_insert_of_ne [] part fun same => differ (congrArg _ same)
  | newItem =>
    cases other with
    | key name => rfl
    | index i =>
      cases i with
      | zero => exact absurd rfl differ
      | succ i => rfl
  | member members name =>
    cases other with
    | index i => rfl
    | key other => exact Record.get?_insert_of_ne members part fun same => differ (congrArg _ same)
  | @item items i inside =>
    cases other with
    | key name => rfl
    | index j =>
      have apart : j ≠ i := fun same => differ (congrArg _ same)
      change (if i < items.length then items.set i part else items ++ [part])[j]? = items[j]?
      split
      · exact List.getElem?_set_ne apart.symm
      · rcases Nat.lt_or_ge j items.length with within | beyond
        · exact List.getElem?_append_left within
        · rw [List.getElem?_eq_none beyond, List.getElem?_eq_none]
          rw [List.length_append, List.length_singleton]
          omega

theorem withPart_withPart (takes : value.Takes step) (first second : Json) :
    (value.withPart step first).withPart step second = value.withPart step second := by
  cases takes with
  | newMember name => exact congrArg object (Record.insert_insert [] name first second)
  | newItem => rfl
  | member members name => exact congrArg object (Record.insert_insert members name first second)
  | @item items i inside =>
    rcases Nat.lt_or_eq_of_le inside with within | rfl
    · simp [withPart, opened, put, within]
    · simp [withPart, opened, put]

theorem withPart_comm (takes : value.Takes step) (takesOther : value.Takes other)
    (differ : other ≠ step) (still : (value.withPart step first).Takes other) :
    (value.withPart other second).Takes step ∧
      (value.withPart step first).withPart other second =
        (value.withPart other second).withPart step first := by
  cases takes with
  | newMember name =>
    cases takesOther with
    | newMember other =>
      have apart : name ≠ other := fun same => differ (congrArg _ same.symm)
      exact ⟨.member _ _, congrArg object (Record.insert_comm [] apart _ _)⟩
    | newItem => cases still
  | newItem =>
    cases takesOther with
    | newMember other => cases still
    | newItem => exact absurd rfl differ
  | member members name =>
    cases takesOther with
    | member _ other =>
      have apart : name ≠ other := fun same => differ (congrArg _ same.symm)
      exact ⟨.member _ _, congrArg object (Record.insert_comm members apart _ _)⟩
  | @item items i inside =>
    cases takesOther with
    | @item _ j insideOther =>
      have apart : i ≠ j := fun same => differ (congrArg _ same.symm)
      rcases Nat.lt_or_eq_of_le inside with within | rfl
      · rcases Nat.lt_or_eq_of_le insideOther with withinOther | rfl
        · refine ⟨.item ?_, ?_⟩
          · simp [withinOther, inside]
          · simp [withPart, opened, put, within, withinOther, List.set_comm _ _ apart]
        · refine ⟨.item ?_, ?_⟩
          · simp; omega
          · simp [withPart, opened, put, within, Nat.lt_succ_of_lt within]
      · have withinOther : j < items.length := by omega
        refine ⟨.item ?_, ?_⟩
        · simp [withinOther]
        · simp [withPart, opened, put, withinOther, Nat.lt_succ_of_lt withinOther]

end Takes

end Json

/-! ## Whole paths -/

namespace Cursor

variable {new later root part : Json} {step : Segment} {rest c d : Cursor}

/-- A path that can be written: walking it from the root, every step meets a value that takes a part
there, where what is absent counts as null. -/
def Passable (c : Cursor) (root : Json) : Prop :=
  ∀ before step after, c = before ++ step :: after → ((get? before root).getD .null).Takes step

/-- Neither of two paths goes on from the other. -/
def Apart (c d : Cursor) : Prop :=
  ¬ c <+: d ∧ ¬ d <+: c

theorem passable_nil (root : Json) : Passable [] root :=
  fun before _ _ same => absurd same.symm (by simp)

theorem passable_cons_iff : Passable (step :: rest) root ↔
    root.Takes step ∧ Passable rest ((root.child? step).getD .null) := by
  constructor
  · intro passable
    refine ⟨passable [] step rest rfl, fun before other after same => ?_⟩
    have further := passable (step :: before) other after (by rw [same, List.cons_append])
    rwa [getD_get?_cons] at further
  · rintro ⟨takes, further⟩ before other after same
    cases before with
    | nil =>
      cases same
      exact takes
    | cons first before =>
      obtain ⟨rfl, rfl⟩ := List.cons.inj same
      rw [getD_get?_cons]
      exact further before other after rfl

/-! ### The first step of a write -/

/-- A write that is taken goes on with the part below. -/
theorem set_cons (takes : root.Takes step) (new : Json) (rest : Cursor) :
    set new (step :: rest) root =
      (set new rest ((root.child? step).getD .null)).within (root.withPart step) := by
  cases takes with
  | newMember name => exact set_key_null new name rest
  | newItem => exact set_first_null new rest
  | member members name => exact set_key new name rest members
  | @item items i inside =>
    have child : (Json.array items).child? (.index i) = items[i]? := rfl
    rw [child]
    rcases Nat.lt_or_eq_of_le inside with within | rfl
    · rw [set_index new rest within, List.getElem?_eq_getElem within]
      simp [Json.withPart, Json.opened, Json.put, within, Written.within]
    · rw [set_index_length, List.getElem?_eq_none (Nat.le_refl _)]
      simp [Json.withPart, Json.opened, Json.put, Written.within]

/-- A step is taken, or it fails whatever is written and wherever the path goes on. -/
theorem takes_or_stops (root : Json) (step : Segment) :
    root.Takes step ∨
      root.child? step = none ∧
        ∃ e, ∀ new rest, set new (step :: rest) root = ⟨.error e, root.opened step⟩ := by
  cases root with
  | null =>
    cases step with
    | key name => exact .inl (.newMember name)
    | index i =>
      cases i with
      | zero => exact .inl .newItem
      | succ i => exact .inr ⟨rfl, _, fun new rest => set_later_null new rest⟩
  | object members =>
    cases step with
    | key name => exact .inl (.member members name)
    | index i => exact .inr ⟨rfl, _, fun _ _ => rfl⟩
  | array items =>
    cases step with
    | key name => exact .inr ⟨rfl, _, fun _ _ => rfl⟩
    | index i =>
      rcases Nat.lt_or_ge items.length i with beyond | inside
      · exact .inr ⟨List.getElem?_eq_none (Nat.le_of_lt beyond), _,
          fun new rest => set_index_beyond new rest beyond⟩
      · exact .inl (.item inside)
  | _ => cases step <;> exact .inr ⟨rfl, _, fun _ _ => rfl⟩

theorem takes_of_succeeded (succeeded : (set new (step :: rest) root).Succeeded) :
    root.Takes step := by
  rcases takes_or_stops root step with takes | ⟨_, e, stops⟩
  · exact takes
  · rw [stops] at succeeded
    exact absurd succeeded Written.not_succeeded_error

theorem succeeded_cons_iff : (set new (step :: rest) root).Succeeded ↔
    root.Takes step ∧ (set new rest ((root.child? step).getD .null)).Succeeded := by
  constructor
  · intro succeeded
    have takes := takes_of_succeeded succeeded
    rw [set_cons takes] at succeeded
    exact ⟨takes, succeeded⟩
  · rintro ⟨takes, succeeded⟩
    rw [set_cons takes]
    exact succeeded

/-- A second write through a part that was put in goes on with that part. -/
theorem set_withPart (takes : root.Takes step) (part : Json) (later : Json) (rest : Cursor) :
    set later (step :: rest) (root.withPart step part) =
      (set later rest part).within (root.withPart step) := by
  have found := takes.child?_withPart part
  rw [set_cons (Json.takes_of_child? found), found, Option.getD_some, Written.within,
    Written.within, takes.withPart_withPart]

/-! ### A write and what is read at its path -/

/-- A write goes through exactly along the paths that can be written. -/
theorem set_succeeded_iff : (set new c root).Succeeded ↔ c.Passable root := by
  induction c generalizing root with
  | nil => exact ⟨fun _ => passable_nil root, fun _ => ⟨(), rfl⟩⟩
  | cons step rest ih => rw [succeeded_cons_iff, passable_cons_iff, ih]

theorem get?_set (succeeded : (set new c root).Succeeded) :
    get? c (set new c root).value = some new := by
  induction c generalizing root with
  | nil => rfl
  | cons step rest ih =>
    obtain ⟨takes, below⟩ := succeeded_cons_iff.1 succeeded
    rw [set_cons takes, get?_cons, Written.within, takes.child?_withPart, Option.bind_some]
    exact ih below

/-- Of two writes at one path the second counts. -/
theorem set_set (succeeded : (set new c root).Succeeded) (later : Json) :
    set later c (set new c root).value = set later c root := by
  induction c generalizing root with
  | nil => rfl
  | cons step rest ih =>
    obtain ⟨takes, below⟩ := succeeded_cons_iff.1 succeeded
    rw [set_cons takes, set_cons takes, Written.within, set_withPart takes, ih below]

/-- Writing what is read changes nothing. -/
theorem set_get? (found : get? c root = some part) : set part c root = ⟨.ok (), root⟩ := by
  induction c generalizing root with
  | nil =>
    cases found
    rfl
  | cons step rest ih =>
    obtain ⟨inner, here, further⟩ := Option.bind_eq_some_iff.1 found
    rw [set_cons (Json.takes_of_child? here), here, Option.getD_some, ih further, Written.within,
      Json.withPart_child here]

theorem set_succeeded_of_get? (found : get? c root = some part) : (set new c root).Succeeded := by
  have same := set_get? found
  exact set_succeeded_iff.2 (set_succeeded_iff.1 ⟨(), congrArg Written.result same⟩)

/-- A write below a path is a write at the path, if it succeeds there. -/
theorem set_append {value inner : Json}
    (written : set value d ((get? c root).getD .null) = ⟨.ok (), inner⟩) :
    set value (c ++ d) root = set inner c root := by
  induction c generalizing root with
  | nil => exact written
  | cons step rest ih =>
    rw [getD_get?_cons] at written
    rcases takes_or_stops root step with takes | ⟨_, e, stops⟩
    · rw [List.cons_append, set_cons takes, set_cons takes, ih written]
    · rw [List.cons_append, stops, stops]

/-! ### A write and the paths beside it -/

theorem Apart.symm (apart : Apart c d) : Apart d c :=
  ⟨apart.2, apart.1⟩

theorem Apart.ne_nil (apart : Apart c d) : d ≠ [] := by
  rintro rfl
  exact apart.2 List.nil_prefix

theorem Apart.tail (apart : Apart (step :: c) (step :: d)) : Apart c d :=
  ⟨fun longer => apart.1 (List.cons_prefix_cons.2 ⟨rfl, longer⟩),
    fun longer => apart.2 (List.cons_prefix_cons.2 ⟨rfl, longer⟩)⟩

/-- Below what is absent there is as little as below null. -/
theorem get?_getD_null (further : d ≠ []) (value : Option Json) :
    get? d (value.getD .null) = value.bind (get? d) := by
  cases value with
  | some value => rfl
  | none =>
    cases d with
    | nil => exact absurd rfl further
    | cons step rest => cases step <;> rfl

/-- A write shows at no path beside its own, whether it goes through or fails on the way. -/
theorem get?_set_of_apart (apart : Apart c d) (new root : Json) :
    get? d (set new c root).value = get? d root := by
  induction c generalizing root d with
  | nil => exact absurd rfl apart.symm.ne_nil
  | cons step rest ih =>
    cases d with
    | nil => exact absurd rfl apart.ne_nil
    | cons other d =>
      rw [get?_cons, get?_cons]
      rcases takes_or_stops root step with takes | ⟨_, e, stops⟩
      · rw [set_cons takes, Written.within]
        by_cases same : other = step
        · subst same
          rw [takes.child?_withPart, Option.bind_some, ih apart.tail,
            get?_getD_null apart.tail.ne_nil]
        · rw [takes.child?_withPart_of_ne _ same]
      · rw [stops, Json.child?_opened]

/-- Two writes at paths apart come to the same in both orders, if one order goes through and the
later write goes through alone as well. -/
theorem set_comm (apart : Apart c d) (first : (set new c root).Succeeded)
    (second : (set later d (set new c root).value).Succeeded)
    (alone : (set later d root).Succeeded) :
    (set new c (set later d root).value).Succeeded ∧
      (set new c (set later d root).value).value = (set later d (set new c root).value).value := by
  induction c generalizing root d with
  | nil => exact absurd rfl apart.symm.ne_nil
  | cons step rest ih =>
    cases d with
    | nil => exact absurd rfl apart.ne_nil
    | cons other d =>
      obtain ⟨takes, below⟩ := succeeded_cons_iff.1 first
      obtain ⟨takesOther, belowOther⟩ := succeeded_cons_iff.1 alone
      rw [set_cons takes, Written.within] at second ⊢
      rw [set_cons takesOther, Written.within]
      by_cases same : other = step
      · subst same
        rw [set_withPart takes] at second ⊢
        rw [set_withPart takes]
        obtain ⟨succeeded, equal⟩ := ih apart.tail below second belowOther
        exact ⟨succeeded, congrArg (root.withPart other) equal⟩
      · have still := takes_of_succeeded second
        obtain ⟨takesLast, swapped⟩ := takes.withPart_comm takesOther same still
        rw [set_cons takesLast, set_cons still, takesOther.child?_withPart_of_ne _ (Ne.symm same),
          takes.child?_withPart_of_ne _ same]
        exact ⟨below, swapped.symm⟩

/-! ### The laws -/

/-- A write goes through exactly if every step of its path meets a value that takes a part there,
and then its path reads what was written. A second write at the path goes through as well and comes
to what it comes to alone, and writing what is read changes nothing. -/
theorem write_laws (c : Cursor) (root new : Json) :
    ((set new c root).Succeeded ↔ c.Passable root) ∧
      ((set new c root).Succeeded →
        get? c (set new c root).value = some new ∧
          ∀ later, (set later c (set new c root).value).Succeeded ∧
            (set later c (set new c root).value).value = (set later c root).value) ∧
      ∀ old, get? c root = some old → set old c root = ⟨.ok (), root⟩ := by
  refine ⟨set_succeeded_iff, fun succeeded => ⟨get?_set succeeded, fun later => ?_⟩,
    fun old found => set_get? found⟩
  rw [set_set succeeded]
  exact ⟨set_succeeded_iff.2 (set_succeeded_iff.1 succeeded), rfl⟩

/-- A name is written twice into an item that was not there, and read. -/
theorem name_written :
    let root : Json := .object [("users", .array [])]
    let name : Cursor := [.key "users", .index 0, .key "name"]
    let written := set (.string "a") name root
    name.Passable root ∧ get? name written.value = some (.string "a") ∧
      (set (.string "b") name written.value).value = (set (.string "b") name root).value ∧
      set (.string "a") name written.value = ⟨.ok (), written.value⟩ := by
  intro root name written
  obtain ⟨passable, reads, _⟩ := write_laws name root (.string "a")
  have succeeded : written.Succeeded := ⟨(), rfl⟩
  obtain ⟨found, again⟩ := reads succeeded
  obtain ⟨_, _, restores⟩ := write_laws name written.value (.string "a")
  exact ⟨passable.1 succeeded, found, (again _).2, restores _ found⟩

/-- A write, even one that fails on the way, changes nothing that is read at a path beside its own;
and writes at two such paths come to the same in both orders. -/
theorem write_local (apart : Apart c d) (new root : Json) :
    get? d (set new c root).value = get? d root ∧
      ∀ later, (set new c root).Succeeded → (set later d (set new c root).value).Succeeded →
        (set later d root).Succeeded →
          (set new c (set later d root).value).Succeeded ∧
            (set new c (set later d root).value).value =
              (set later d (set new c root).value).value :=
  ⟨get?_set_of_apart apart new root, fun _ first second alone => set_comm apart first second alone⟩

/-- Both the name and the first tag of a user open the user where there is null. -/
theorem user_written :
    let root : Json := .object [("user", .null)]
    let name : Cursor := [.key "user", .key "name"]
    let tag : Cursor := [.key "user", .key "tags", .index 0]
    let named := set (.string "a") name root
    let tagged := set (.string "b") tag root
    (Apart name tag ∧ named.Succeeded ∧ (set (.string "b") tag named.value).Succeeded ∧
        tagged.Succeeded) ∧
      get? tag named.value = get? tag root ∧
      (set (.string "a") name tagged.value).value = (set (.string "b") tag named.value).value := by
  intro root name tag named tagged
  have apart : Apart name tag := ⟨by decide, by decide⟩
  have first : named.Succeeded := ⟨(), rfl⟩
  have second : (set (.string "b") tag named.value).Succeeded := ⟨(), rfl⟩
  have alone : tagged.Succeeded := ⟨(), rfl⟩
  obtain ⟨unchanged, swaps⟩ := write_local apart (.string "a") root
  exact ⟨⟨apart, first, second, alone⟩, unchanged, (swaps _ first second alone).2⟩

end Cursor

end PropSandbox

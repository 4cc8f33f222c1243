import PropSandbox.Form.Edit

/-!
# JSON forms of cursors and edits

A cursor has one JSON form: it is read from the array it is written as, and from nothing else. An
edit has many, since an object may hold more than the edit, and may say that nothing comes with it.
What counts is the operation that is named and the value that comes with it, so whatever an edit
was read from, it is read again from the form it is written in.

Indices are held in 64 bits, and no other number is read as one.
-/

namespace PropSandbox

variable {value item : Json}

/-! ## Indices -/

/-- An index as it is held: in 64 bits, without a sign. -/
def IsIndex (i : Nat) : Prop :=
  i < 0x10000000000000000

instance (i : Nat) : Decidable (IsIndex i) :=
  inferInstanceAs (Decidable (i < _))

theorem FieldEdit.indexOfJson?_eq_some_iff {i : Nat} :
    indexOfJson? value = some i ↔ IsIndex i ∧ .ofNat i = value := by
  cases value with
  | number n =>
    cases n with
    | integer n =>
      simp only [indexOfJson?, IsIndex, Json.ofNat, Option.ite_none_right_eq_some,
        Option.some.injEq, Json.number.injEq, Number.integer.injEq]
      omega
    | double x => exact iff_of_false nofun fun written => nomatch written.2
  | _ => exact iff_of_false nofun fun written => nomatch written.2

/-! ## Cursors -/

/-- What may stand in the form of a cursor: a text, or a whole number that is an index. -/
inductive Json.IsStep : Json → Prop where
  | name (name : String) : IsStep (.string name)
  | index {i : Nat} (fits : IsIndex i) : IsStep (.ofNat i)

namespace Segment

variable {step : Segment}

/-- A step that can be held: a name, or an index that is one. -/
def Fits : Segment → Prop
  | .index i => IsIndex i
  | .key _ => True

instance : DecidablePred Fits
  | .index i => inferInstanceAs (Decidable (IsIndex i))
  | .key _ => inferInstanceAs (Decidable True)

def toJson : Segment → Json
  | .index i => .ofNat i
  | .key name => .string name

theorem Fits.isStep (fits : step.Fits) : step.toJson.IsStep := by
  cases step with
  | index i => exact .index fits
  | key name => exact .name name

end Segment

namespace Cursor

variable {step : Segment} {c : Cursor} {items : List Json}

def Fits (c : Cursor) : Prop :=
  ∀ step ∈ c, step.Fits

instance (c : Cursor) : Decidable c.Fits :=
  inferInstanceAs (Decidable (∀ step ∈ c, step.Fits))

theorem toJson_eq (c : Cursor) : c.toJson = .array (c.map Segment.toJson) := rfl

/-- The index in a path is read like the index of an item to be removed. -/
theorem stepOfJson?_eq (item : Json) : stepOfJson? item =
    (item.text?.map .key).or ((FieldEdit.indexOfJson? item).map .index) := by
  cases item with
  | number n =>
    cases n with
    | integer n =>
      simp only [stepOfJson?, FieldEdit.indexOfJson?]
      split <;> rfl
    | double x => rfl
  | _ => rfl

/-- A step is read from its own form alone: a text is a name, whatever its characters, and only a
whole number is an index. -/
theorem stepOfJson?_eq_some_iff :
    stepOfJson? item = some step ↔ step.Fits ∧ step.toJson = item := by
  cases step with
  | index i =>
    calc stepOfJson? item = some (.index i)
      _ ↔ FieldEdit.indexOfJson? item = some i := by
        rw [stepOfJson?_eq]
        cases item <;> simp [Json.text?, FieldEdit.indexOfJson?]
      _ ↔ IsIndex i ∧ .ofNat i = item := FieldEdit.indexOfJson?_eq_some_iff
  | key name =>
    rw [stepOfJson?_eq]
    cases item <;> simp [Json.text?, Segment.Fits, Segment.toJson, eq_comm]

theorem mapM_stepOfJson?_eq_some_iff :
    items.mapM stepOfJson? = some c ↔ c.Fits ∧ c.map Segment.toJson = items := by
  induction items generalizing c with
  | nil => cases c <;> simp [Fits]
  | cons item items ih =>
    simp only [List.mapM_cons, Option.bind_eq_bind, Option.bind_eq_some_iff, Option.pure_def,
      Option.some.injEq, stepOfJson?_eq_some_iff, ih]
    constructor
    · rintro ⟨step, ⟨fits, rfl⟩, rest, ⟨restFits, rfl⟩, rfl⟩
      exact ⟨List.forall_mem_cons.2 ⟨fits, restFits⟩, rfl⟩
    · rintro ⟨allFit, written⟩
      cases c with
      | nil => cases written
      | cons step rest =>
        cases written
        obtain ⟨fits, restFits⟩ := List.forall_mem_cons.1 allFit
        exact ⟨step, ⟨fits, rfl⟩, rest, ⟨restFits, rfl⟩, rfl⟩

/-- Reading takes back what writing made, and accepts nothing else. -/
theorem ofJson?_eq_some_iff : ofJson? value = some c ↔ c.Fits ∧ c.toJson = value := by
  cases value with
  | array items =>
    simp only [ofJson?, mapM_stepOfJson?_eq_some_iff, toJson_eq, Json.array.injEq]
  | _ => exact iff_of_false nofun fun written => nomatch written.2

theorem Fits.exists_steps (fits : c.Fits) :
    ∃ items, c.toJson = .array items ∧ ∀ item ∈ items, item.IsStep := by
  refine ⟨c.map Segment.toJson, toJson_eq c, fun item stands => ?_⟩
  obtain ⟨step, within, rfl⟩ := List.mem_map.1 stands
  exact (fits step within).isStep

end Cursor

/-! ## Edits -/

namespace FieldEdit

variable {edit : FieldEdit} {op : String} {named : Json} {given : Option Json}
  {members : Record Json}

def Fits : FieldEdit → Prop
  | .removeItem index => IsIndex index
  | _ => True

/-- The name of an edit's operation. -/
def operation : FieldEdit → String
  | .set _ => "set"
  | .clear => "clear"
  | .removeItem _ => "remove_item"
  | .appendItem => "append_item"

/-- The value that comes with an edit's operation. -/
def operand? : FieldEdit → Option Json
  | .set value => some value
  | .removeItem index => some (.ofNat index)
  | .clear | .appendItem => none

theorem toJson_eq (edit : FieldEdit) : edit.toJson =
    .object (("op", .string edit.operation) :: (edit.operand?.map ("value", ·)).toList) := by
  cases edit <;> rfl

/-- How an operation is named: by a text, or by the only name in an object, with null under it. -/
inductive Names : Json → String → Prop where
  | text (op : String) : Names (.string op) op
  | only (op : String) : Names (.object [(op, .null)]) op

theorem operation?_eq_some_iff : operation? named = some op ↔ Names named op := by
  constructor
  · intro read
    unfold operation? at read
    split at read
    · cases read
      exact .text op
    · cases read
      exact .only op
    · cases read
  · rintro (_ | _) <;> rfl

/-- What comes with an edit: its operand, or nothing if it has none. Null counts as nothing there,
while an edit that sets null is given null. -/
def Brings (edit : FieldEdit) (given : Option Json) : Prop :=
  match edit.operand? with
  | some value => given = some value
  | none => given.getD .null = .null

theorem ofParts?_operation_iff :
    ofParts? edit.operation given = some edit ↔ edit.Fits ∧ edit.Brings given := by
  cases edit with
  | set value => simp [ofParts?, operation, Fits, Brings, operand?]
  | removeItem index =>
    calc ofParts? "remove_item" given = some (.removeItem index)
      _ ↔ given.bind indexOfJson? = some index := by simp [ofParts?, -Option.map_bind]
      _ ↔ ∃ value, given = some value ∧ IsIndex index ∧ .ofNat index = value := by
        simp only [Option.bind_eq_some_iff, indexOfJson?_eq_some_iff]
      _ ↔ IsIndex index ∧ given = some (.ofNat index) := by
        constructor
        · rintro ⟨_, isGiven, fits, rfl⟩
          exact ⟨fits, isGiven⟩
        · rintro ⟨fits, isGiven⟩
          exact ⟨_, isGiven, fits, rfl⟩
  | clear | appendItem =>
    -- of what is given, only whether it is null is looked at
    cases given with
    | none => simp [ofParts?, operation, Fits, Brings, operand?]
    | some value => cases value <;> simp [ofParts?, operation, Fits, Brings, operand?]

/-- An edit is read for the operation that was named, and for no other. -/
theorem operation_eq_of_ofParts? (read : ofParts? op given = some edit) : edit.operation = op := by
  unfold ofParts? at read
  split at read
  · rename_i isSet
    obtain ⟨value, _, rfl⟩ := Option.map_eq_some_iff.1 read
    exact isSet.symm
  split at read
  · rename_i isRemoveItem
    obtain ⟨index, _, rfl⟩ := Option.map_eq_some_iff.1 read
    exact isRemoveItem.symm
  split at read
  · rename_i isPlain
    have isEdit : (if op = "clear" then .clear else .appendItem) = edit := by
      split at read
      · exact Option.some.inj read
      · exact Option.some.inj read
      · cases read
    subst isEdit
    rcases isPlain with rfl | rfl <;> rfl
  · cases read

theorem ofParts?_eq_some_iff : ofParts? op given = some edit ↔
    edit.Fits ∧ edit.operation = op ∧ edit.Brings given := by
  constructor
  · intro read
    obtain rfl := operation_eq_of_ofParts? read
    obtain ⟨fits, brings⟩ := ofParts?_operation_iff.1 read
    exact ⟨fits, rfl, brings⟩
  · rintro ⟨fits, rfl, brings⟩
    exact ofParts?_operation_iff.2 ⟨fits, brings⟩

/-- Members that tell an edit: one names its operation, and what is under the other comes with it.
No other member counts. -/
structure WrittenIn (edit : FieldEdit) (members : Record Json) : Prop where
  names : ∃ named, Record.get? members "op" = some named ∧ Names named edit.operation
  brings : edit.Brings (Record.get? members "value")

theorem ofJson?_object_iff : ofJson? (.object members) = some edit ↔
    edit.Fits ∧ edit.WrittenIn members := by
  simp only [ofJson?, Option.bind_eq_bind, Option.bind_eq_some_iff, operation?_eq_some_iff,
    ofParts?_eq_some_iff]
  constructor
  · rintro ⟨_, names, fits, rfl, brings⟩
    exact ⟨fits, names, brings⟩
  · rintro ⟨fits, names, brings⟩
    exact ⟨_, names, fits, rfl, brings⟩

/-- Whatever an edit is read from, an index in it was read as one. -/
theorem fits_of_ofJson? (read : ofJson? value = some edit) : edit.Fits := by
  unfold ofJson? at read
  split at read
  · obtain ⟨_, _, told⟩ := Option.bind_eq_some_iff.1 read
    exact (ofParts?_eq_some_iff.1 told).1
  · obtain ⟨_, _, told⟩ := Option.bind_eq_some_iff.1 read
    exact (ofParts?_eq_some_iff.1 told).1
  · cases read

theorem ofJson?_toJson (fits : edit.Fits) : ofJson? edit.toJson = some edit := by
  rw [toJson_eq, ofJson?_object_iff]
  refine ⟨fits, ⟨.string edit.operation, rfl, .text _⟩, ?_⟩
  cases edit <;> simp [Brings, operand?, Record.get?]

end FieldEdit

/-- Cursors and edits are read back from their JSON forms. What is read as a cursor is an array of
texts and indices, and is the form of that cursor. What is read as an edit may be another form of
it: an object is read as an edit exactly if it names the operation and what is given there comes
with it. The edit is then the same when it is written and read again. -/
theorem json_forms_read_back :
    (∀ c : Cursor, c.Fits → Cursor.ofJson? c.toJson = some c) ∧
    (∀ (value : Json) (c : Cursor), Cursor.ofJson? value = some c →
      (∃ items, value = .array items ∧ ∀ item ∈ items, item.IsStep) ∧ c.toJson = value) ∧
    (∀ edit : FieldEdit, edit.Fits → FieldEdit.ofJson? edit.toJson = some edit) ∧
    (∀ (members : Record Json) (edit : FieldEdit),
      FieldEdit.ofJson? (.object members) = some edit ↔ edit.Fits ∧ edit.WrittenIn members) ∧
    ∀ (value : Json) (edit : FieldEdit), FieldEdit.ofJson? value = some edit →
      FieldEdit.ofJson? edit.toJson = some edit := by
  refine ⟨fun c fits => Cursor.ofJson?_eq_some_iff.2 ⟨fits, rfl⟩, fun value c read => ?_,
    fun edit fits => FieldEdit.ofJson?_toJson fits,
    fun members edit => FieldEdit.ofJson?_object_iff,
    fun value edit read => FieldEdit.ofJson?_toJson (FieldEdit.fits_of_ofJson? read)⟩
  obtain ⟨fits, rfl⟩ := Cursor.ofJson?_eq_some_iff.1 read
  exact ⟨fits.exists_steps, rfl⟩

/-- A path through the last index and a name of digits, an edit that sets the form of an edit that
sets null, and an edit told among other members. -/
theorem stray_member_read_back :
    let path : Cursor := [.key "rows", .index 0xFFFFFFFFFFFFFFFF, .key "0"]
    let edit : FieldEdit := .set (FieldEdit.set .null).toJson
    let members : Record Json :=
      [("at", path.toJson), ("op", .object [("append_item", .null)]), ("value", .null)]
    (path.Fits ∧ Cursor.ofJson? path.toJson = some path ∧
      ∃ items, path.toJson = .array items ∧ ∀ item ∈ items, item.IsStep) ∧
      (edit.Fits ∧ FieldEdit.ofJson? edit.toJson = some edit) ∧
      FieldEdit.ofJson? (.object members) = some .appendItem ∧
      FieldEdit.ofJson? FieldEdit.appendItem.toJson = some .appendItem := by
  intro path edit members
  obtain ⟨cursorBack, cursorForm, editBack, told, again⟩ := json_forms_read_back
  have pathFits : path.Fits := by decide
  have pathBack : Cursor.ofJson? path.toJson = some path := cursorBack path pathFits
  have read : FieldEdit.ofJson? (.object members) = some .appendItem :=
    (told members .appendItem).2 ⟨trivial, ⟨_, rfl, .only _⟩, rfl⟩
  exact ⟨⟨pathFits, pathBack, (cursorForm _ _ pathBack).1⟩, ⟨trivial, editBack edit trivial⟩, read,
    again _ _ read⟩

end PropSandbox

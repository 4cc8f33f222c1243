/-!
# Records

A record holds values under names: the members of an object, the fields of a shape, the props of
a component. Whatever a record is built from, it lists its names in ascending order, by code
point, so that `"10" < "9" < "A" < "a"`; every walk over a record follows that order.
-/

namespace PropSandbox

/-- Values under names, listed by ascending name. -/
abbrev Record (α : Type) := List (String × α)

namespace Record

variable {α β : Type}

/-- The names of a record, in order. -/
def keys (record : Record α) : List String :=
  record.map Prod.fst

/-- What it means for a record to be in order: each name is less than all later ones. -/
def Ascending (record : Record α) : Prop :=
  (keys record).Pairwise (· < ·)

def get? : Record α → String → Option α
  | [], _ => none
  | (name, value) :: rest, key => if name = key then some value else get? rest key

/-- Puts a value in place of the one under a name. -/
def replace : Record α → String → α → Record α
  | [], _, _ => []
  | (name, old) :: rest, key, value =>
    if name = key then (key, value) :: rest else (name, old) :: replace rest key value

/-- Puts a value under a new name, where the order wants it. -/
def place : Record α → String → α → Record α
  | [], key, value => [(key, value)]
  | (name, old) :: rest, key, value =>
    if key < name then (key, value) :: (name, old) :: rest
    else (name, old) :: place rest key value

/-- Puts a value under a name: in place of the value there, else where the order wants it. -/
def insert (record : Record α) (key : String) (value : α) : Record α :=
  if (get? record key).isSome then replace record key value else place record key value

/-- Takes a name out. -/
def erase : Record α → String → Record α
  | [], _ => []
  | (name, value) :: rest, key => if name = key then rest else (name, value) :: erase rest key

/-- The record of a list of pairs; of two pairs with one name the later one counts. -/
def ofList (pairs : List (String × α)) : Record α :=
  pairs.foldl (fun record pair => insert record pair.1 pair.2) []

/-- Changes every value and keeps the names. -/
def mapValues (f : α → β) (record : Record α) : Record β :=
  record.map fun entry => (entry.1, f entry.2)

/-! ## Reading after writing -/

@[simp] theorem get?_nil (key : String) : get? ([] : Record α) key = none := rfl

theorem get?_cons (name : String) (value : α) (rest : Record α) (key : String) :
    get? ((name, value) :: rest) key = if name = key then some value else get? rest key := rfl

theorem get?_replace_self {record : Record α} {key : String} (value : α)
    (known : (get? record key).isSome) : get? (replace record key value) key = some value := by
  induction record with
  | nil => simp at known
  | cons entry rest ih =>
    obtain ⟨name, old⟩ := entry
    by_cases same : name = key
    · simp [replace, get?, same]
    · simp only [get?, same, if_false] at known
      simp [replace, get?, same, ih known]

theorem get?_replace_of_ne (record : Record α) {key other : String} (value : α)
    (h : other ≠ key) : get? (replace record key value) other = get? record other := by
  induction record with
  | nil => rfl
  | cons entry rest ih =>
    obtain ⟨name, old⟩ := entry
    by_cases same : name = key
    · simp [replace, get?, same, Ne.symm h]
    · simp [replace, get?, same, ih]

theorem get?_place_self {record : Record α} {key : String} (value : α)
    (new : get? record key = none) : get? (place record key value) key = some value := by
  induction record with
  | nil => simp [place, get?]
  | cons entry rest ih =>
    obtain ⟨name, old⟩ := entry
    have differ : name ≠ key := by
      rintro rfl
      simp [get?] at new
    simp only [get?, differ, if_false] at new
    by_cases less : key < name
    · simp [place, get?, less]
    · simp [place, get?, less, differ, ih new]

theorem get?_place_of_ne (record : Record α) {key other : String} (value : α)
    (h : other ≠ key) : get? (place record key value) other = get? record other := by
  induction record with
  | nil => simp [place, get?, Ne.symm h]
  | cons entry rest ih =>
    obtain ⟨name, old⟩ := entry
    by_cases less : key < name
    · simp [place, get?, less, Ne.symm h]
    · simp [place, get?, less, ih]

@[simp] theorem get?_insert_self (record : Record α) (key : String) (value : α) :
    get? (insert record key value) key = some value := by
  rw [insert]
  split
  · rename_i known
    exact get?_replace_self value known
  · rename_i new
    exact get?_place_self value (by simpa using new)

theorem get?_insert_of_ne (record : Record α) {key other : String} (value : α) (h : other ≠ key) :
    get? (insert record key value) other = get? record other := by
  rw [insert]
  split
  · exact get?_replace_of_ne record value h
  · exact get?_place_of_ne record value h

/-- Putting back the value that is there changes nothing. -/
theorem insert_get? {record : Record α} {key : String} {value : α}
    (found : get? record key = some value) : insert record key value = record := by
  rw [insert, found, Option.isSome_some, if_pos rfl]
  induction record with
  | nil => rfl
  | cons entry rest ih =>
    obtain ⟨name, old⟩ := entry
    by_cases same : name = key
    · simp only [get?, same, if_true, Option.some.injEq] at found
      simp [replace, same, found]
    · simp only [get?, same, if_false] at found
      simp [replace, same, ih found]

/-! A second value under a name takes the place of the first, and values under two names go in in any
order. -/

theorem replace_replace (record : Record α) (key : String) (first second : α) :
    replace (replace record key first) key second = replace record key second := by
  induction record with
  | nil => rfl
  | cons entry rest ih =>
    obtain ⟨name, old⟩ := entry
    by_cases same : name = key
    · simp [replace, same]
    · simp [replace, same, ih]

theorem replace_place {record : Record α} {key : String} (first second : α)
    (new : get? record key = none) :
    replace (place record key first) key second = place record key second := by
  induction record with
  | nil => simp [place, replace]
  | cons entry rest ih =>
    obtain ⟨name, old⟩ := entry
    have differ : name ≠ key := by
      rintro rfl
      simp [get?] at new
    simp only [get?, differ, if_false] at new
    by_cases less : key < name
    · simp [place, replace, less]
    · simp [place, replace, less, differ, ih new]

theorem insert_eq (record : Record α) (key : String) (value : α) : insert record key value =
    if (get? record key).isSome then replace record key value else place record key value := rfl

theorem insert_insert (record : Record α) (key : String) (first second : α) :
    insert (insert record key first) key second = insert record key second := by
  have known : (get? (insert record key first) key).isSome := by simp
  rw [insert, if_pos known, insert, insert]
  split
  · exact replace_replace record key first second
  · rename_i new
    exact replace_place first second (by simpa using new)

theorem replace_comm (record : Record α) {key other : String} (differ : key ≠ other) (x y : α) :
    replace (replace record key x) other y = replace (replace record other y) key x := by
  induction record with
  | nil => rfl
  | cons entry rest ih =>
    obtain ⟨name, old⟩ := entry
    by_cases isKey : name = key
    · simp [replace, isKey, differ]
    · by_cases isOther : name = other
      · simp [replace, isOther, Ne.symm differ]
      · simp [replace, isKey, isOther, ih]

theorem replace_place_of_ne (record : Record α) {key other : String} (differ : key ≠ other)
    (x y : α) : replace (place record key x) other y = place (replace record other y) key x := by
  induction record with
  | nil => simp [place, replace, differ]
  | cons entry rest ih =>
    obtain ⟨name, old⟩ := entry
    by_cases less : key < name
    · by_cases isOther : name = other
      · simp [place, replace, ← isOther, less, isOther ▸ differ]
      · simp [place, replace, less, differ, isOther]
    · by_cases isOther : name = other
      · simp [place, replace, ← isOther, less]
      · simp [place, replace, less, isOther, ih]

theorem place_comm (record : Record α) {key other : String} (differ : key ≠ other) (x y : α) :
    place (place record key x) other y = place (place record other y) key x := by
  -- of the two names one is less, and that one is not placed behind the other
  have order : key < other ∧ ¬ other < key ∨ other < key ∧ ¬ key < other := by
    by_cases less : key < other
    · exact .inl ⟨less, String.lt_asymm less⟩
    · exact .inr ⟨Std.lt_of_le_of_ne (String.not_lt.1 less) differ.symm, less⟩
  induction record with
  | nil => rcases order with ⟨less, notLess⟩ | ⟨less, notLess⟩ <;> simp [place, less, notLess]
  | cons entry rest ih =>
    obtain ⟨name, old⟩ := entry
    by_cases keyFirst : key < name
    · by_cases otherFirst : other < name
      · rcases order with ⟨less, notLess⟩ | ⟨less, notLess⟩ <;>
          simp [place, keyFirst, otherFirst, less, notLess]
      · have notLess : ¬ other < key := fun less => otherFirst (String.lt_trans less keyFirst)
        simp [place, keyFirst, otherFirst, notLess]
    · by_cases otherFirst : other < name
      · have notLess : ¬ key < other := fun less => keyFirst (String.lt_trans less otherFirst)
        simp [place, keyFirst, otherFirst, notLess]
      · simp [place, keyFirst, otherFirst, ih]

theorem insert_comm (record : Record α) {key other : String} (differ : key ≠ other) (x y : α) :
    insert (insert record key x) other y = insert (insert record other y) key x := by
  have keyIn := get?_insert_of_ne record y differ
  have otherIn := get?_insert_of_ne record x differ.symm
  rw [insert_eq (insert record key x), otherIn, insert_eq (insert record other y), keyIn,
    insert_eq record, insert_eq record]
  split
  · split
    · exact replace_comm record differ x y
    · exact replace_place_of_ne record differ x y
  · split
    · exact (replace_place_of_ne record differ.symm y x).symm
    · exact place_comm record differ x y

theorem get?_erase_of_ne (record : Record α) {key other : String} (h : other ≠ key) :
    get? (erase record key) other = get? record other := by
  induction record with
  | nil => rfl
  | cons entry rest ih =>
    obtain ⟨name, old⟩ := entry
    rw [erase]
    split
    · rename_i same
      subst same
      simp [get?, Ne.symm h]
    · simp [get?, ih]

@[simp] theorem keys_mapValues (f : α → β) (record : Record α) :
    keys (mapValues f record) = keys record := by
  simp [keys, mapValues, Function.comp_def]

theorem get?_mapValues (f : α → β) (record : Record α) (key : String) :
    get? (mapValues f record) key = (get? record key).map f := by
  induction record with
  | nil => rfl
  | cons entry rest ih =>
    obtain ⟨name, value⟩ := entry
    simp only [mapValues, List.map_cons, get?_cons] at ih ⊢
    split
    · rfl
    · exact ih

theorem mem_of_get? {record : Record α} {key : String} {value : α}
    (found : get? record key = some value) : (key, value) ∈ record := by
  induction record with
  | nil => simp at found
  | cons entry rest ih =>
    obtain ⟨name, old⟩ := entry
    rw [get?_cons] at found
    split at found
    · rename_i same
      cases found
      simp [same]
    · exact List.mem_cons_of_mem _ (ih found)

/-! ## Order -/

theorem get?_eq_none_iff {record : Record α} {key : String} :
    get? record key = none ↔ key ∉ keys record := by
  induction record with
  | nil => simp [keys]
  | cons entry rest ih =>
    obtain ⟨name, value⟩ := entry
    rw [get?_cons]
    by_cases same : name = key
    · simp [keys, same]
    · rw [if_neg same, ih]
      simp [keys, Ne.symm same]

theorem get?_of_mem_keys {record : Record α} {key : String} (member : key ∈ keys record) :
    ∃ value, get? record key = some value := by
  cases found : get? record key with
  | none => exact absurd member (get?_eq_none_iff.1 found)
  | some value => exact ⟨value, rfl⟩

theorem mem_keys_of_get? {record : Record α} {key : String} {value : α}
    (found : get? record key = some value) : key ∈ keys record :=
  List.mem_map_of_mem (mem_of_get? found)

theorem keys_replace (record : Record α) (key : String) (value : α) :
    keys (replace record key value) = keys record := by
  induction record with
  | nil => rfl
  | cons entry rest ih =>
    obtain ⟨name, old⟩ := entry
    rw [replace]
    split
    · rename_i same
      simp [keys, same]
    · simpa [keys] using ih

theorem mem_replace {record : Record α} {key : String} {value : α} {entry : String × α}
    (h : entry ∈ replace record key value) : entry = (key, value) ∨ entry ∈ record := by
  induction record with
  | nil => simp [replace] at h
  | cons first rest ih =>
    obtain ⟨name, old⟩ := first
    rw [replace] at h
    split at h
    · rcases List.mem_cons.1 h with same | later
      · exact .inl same
      · exact .inr (List.mem_cons_of_mem _ later)
    · rcases List.mem_cons.1 h with rfl | later
      · exact .inr List.mem_cons_self
      · rcases ih later with same | found
        · exact .inl same
        · exact .inr (List.mem_cons_of_mem _ found)

theorem mem_place {record : Record α} {key : String} {value : α} {entry : String × α}
    (h : entry ∈ place record key value) : entry = (key, value) ∨ entry ∈ record := by
  induction record with
  | nil => simpa [place] using h
  | cons first rest ih =>
    obtain ⟨name, old⟩ := first
    rw [place] at h
    split at h
    · simpa using h
    · rcases List.mem_cons.1 h with rfl | later
      · simp
      · rcases ih later with same | found
        · exact .inl same
        · exact .inr (List.mem_cons_of_mem _ found)

/-- A record in order that lacks a name stays in order when the name is placed. -/
theorem ascending_place {record : Record α} {key : String} (value : α)
    (new : key ∉ keys record) (h : Ascending record) : Ascending (place record key value) := by
  induction record with
  | nil => simp [place, Ascending, keys]
  | cons entry rest ih =>
    obtain ⟨first, old⟩ := entry
    obtain ⟨least, ascending⟩ := List.pairwise_cons.1 h
    have differ : key ≠ first := fun same => new (by simp [keys, same])
    rw [place]
    split
    · rename_i less
      refine List.pairwise_cons.2 ⟨fun name found => ?_, h⟩
      rcases List.mem_cons.1 found with rfl | found
      · exact less
      · exact String.lt_trans less (least name found)
    · rename_i notLess
      have later : key ∉ keys rest := fun found => new (List.mem_cons_of_mem _ found)
      refine List.pairwise_cons.2 ⟨fun name found => ?_, ih later ascending⟩
      obtain ⟨entry, member, rfl⟩ := List.mem_map.1 found
      rcases mem_place member with rfl | inRest
      · exact Std.lt_of_le_of_ne (String.not_lt.1 notLess) (Ne.symm differ)
      · exact least _ (List.mem_map_of_mem inRest)

/-- A record in order stays in order. -/
theorem ascending_insert {record : Record α} (key : String) (value : α)
    (h : Ascending record) : Ascending (insert record key value) := by
  rw [insert]
  split
  · rw [Ascending, keys_replace]
    exact h
  · rename_i new
    exact ascending_place value (get?_eq_none_iff.1 (by simpa using new)) h

/-- Whatever the pairs, the record lists its names in order, each once. -/
theorem ascending_ofList (pairs : List (String × α)) : Ascending (ofList pairs) := by
  suffices ∀ record : Record α, Ascending record →
      Ascending (pairs.foldl (fun record pair => insert record pair.1 pair.2) record) from
    this [] List.Pairwise.nil
  induction pairs with
  | nil => exact fun _ h => h
  | cons pair rest ih => exact fun record h => ih _ (ascending_insert _ _ h)

/-- In a record in order, every entry is the one its name leads to. -/
theorem get?_of_mem {record : Record α} {key : String} {value : α} (h : Ascending record)
    (member : (key, value) ∈ record) : get? record key = some value := by
  induction record with
  | nil => simp at member
  | cons entry rest ih =>
    obtain ⟨name, old⟩ := entry
    obtain ⟨least, ascending⟩ := List.pairwise_cons.1 h
    rw [get?_cons]
    rcases List.mem_cons.1 member with same | later
    · cases same
      simp
    · have less : name < key := least key (List.mem_map_of_mem later)
      have differ : name ≠ key := fun same => String.lt_irrefl key (same ▸ less)
      rw [if_neg differ]
      exact ih ascending later

/-- A record in order has each name once, so a name that is taken out is gone. -/
theorem get?_erase_self {record : Record α} (ascending : Ascending record) (key : String) :
    get? (erase record key) key = none := by
  induction record with
  | nil => rfl
  | cons entry rest ih =>
    obtain ⟨name, old⟩ := entry
    obtain ⟨least, ascending⟩ := List.pairwise_cons.1 ascending
    rw [erase]
    split
    · rename_i same
      subst same
      exact get?_eq_none_iff.2 fun member => String.lt_irrefl name (least name member)
    · rename_i differ
      rw [get?_cons, if_neg differ]
      exact ih ascending

/-- It goes back to where it was. -/
theorem insert_erase {record : Record α} (ascending : Ascending record) {key : String} {value : α}
    (found : get? record key = some value) : insert (erase record key) key value = record := by
  rw [insert_eq, get?_erase_self ascending, Option.isSome_none, if_neg Bool.false_ne_true]
  induction record with
  | nil => cases found
  | cons entry rest ih =>
    obtain ⟨name, old⟩ := entry
    obtain ⟨least, ascending⟩ := List.pairwise_cons.1 ascending
    rw [get?_cons] at found
    by_cases same : name = key
    · subst same
      rw [if_pos rfl, Option.some.injEq] at found
      subst found
      rw [erase, if_pos rfl]
      cases rest with
      | nil => rfl
      | cons next rest => rw [place, if_pos (least next.1 List.mem_cons_self)]
    · rw [if_neg same] at found
      have less : name < key := least key (mem_keys_of_get? found)
      rw [erase, if_neg same, place, if_neg (String.lt_asymm less), ih ascending found]

theorem length_place (record : Record α) (key : String) (value : α) :
    (place record key value).length = record.length + 1 := by
  induction record with
  | nil => rfl
  | cons entry rest ih =>
    rw [place]
    split
    · rfl
    · rw [List.length_cons, ih, List.length_cons]

theorem length_insert_le (record : Record α) (key : String) (value : α) :
    (insert record key value).length ≤ record.length + 1 := by
  rw [insert]
  split
  · have same := congrArg List.length (keys_replace record key value)
    rw [keys, keys, List.length_map, List.length_map] at same
    exact Nat.le_succ_of_le (Nat.le_of_eq same)
  · exact Nat.le_of_eq (length_place record key value)

/-! ## The record of a list of pairs -/

theorem mem_insert {record : Record α} {key : String} {value : α} {entry : String × α}
    (h : entry ∈ insert record key value) : entry = (key, value) ∨ entry ∈ record := by
  rw [insert] at h
  split at h
  · exact mem_replace h
  · exact mem_place h

/-- A record holds nothing but the pairs it was made of. -/
theorem mem_ofList {pairs : List (String × α)} {entry : String × α}
    (h : entry ∈ ofList pairs) : entry ∈ pairs := by
  suffices ∀ record : Record α,
      entry ∈ pairs.foldl (fun record pair => insert record pair.1 pair.2) record →
        entry ∈ pairs ∨ entry ∈ record by
    simpa using this [] h
  clear h
  induction pairs with
  | nil => exact fun _ member => .inr member
  | cons pair rest ih =>
    intro record member
    rcases ih _ member with later | first
    · exact .inl (List.mem_cons_of_mem _ later)
    · rcases mem_insert first with rfl | old
      · exact .inl List.mem_cons_self
      · exact .inr old

/-- A name beyond all others comes last. -/
theorem insert_last {record : Record α} {key : String} (value : α)
    (last : ∀ name ∈ keys record, name < key) : insert record key value = record ++ [(key, value)] := by
  have new : get? record key = none :=
    get?_eq_none_iff.2 fun member => String.lt_irrefl key (last key member)
  rw [insert, new, Option.isSome_none, if_neg Bool.false_ne_true]
  clear new
  induction record with
  | nil => rfl
  | cons entry rest ih =>
    obtain ⟨name, old⟩ := entry
    have less : name < key := last name List.mem_cons_self
    rw [place, if_neg (String.lt_asymm less), ih fun name member => last name (List.mem_cons_of_mem _ member)]
    rfl

/-- Pairs that are a record already stay as they are. -/
theorem ofList_of_ascending {record : Record α} (ascending : Ascending record) :
    ofList record = record := by
  suffices ∀ done : Record α, Ascending (done ++ record) →
      record.foldl (fun record pair => insert record pair.1 pair.2) done = done ++ record from
    this [] ascending
  clear ascending
  induction record with
  | nil => simp
  | cons entry rest ih =>
    intro done ascending
    have last : ∀ name ∈ keys done, name < entry.1 := by
      rw [Ascending, keys, List.map_append] at ascending
      exact fun name member => (List.pairwise_append.1 ascending).2.2 name member _ List.mem_cons_self
    rw [List.foldl_cons, insert_last entry.2 last, ih]
    · rw [List.append_assoc]
      rfl
    · rw [List.append_assoc]
      exact ascending

theorem mapValues_replace (f : α → β) (record : Record α) (key : String) (value : α) :
    mapValues f (replace record key value) = replace (mapValues f record) key (f value) := by
  induction record with
  | nil => rfl
  | cons entry rest ih =>
    obtain ⟨name, old⟩ := entry
    by_cases same : name = key
    · simp [mapValues, replace, same]
    · simpa [mapValues, replace, same] using ih

theorem mapValues_place (f : α → β) (record : Record α) (key : String) (value : α) :
    mapValues f (place record key value) = place (mapValues f record) key (f value) := by
  induction record with
  | nil => rfl
  | cons entry rest ih =>
    obtain ⟨name, old⟩ := entry
    by_cases less : key < name
    · simp [mapValues, place, less]
    · simpa [mapValues, place, less] using ih

theorem mapValues_insert (f : α → β) (record : Record α) (key : String) (value : α) :
    mapValues f (insert record key value) = insert (mapValues f record) key (f value) := by
  have known : (get? (mapValues f record) key).isSome = (get? record key).isSome := by
    rw [get?_mapValues, Option.isSome_map]
  rw [insert, insert, known]
  split
  · exact mapValues_replace f record key value
  · exact mapValues_place f record key value

/-- Changing values and making the record can change places. -/
theorem mapValues_ofList (f : α → β) (pairs : List (String × α)) :
    mapValues f (ofList pairs) = ofList (mapValues f pairs) := by
  suffices ∀ record : Record α,
      mapValues f (pairs.foldl (fun record pair => insert record pair.1 pair.2) record) =
        (mapValues f pairs).foldl (fun record pair => insert record pair.1 pair.2)
          (mapValues f record) from
    this []
  induction pairs with
  | nil => exact fun _ => rfl
  | cons pair rest ih =>
    intro record
    rw [List.foldl_cons, ih, mapValues_insert]
    rfl

end Record

end PropSandbox

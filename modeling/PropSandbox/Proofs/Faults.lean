import PropSandbox.Cursor
import PropSandbox.Proofs.Validation

/-!
# Where a value fails

A value that is not accepted fails first at one position: a node speaks before its parts, fields and
members are looked at by ascending name and items by ascending index, and a union that no candidate
satisfies is itself the position (`Plan.FailsAt`). The error of a validator is the complaint of the
node at that position. A record puts its own name before the name in the error, but a list puts its
name and the index in place of it. So the prop an error names is the label of the position only as
far as the first index on the path: below that, nothing is told.
-/

namespace PropSandbox

/-! ## Labels -/

namespace Cursor

/-- What a path adds to a label that is not empty. -/
def suffix : Cursor → String
  | [] => ""
  | .index i :: rest => "[" ++ toString i ++ "]" ++ suffix rest
  | .key name :: rest => "." ++ name ++ suffix rest

theorem label_eq_suffix (c : Cursor) {written : String} (begun : written ≠ "") :
    label c written = written ++ suffix c := by
  induction c generalizing written with
  | nil => simp [label, suffix]
  | cons step rest ih =>
    cases step with
    | index i =>
      rw [label, ih (by simp [begun]), suffix]
      simp only [String.append_assoc]
    | key name =>
      rw [label, if_neg (by simp [begun]), ih (by simp [begun]), suffix]
      simp only [String.append_assoc]

theorem suffix_eq_empty_iff {c : Cursor} : suffix c = "" ↔ c = [] := by
  cases c with
  | nil => simp [suffix]
  | cons step rest => cases step <;> simp [suffix]

/-- A path up to its first index. -/
def throughItem : Cursor → Cursor
  | [] => []
  | .index i :: _ => [.index i]
  | .key name :: rest => .key name :: throughItem rest

/-- Nothing is left out of a label but what comes after an index. -/
theorem suffix_throughItem_iff {c : Cursor} :
    suffix (throughItem c) = suffix c ↔ throughItem c = c := by
  induction c with
  | nil => simp [throughItem]
  | cons step rest ih =>
    cases step with
    | index i =>
      simp only [throughItem, suffix, String.append_right_inj]
      rw [eq_comm, suffix_eq_empty_iff, List.cons_inj_right, eq_comm]
    | key name =>
      rw [throughItem, suffix, suffix, String.append_right_inj, ih]
      simp

end Cursor

/-! ## The first failing position -/

/-- What messages expect of a value that is built in some way. -/
def Construction.expected {α : Type} : Construction α → String
  | .shape _ => "`object`"
  | .arrayOf _ => "an array"
  | .objectOf _ => "an object"
  | .instanceOf className => s!"instance of `{className}`"
  | .oneOf choices => "one of " ++ (Json.array choices).compact
  | .oneOfType _ => "one of the accepted types"

namespace Plan

/-- What messages expect of a value of a plan. -/
def expected : Plan → String
  | .leaf kind => Check.leafText kind
  | .extension name _ => s!"`{name}`"
  | .custom _ => ""
  | .built construction => construction.expected
  | .required plan => plan.expected

/-- The error about a value at a node of a plan. -/
def complaint (node : Plan) (found : Json) (location : Location) (prop owner : String) :
    PropError :=
  if found.isNull then .missing location prop owner
  else .invalid location prop owner (Marker.typeName found) node.expected

/-- The values that a node turns away by itself, whatever its parts may say. -/
inductive Refuses : Plan → Json → Prop where
  | missing (plan : Plan) : Refuses (.required plan) .null
  | leaf {kind : LeafKind} {value : Json} (given : value ≠ .null) (fails : ¬ kind.Holds value) :
      Refuses (.leaf kind) value
  | extension {name : String} {holds : Json → Bool} {value : Json} (given : value ≠ .null)
      (fails : holds value ≠ true) : Refuses (.extension name holds) value
  | shape {fields : List (String × Plan)} {value : Json} (given : value ≠ .null)
      (noObject : ∀ members, value ≠ .object members) : Refuses (.built (.shape fields)) value
  | arrayOf {item : Plan} {value : Json} (given : value ≠ .null)
      (noArray : ∀ items, value ≠ .array items) : Refuses (.built (.arrayOf item)) value
  | objectOf {part : Plan} {value : Json} (given : value ≠ .null)
      (noObject : ∀ members, value ≠ .object members) : Refuses (.built (.objectOf part)) value
  | instanceOf {className : String} {value : Json} (given : value ≠ .null)
      (fails : ¬ Marker.Instance className value) : Refuses (.built (.instanceOf className)) value
  | oneOf {choices : List Json} {value : Json} (given : value ≠ .null)
      (fails : ∀ choice ∈ choices, (choice == value) ≠ true) : Refuses (.built (.oneOf choices)) value
  | oneOfType {candidates : List Plan} {value : Json} (given : value ≠ .null)
      (fails : ∀ candidate ∈ candidates, ¬ candidate.Accepts value) :
      Refuses (.built (.oneOfType candidates)) value
  | required {plan : Plan} {value : Json} (given : value ≠ .null) (refuses : Refuses plan value) :
      Refuses (.required plan) value

/-- The path from a value to the first position at which it fails, with the node and the value there.
Everything that comes before the position is accepted. -/
inductive FailsAt : Plan → Json → Cursor → Plan → Json → Prop where
  | here {plan : Plan} {value : Json} (refuses : plan.Refuses value) :
      FailsAt plan value [] plan value
  | field {fields : List (String × Plan)} {members : List (String × Json)} {name : String}
      {part : Plan} {c : Cursor} {node : Plan} {found : Json}
      (declared : (name, part) ∈ Record.ofList fields)
      (earlier : ∀ other ∈ Record.ofList fields, other.1 < name →
        other.2.Accepts ((Record.get? members other.1).getD .null))
      (fails : FailsAt part ((Record.get? members name).getD .null) c node found) :
      FailsAt (.built (.shape fields)) (.object members) (.key name :: c) node found
  | item {part : Plan} {items : List Json} {i : Nat} {value : Json} {c : Cursor} {node : Plan}
      {found : Json} (listed : items[i]? = some value)
      (earlier : ∀ j < i, ∀ other, items[j]? = some other → part.Accepts other)
      (fails : FailsAt part value c node found) :
      FailsAt (.built (.arrayOf part)) (.array items) (.index i :: c) node found
  | member {part : Plan} {members : List (String × Json)} {name : String} {value : Json}
      {c : Cursor} {node : Plan} {found : Json} (listed : Record.get? members name = some value)
      (earlier : ∀ other inner, other < name → Record.get? members other = some inner →
        part.Accepts inner)
      (fails : FailsAt part value c node found) :
      FailsAt (.built (.objectOf part)) (.object members) (.key name :: c) node found
  | required {plan : Plan} {value : Json} {step : Segment} {c : Cursor} {node : Plan} {found : Json}
      (fails : FailsAt plan value (step :: c) node found) :
      FailsAt (.required plan) value (step :: c) node found

/-- The path from a value to the first position at which it fails. -/
def FirstFault (plan : Plan) (value : Json) (c : Cursor) : Prop :=
  ∃ node found, plan.FailsAt value c node found

theorem Refuses.not_accepts {plan : Plan} {value : Json} (refuses : plan.Refuses value) :
    ¬ plan.Accepts value := by
  induction refuses with
  | missing plan =>
    rw [accepts_null_iff]
    exact Bool.false_ne_true
  | leaf given fails => rwa [accepts_leaf_iff given]
  | extension given fails => rwa [accepts_extension_iff given]
  | shape given noObject =>
    rw [accepts_shape_iff given]
    exact fun ⟨members, same, _⟩ => noObject members same
  | arrayOf given noArray =>
    rw [accepts_arrayOf_iff given]
    exact fun ⟨items, same, _⟩ => noArray items same
  | objectOf given noObject =>
    rw [accepts_objectOf_iff given]
    exact fun ⟨members, same, _⟩ => noObject members same
  | instanceOf given fails => rwa [accepts_instanceOf_iff given]
  | oneOf given fails =>
    rw [accepts_oneOf_iff given]
    exact fun ⟨choice, listed, same⟩ => fails choice listed same
  | oneOfType given fails =>
    rw [accepts_oneOfType_iff given]
    exact fun ⟨candidate, listed, accepted⟩ => fails candidate listed accepted
  | required given _ ih => rwa [accepts_required_iff given]

namespace FailsAt

variable {plan node node' : Plan} {value found found' : Json} {c c' : Cursor}

/-- Only what is there has parts that fail. -/
theorem given {step : Segment} (fails : plan.FailsAt value (step :: c) node found) :
    value ≠ .null := by
  generalize isPath : step :: c = path at fails
  induction fails with
  | here => cases isPath
  | field | item | member => exact nofun
  | required _ ih => exact ih isPath

/-- A value that fails somewhere is not accepted. -/
theorem not_accepts (fails : plan.FailsAt value c node found) : ¬ plan.Accepts value := by
  induction fails with
  | here refuses => exact refuses.not_accepts
  | @field fields members _ _ _ _ _ declared _ _ ih =>
    have given : Json.object members ≠ .null := nofun
    rw [accepts_shape_iff given]
    rintro ⟨_, same, each⟩
    cases same
    exact ih (each _ declared)
  | @item _ items _ _ _ _ _ listed _ _ ih =>
    have given : Json.array items ≠ .null := nofun
    rw [accepts_arrayOf_iff given]
    rintro ⟨_, same, each⟩
    cases same
    exact ih (each _ (List.mem_of_getElem? listed))
  | @member _ members _ _ _ _ _ listed _ _ ih =>
    have given : Json.object members ≠ .null := nofun
    rw [accepts_objectOf_iff given]
    rintro ⟨_, same, each⟩
    cases same
    exact ih (each _ _ listed)
  | required below ih => rwa [accepts_required_iff below.given]

/-- A node whose parts fail has not spoken itself. -/
theorem not_refuses {step : Segment} (fails : plan.FailsAt value (step :: c) node found) :
    ¬ plan.Refuses value := by
  generalize isPath : step :: c = path at fails
  induction fails with
  | here => cases isPath
  | field => exact fun | .shape _ noObject => noObject _ rfl
  | item => exact fun | .arrayOf _ noArray => noArray _ rfl
  | member => exact fun | .objectOf _ noObject => noObject _ rfl
  | required below ih =>
    intro refuses
    cases refuses with
    | missing => exact below.given rfl
    | required _ refuses => exact ih isPath refuses

/-- There is one first position, and one node and value there. -/
theorem unique (fails : plan.FailsAt value c node found)
    (fails' : plan.FailsAt value c' node' found') : c = c' ∧ node = node' ∧ found = found' := by
  induction fails generalizing c' node' found' with
  | here refuses =>
    cases c' with
    | nil => cases fails' with | here => exact ⟨rfl, rfl, rfl⟩
    | cons => exact absurd refuses fails'.not_refuses
  | @field fields _ name _ _ _ _ declared earlier fails ih =>
    cases fails' with
    | here refuses => exact absurd refuses (field declared earlier fails).not_refuses
    | @field _ _ name' _ _ _ _ declared' earlier' fails' =>
      -- of two fields that fail the one with the smaller name comes first
      rcases Std.lt_trichotomy name name' with less | rfl | less
      · exact absurd (earlier' _ declared less) fails.not_accepts
      · have ascending := Record.ascending_ofList fields
        cases (Record.get?_of_mem ascending declared).symm.trans
          (Record.get?_of_mem ascending declared')
        obtain ⟨rfl, rest⟩ := ih fails'
        exact ⟨rfl, rest⟩
      · exact absurd (earlier _ declared' less) fails'.not_accepts
  | @item _ _ i _ _ _ _ listed earlier fails ih =>
    cases fails' with
    | here refuses => exact absurd refuses (item listed earlier fails).not_refuses
    | @item _ _ i' _ _ _ _ listed' earlier' fails' =>
      rcases Nat.lt_trichotomy i i' with less | rfl | less
      · exact absurd (earlier' _ less _ listed) fails.not_accepts
      · cases listed.symm.trans listed'
        obtain ⟨rfl, rest⟩ := ih fails'
        exact ⟨rfl, rest⟩
      · exact absurd (earlier _ less _ listed') fails'.not_accepts
  | @member _ _ name _ _ _ _ listed earlier fails ih =>
    cases fails' with
    | here refuses => exact absurd refuses (member listed earlier fails).not_refuses
    | @member _ _ name' _ _ _ _ listed' earlier' fails' =>
      rcases Std.lt_trichotomy name name' with less | rfl | less
      · exact absurd (earlier' _ _ less listed) fails.not_accepts
      · cases listed.symm.trans listed'
        obtain ⟨rfl, rest⟩ := ih fails'
        exact ⟨rfl, rest⟩
      · exact absurd (earlier _ _ less listed') fails'.not_accepts
  | required below ih =>
    cases fails' with
    | here refuses => exact absurd refuses (required below).not_refuses
    | required below' => exact ih below'

end FailsAt

/-! ## Complaints -/

variable {plan node : Plan} {value found : Json} {location : Location} {prop owner : String}
  {error : PropError}

theorem complaint_given (given : found ≠ .null) :
    node.complaint found location prop owner =
      .invalid location prop owner (Marker.typeName found) node.expected := by
  rw [complaint, if_neg (by simp [Json.isNull_eq_false given])]

theorem complaint_rename (f : String → String) :
    (node.complaint found location prop owner).rename f =
      node.complaint found location (f prop) owner := by
  rw [complaint, complaint]
  split <;> rfl

theorem complaint_prop? : (node.complaint found location prop owner).prop? = some prop := by
  rw [complaint]
  split <;> rfl

/-- An error is the complaint of the node at the first position that fails. It names the prop with the
path to the position, up to the first index. -/
def Blamed (plan : Plan) (value : Json) (location : Location) (prop owner : String)
    (error : PropError) : Prop :=
  ∃ c node found, plan.FailsAt value c node found ∧
    error = node.complaint found location (prop ++ c.throughItem.suffix) owner

theorem Refuses.blamed (refuses : plan.Refuses value) :
    plan.Blamed value location prop owner (plan.complaint value location prop owner) :=
  ⟨[], plan, value, .here refuses, by rw [Cursor.throughItem, Cursor.suffix, String.append_empty]⟩

theorem Blamed.required (given : value ≠ .null)
    (blamed : plan.Blamed value location prop owner error) :
    (Plan.required plan).Blamed value location prop owner error := by
  obtain ⟨c, node, found, fails, rfl⟩ := blamed
  cases c with
  | cons step c => exact ⟨_, node, found, .required fails, rfl⟩
  | nil =>
    cases fails with
    | here refuses =>
      refine ⟨[], _, _, .here (.required given refuses), ?_⟩
      rw [complaint_given given, complaint_given given]
      rfl

end Plan

/-! ## Loops -/

namespace Verdict

/-- Checks a list in order, up to the first that fails. -/
def each {α : Type} (check : α → Verdict) : List α → Verdict
  | [] => .accepted
  | a :: rest => (check a).andThen (each check rest)

/-- A rejection comes from the first that fails: what stands before it in the order of the list is
accepted. -/
theorem each_rejected {α : Type} {check : α → Verdict} {r : α → α → Prop}
    (asymm : ∀ a b, r a b → ¬ r b a) {entries : List α} (sorted : entries.Pairwise r)
    {error : PropError} (rejected : each check entries = .rejected error) :
    ∃ a ∈ entries, check a = .rejected error ∧ ∀ b ∈ entries, r b a → check b = .accepted := by
  induction entries with
  | nil => cases rejected
  | cons a rest ih =>
    obtain ⟨after, sorted⟩ := List.pairwise_cons.1 sorted
    rw [each] at rejected
    cases first : check a with
    | aborted text =>
      rw [first] at rejected
      cases rejected
    | rejected _ =>
      rw [first] at rejected
      cases rejected
      refine ⟨a, List.mem_cons_self, first, List.forall_mem_cons.2 ⟨?_, fun b member before => ?_⟩⟩
      · exact fun before => absurd before (asymm a a before)
      · exact absurd before (asymm a b (after b member))
    | accepted =>
      rw [first] at rejected
      obtain ⟨b, member, failed, earlier⟩ := ih sorted rejected
      exact ⟨b, List.mem_cons_of_mem _ member, failed,
        List.forall_mem_cons.2 ⟨fun _ => first, earlier⟩⟩

theorem each_map {α β : Type} (f : α → β) (check : β → Verdict) (entries : List α) :
    each check (entries.map f) = each (fun a => check (f a)) entries := by
  induction entries with
  | nil => rfl
  | cons a rest ih => rw [List.map_cons, each, each, ih]

theorem mapError_eq_accepted {verdict : Verdict} {f : PropError → PropError} :
    verdict.mapError f = .accepted ↔ verdict = .accepted := by
  cases verdict <;> simp [mapError]

theorem mapError_eq_rejected {verdict : Verdict} {f : PropError → PropError} {error : PropError} :
    verdict.mapError f = .rejected error ↔ ∃ inner, verdict = .rejected inner ∧ f inner = error := by
  cases verdict <;> simp [mapError]

end Verdict

/-- A check that puts the blame for a value on the first position that fails. -/
def Check.Blames (check : Check) (plan : Plan) : Prop :=
  ∀ holder prop owner location value error, Record.get? holder prop = some value →
    value ≠ .null → value.Ordered → check holder prop owner location = .rejected error →
    plan.Blamed value location prop owner error

/-- A validator that puts the blame for a value on the first position that fails. -/
def Validator.Blames (v : Validator) (plan : Plan) : Prop :=
  ∀ holder prop owner location error, ((Record.get? holder prop).getD .null).Ordered →
    v.validate holder prop owner location = .rejected error →
    plan.Blamed ((Record.get? holder prop).getD .null) location prop owner error

namespace Check

theorem fields_eq_each (members : Record Json) (prop owner : String) (location : Location)
    (declared : Record Validator) :
    fields members prop owner location declared =
      Verdict.each (fun field => (field.2.validate members field.1 owner location).mapError
        (PropError.withinField prop)) declared := by
  induction declared with
  | nil => rfl
  | cons field rest ih => rw [fields, ih, Verdict.each]

theorem items_eq_each (v : Validator) (prop owner : String) (location : Location) (index : Nat)
    (entries : List Json) :
    items v prop owner location index entries =
      Verdict.each (fun entry =>
        (v.validate [(toString entry.2, entry.1)] (toString entry.2) owner location).mapError
          (PropError.withinItem prop entry.2)) (entries.zipIdx index) := by
  induction entries generalizing index with
  | nil => rfl
  | cons entry rest ih => rw [items, ih, List.zipIdx_cons, Verdict.each]

theorem members_eq_each (v : Validator) (entries : Record Json) (prop owner : String)
    (location : Location) (names : List String) :
    members v entries prop owner location names =
      Verdict.each (fun name => (v.validate entries name owner location).mapError
        (PropError.withinField prop)) names := by
  induction names with
  | nil => rfl
  | cons name rest ih => rw [members, ih, Verdict.each]

theorem candidates_rejected {holder : Record Json} {prop owner : String} {location : Location}
    {choices : List Validator} {error : PropError}
    (rejected : candidates holder prop owner location choices = .rejected error) :
    wrongType ((Record.get? holder prop).getD .null) prop owner location
      "one of the accepted types" = .rejected error := by
  induction choices with
  | nil => exact rejected
  | cons v rest ih =>
    rw [candidates] at rejected
    split at rejected
    · exact ih rejected
    · rename_i other
      exact absurd rejected (other error)

variable {parts : List (Plan × Validator)} {v : Validator} {plan : Plan}

/-- A value of the wrong type is the node's own complaint. -/
theorem wrongType_blamed {value : Json} {prop owner : String} {location : Location}
    {expected : String} {error : PropError} (given : value ≠ .null) (refuses : plan.Refuses value)
    (text : plan.expected = expected)
    (rejected : wrongType value prop owner location expected = .rejected error) :
    plan.Blamed value location prop owner error := by
  have blamed : plan.Blamed value location prop owner _ := refuses.blamed
  rw [Plan.complaint_given given, text] at blamed
  cases rejected
  exact blamed

theorem ofType_blames {expected : String} {accepts : Json → Bool}
    (refuses : ∀ value, value ≠ .null → accepts value ≠ true → plan.Refuses value)
    (text : plan.expected = expected) : (ofType expected accepts).Blames plan := by
  intro holder prop owner location value error found given _ rejected
  simp only [ofType, found, Option.getD_some] at rejected
  split at rejected
  · cases rejected
  · rename_i fails
    exact wrongType_blamed given (refuses value given fails) text rejected

theorem shape_blames {fields : List (String × Plan × Validator)}
    (decides : ∀ field ∈ fields, field.2.2.Decides field.2.1.Accepts)
    (blames : ∀ field ∈ fields, field.2.2.Blames field.2.1) :
    (shape (Record.ofList (Record.mapValues Prod.snd fields))).Blames
      (.built (.shape (Record.mapValues Prod.fst fields))) := by
  intro holder prop owner location value error found given ordered rejected
  simp only [shape, found, Option.getD_some] at rejected
  split at rejected
  · rename_i members
    rw [← Record.mapValues_ofList, fields_eq_each, Record.mapValues, Verdict.each_map] at rejected
    have sorted : (Record.ofList fields).Pairwise fun a b => a.1 < b.1 :=
      List.pairwise_map.1 (Record.ascending_ofList fields)
    obtain ⟨⟨name, part, v⟩, isField, failed, earlier⟩ :=
      Verdict.each_rejected (fun _ _ => String.lt_asymm) sorted rejected
    obtain ⟨inner, reason, rfl⟩ := Verdict.mapError_eq_rejected.1 failed
    obtain ⟨c, node, fault, fails, rfl⟩ :=
      blames _ (Record.mem_ofList isField) _ _ _ _ _ (ordered.field name) reason
    refine ⟨.key name :: c, node, fault, .field ?_ ?_ fails, ?_⟩
    · rw [← Record.mapValues_ofList]
      exact List.mem_map_of_mem isField
    · rw [← Record.mapValues_ofList]
      refine List.forall_mem_map.2 fun other member less => ?_
      have accepted := Verdict.mapError_eq_accepted.1 (earlier other member less)
      exact (decides other (Record.mem_ofList member) _ _ _ _).accepted_iff.1 accepted
    · rw [PropError.withinField, Plan.complaint_rename, Cursor.throughItem, Cursor.suffix]
      simp only [String.append_assoc]
  · rename_i noObject
    exact wrongType_blamed given (.shape given noObject) rfl rejected

theorem arrayOf_blames (decides : v.Decides plan.Accepts) (blames : v.Blames plan) :
    (arrayOf v).Blames (.built (.arrayOf plan)) := by
  intro holder prop owner location value error found given ordered rejected
  simp only [arrayOf, found, Option.getD_some] at rejected
  split at rejected
  · rename_i entries
    rw [items_eq_each] at rejected
    have sorted : (entries.zipIdx).Pairwise fun a b => a.2 < b.2 := by
      rw [← List.pairwise_map, List.zipIdx_map_snd]
      exact List.pairwise_lt_range'
    obtain ⟨⟨item, i⟩, isItem, failed, earlier⟩ :=
      Verdict.each_rejected (fun _ _ => Nat.lt_asymm) sorted rejected
    obtain ⟨inner, reason, rfl⟩ := Verdict.mapError_eq_rejected.1 failed
    have alone : ∀ (item : Json) (i : Nat),
        (Record.get? [(toString i, item)] (toString i)).getD .null = item := by
      intro item i
      rw [Record.get?_cons, if_pos rfl, Option.getD_some]
    have listed := List.mem_zipIdx_iff_getElem?.1 isItem
    obtain ⟨c, node, fault, fails, rfl⟩ := blames _ _ _ _ _
      (by rw [alone]; exact ordered.item (List.mem_of_getElem? listed)) reason
    rw [alone] at fails
    refine ⟨.index i :: c, node, fault, .item listed (fun j less other there => ?_) fails, ?_⟩
    · have member : (other, j) ∈ entries.zipIdx := List.mem_zipIdx_iff_getElem?.2 there
      have accepted := Verdict.mapError_eq_accepted.1 (earlier _ member less)
      have holds := (decides _ _ _ _).accepted_iff.1 accepted
      rwa [alone] at holds
    · rw [PropError.withinItem, Plan.complaint_rename, Cursor.throughItem, Cursor.suffix,
        Cursor.suffix]
      simp only [String.append_assoc, String.append_empty]
  · rename_i noArray
    exact wrongType_blamed given (.arrayOf given noArray) rfl rejected

theorem objectOf_blames (decides : v.Decides plan.Accepts) (blames : v.Blames plan) :
    (objectOf v).Blames (.built (.objectOf plan)) := by
  intro holder prop owner location value error found given ordered rejected
  simp only [objectOf, found, Option.getD_some] at rejected
  split at rejected
  · rename_i entries
    rw [members_eq_each] at rejected
    have sorted : Record.Ascending entries := ordered.1
    obtain ⟨name, isMember, failed, earlier⟩ :=
      Verdict.each_rejected (fun _ _ => String.lt_asymm) sorted rejected
    obtain ⟨inner, reason, rfl⟩ := Verdict.mapError_eq_rejected.1 failed
    obtain ⟨value, listed⟩ := Record.get?_of_mem_keys isMember
    obtain ⟨c, node, fault, fails, rfl⟩ := blames _ _ _ _ _ (ordered.field name) reason
    rw [listed, Option.getD_some] at fails
    refine ⟨.key name :: c, node, fault, .member listed (fun other x less there => ?_) fails, ?_⟩
    · have accepted := Verdict.mapError_eq_accepted.1
        (earlier other (Record.mem_keys_of_get? there) less)
      have holds := (decides _ _ _ _).accepted_iff.1 accepted
      rwa [there, Option.getD_some] at holds
    · rw [PropError.withinField, Plan.complaint_rename, Cursor.throughItem, Cursor.suffix]
      simp only [String.append_assoc]
  · rename_i noObject
    exact wrongType_blamed given (.objectOf given noObject) rfl rejected

theorem instanceOf_blames (className : String) :
    (instanceOf className).Blames (.built (.instanceOf className)) := by
  refine ofType_blames (fun value given fails => .instanceOf given fun marked => fails ?_) rfl
  rw [beq_iff_eq, Marker.instanceClass?]
  exact (Marker.text?_member?_iff ..).2 marked

theorem oneOf_blames (choices : List Json) : (oneOf choices).Blames (.built (.oneOf choices)) := by
  refine ofType_blames (fun value given fails => .oneOf given fun choice listed same => ?_) rfl
  exact fails (List.any_eq_true.2 ⟨choice, listed, same⟩)

theorem oneOfType_blames (decides : ∀ part ∈ parts, part.2.Decides part.1.Accepts) :
    (oneOfType (parts.map Prod.snd)).Blames (.built (.oneOfType (parts.map Prod.fst))) := by
  intro holder prop owner location value error found given _ rejected
  have fails := (oneOfType_decides decides holder prop owner location value found given).rejected_iff.1
    ⟨error, rejected⟩
  rw [Plan.accepts_oneOfType_iff given] at fails
  have wrong := candidates_rejected rejected
  rw [found, Option.getD_some] at wrong
  exact wrongType_blamed given (.oneOfType given fun candidate listed accepted =>
    fails ⟨candidate, listed, accepted⟩) rfl wrong

/-- The check of a construction puts the blame where it belongs, if the parts do. -/
theorem built_blames {construction : Construction (Plan × Validator)}
    (decides : ∀ part ∈ construction.parts, part.2.Decides part.1.Accepts)
    (blames : ∀ part ∈ construction.parts, part.2.Blames part.1) :
    (construction.map Prod.snd).check.Blames (.built (construction.map Prod.fst)) := by
  cases construction with
  | shape fields =>
    exact shape_blames (fun field member => decides _ (List.mem_map_of_mem member))
      fun field member => blames _ (List.mem_map_of_mem member)
  | arrayOf item =>
    exact arrayOf_blames (decides item List.mem_cons_self) (blames item List.mem_cons_self)
  | objectOf part =>
    exact objectOf_blames (decides part List.mem_cons_self) (blames part List.mem_cons_self)
  | instanceOf className => exact instanceOf_blames className
  | oneOf choices => exact oneOf_blames choices
  | oneOfType candidates => exact oneOfType_blames decides

end Check

/-! ## Validators -/

namespace Built

variable {plan : Plan} {v : Validator}

theorem refuses_null (built : Built plan v) (required : plan.isOptional ≠ true) :
    plan.Refuses .null := by
  cases built with
  | required => exact .missing _
  | leaf | extension | built => exact absurd rfl required

/-- What is absent is for the flavor to blame, and all else for the check. -/
theorem blames_of_check (built : Built plan v) (check : v.check.Blames plan) : v.Blames plan := by
  intro holder prop owner location error ordered rejected
  by_cases absent : (Record.get? holder prop).getD .null = .null
  · have fails := (built.fits.decides holder prop owner location).rejected_iff.1 ⟨error, rejected⟩
    rw [absent, Plan.accepts_null_iff] at fails
    obtain ⟨other, flavor⟩ := built.fits.flavor
    rw [Validator.validate_absent absent, flavor, if_neg fails] at rejected
    cases rejected
    rw [absent]
    exact (built.refuses_null fails).blamed
  · cases found : Record.get? holder prop with
    | none => exact absurd (by rw [found, Option.getD_none]) absent
    | some value =>
      rw [found, Option.getD_some] at absent ordered
      rw [Validator.validate_given found absent] at rejected
      exact check holder prop owner location value error found absent ordered rejected

/-- Every check made from library leaves, constructors and required flavors blames the first
position that fails. -/
theorem check_blames (built : Built plan v) : v.check.Blames plan := by
  induction built with
  | leaf kind =>
    refine Check.ofType_blames (fun value given fails => .leaf given fun holds => fails ?_) rfl
    exact (Check.leafAccepts_iff kind value).2 holds
  | extension lib name holds => exact Check.ofType_blames (fun _ => .extension) rfl
  | @built lib construction parts ih =>
    have blames := Check.built_blames (fun part member => (parts part member).fits.decides)
      fun part member => (parts part member).blames_of_check (ih part member)
    rw [Construction.make_eq]
    exact blames
  | @required plan v part ih =>
    rw [Validator.check_required]
    intro holder prop owner location value error found given ordered rejected
    exact (ih holder prop owner location value error found given ordered rejected).required given

end Built

/-- A value that is not accepted has one position that fails first, and is rejected with an error that
names the prop by the label of that position up to the first index on the path. That is the label of
the position itself exactly if nothing on the path comes after an index. -/
theorem validate_failed_prop {plan : Plan} {v : Validator} (built : Built plan v)
    {holder : Record Json} {prop owner : String} {location : Location}
    (ordered : (Json.object holder).Ordered) (named : prop ≠ "")
    (failed : v.validate holder prop owner location ≠ .accepted) :
    ∃ error c, v.validate holder prop owner location = .rejected error ∧
      plan.FirstFault ((Record.get? holder prop).getD .null) c ∧
      (∀ c', plan.FirstFault ((Record.get? holder prop).getD .null) c' → c' = c) ∧
      error.prop? = some (c.throughItem.label prop) ∧
      (error.prop? = some (c.label prop) ↔ c.throughItem = c) := by
  have decides := built.fits.decides holder prop owner location
  obtain ⟨error, rejected⟩ := decides.rejected_iff.2 fun holds => failed (decides.accepted_iff.2 holds)
  obtain ⟨c, node, found, fails, rfl⟩ := built.blames_of_check built.check_blames holder prop owner
    location error (ordered.field prop) rejected
  have unique : ∀ c', plan.FirstFault ((Record.get? holder prop).getD .null) c' → c' = c :=
    fun c' ⟨_, _, fails'⟩ => (fails'.unique fails).1
  refine ⟨_, c, rejected, ⟨node, found, fails⟩, unique, ?_, ?_⟩
  · rw [Plan.complaint_prop?, Cursor.label_eq_suffix _ named]
  · rw [Plan.complaint_prop?, Cursor.label_eq_suffix _ named, Option.some.injEq,
      String.append_right_inj, Cursor.suffix_throughItem_iff]

/-! ## An example -/

/-- A list of rows of numbers. -/
def gridPlan : Plan :=
  .built (.arrayOf (.built (.arrayOf (.leaf .number))))

/-- Makes the validator of `gridPlan`. -/
def grid : StateM Library Validator := do
  let row ← Library.arrayOf (Library.fresh.standard .number)
  Library.arrayOf row

theorem grid_built (lib : Library) : Built gridPlan (grid.run lib).1 := by
  refine @Built.built _ (.arrayOf (_, _)) (List.forall_mem_singleton.2 ?_)
  exact @Built.built lib (.arrayOf (_, _)) (List.forall_mem_singleton.2 (.leaf .number))

/-- Rows of which the second cell of the first is no number. -/
def brokenGrid : Record Json :=
  [("rows", .array [.array [.ofNat 1, .string "x"]])]

theorem brokenGrid_ordered : (Json.object brokenGrid).Ordered :=
  ⟨List.pairwise_singleton .., ⟨⟨trivial, trivial, trivial⟩, trivial⟩, trivial⟩

theorem brokenGrid_fails : gridPlan.FirstFault ((Record.get? brokenGrid "rows").getD .null)
    [.index 0, .index 1] := by
  have cell : (Plan.leaf .number).FailsAt (.string "x") [] (.leaf .number) (.string "x") :=
    .here (.leaf nofun nofun)
  refine ⟨_, _, .item rfl nofun (.item rfl (fun j less other there => ?_) cell)⟩
  cases Nat.lt_one_iff.1 less
  cases there
  exact .leaf nofun (.number _)

theorem grid_rejected : (grid.run .fresh).1.validate brokenGrid "rows" "Table" .prop =
    .rejected (.invalid .prop "rows[0]" "Table" "string" "`number`") := by
  decide

/-- The error tells the row and not the cell. -/
theorem brokenGrid_prop : ∃ error c,
    (grid.run .fresh).1.validate brokenGrid "rows" "Table" .prop = .rejected error ∧
      gridPlan.FirstFault (.array [.array [.ofNat 1, .string "x"]]) c ∧
      error.prop? = some (c.throughItem.label "rows") ∧ c = [.index 0, .index 1] := by
  obtain ⟨error, c, rejected, fails, unique, named, _⟩ :=
    validate_failed_prop (grid_built .fresh) brokenGrid_ordered (by decide : "rows" ≠ "")
      (fun accepted => Verdict.noConfusion (accepted.symm.trans grid_rejected))
  exact ⟨error, c, rejected, fails, named, (unique _ brokenGrid_fails).symm⟩

/-- So an error does not always name the position that fails. -/
theorem failing_cell_unnamed :
    ¬ ∀ (plan : Plan) (v : Validator) (holder : Record Json) (prop owner : String)
      (location : Location) (error : PropError) (c : Cursor), Built plan v →
      (Json.object holder).Ordered → prop ≠ "" →
      v.validate holder prop owner location = .rejected error →
      plan.FirstFault ((Record.get? holder prop).getD .null) c →
      error.prop? = some (c.label prop) := by
  intro named
  have same := named gridPlan _ brokenGrid "rows" "Table" .prop _ _ (grid_built .fresh)
    brokenGrid_ordered (by decide) grid_rejected brokenGrid_fails
  exact absurd same (by decide)

end PropSandbox

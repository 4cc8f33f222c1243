import PropSandbox.Proofs.Faults
import PropSandbox.Proofs.Removal

/-!
# What an error tells

A validator that rejects a value passes on the error of one validator inside it, the one at the first
position that fails (`Validator.Leads`). On the way out the error gets another prop name and is
otherwise left alone. So null is reported as missing where a value is required, and every other
value with the name of its type and with what the validator at the position expects; owner and
location are those that the outermost validator was run with.
-/

namespace PropSandbox

theorem Marker.typeName_ne_null {value : Json} (given : value ≠ .null) :
    typeName value ≠ "null" := by
  cases value with
  | null => exact absurd rfl given
  | object members =>
    rw [typeName]
    split <;> decide
  | _ => simp [typeName]

/-- The validator at a position inside another one, by the calls that made them. -/
inductive Validator.Leads : Validator → Cursor → Validator → Prop where
  | here (v : Validator) : Leads v [] v
  | field (lib : Library) {fields : List (String × Validator)} {name : String} {part w : Validator}
      {c : Cursor} (declared : (name, part) ∈ Record.ofList fields) (further : Leads part c w) :
      Leads ((Library.shape fields).run lib).1 (.key name :: c) w
  | item (lib : Library) (i : Nat) {part w : Validator} {c : Cursor} (further : Leads part c w) :
      Leads ((Library.arrayOf part).run lib).1 (.index i :: c) w
  | member (lib : Library) (name : String) {part w : Validator} {c : Cursor}
      (further : Leads part c w) : Leads ((Library.objectOf part).run lib).1 (.key name :: c) w
  | required {v w : Validator} {step : Segment} {c : Cursor} (further : Leads v (step :: c) w) :
      Leads v.required (step :: c) w

namespace Plan

variable {plan node : Plan} {value found : Json} {c : Cursor}

/-- What stands at the position is what its path reads, where an absent value counts as null. -/
theorem FailsAt.get? (fails : plan.FailsAt value c node found) :
    (c.get? value).getD .null = found := by
  induction fails with
  | here => rfl
  | field _ _ _ ih =>
    rw [Cursor.getD_get?_cons]
    exact ih
  | @item _ items i _ _ _ _ listed _ _ ih =>
    rw [Cursor.getD_get?_cons, show (Json.array items).child? (.index i) = _ from listed]
    exact ih
  | @member _ members name _ _ _ _ listed _ _ ih =>
    rw [Cursor.getD_get?_cons, show (Json.object members).child? (.key name) = _ from listed]
    exact ih
  | required _ ih => exact ih

theorem FailsAt.refuses (fails : plan.FailsAt value c node found) : node.Refuses found := by
  induction fails with
  | here refuses => exact refuses
  | field _ _ _ ih | item _ _ _ ih | member _ _ _ ih | required _ ih => exact ih

/-- What stands at a position of a value in order is in order. -/
theorem FailsAt.ordered (fails : plan.FailsAt value c node found) (ordered : value.Ordered) :
    found.Ordered := by
  rw [← fails.get?]
  cases here : c.get? value with
  | none => trivial
  | some part => exact ordered.get? here

/-- Null is turned away by required flavors only. -/
theorem Refuses.isOptional_of_null (refuses : plan.Refuses .null) : plan.isOptional = false := by
  have fails := refuses.not_accepts
  rw [accepts_null_iff] at fails
  exact Bool.eq_false_iff.2 fails

end Plan

/-! ## The validator at a position -/

namespace Built

variable {plan node : Plan} {v : Validator} {value found : Json} {c : Cursor}

theorem requiresValue_iff (built : Built plan v) :
    v.requiresValue = true ↔ plan.isOptional = false := by
  obtain ⟨other, flavor⟩ := built.fits.flavor
  cases optional : plan.isOptional with
  | true => simp [Validator.requiresValue, flavor, optional]
  | false => simp [Validator.requiresValue, flavor, optional]

/-- The call that built a validator, with the validators it was given. -/
theorem exists_construction {construction : Construction Plan}
    (built : Built (.built construction) v) :
    ∃ (lib : Library) (made : Construction (Plan × Validator)), made.map Prod.fst = construction ∧
      v = ((made.map Prod.snd).make.run lib).1 ∧ ∀ part ∈ made.parts, Built part.1 part.2 := by
  cases built with
  | built lib parts => exact ⟨lib, _, rfl, rfl, parts⟩

/-- Wherever a value can fail there is a validator, made by the plan of the position. -/
theorem exists_leads (built : Built plan v) (fails : plan.FailsAt value c node found) :
    ∃ w, v.Leads c w ∧ Built node w := by
  induction fails generalizing v with
  | here => exact ⟨v, .here v, built⟩
  | @field fields _ name part _ _ _ declared _ _ ih =>
    obtain ⟨lib, made, same, rfl, parts⟩ := built.exists_construction
    cases made with
    | shape madeFields =>
      cases same
      rw [← Record.mapValues_ofList] at declared
      obtain ⟨⟨madeName, madePart⟩, listed, same⟩ := List.mem_map.1 declared
      cases same
      have isPart : madePart ∈ (Construction.shape madeFields).parts :=
        List.mem_map_of_mem (f := Prod.snd) (Record.mem_ofList listed)
      obtain ⟨w, leads, partBuilt⟩ := ih (parts madePart isPart)
      refine ⟨w, .field lib ?_ leads, partBuilt⟩
      rw [← Record.mapValues_ofList]
      exact List.mem_map_of_mem (f := fun entry => (entry.1, entry.2.2)) listed
    | _ => cases same
  | @item _ _ i _ _ _ _ _ _ _ ih =>
    obtain ⟨lib, made, same, rfl, parts⟩ := built.exists_construction
    cases made with
    | arrayOf item =>
      cases same
      obtain ⟨w, leads, partBuilt⟩ := ih (parts item List.mem_cons_self)
      exact ⟨w, .item lib i leads, partBuilt⟩
    | _ => cases same
  | @member _ _ name _ _ _ _ _ _ _ ih =>
    obtain ⟨lib, made, same, rfl, parts⟩ := built.exists_construction
    cases made with
    | objectOf part =>
      cases same
      obtain ⟨w, leads, partBuilt⟩ := ih (parts part List.mem_cons_self)
      exact ⟨w, .member lib name leads, partBuilt⟩
    | _ => cases same
  | required _ ih =>
    cases built with
    | required part =>
      obtain ⟨w, leads, nodeBuilt⟩ := ih part
      exact ⟨w, .required leads, nodeBuilt⟩

/-- A validator whose own node turns a value away complains of it under the name it stands under. -/
theorem validate_refused (built : Built plan v) {holder : Record Json} {prop : String}
    (refuses : plan.Refuses ((Record.get? holder prop).getD .null))
    (ordered : ((Record.get? holder prop).getD .null).Ordered) (owner : String)
    (location : Location) :
    v.validate holder prop owner location =
      .rejected (plan.complaint ((Record.get? holder prop).getD .null) location prop owner) := by
  obtain ⟨error, rejected⟩ :=
    (built.fits.decides holder prop owner location).rejected_iff.2 refuses.not_accepts
  obtain ⟨c, node, found, fails, rfl⟩ :=
    built.blames_of_check built.check_blames holder prop owner location error ordered rejected
  obtain ⟨rfl, rfl, rfl⟩ := fails.unique (.here refuses)
  rw [rejected, Cursor.throughItem, Cursor.suffix, String.append_empty]

end Built

/-! ## Reports -/

/-- What an error tells under a name of a value that a validator inside another one turned away. -/
structure PropError.Reports (error : PropError) (name owner : String) (location : Location)
    (w : Validator) (node : Plan) (found : Json) : Prop where
  missing_iff : error = .missing location name owner ↔ found = .null ∧ w.requiresValue = true
  invalid : ¬ (found = .null ∧ w.requiresValue = true) →
    error = .invalid location name owner (Marker.typeName found) node.expected ∧
      Marker.typeName found ≠ "null"
  /-- Run on such a value by itself, the validator says the same under another name. -/
  alone : ∀ holder prop, (Record.get? holder prop).getD .null = found →
    w.validate holder prop owner location = .rejected (error.rename fun _ => prop)

theorem Built.reports {node : Plan} {w : Validator} {found : Json} (built : Built node w)
    (refuses : node.Refuses found) (ordered : found.Ordered) (name owner : String)
    (location : Location) :
    (node.complaint found location name owner).Reports name owner location w node found := by
  have required : found = .null → w.requiresValue = true := by
    rintro rfl
    exact built.requiresValue_iff.2 refuses.isOptional_of_null
  refine ⟨?_, fun notMissing => ?_, ?_⟩
  · by_cases null : found = .null
    · refine iff_of_true ?_ ⟨null, required null⟩
      rw [null, Plan.complaint, Json.isNull, if_pos rfl]
    · rw [Plan.complaint_given null]
      exact iff_of_false PropError.noConfusion fun both => null both.1
  · have given : found ≠ .null := fun null => notMissing ⟨null, required null⟩
    exact ⟨Plan.complaint_given given, Marker.typeName_ne_null given⟩
  · rintro holder prop rfl
    rw [built.validate_refused refuses ordered, Plan.complaint_rename]

/-- A validator that does not accept a value reports the first position that fails, and there is one
such position. The report is that of the validator at the position about the value there: missing
if and only if the value is null or absent and the validator is the required flavor, and else
invalid with the type of the value and what is expected in its place. Owner and location are passed
down to every depth as they are. -/
theorem validate_reports_first_fault {plan : Plan} {v : Validator} (built : Built plan v)
    {holder : Record Json} {prop owner : String} {location : Location}
    (ordered : (Json.object holder).Ordered)
    (failed : v.validate holder prop owner location ≠ .accepted) :
    ∃ error c node w found, v.validate holder prop owner location = .rejected error ∧
      plan.FailsAt ((Record.get? holder prop).getD .null) c node found ∧
      (∀ c' node' found', plan.FailsAt ((Record.get? holder prop).getD .null) c' node' found' →
        c' = c ∧ node' = node ∧ found' = found) ∧
      v.Leads c w ∧ Built node w ∧
      found = (c.get? ((Record.get? holder prop).getD .null)).getD .null ∧
      error.Reports (prop ++ c.throughItem.suffix) owner location w node found := by
  have decides := built.fits.decides holder prop owner location
  obtain ⟨error, rejected⟩ :=
    decides.rejected_iff.2 fun holds => failed (decides.accepted_iff.2 holds)
  have whole := ordered.field prop
  obtain ⟨c, node, found, fails, rfl⟩ :=
    built.blames_of_check built.check_blames holder prop owner location error whole rejected
  obtain ⟨w, leads, nodeBuilt⟩ := built.exists_leads fails
  exact ⟨_, c, node, w, found, rejected, fails, fun _ _ _ other => other.unique fails, leads,
    nodeBuilt, fails.get?.symm, nodeBuilt.reports fails.refuses (fails.ordered whole) _ _ _⟩

/-! ## An example -/

/-- A required text. -/
def namePlan : Plan :=
  .required (.leaf .string)

/-- The fields of a card: tags, each of which must be there, and a title, which must be there. -/
def cardFields : List (String × Plan) :=
  [("tags", .built (.arrayOf namePlan)), ("title", namePlan)]

/-- Makes the validator of a shape with `cardFields`. -/
def card : StateM Library Validator := do
  let name := (Library.fresh.standard .string).required
  let tags ← Library.arrayOf name
  Library.shape [("tags", tags), ("title", name)]

theorem card_built (lib : Library) : Built (.built (.shape cardFields)) (card.run lib).1 := by
  have name : Built namePlan (Library.fresh.standard .string).required := .required (.leaf .string)
  have tags := @Built.built lib (.arrayOf (_, _)) (List.forall_mem_singleton.2 name)
  exact @Built.built _ (.shape [("tags", _, _), ("title", _, _)])
    (List.forall_mem_cons.2 ⟨tags, List.forall_mem_singleton.2 name⟩)

/-- A card without a title, the second tag of which is null. -/
def brokenCard : Record Json :=
  [("card", .object [("tags", .array [.string "a", .null])])]

theorem brokenCard_ordered : (Json.object brokenCard).Ordered :=
  ⟨List.pairwise_singleton .., ⟨List.pairwise_singleton .., ⟨trivial, trivial, trivial⟩, trivial⟩,
    trivial⟩

theorem brokenCard_fails : (Plan.built (.shape cardFields)).FailsAt
    ((Record.get? brokenCard "card").getD .null) [.key "tags", .index 1] namePlan .null := by
  have ascending : Record.Ascending cardFields := by
    unfold Record.Ascending
    decide
  have listed : ("tags", Plan.built (.arrayOf namePlan)) ∈ Record.ofList cardFields := by
    rw [Record.ofList_of_ascending ascending]
    exact List.mem_cons_self
  refine .field listed ?_ (.item rfl ?_ (.here (.missing _)))
  · rw [Record.ofList_of_ascending ascending]
    intro other listed less
    rcases List.mem_cons.1 listed with rfl | listed
    · exact absurd less (String.lt_irrefl _)
    · cases List.mem_singleton.1 listed
      exact absurd less (by decide)
  · intro j less other there
    cases Nat.lt_one_iff.1 less
    cases there
    exact .required nofun (.leaf nofun (.string "a"))

/-- Of the two things that are missing the tag is reported, in the context that was named. -/
theorem card_reports_tag : ∃ w,
    (card.run .fresh).1.Leads [.key "tags", .index 1] w ∧ w.requiresValue = true ∧
      (card.run .fresh).1.validate brokenCard "card" "Page" .context =
        .rejected (.missing .context "card.tags[1]" "Page") := by
  have decides := (card_built .fresh).fits.decides brokenCard "card" "Page" .context
  obtain ⟨error, c, node, w, found, rejected, _, unique, leads, built, _, reports⟩ :=
    validate_reports_first_fault (card_built .fresh) brokenCard_ordered
      fun accepted => brokenCard_fails.not_accepts (decides.accepted_iff.1 accepted)
  obtain ⟨rfl, rfl, rfl⟩ := unique _ _ _ brokenCard_fails
  have required : w.requiresValue = true := built.requiresValue_iff.2 rfl
  refine ⟨w, leads, required, ?_⟩
  rw [rejected, reports.missing_iff.2 ⟨rfl, required⟩]
  decide

end PropSandbox

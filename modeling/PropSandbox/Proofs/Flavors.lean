import PropSandbox.Generation
import PropSandbox.Proofs.Recall

/-!
# Making a value required

There are two ways to require a value: to take the required flavor of a validator and infer its
type, or to infer the type of the validator and require a value there. Both come to the same type
with the same validator. It accepts what the type accepted before, except for null, and everything
nested in it stays as it was.
-/

namespace PropSandbox

/-! ## Validators -/

namespace Validator

variable {v : Validator}

theorem required_of_requiresValue (requires : v.requiresValue = true) : v.required = v := by
  obtain ⟨id, flavor, check⟩ := v
  cases flavor with
  | required => rfl
  | optional | custom => cases requires

theorem requiresValue_required (library : v.isCustom = false) :
    v.required.requiresValue = true := by
  obtain ⟨id, flavor, check⟩ := v
  cases flavor with
  | optional | required => rfl
  | custom => cases library

/-- The required flavor accepts what the validator accepts, and not null. -/
theorem accepts_required_iff (library : v.isCustom = false) (value : Json) (prop owner : String) :
    (v.required.checkValue value prop owner).isAccepted = true ↔
      value ≠ .null ∧ (v.checkValue value prop owner).isAccepted = true := by
  have alone : Record.get? [(prop, value)] prop = some value := by
    rw [Record.get?_cons, if_pos rfl]
  by_cases null : value = .null
  · subst null
    refine iff_of_false (fun accepted => ?_) fun both => both.1 rfl
    have requires := requiresValue_required library
    rw [checkValue, validate_absent (by rw [alone, Option.getD_some])] at accepted
    rw [requiresValue] at requires
    split at requires
    · rename_i flavor
      rw [flavor] at accepted
      cases accepted
    · cases requires
  · rw [checkValue, checkValue, validate_given alone null, validate_given alone null,
      check_required]
    exact (and_iff_right null).symm

end Validator

/-! ## Types -/

namespace PropType

/-- Where the flag of a type and the flavor of its validator agree, requiring a value sets the one
and changes the other, and nothing else. -/
theorem intoRequired_eq {leaf : TypeLeaf} (agree : leaf.required = leaf.validator.requiresValue) :
    (known leaf).intoRequired =
      .known { leaf with required := true, validator := leaf.validator.required } := by
  obtain ⟨kind, required, arguments, v⟩ := leaf
  cases required with
  | false => rfl
  | true => simp [intoRequired, Validator.required_of_requiresValue agree.symm]

end PropType

/-- A validator of which something is known is one of the library, and its type says which flavor it
is. -/
theorem Origin.Shows.flavor {log : List Mark} {o : Origin} {t : PropType} (shows : o.Shows log t)
    (genuine : o.Genuine) (told : ¬ o.Hidden log) :
    o.validator.isCustom = false ∧ t.isRequired = o.validator.requiresValue := by
  induction shows with
  | hidden hidden => exact absurd hidden told
  | standard => exact ⟨rfl, rfl⟩
  | extension =>
    cases genuine with
    | extension => exact ⟨rfl, rfl⟩
  | built =>
    cases genuine with
    | built lib time parts =>
      rw [Origin.validator, Construction.make_eq]
      exact ⟨rfl, rfl⟩
  | required toldPart part ih =>
    cases genuine with
    | required genuinePart =>
      obtain ⟨library, _⟩ := ih genuinePart toldPart
      have requires := Validator.requiresValue_required library
      obtain ⟨leaf, rfl⟩ := part.known_of_told toldPart
      refine ⟨?_, ?_⟩
      · rw [Validator.requiresValue] at requires
        rw [Origin.validator, Validator.isCustom]
        split at requires
        · rename_i flavor
          rw [flavor]
        · cases requires
      · rw [Origin.validator, requires, PropType.intoRequired]
        split
        · assumption
        · rfl

/-- Of every validator that a library knows of, that is, of every leaf, construction and required
flavor made on it while it was instrumented, the required flavor is inferred as the type of the
validator with a value required, and with the same validator. What that type accepts is what the
type accepts besides null. To require a value again changes nothing, and to require it at all
changes nothing below the root. -/
theorem infer_required_removes_null {c : Chronicle} (steps : Chronicle.opened.Steps c) {o : Origin}
    (atHand : o ∈ c.made) (told : ¬ o.Hidden c.log) :
    c.library.infer o.validator.required = (c.library.infer o.validator).intoRequired ∧
      (c.library.infer o.validator).intoRequired.validator = o.validator.required ∧
      (∀ value, (c.library.infer o.validator).intoRequired.accepts value = true ↔
        value ≠ .null ∧ (c.library.infer o.validator).accepts value = true) ∧
      (c.library.infer o.validator).intoRequired.intoRequired =
        (c.library.infer o.validator).intoRequired ∧
      ∃ leaf, c.library.infer o.validator = .known leaf ∧
        (c.library.infer o.validator).intoRequired =
          .known { leaf with required := true, validator := leaf.validator.required } := by
  have genuine := steps.genuine o atHand
  have recalls := steps.kept.2.recalls genuine atHand
  obtain ⟨library, agree⟩ := recalls.shows.flavor genuine told
  obtain ⟨leaf, known⟩ := recalls.shows.known_of_told told
  have validator := Library.infer_validator c.library o.validator
  have flavors := recalls.required told
  rw [known] at agree validator flavors ⊢
  rw [← validator] at agree library
  have whole := PropType.intoRequired_eq agree
  have required : (PropType.known leaf).intoRequired.validator = o.validator.required := by
    rw [whole, ← validator]
    rfl
  refine ⟨flavors, required, fun value => ?_, PropType.intoRequired_intoRequired _, leaf, rfl,
    whole⟩
  rw [PropType.accepts, PropType.accepts, PropType.explain, PropType.explain, PropType.check,
    PropType.check, required, ← validator]
  exact Validator.accepts_required_iff library value "value" "sandbox"

/-! ## An example -/

/-- The union of a list and a number, made on an instrumented library. -/
def union : Validator :=
  ((Chronicle.listOrNumber.map Origin.validator).make.run Chronicle.prepared.library).1

theorem union_told :
    ¬ (Origin.built Chronicle.listOrNumber union 3).Hidden Chronicle.joined.log := by
  intro hidden
  cases hidden with
  | never never => exact never (by decide)
  | early early => exact early 1 (by decide) rfl

/-- The required union is inferred with its own flavor, and of the values that the union accepts it
refuses null only. -/
theorem required_union :
    let t := Chronicle.joined.library.infer union
    let required := Chronicle.joined.library.infer union.required
    required.isRequired = true ∧ required.validator = union.required ∧
      required.accepts (.ofNat 1) = true ∧ t.accepts .null = true ∧
      required.accepts .null = false := by
  intro t required
  obtain ⟨flavors, validator, accepts, _, leaf, known, whole⟩ :=
    infer_required_removes_null Chronicle.joined_steps List.mem_cons_self union_told
  have accepts_eq (value : Json) :
      t.accepts value = (union.checkValue value "value" "sandbox").isAccepted := by
    rw [PropType.accepts, PropType.explain, PropType.check, Library.infer_validator]
  have number : t.accepts (.ofNat 1) = true := by
    rw [accepts_eq]
    decide
  have flavors : required = t.intoRequired := flavors
  refine ⟨?_, ?_, ?_, ?_, ?_⟩
  · rw [flavors, show t.intoRequired = _ from whole]
    rfl
  · rw [flavors]
    exact validator
  · rw [flavors]
    exact (accepts _).2 ⟨nofun, number⟩
  · rw [accepts_eq]
    decide
  · rw [flavors]
    exact Bool.eq_false_iff.2 fun accepted => ((accepts _).1 accepted).1 rfl

end PropSandbox

import Mathlib.Data.List.Induction
import Mathlib.Data.List.Nodup
import PropSandbox.Settings.Faults

/-!
# Probabilities of kinds

Settings may give single kinds a probability of null of their own, in entries that name the kind.
The entries come in no particular order, and a name is read without regard to the case of its
letters. Of several entries for one kind the last one counts (`GenerationSettings.randomPolicy_eq`),
so the policy depends on the order exactly if two entries give one kind different probabilities.
Names in lower case, each given once, never do.
-/

namespace PropSandbox

namespace Double

/-- A probability is the probability nearest to it. -/
theorem toProbability_eq {p : Double} (fits : p.isProbability = true) : p.toProbability = p := by
  have bottom : zero.place = 0 := by decide
  simp only [isProbability, le, Bool.and_eq_true, Bool.not_eq_true', decide_eq_true_eq] at fits
  obtain ⟨⟨⟨-, number⟩, low⟩, ⟨-, -⟩, high⟩ := fits
  rw [toProbability, number, if_neg Bool.false_ne_true, if_neg (by omega), if_neg (by omega)]

end Double

namespace GenerationSettings

/-! ## The last entry counts -/

/-- The entries whose names denote a kind, in order. -/
def entriesFor (kind : Kind) (entries : Record Double) : List (String × Double) :=
  entries.filter fun entry => Kind.standard? entry.1 = some kind

theorem mem_entriesFor {kind : Kind} {entries : Record Double} {entry : String × Double} :
    entry ∈ entriesFor kind entries ↔ entry ∈ entries ∧ Kind.standard? entry.1 = some kind := by
  simp [entriesFor]

/-- A policy after one entry. -/
def withEntry (policy : RandomPolicy) (entry : String × Double) : RandomPolicy :=
  match Kind.standard? entry.1 with
  | some kind => policy.withNullProbabilityOf kind entry.2
  | none => policy

theorem withEntry_nullProbabilityOf (policy : RandomPolicy) (entry : String × Double)
    (kind : Kind) :
    (withEntry policy entry).nullProbabilityOf kind =
      if Kind.standard? entry.1 = some kind then some entry.2.toProbability
      else policy.nullProbabilityOf kind := by
  rw [withEntry]
  cases Kind.standard? entry.1 with
  | none => simp
  | some other => simp [RandomPolicy.withNullProbabilityOf, eq_comm]

/-- The induction takes the entries from the end, for the last one decides. -/
theorem foldl_withEntry (entries : Record Double) (kind : Kind) :
    (entries.foldl withEntry .default).nullProbabilityOf kind =
      (entriesFor kind entries).getLast?.map fun entry => entry.2.toProbability := by
  induction entries using List.reverseRecOn with
  | nil => rfl
  | append_singleton entries entry ih =>
    rw [List.foldl_append, List.foldl_cons, List.foldl_nil, withEntry_nullProbabilityOf, entriesFor,
      List.filter_append]
    by_cases denotes : Kind.standard? entry.1 = some kind
    · simp [denotes]
    · have other : [entry].filter (fun entry => Kind.standard? entry.1 = some kind) = [] := by
        simp [denotes]
      rw [if_neg denotes, ih, other, List.append_nil, entriesFor]

/-- The policy of settings, field by field. -/
theorem randomPolicy_eq (s : GenerationSettings) : s.randomPolicy =
    { nullProbability := s.nullProbability.toProbability
      nullProbabilityOf := fun kind =>
        (entriesFor kind s.nullProbabilityByKind).getLast?.map fun entry => entry.2.toProbability
      items := Bounds.between s.minItems s.maxItems
      numbers := Bounds.betweenInts s.numberMin s.numberMax } := by
  have own := funext (foldl_withEntry s.nullProbabilityByKind)
  rw [← own]
  rfl

/-! ## Settings without faults -/

/-- Settings that nothing is wrong with: every probability is one, every entry names a standard
kind, and the bounds are in order. -/
structure Valid (s : GenerationSettings) : Prop where
  probability : s.nullProbability.isProbability = true
  named : ∀ entry ∈ s.nullProbabilityByKind, ∃ kind, Kind.standard? entry.1 = some kind
  entries : ∀ entry ∈ s.nullProbabilityByKind, entry.2.isProbability = true
  items : s.minItems ≤ s.maxItems
  numbers : s.numberMin ≤ s.numberMax

theorem probabilityFaults_eq_nil_iff {field : String} {p : Double} :
    probabilityFaults field p = [] ↔ p.isProbability = true := by
  simp [probabilityFaults]

theorem valid_of_faults {s : GenerationSettings} (faultless : s.faults = []) : s.Valid := by
  simp only [faults, List.append_eq_nil_iff, List.flatMap_eq_nil_iff, entryFaults,
    probabilityFaults_eq_nil_iff] at faultless
  obtain ⟨⟨⟨probability, entries⟩, items⟩, numbers⟩ := faultless
  refine ⟨probability, fun entry listed => ?_, fun entry listed => (entries entry listed).2, ?_, ?_⟩
  · have known := (entries entry listed).1
    rw [← Option.isSome_iff_exists]
    by_contra unknown
    rw [if_neg unknown] at known
    cases known
  · by_contra above
    rw [if_pos (by omega)] at items
    cases items
  · by_contra above
    rw [if_pos (by omega)] at numbers
    cases numbers

/-! ## Enumerations of the entries -/

/-- The settings with their entries in another order. -/
def enumerated (s : GenerationSettings) (entries : Record Double) : GenerationSettings :=
  { s with nullProbabilityByKind := entries }

/-- A policy does what every entry says: the kind that it names has its probability. -/
def Honours (policy : RandomPolicy) (entries : Record Double) : Prop :=
  ∀ entry ∈ entries, ∃ kind, Kind.standard? entry.1 = some kind ∧
    policy.nullProbabilityOf kind = some entry.2

/-- No two entries give one kind different probabilities. -/
def Unambiguous (entries : Record Double) : Prop :=
  ∀ entry ∈ entries, ∀ other ∈ entries, ∀ kind, Kind.standard? entry.1 = some kind →
    Kind.standard? other.1 = some kind → entry.2 = other.2

/-- Names in lower case are told apart by the kinds that they name, so there is one entry for each.
-/
theorem unambiguous_of_lower {entries : Record Double}
    (lower : ∀ name ∈ Record.keys entries, name.toList.map Char.toLower = name.toList)
    (distinct : (Record.keys entries).Nodup) : Unambiguous entries := by
  intro entry listed other listed' kind denotes denotes'
  have spelled : ∀ {name}, Kind.standard? name = some kind → name ∈ Record.keys entries →
      name.toList = kind.name.toList.map Char.toLower := by
    intro name denotes member
    have same : Kind.sameIgnoringCase kind.name name = true :=
      List.find?_some (p := fun kind : Kind => Kind.sameIgnoringCase kind.name name) denotes
    rw [Kind.sameIgnoringCase, beq_iff_eq, lower name member] at same
    exact same.symm
  have sameName : entry.1 = other.1 := by
    rw [← String.toList_inj, spelled denotes (List.mem_map_of_mem listed),
      spelled denotes' (List.mem_map_of_mem listed')]
  rw [List.inj_on_of_nodup_map distinct listed listed' sameName]

section

variable {s : GenerationSettings} {entries other : Record Double} {kind : Kind}

/-- The policy of faultless settings says what the settings say; of several entries for one kind the
last one counts. -/
theorem Valid.nullProbabilityOf_eq (valid : s.Valid) (order : entries.Perm s.nullProbabilityByKind)
    (kind : Kind) : (s.enumerated entries).randomPolicy.nullProbabilityOf kind =
      (entriesFor kind entries).getLast?.map Prod.snd := by
  rw [randomPolicy_eq]
  have same : ∀ entry ∈ (entriesFor kind entries).getLast?, entry.2.toProbability = entry.2 := by
    intro entry last
    have listed := (mem_entriesFor.1 (List.mem_of_mem_getLast? last)).1
    exact Double.toProbability_eq (valid.entries entry (order.mem_iff.1 listed))
  exact Option.map_congr same

theorem Valid.frame (valid : s.Valid) (entries : Record Double) :
    (s.enumerated entries).randomPolicy.nullProbability = s.nullProbability ∧
      (s.enumerated entries).randomPolicy.items = ⟨s.minItems, s.maxItems, valid.items⟩ ∧
      (s.enumerated entries).randomPolicy.numbers = ⟨s.numberMin, s.numberMax, valid.numbers⟩ := by
  have items := valid.items
  have numbers := valid.numbers
  rw [randomPolicy_eq]
  refine ⟨Double.toProbability_eq valid.probability, ?_, ?_⟩
  · simp only [enumerated, Bounds.between, Bounds.mk.injEq]
    omega
  · simp only [enumerated, Bounds.betweenInts, Bounds.mk.injEq]
    omega

/-- The last entry for a kind is as good as any other where no two disagree. -/
theorem getLast?_entriesFor {entry : String × Double} (agree : Unambiguous entries)
    (listed : entry ∈ entries) (denotes : Kind.standard? entry.1 = some kind) :
    (entriesFor kind entries).getLast?.map Prod.snd = some entry.2 := by
  have among : entry ∈ entriesFor kind entries := mem_entriesFor.2 ⟨listed, denotes⟩
  cases final : (entriesFor kind entries).getLast? with
  | none =>
    rw [List.getLast?_eq_none_iff.1 final] at among
    cases among
  | some last =>
    obtain ⟨inside, denotes'⟩ := mem_entriesFor.1 (List.mem_of_mem_getLast? final)
    rw [Option.map_some, agree last inside entry listed kind denotes' denotes]

theorem Unambiguous.perm (agree : Unambiguous other) (order : entries.Perm other) :
    Unambiguous entries :=
  fun entry listed entry' listed' =>
    agree entry (order.mem_iff.1 listed) entry' (order.mem_iff.1 listed')

theorem Valid.honours (valid : s.Valid) (agree : Unambiguous s.nullProbabilityByKind)
    (order : entries.Perm s.nullProbabilityByKind) :
    Honours (s.enumerated entries).randomPolicy entries := by
  intro entry listed
  obtain ⟨kind, denotes⟩ := valid.named entry (order.mem_iff.1 listed)
  refine ⟨kind, denotes, ?_⟩
  rw [valid.nullProbabilityOf_eq order, getLast?_entriesFor (agree.perm order) listed denotes]

/-- A policy cannot honour two entries that disagree. -/
theorem Honours.unambiguous {policy : RandomPolicy} (honours : Honours policy entries) :
    Unambiguous entries := by
  intro entry listed other listed' kind denotes denotes'
  obtain ⟨_, named, own⟩ := honours entry listed
  obtain ⟨_, named', own'⟩ := honours other listed'
  cases named.symm.trans denotes
  cases named'.symm.trans denotes'
  exact Option.some.inj (own.symm.trans own')

theorem Valid.randomPolicy_congr (valid : s.Valid) (agree : Unambiguous s.nullProbabilityByKind)
    (order : entries.Perm s.nullProbabilityByKind) (order' : other.Perm s.nullProbabilityByKind) :
    (s.enumerated entries).randomPolicy = (s.enumerated other).randomPolicy := by
  have own : (s.enumerated entries).randomPolicy.nullProbabilityOf =
      (s.enumerated other).randomPolicy.nullProbabilityOf := by
    funext kind
    rw [valid.nullProbabilityOf_eq order, valid.nullProbabilityOf_eq order']
    have orders : (entriesFor kind entries).Perm (entriesFor kind other) :=
      (order.trans order'.symm).filter _
    cases final : (entriesFor kind entries).getLast? with
    | none =>
      rw [List.getLast?_eq_none_iff] at final
      rw [final, List.nil_perm] at orders
      rw [orders]
      rfl
    | some last =>
      obtain ⟨inside, denotes⟩ :=
        mem_entriesFor.1 (orders.mem_iff.1 (List.mem_of_mem_getLast? final))
      rw [getLast?_entriesFor (agree.perm order') inside denotes, Option.map_some]
  rw [randomPolicy_eq, randomPolicy_eq] at own ⊢
  exact congrArg (fun f => RandomPolicy.mk _ f _ _) own

/-- Every entry is the last one in some order, and there it counts. -/
theorem Valid.exists_order (valid : s.Valid) {entry : String × Double}
    (listed : entry ∈ s.nullProbabilityByKind) (denotes : Kind.standard? entry.1 = some kind) :
    ∃ entries, entries.Perm s.nullProbabilityByKind ∧
      (s.enumerated entries).randomPolicy.nullProbabilityOf kind = some entry.2 := by
  obtain ⟨before, after, split⟩ := List.append_of_mem listed
  have order : (before ++ after ++ [entry]).Perm s.nullProbabilityByKind := by
    rw [split]
    exact (List.perm_append_singleton entry (before ++ after)).trans List.perm_middle.symm
  refine ⟨_, order, ?_⟩
  rw [valid.nullProbabilityOf_eq order, entriesFor, List.filter_append]
  simp [denotes]

end

/-- For settings without faults, whatever the order of the entries: the policy has the probability
and the bounds of the settings, and for each kind the probability of the last entry that names it.
Every entry is honoured in every order, and every two orders give the same policy, exactly if no two
entries give one kind different probabilities, as is so when names are in lower case. -/
theorem faultless_randomPolicy (s : Settings) (faultless : s.faults = []) :
    (∀ entries : Record Double, entries.Perm s.generation.nullProbabilityByKind →
      (∀ kind, (s.generation.enumerated entries).randomPolicy.nullProbabilityOf kind =
        (entriesFor kind entries).getLast?.map Prod.snd) ∧
      (s.generation.enumerated entries).randomPolicy.nullProbability =
        s.generation.nullProbability ∧
      (s.generation.enumerated entries).randomPolicy.items.low = s.generation.minItems ∧
      (s.generation.enumerated entries).randomPolicy.items.high = s.generation.maxItems ∧
      (s.generation.enumerated entries).randomPolicy.numbers.low = s.generation.numberMin ∧
      (s.generation.enumerated entries).randomPolicy.numbers.high = s.generation.numberMax) ∧
    ((∀ entries : Record Double, entries.Perm s.generation.nullProbabilityByKind →
        Honours (s.generation.enumerated entries).randomPolicy entries) ↔
      Unambiguous s.generation.nullProbabilityByKind) ∧
    ((∀ entries other : Record Double, entries.Perm s.generation.nullProbabilityByKind →
        other.Perm s.generation.nullProbabilityByKind →
        (s.generation.enumerated entries).randomPolicy =
          (s.generation.enumerated other).randomPolicy) ↔
      Unambiguous s.generation.nullProbabilityByKind) ∧
    ((∀ name ∈ Record.keys s.generation.nullProbabilityByKind,
        name.toList.map Char.toLower = name.toList) →
      (Record.keys s.generation.nullProbabilityByKind).Nodup →
      Unambiguous s.generation.nullProbabilityByKind) := by
  have valid := valid_of_faults (List.append_eq_nil_iff.1 faultless).2
  refine ⟨fun entries order => ?_, ⟨?_, ?_⟩, ⟨?_, ?_⟩, unambiguous_of_lower⟩
  · obtain ⟨probability, items, numbers⟩ := valid.frame entries
    rw [items, numbers]
    exact ⟨valid.nullProbabilityOf_eq order, probability, rfl, rfl, rfl, rfl⟩
  · intro each
    exact (each _ (.refl _)).unambiguous
  · exact fun agree entries order => valid.honours agree order
  · intro same entry listed other listed' kind denotes denotes'
    obtain ⟨entries, order, counts⟩ := valid.exists_order listed denotes
    obtain ⟨entries', order', counts'⟩ := valid.exists_order listed' denotes'
    rw [same entries entries' order order', counts'] at counts
    exact (Option.some.inj counts).symm
  · exact fun agree entries other order order' => valid.randomPolicy_congr agree order order'

/-- The random policy with entries of its own for some kinds. -/
def settingsWith (entries : Record Double) : Settings :=
  { Settings.default with
    generation :=
      { GenerationSettings.default with policy := .random, nullProbabilityByKind := entries } }

/-- Two kinds, named in lower case. -/
theorem settingsWith_objectof_string :
    Honours (((settingsWith [("objectof", .zero), ("string", .one)]).generation.enumerated
      [("string", .one), ("objectof", .zero)]).randomPolicy)
      [("string", .one), ("objectof", .zero)] := by
  obtain ⟨-, ⟨-, honours⟩, -, lower⟩ :=
    faultless_randomPolicy (settingsWith [("objectof", .zero), ("string", .one)]) (by decide)
  exact honours (lower (by decide) (by decide)) _ (.swap _ _ _)

/-- One kind, named twice. -/
def twoSpellings : Settings :=
  settingsWith [("STRING", .zero), ("string", .one)]

/-- No order honours both entries, and the two orders give two policies. -/
theorem twoSpellings_depends_on_order :
    twoSpellings.faults = [] ∧
    (∀ entries : Record Double, entries.Perm twoSpellings.generation.nullProbabilityByKind →
      ¬ Honours (twoSpellings.generation.enumerated entries).randomPolicy entries) ∧
    ∃ entries other : Record Double,
      entries.Perm twoSpellings.generation.nullProbabilityByKind ∧
      other.Perm twoSpellings.generation.nullProbabilityByKind ∧
      (twoSpellings.generation.enumerated entries).randomPolicy ≠
        (twoSpellings.generation.enumerated other).randomPolicy := by
  refine ⟨by decide, fun entries order honours => ?_, _, _, .refl _, .swap _ _ _, fun same => ?_⟩
  · have agree := honours.unambiguous.perm order.symm
    have differ := agree ("STRING", .zero) (by decide) ("string", .one) (by decide) (.leaf .string)
      (by decide) (by decide)
    revert differ
    decide
  · have differ := congrArg (fun policy => policy.nullProbabilityOf (.leaf .string)) same
    revert differ
    decide

end GenerationSettings

end PropSandbox

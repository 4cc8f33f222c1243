import PropSandbox.Proofs.Layout

/-!
# Script literals without their blanks

A reader of a text who knows whether it stands inside a string can take out the white space that
stands outside of all strings (`squeezed`). What is written as one piece, strings of whatever
characters included, keeps its form when pieces are put together, so the squeezed text of an array
or object is made of the squeezed texts of its parts. The script literal of a value without markers
comes down to the compact text of the value (`Json.squeezed_script`): the layout adds white space
between the pieces and nothing else.
-/

namespace PropSandbox

/-! ## Taking out white space -/

/-- Where the reader of a text stands: outside of strings, inside a string, or inside a string right
after a backslash. -/
inductive Standing where
  | outside
  | inside
  | escaped
  deriving DecidableEq

/-- Where the reader stands after one more character. -/
def Standing.after : Standing → Char → Standing
  | .outside, c => if c = '"' then .inside else .outside
  | .inside, c => if c = '"' then .outside else if c = '\\' then .escaped else .inside
  | .escaped, _ => .inside

/-- A text without the white space outside of strings, from where the reader stands. -/
def squeeze : Standing → List Char → List Char
  | _, [] => []
  | standing, c :: rest =>
    if standing = .outside ∧ c.isWhitespace = true then squeeze standing rest
    else c :: squeeze (standing.after c) rest

def squeezed (text : String) : String :=
  String.ofList (squeeze .outside text.toList)

/-- One text comes down to another wherever it stands outside of strings, and leaves the reader
outside of strings. -/
def Squeezes (s t : List Char) : Prop :=
  ∀ rest, squeeze .outside (s ++ rest) = t ++ squeeze .outside rest

namespace Squeezes

variable {s t u v : List Char}

theorem squeeze_eq (squeezes : Squeezes s t) : squeeze .outside s = t := by
  have whole := squeezes []
  rwa [List.append_nil, squeeze, List.append_nil] at whole

theorem nil : Squeezes [] [] :=
  fun _ => rfl

theorem append (first : Squeezes s t) (second : Squeezes u v) : Squeezes (s ++ u) (t ++ v) := by
  intro rest
  rw [List.append_assoc, first, second, List.append_assoc]

theorem blank {c : Char} (white : c.isWhitespace = true) : Squeezes [c] [] := by
  intro rest
  rw [List.singleton_append, squeeze, if_pos ⟨rfl, white⟩, List.nil_append]

theorem visible {c : Char} (seen : Visible c) : Squeezes [c] [c] := by
  intro rest
  have kept : ¬ (Standing.outside = .outside ∧ c.isWhitespace = true) := by simp [seen.1]
  rw [List.singleton_append, squeeze, if_neg kept, Standing.after, if_neg seen.2,
    List.singleton_append]

/-- White space goes. -/
theorem blanks (white : ∀ c ∈ s, c.isWhitespace = true) : Squeezes s [] := by
  induction s with
  | nil => exact nil
  | cons c rest ih =>
    obtain ⟨first, later⟩ := List.forall_mem_cons.1 white
    exact (blank first).append (ih later)

/-- Visible characters stay. -/
theorem unbroken (seen : ∀ c ∈ s, Visible c) : Squeezes s s := by
  induction s with
  | nil => exact nil
  | cons c rest ih =>
    obtain ⟨first, later⟩ := List.forall_mem_cons.1 seen
    exact (visible first).append (ih later)

theorem lineBreak (depth : Nat) : Squeezes (Script.lineBreak depth) [] := by
  refine blanks ?_
  intro c member
  rcases List.mem_cons.1 member with rfl | space
  · decide
  · obtain rfl := List.eq_of_mem_replicate space
    decide

end Squeezes

/-! ### Strings -/

/-- Inside a string nothing goes. -/
theorem squeeze_within {standing : Standing} (within : standing ≠ .outside) (c : Char)
    (rest : List Char) : squeeze standing (c :: rest) = c :: squeeze (standing.after c) rest := by
  rw [squeeze, if_neg fun both => within both.1]

theorem squeeze_plain {c : Char} (noQuote : c ≠ '"') (noBackslash : c ≠ '\\') (rest : List Char) :
    squeeze .inside (c :: rest) = c :: squeeze .inside rest := by
  rw [squeeze_within (by decide), Standing.after, if_neg noQuote, if_neg noBackslash]

theorem squeeze_pair (letter : Char) (rest : List Char) :
    squeeze .inside ('\\' :: letter :: rest) = '\\' :: letter :: squeeze .inside rest := by
  have escaped : Standing.inside.after '\\' = .escaped := by decide
  rw [squeeze_within (by decide), escaped, squeeze_within (by decide), Standing.after]

/-- What stands for a character leaves the reader inside the string. -/
theorem Json.Escaped.squeeze_eq {c : Char} {text : List Char} (escaped : Json.Escaped c text)
    (rest : List Char) : squeeze .inside (text ++ rest) = text ++ squeeze .inside rest := by
  cases escaped with
  | itself noQuote noBackslash _ => exact squeeze_plain noQuote noBackslash rest
  | pair _ => exact squeeze_pair _ rest
  | @code m n m_lt n_lt =>
    obtain ⟨⟨-, firstQuote⟩, firstBackslash⟩ := Json.hexDigit_visible m m_lt
    obtain ⟨⟨-, secondQuote⟩, secondBackslash⟩ := Json.hexDigit_visible n n_lt
    simp only [List.cons_append, List.nil_append]
    rw [squeeze_pair, squeeze_plain (by decide) (by decide), squeeze_plain (by decide) (by decide),
      squeeze_plain firstQuote firstBackslash, squeeze_plain secondQuote secondBackslash]

theorem Squeezes.quote (s : String) : Squeezes (Json.quote s).toList (Json.quote s).toList := by
  intro rest
  have text : ∀ cs : List Char, squeeze .inside (cs.flatMap Json.escape ++ '"' :: rest) =
      cs.flatMap Json.escape ++ '"' :: squeeze .outside rest := by
    intro cs
    induction cs with
    | nil => exact squeeze_within (by decide) '"' rest
    | cons c cs ih =>
      rw [List.flatMap_cons, List.append_assoc, (Json.escaped c).squeeze_eq, ih, List.append_assoc]
  have opens : ∀ more, squeeze .outside ('"' :: more) = '"' :: squeeze .inside more :=
    fun _ => rfl
  rw [Json.quote, String.toList_ofList, List.append_assoc, List.cons_append, opens,
    List.singleton_append, text, List.append_assoc, List.cons_append, List.singleton_append]

/-! ## Compact texts -/

/-- Parts between brackets, with nothing but commas between them. -/
def packed (opening closing : Char) (parts : List (List Char)) : List Char :=
  opening :: [','].intercalate parts ++ [closing]

namespace Json

theorem compactItems_eq (items : List Json) : compactItems items = items.map compact := by
  induction items with
  | nil => rfl
  | cons x xs ih => rw [compactItems, ih, List.map_cons]

theorem compactMembers_eq (members : List (String × Json)) :
    compactMembers members =
      members.map fun member => quote member.1 ++ ":" ++ compact member.2 := by
  induction members with
  | nil => rfl
  | cons member rest ih => rw [compactMembers, ih, List.map_cons]

theorem toList_compact_array (items : List Json) : (Json.array items).compact.toList =
    packed '[' ']' (items.map fun item => item.compact.toList) := by
  rw [compact, compactItems_eq, packed, String.toList_append, String.toList_append,
    String.toList_intercalate, List.map_map]
  simp [Function.comp_def]

theorem toList_compact_object (members : List (String × Json)) :
    (Json.object members).compact.toList = packed '\x7b' '\x7d'
      (members.map fun member => (quote member.1).toList ++ [':'] ++ member.2.compact.toList) := by
  rw [compact, compactMembers_eq, packed, String.toList_append, String.toList_append,
    String.toList_intercalate, List.map_map]
  simp [Function.comp_def]

end Json

/-- A block comes down to its parts between brackets. -/
theorem Squeezes.enclosed {α : Type} {opening closing : Char} {items : List α}
    {printed packedText : α → List Char} (opened : Visible opening) (closed : Visible closing)
    (each : ∀ item ∈ items, Squeezes (printed item) (packedText item)) (depth : Nat) :
    Squeezes (Script.enclosed opening closing depth (items.map printed))
      (packed opening closing (items.map packedText)) := by
  have parts : Squeezes ((',' :: Script.lineBreak (depth + 1)).intercalate (items.map printed))
      ([','].intercalate (items.map packedText)) := by
    have comma : Squeezes (',' :: Script.lineBreak (depth + 1)) [','] :=
      (visible (by decide)).append (lineBreak (depth + 1))
    induction items with
    | nil => exact nil
    | cons item rest ih =>
      obtain ⟨first, later⟩ := List.forall_mem_cons.1 each
      cases rest with
      | nil => simpa using first
      | cons next others =>
        rw [List.map_cons] at ih ⊢
        rw [List.map_cons, List.map_cons, List.intercalate_cons_cons, List.map_cons,
          List.intercalate_cons_cons]
        exact (first.append comma).append (ih later)
  by_cases empty : items = []
  · subst empty
    exact (visible opened).append (visible closed)
  · rw [Script.enclosed, if_neg (by simpa using empty), packed]
    have start : Squeezes (opening :: Script.lineBreak (depth + 1)) [opening] :=
      (visible opened).append (lineBreak (depth + 1))
    have finish : Squeezes (Script.lineBreak depth ++ [closing]) [closing] :=
      (lineBreak depth).append (visible closed)
    rw [List.append_assoc]
    exact (start.append parts).append finish

/-! ## Sorted members -/

namespace Json

mutual

/-- A value with the members of every object sorted by name. -/
def sorted : Json → Json
  | .array items => .array (sortedItems items)
  | .object members => .object (Record.ofList (sortedMembers members))
  | .null => .null
  | .bool b => .bool b
  | .number n => .number n
  | .string s => .string s
termination_by structural value => value

def sortedItems : List Json → List Json
  | [] => []
  | x :: xs => sorted x :: sortedItems xs
termination_by structural items => items

def sortedMembers : List (String × Json) → List (String × Json)
  | [] => []
  | (name, x) :: xs => (name, sorted x) :: sortedMembers xs
termination_by structural members => members

end

theorem sortedItems_eq (items : List Json) : sortedItems items = items.map sorted := by
  induction items with
  | nil => rfl
  | cons x xs ih => rw [sortedItems, ih, List.map_cons]

theorem sortedMembers_eq (members : List (String × Json)) :
    sortedMembers members = Record.mapValues sorted members := by
  induction members with
  | nil => rfl
  | cons member rest ih => rw [sortedMembers, ih, Record.mapValues, Record.mapValues, List.map_cons]

theorem orderedItems_iff (items : List Json) :
    OrderedItems items ↔ ∀ item ∈ items, item.Ordered := by
  induction items with
  | nil => simp [OrderedItems]
  | cons x xs ih => rw [OrderedItems, ih, List.forall_mem_cons]

theorem orderedMembers_iff (members : List (String × Json)) :
    OrderedMembers members ↔ ∀ member ∈ members, member.2.Ordered := by
  induction members with
  | nil => simp [OrderedMembers]
  | cons member rest ih => rw [OrderedMembers, ih, List.forall_mem_cons]

/-- Sorting puts a value in order. -/
theorem ordered_sorted (value : Json) : value.sorted.Ordered := by
  induction value using Json.induct with
  | step value ih =>
    cases value with
    | array items =>
      rw [sorted, sortedItems_eq, Ordered, orderedItems_iff, List.forall_mem_map]
      exact ih
    | object members =>
      rw [sorted, sortedMembers_eq, Ordered, orderedMembers_iff]
      refine ⟨Record.ascending_ofList _, fun member listed => ?_⟩
      obtain ⟨old, known, rfl⟩ := List.mem_map.1 (Record.mem_ofList listed)
      exact ih old.2 (List.mem_map_of_mem known)
    | _ => exact trivial

/-- What is in order stays as it is. -/
theorem Ordered.sorted_eq {value : Json} (ordered : value.Ordered) : value.sorted = value := by
  induction value using Json.induct with
  | step value ih =>
    cases value with
    | array items =>
      have same : items.map sorted = items.map id :=
        List.map_congr_left fun item listed => ih item listed (ordered.item listed)
      rw [sorted, sortedItems_eq, same, List.map_id]
    | object members =>
      have same : Record.mapValues sorted members = members.map id := by
        refine List.map_congr_left fun member listed => ?_
        have found := Record.get?_of_mem ordered.1 listed
        rw [ih member.2 (List.mem_map_of_mem listed) (ordered.member found)]
        rfl
      rw [sorted, sortedMembers_eq, same, List.map_id, Record.ofList_of_ascending ordered.1]
    | _ => rfl

end Json

/-! ## Values without markers -/

/-- A value that stands for itself: it marks no callback, no element and no instance. -/
def Marker.Unmarked (value : Json) : Prop :=
  callbackName? value = none ∧ elementTag? value = none ∧ instanceClass? value = none

instance : DecidablePred Marker.Unmarked := fun value => by
  unfold Marker.Unmarked
  infer_instance

theorem Marker.Unmarked.onOneLine {value : Json} (unmarked : Unmarked value) : OnOneLine value := by
  intro name called
  rw [unmarked.1] at called
  cases called

namespace Script

/-- At whatever depth it stands, the literal of a value without markers comes down to its compact
text. -/
theorem squeezes_printAt {value : Json} (unmarked : value.Everywhere Marker.Unmarked)
    (depth : Nat) : Squeezes (printAt depth value) value.compact.toList := by
  induction value using Json.induct generalizing depth with
  | step value ih =>
    obtain ⟨⟨noCallback, noElement, noInstance⟩, inside⟩ := Json.everywhere_iff.1 unmarked
    have parts : ∀ part ∈ value.inner, ∀ depth, Squeezes (printAt depth part) part.compact.toList :=
      fun part member => ih part member (inside part member)
    cases value with
    | null =>
      have word : Unbroken Json.null.compact := by simp [Json.compact, Unbroken, Visible]
      exact .unbroken word
    | bool b =>
      have word : Unbroken (Json.bool b).compact := by
        cases b <;> simp [Json.compact, Json.literal, Unbroken, Visible]
      exact .unbroken word
    | number n => exact .unbroken n.unbroken_text
    | string s => exact .quote s
    | array items =>
      rw [printAt_array, Json.toList_compact_array]
      exact .enclosed (by decide) (by decide) (fun item member => parts item member _) depth
    | object members =>
      have each : ∀ member ∈ members, Squeezes (named (member.1, printAt (depth + 1) member.2))
          ((Json.quote member.1).toList ++ [':'] ++ member.2.compact.toList) := by
        intro member listed
        have colon : Squeezes ": ".toList [':'] := by
          have text : ": ".toList = [':'] ++ [' '] := by simp
          rw [text]
          exact (Squeezes.visible (by decide)).append (.blank (by decide))
        exact ((Squeezes.quote member.1).append colon).append
          (parts member.2 (List.mem_map_of_mem listed) _)
      rw [printAt_object, noCallback, noElement, noInstance, Json.toList_compact_object]
      simp only
      rw [named_mapValues]
      exact .enclosed (by decide) (by decide) each depth

end Script

/-- Without the white space outside of its strings, the script literal of a value without markers is
the compact text of the value, member by member; for a value in order, that is the text with all
members sorted by name. -/
theorem Json.squeezed_script (value : Json) (unmarked : value.Everywhere Marker.Unmarked) :
    squeezed value.script = value.compact ∧ value.sorted.Ordered ∧
      (value.Ordered → squeezed value.script = value.sorted.compact) := by
  have onOneLine : value.Everywhere Marker.OnOneLine :=
    fun part member => (unmarked part member).onOneLine
  have same : squeezed value.script = value.compact := by
    rw [squeezed, Json.script, String.toList_ofList, Script.render_eq onOneLine,
      (Script.squeezes_printAt unmarked 0).squeeze_eq, String.ofList_toList]
  exact ⟨same, value.ordered_sorted, fun ordered => by rw [same, ordered.sorted_eq]⟩

/-- Strings keep their blanks, their quotation marks and their brackets. -/
theorem squeezed_script_of_strings :
    squeezed (Json.object
      [("a \"b", .array [.string " [1,\t2] ", .null]), ("c", .object [])]).script =
      "\x7b\"a \\\"b\":[\" [1,\\t2] \",null],\"c\":\x7b\x7d\x7d" := by
  have ordered : (Json.object
      [("a \"b", .array [.string " [1,\t2] ", .null]), ("c", .object [])]).Ordered := by
    have names : Record.Ascending
        [("a \"b", Json.array [.string " [1,\t2] ", .null]), ("c", .object [])] :=
      List.pairwise_pair.2 (by decide)
    exact ⟨names, ⟨trivial, trivial, trivial⟩, ⟨.nil, trivial⟩, trivial⟩
  rw [(Json.squeezed_script _ (by decide)).2.2 ordered]
  decide +kernel

end PropSandbox

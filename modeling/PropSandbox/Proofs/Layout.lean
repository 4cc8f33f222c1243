import PropSandbox.Proofs.Literals
import PropSandbox.Script

/-!
# The layout of script literals

A script literal is written from the inside out: the text of the parts of a block is cut into lines,
and each line is moved in. The same text can be written from the outside in, by a printer that knows
at which depth it stands (`Script.printAt`): an item of a block stands on a line of its own, behind
four spaces for each block around it. Both come to the same text (`script_eq_printAt`), because what
is cut into lines has no other line ends than those of the layout, unless the name of a callback
brings one in.
-/

namespace PropSandbox

namespace Script

/-! ## Writing at a depth -/

/-- A new line at a depth: four spaces for each block around it. -/
def lineBreak (depth : Nat) : List Char :=
  '\n' :: List.replicate (4 * depth) ' '

/-- Parts between brackets. A block without parts is closed at once; otherwise each part stands on a
line of its own, one level deeper than the block, all but the last with a comma at its end, and the
block is closed on a line at its own depth. -/
def enclosed (opening closing : Char) (depth : Nat) (parts : List (List Char)) : List Char :=
  if parts.isEmpty then [opening, closing]
  else
    opening :: lineBreak (depth + 1) ++ (',' :: lineBreak (depth + 1)).intercalate parts
      ++ lineBreak depth ++ [closing]

/-- A member of an object, after its quoted name. -/
def named (member : String × List Char) : List Char :=
  (Json.quote member.1).toList ++ ": ".toList ++ member.2

mutual

/-- The literal of a value whose first line stands at a depth. What stands for a marker opens no
block, so the props of an element stand at the depth of the element. -/
def printAt : Nat → Json → List Char
  | depth, .array items => enclosed '[' ']' depth (printItems (depth + 1) items)
  | depth, .object members =>
    match Marker.callbackName? (.object members), Marker.elementTag? (.object members),
      Marker.instanceClass? (.object members) with
    | some name, _, _ => callback name
    | none, some tag, _ =>
      element tag ((Record.get? (printMembers depth members) "props").getD "null".toList)
    | none, none, some _ => instanceText
    | none, none, none =>
      enclosed '\x7b' '\x7d' depth ((printMembers (depth + 1) members).map named)
  | _, .null => "null".toList
  | _, .bool b => (Json.bool b).compact.toList
  | _, .number n => (Json.number n).compact.toList
  | _, .string s => (Json.string s).compact.toList
termination_by structural _ value => value

/-- The literals of the items of an array. -/
def printItems : Nat → List Json → List (List Char)
  | _, [] => []
  | depth, x :: xs => printAt depth x :: printItems depth xs
termination_by structural _ items => items

/-- The literals of the members of an object, under their names. -/
def printMembers : Nat → List (String × Json) → Record (List Char)
  | _, [] => []
  | depth, (name, x) :: xs => (name, printAt depth x) :: printMembers depth xs
termination_by structural _ members => members

end

/-! ### One step of either way of writing -/

theorem printItems_eq (depth : Nat) (items : List Json) :
    printItems depth items = items.map (printAt depth) := by
  induction items with
  | nil => rfl
  | cons x xs ih => rw [printItems, ih, List.map_cons]

theorem printMembers_eq (depth : Nat) (members : List (String × Json)) :
    printMembers depth members = Record.mapValues (printAt depth) members := by
  induction members with
  | nil => rfl
  | cons member rest ih => rw [printMembers, ih, Record.mapValues, Record.mapValues, List.map_cons]

theorem renderItems_eq (items : List Json) : renderItems items = items.map render := by
  induction items with
  | nil => rfl
  | cons x xs ih => rw [renderItems, ih, List.map_cons]

theorem renderMembers_eq (members : List (String × Json)) :
    renderMembers members = (Record.mapValues render members).map named := by
  induction members with
  | nil => rfl
  | cons member rest ih => rw [renderMembers, ih, Record.mapValues, Record.mapValues, List.map_cons,
      List.map_cons, named]

theorem renderProps_eq (members : List (String × Json)) :
    renderProps members = ((Record.get? members "props").map render).getD "null".toList := by
  induction members with
  | nil => rfl
  | cons member rest ih =>
    rw [renderProps, Record.get?_cons]
    split
    · rfl
    · exact ih

theorem render_array (items : List Json) : render (.array items) =
    if items.isEmpty then ['[', ']'] else block '[' ']' (items.map render) := by
  cases items with
  | nil => rfl
  | cons x xs => rw [render, renderItems_eq]; rfl

theorem render_object (members : List (String × Json)) : render (.object members) =
    match Marker.callbackName? (.object members), Marker.elementTag? (.object members),
      Marker.instanceClass? (.object members) with
    | some name, _, _ => callback name
    | none, some tag, _ =>
      element tag (((Record.get? members "props").map render).getD "null".toList)
    | none, none, some _ => instanceText
    | none, none, none =>
      if members.isEmpty then ['\x7b', '\x7d']
      else block '\x7b' '\x7d' ((Record.mapValues render members).map named) := by
  rw [render, renderMembers_eq, renderProps_eq]
  cases Marker.callbackName? (.object members) with
  | some name => rfl
  | none =>
    cases Marker.elementTag? (.object members) with
    | some tag => rfl
    | none => cases Marker.instanceClass? (.object members) <;> rfl

theorem printAt_array (depth : Nat) (items : List Json) : printAt depth (.array items) =
    enclosed '[' ']' depth (items.map (printAt (depth + 1))) := by
  rw [printAt, printItems_eq]

theorem printAt_object (depth : Nat) (members : List (String × Json)) :
    printAt depth (.object members) =
    match Marker.callbackName? (.object members), Marker.elementTag? (.object members),
      Marker.instanceClass? (.object members) with
    | some name, _, _ => callback name
    | none, some tag, _ =>
      element tag (((Record.get? members "props").map (printAt depth)).getD "null".toList)
    | none, none, some _ => instanceText
    | none, none, none =>
      enclosed '\x7b' '\x7d' depth
        ((Record.mapValues (printAt (depth + 1)) members).map named) := by
  rw [printAt, printMembers_eq, printMembers_eq, Record.get?_mapValues]

/-! ## Moving lines in -/

/-- A text with all its lines but the first moved in by four spaces. -/
def movedIn (text : List Char) : List Char :=
  text.flatMap fun c => if c = '\n' then lineBreak 1 else [c]

theorem movedIn_append (s t : List Char) : movedIn (s ++ t) = movedIn s ++ movedIn t :=
  List.flatMap_append

theorem movedIn_cons (c : Char) (text : List Char) :
    movedIn (c :: text) = (if c = '\n' then lineBreak 1 else [c]) ++ movedIn text :=
  List.flatMap_cons

theorem movedIn_of_oneLine {text : List Char} (oneLine : '\n' ∉ text) : movedIn text = text := by
  induction text with
  | nil => rfl
  | cons c rest ih =>
    rw [List.mem_cons, not_or] at oneLine
    rw [movedIn_cons, if_neg (Ne.symm oneLine.1), ih oneLine.2, List.singleton_append]

theorem movedIn_lineBreak (depth : Nat) : movedIn (lineBreak depth) = lineBreak (depth + 1) := by
  have spaces : '\n' ∉ List.replicate (4 * depth) ' ' := by simp
  rw [lineBreak, movedIn_cons, if_pos rfl, movedIn_of_oneLine spaces, lineBreak, lineBreak,
    List.cons_append, List.replicate_append_replicate]
  congr 2
  omega

theorem movedIn_comma (depth : Nat) :
    movedIn (',' :: lineBreak depth) = ',' :: lineBreak (depth + 1) := by
  have comma : ¬ ',' = '\n' := by decide
  rw [movedIn_cons, if_neg comma, movedIn_lineBreak, List.singleton_append]

theorem movedIn_intercalate (separator : List Char) (parts : List (List Char)) :
    movedIn (separator.intercalate parts) =
      (movedIn separator).intercalate (parts.map movedIn) := by
  induction parts with
  | nil => rfl
  | cons part rest ih =>
    cases rest with
    | nil => simp
    | cons next others =>
      rw [List.map_cons] at ih ⊢
      rw [List.map_cons, List.intercalate_cons_cons, List.intercalate_cons_cons, movedIn_append,
        movedIn_append, ih]

/-- A text that is cut into lines at its line feeds and nowhere else: it does not end with a line
end, and no carriage return in it stands before a line feed. -/
inductive Tidy : List Char → Prop where
  | one {c : Char} (notFeed : c ≠ '\n') (notReturn : c ≠ '\r') : Tidy [c]
  | more {c d : Char} {rest : List Char} (apart : c = '\r' → d ≠ '\n') (later : Tidy (d :: rest)) :
      Tidy (c :: d :: rest)

namespace Tidy

variable {s t : List Char}

/-- A tidy text has lines, and all of them but the first are moved in. -/
theorem lines_eq (tidy : Tidy t) : ∃ line others, lines t = line :: others ∧
    movedIn t = line ++ others.flatMap fun line => lineBreak 1 ++ line := by
  induction tidy with
  | @one c notFeed notReturn => exact ⟨[c], [], by simp [lines], by simp [movedIn, notFeed]⟩
  | @more c d rest apart later ih =>
    obtain ⟨line, others, cut, moved⟩ := ih
    by_cases feed : c = '\n'
    · subst feed
      refine ⟨[], line :: others, by rw [lines, cut], ?_⟩
      rw [movedIn_cons, if_pos rfl, moved, List.flatMap_cons, List.nil_append, List.append_assoc]
    · refine ⟨c :: line, others, ?_, ?_⟩
      · rw [lines, cut]
        · exact fun same => feed same
        · rintro more same next
          exact apart same (List.cons.inj next).1
      · rw [movedIn_cons, if_neg feed, moved]
        rfl

theorem indent_eq (tidy : Tidy t) : indent t = margin ++ movedIn t := by
  obtain ⟨line, others, cut, moved⟩ := tidy.lines_eq
  have joined : ∀ first : List Char, joinLines (first :: others.map (margin ++ ·)) =
      first ++ others.flatMap fun line => lineBreak 1 ++ line := by
    clear cut moved
    induction others with
    | nil => simp [joinLines]
    | cons next others ih =>
      intro first
      have step := ih (margin ++ next)
      rw [joinLines] at step ⊢
      rw [List.map_cons, List.intercalate_cons_cons, step, List.flatMap_cons]
      simp [lineBreak, margin]
  rw [indent, cut, List.map_cons, joined, moved, List.append_assoc]

/-- A character other than a carriage return may stand before a tidy text. -/
theorem cons {c : Char} (notReturn : c ≠ '\r') (tidy : Tidy t) : Tidy (c :: t) := by
  cases tidy with
  | one notFeed other => exact .more (absurd · notReturn) (.one notFeed other)
  | more apart later => exact .more (absurd · notReturn) (.more apart later)

theorem append (first : Tidy s) (second : Tidy t) : Tidy (s ++ t) := by
  induction first with
  | one _ notReturn => exact second.cons notReturn
  | more apart _ ih => exact .more apart ih

/-- A line break may stand before a tidy text. -/
theorem lineBreak (depth : Nat) (tidy : Tidy t) : Tidy (lineBreak depth ++ t) := by
  have free : ∀ c ∈ Script.lineBreak depth, c ≠ '\r' := by
    simp [Script.lineBreak]
  generalize Script.lineBreak depth = front at free
  induction front with
  | nil => exact tidy
  | cons c rest ih =>
    obtain ⟨notReturn, free⟩ := List.forall_mem_cons.1 free
    exact (ih free).cons notReturn

/-- So may any text without line feeds, if the tidy text begins with none. -/
theorem oneLine {d : Char} (free : '\n' ∉ s) (begins : d ≠ '\n') (tidy : Tidy (d :: t)) :
    Tidy (s ++ d :: t) := by
  induction s with
  | nil => exact tidy
  | cons c rest ih =>
    rw [List.mem_cons, not_or] at free
    have later := ih free.2
    cases rest with
    | nil => exact .more (fun _ => begins) later
    | cons e more => exact .more (fun _ same => free.2 (same ▸ List.mem_cons_self)) later

theorem of_plain (some : s ≠ []) (plain : ∀ c ∈ s, c ≠ '\n' ∧ c ≠ '\r') : Tidy s := by
  induction s with
  | nil => exact absurd rfl some
  | cons c rest ih =>
    obtain ⟨first, later⟩ := List.forall_mem_cons.1 plain
    cases rest with
    | nil => exact .one first.1 first.2
    | cons d more => exact (ih (List.cons_ne_nil d more) later).cons first.2

theorem intercalate (depth : Nat) {parts : List (List Char)} (some : parts ≠ [])
    (tidy : ∀ part ∈ parts, Tidy part) :
    Tidy ((',' :: Script.lineBreak depth).intercalate parts) := by
  induction parts with
  | nil => exact absurd rfl some
  | cons part rest ih =>
    obtain ⟨first, later⟩ := List.forall_mem_cons.1 tidy
    cases rest with
    | nil => simpa using first
    | cons next others =>
      have comma : Tidy [','] := .one (by decide) (by decide)
      have tail := (ih (List.cons_ne_nil next others) later).lineBreak depth
      rw [List.intercalate_cons_cons, List.append_assoc]
      exact first.append (comma.append tail)

end Tidy

/-! ## Blocks -/

section

variable {opening closing : Char} {parts : List (List Char)}

theorem tidy_enclosed (opened : Tidy [opening]) (closed : Tidy [closing]) (depth : Nat)
    (tidy : ∀ part ∈ parts, Tidy part) : Tidy (enclosed opening closing depth parts) := by
  rw [enclosed]
  by_cases empty : parts = []
  · subst empty
    exact opened.append closed
  · rw [if_neg (by simpa using empty), List.append_assoc]
    have body := (Tidy.intercalate (depth + 1) empty tidy).lineBreak (depth + 1)
    exact opened.append (body.append (closed.lineBreak depth))

theorem movedIn_enclosed (opened : opening ≠ '\n') (closed : closing ≠ '\n') (depth : Nat) :
    movedIn (enclosed opening closing depth parts) =
      enclosed opening closing (depth + 1) (parts.map movedIn) := by
  have opens : movedIn [opening] = [opening] := by simp [movedIn, opened]
  have closes : movedIn [closing] = [closing] := by simp [movedIn, closed]
  by_cases empty : parts = []
  · subst empty
    exact (movedIn_append [opening] [closing]).trans (by rw [opens, closes]; rfl)
  · have notEmpty : ¬ (parts.map movedIn).isEmpty := by simpa using empty
    rw [enclosed, if_neg (by simpa using empty), enclosed, if_neg notEmpty, movedIn_append,
      movedIn_append, movedIn_append, movedIn_cons, if_neg opened, movedIn_lineBreak,
      movedIn_lineBreak, movedIn_intercalate, movedIn_comma, closes]
    rfl

/-- Cutting the text of the parts into lines and moving them in encloses the parts. -/
theorem block_eq_enclosed (some : parts ≠ []) (tidy : ∀ part ∈ parts, Tidy part) :
    block opening closing parts = enclosed opening closing 0 (parts.map movedIn) := by
  have notEmpty : ¬ (parts.map movedIn).isEmpty := by simpa using some
  have whole : Tidy ((',' :: lineBreak 0).intercalate parts) := .intercalate 0 some tidy
  have body := whole.indent_eq
  rw [movedIn_intercalate, movedIn_comma] at body
  rw [enclosed, if_neg notEmpty, block]
  change [opening, '\n'] ++ indent ((',' :: lineBreak 0).intercalate parts) ++ _ = _
  rw [body]
  simp [lineBreak, margin]

end

end Script

/-! ## Both ways of writing -/

/-- A callback marker does not break a line: its name has no line feed. -/
def Marker.OnOneLine (value : Json) : Prop :=
  ∀ name ∈ Marker.callbackName? value, '\n' ∉ name.toList

instance : DecidablePred Marker.OnOneLine := fun value => by
  unfold Marker.OnOneLine
  infer_instance

namespace Script

theorem quote_plain (s : String) : ∀ c ∈ (Json.quote s).toList, c ≠ '\n' ∧ c ≠ '\r' := by
  intro c member
  rw [Json.quote, String.toList_ofList] at member
  simp only [List.mem_append, List.mem_cons, List.mem_flatMap, List.not_mem_nil, or_false] at member
  rcases member with (rfl | ⟨d, _, inside⟩) | rfl
  · decide
  · exact (Json.escaped d).no_line_end inside
  · decide

theorem number_plain (n : Number) : ∀ c ∈ n.text.toList, c ≠ '\n' ∧ c ≠ '\r' := by
  intro c member
  have visible := (n.unbroken_text c member).1
  constructor
  · rintro rfl
    simp at visible
  · rintro rfl
    simp at visible

/-- What stands for a value is a tidy text, and moved in it is what stands for the value one level
deeper. -/
structure Placed (print : Nat → List Char) : Prop where
  tidy : ∀ depth, Tidy (print depth)
  deeper : ∀ depth, movedIn (print depth) = print (depth + 1)

namespace Placed

/-- A text on one line is the same at every depth. -/
theorem constant {text : List Char} (tidy : Tidy text) (oneLine : '\n' ∉ text) :
    Placed fun _ => text :=
  ⟨fun _ => tidy, fun _ => movedIn_of_oneLine oneLine⟩

theorem plain {text : List Char} (some : text ≠ []) (plain : ∀ c ∈ text, c ≠ '\n' ∧ c ≠ '\r') :
    Placed fun _ => text :=
  constant (.of_plain some plain) fun member => (plain _ member).1 rfl

theorem append {print more : Nat → List Char} (first : Placed print) (second : Placed more) :
    Placed fun depth => print depth ++ more depth where
  tidy depth := (first.tidy depth).append (second.tidy depth)
  deeper depth := by rw [movedIn_append, first.deeper, second.deeper]

theorem quote (s : String) : Placed fun _ => (Json.quote s).toList :=
  plain (by simp [Json.quote]) (quote_plain s)

theorem number (n : Number) : Placed fun _ => n.text.toList :=
  plain (by simpa using n.text_ne_empty) (number_plain n)

theorem null : Placed fun _ => "null".toList :=
  plain (by simp) (by simp)

theorem bool (b : Bool) : Placed fun _ => (Json.literal (.bool b)).toList := by
  cases b with
  | false => exact plain (by simp [Json.literal]) (by simp [Json.literal])
  | true => exact plain (by simp [Json.literal]) (by simp [Json.literal])

theorem instanceText : Placed fun _ => Script.instanceText := by
  unfold Script.instanceText
  exact plain (by simp) (by simp)

theorem named {print : Nat → List Char} (placed : Placed print) (name : String) :
    Placed fun depth => Script.named (name, print depth) := by
  have colon : Placed fun _ => ": ".toList := plain (by simp) (by simp)
  unfold Script.named
  exact ((quote name).append colon).append placed

theorem element {print : Nat → List Char} (placed : Placed print) (tag : String) :
    Placed fun depth => Script.element tag (print depth) := by
  have call : Placed fun _ => "React.createElement(".toList := plain (by simp) (by simp)
  have comma : Placed fun _ => ", ".toList := plain (by simp) (by simp)
  have closing : Placed fun _ => [')'] := plain (by simp) (by simp)
  unfold Script.element
  exact (((call.append (quote tag)).append comma).append placed).append closing

/-- The name of a callback may hold a carriage return, for no line feed comes after it. -/
theorem callback {name : String} (oneLine : '\n' ∉ name.toList) :
    Placed fun _ => Script.callback name := by
  have closing : "() \x7b\x7d".toList = ['(', ')', ' ', '\x7b', '\x7d'] := by simp
  have free : '\n' ∉ "function ".toList ++ name.toList := by simp [oneLine]
  have rest : Tidy ['(', ')', ' ', '\x7b', '\x7d'] := .of_plain (by simp) (by simp)
  unfold Script.callback
  rw [closing]
  refine constant (.oneLine free (by decide) rest) ?_
  rw [List.mem_append, not_or]
  exact ⟨free, by decide⟩

theorem enclosed {opening closing : Char} (parts : Nat → List (List Char))
    (opened : opening ≠ '\n' ∧ opening ≠ '\r') (closed : closing ≠ '\n' ∧ closing ≠ '\r')
    (tidy : ∀ depth, ∀ part ∈ parts depth, Tidy part)
    (deeper : ∀ depth, (parts depth).map movedIn = parts (depth + 1)) :
    Placed fun depth => Script.enclosed opening closing depth (parts (depth + 1)) where
  tidy depth := tidy_enclosed (.one opened.1 opened.2) (.one closed.1 closed.2) depth (tidy _)
  deeper depth := by rw [movedIn_enclosed opened.1 closed.1, deeper]

end Placed

/-! ### Values -/

section

variable {items : List Json} {members : List (String × Json)}

theorem items_tidy (placed : ∀ item ∈ items, Placed (printAt · item)) (depth : Nat) :
    ∀ part ∈ items.map (printAt depth), Tidy part :=
  List.forall_mem_map.2 fun item member => (placed item member).tidy depth

theorem items_deeper (placed : ∀ item ∈ items, Placed (printAt · item)) (depth : Nat) :
    (items.map (printAt depth)).map movedIn = items.map (printAt (depth + 1)) := by
  rw [List.map_map]
  exact List.map_congr_left fun item member => (placed item member).deeper depth

theorem named_mapValues (print : Json → List Char) (members : List (String × Json)) :
    (Record.mapValues print members).map named =
      members.map fun member => named (member.1, print member.2) := by
  rw [Record.mapValues, List.map_map]
  rfl

theorem members_tidy (placed : ∀ part ∈ members.map Prod.snd, Placed (printAt · part))
    (depth : Nat) : ∀ part ∈ (Record.mapValues (printAt depth) members).map named, Tidy part := by
  rw [named_mapValues, List.forall_mem_map]
  intro member listed
  have part := (placed member.2 (List.mem_map_of_mem listed)).named member.1
  exact part.tidy depth

theorem members_deeper (placed : ∀ part ∈ members.map Prod.snd, Placed (printAt · part))
    (depth : Nat) : ((Record.mapValues (printAt depth) members).map named).map movedIn =
      (Record.mapValues (printAt (depth + 1)) members).map named := by
  rw [named_mapValues, named_mapValues, List.map_map]
  refine List.map_congr_left fun member listed => ?_
  have part := (placed member.2 (List.mem_map_of_mem listed)).named member.1
  rw [Function.comp_apply]
  exact part.deeper depth

end

/-- What stands for a value at one depth is, moved in, what stands for it one level deeper. -/
theorem placed {value : Json} (oneLine : value.Everywhere Marker.OnOneLine) :
    Placed (printAt · value) := by
  induction value using Json.induct with
  | step value ih =>
    obtain ⟨here, inside⟩ := Json.everywhere_iff.1 oneLine
    have parts : ∀ part ∈ value.inner, Placed (printAt · part) :=
      fun part member => ih part member (inside part member)
    cases value with
    | null => exact .null
    | bool b => exact .bool b
    | number n => exact .number n
    | string s => exact .quote s
    | array items =>
      simp only [printAt_array]
      exact .enclosed (fun depth => items.map (printAt depth)) (by decide) (by decide)
        (items_tidy parts) (items_deeper parts)
    | object members =>
      simp only [printAt_object]
      cases called : Marker.callbackName? (.object members) with
      | some name => exact .callback (here name called)
      | none =>
        cases Marker.elementTag? (.object members) with
        | some tag =>
          cases found : Record.get? members "props" with
          | none => exact Placed.null.element tag
          | some props =>
            have listed : props ∈ members.map Prod.snd :=
              List.mem_map_of_mem (Record.mem_of_get? found)
            exact (parts props listed).element tag
        | none =>
          cases Marker.instanceClass? (.object members) with
          | some name => exact .instanceText
          | none =>
            exact .enclosed (fun depth => (Record.mapValues (printAt depth) members).map named)
              (by decide) (by decide) (members_tidy parts) (members_deeper parts)

/-- Writing from the inside out comes to the same as writing from the outside in. -/
theorem render_eq {value : Json} (oneLine : value.Everywhere Marker.OnOneLine) :
    render value = printAt 0 value := by
  induction value using Json.induct with
  | step value ih =>
    obtain ⟨-, inside⟩ := Json.everywhere_iff.1 oneLine
    have same : ∀ part ∈ value.inner, render part = printAt 0 part :=
      fun part member => ih part member (inside part member)
    have parts : ∀ part ∈ value.inner, Placed (printAt · part) :=
      fun part member => placed (inside part member)
    cases value with
    | null => rfl
    | bool b => cases b <;> rfl
    | number n => rfl
    | string s => rfl
    | array items =>
      have written : items.map render = items.map (printAt 0) := List.map_congr_left same
      rw [render_array, printAt_array, written]
      by_cases empty : items = []
      · subst empty
        rfl
      · have some : items.map (printAt 0) ≠ [] := by simpa using empty
        have deeper : (items.map (printAt 0)).map movedIn = items.map (printAt 1) :=
          items_deeper parts 0
        rw [if_neg (by simpa using empty), block_eq_enclosed some (items_tidy parts 0), deeper]
    | object members =>
      have written : Record.mapValues render members = Record.mapValues (printAt 0) members :=
        List.map_congr_left fun member listed => by
          rw [same member.2 (List.mem_map_of_mem listed)]
      have props : (Record.get? members "props").map render =
          (Record.get? members "props").map (printAt 0) := by
        rw [← Record.get?_mapValues, written, Record.get?_mapValues]
      rw [render_object, printAt_object, written, props]
      cases Marker.callbackName? (.object members) with
      | some name => rfl
      | none =>
        cases Marker.elementTag? (.object members) with
        | some tag => rfl
        | none =>
          cases Marker.instanceClass? (.object members) with
          | some name => rfl
          | none =>
            by_cases empty : members = []
            · subst empty
              rfl
            · have some : (Record.mapValues (printAt 0) members).map named ≠ [] := by
                simpa [Record.mapValues] using empty
              simp only
              rw [if_neg (by simpa using empty), block_eq_enclosed some (members_tidy parts 0),
                members_deeper parts]

end Script

/-- A value in which no name of a callback holds a line feed is written as the printer that knows
the depth writes it. -/
theorem Json.script_eq_printAt (value : Json) (oneLine : value.Everywhere Marker.OnOneLine) :
    value.script = String.ofList (Script.printAt 0 value) := by
  rw [Json.script, Script.render_eq oneLine]

/-- A list of an element and a callback: the props of the element stand at the depth of the element,
and a carriage return in the name of the callback ends no line. -/
theorem script_of_element_and_callback :
    (Json.array [Marker.element "li" (.object [("id", .null)]), Marker.callback "go\rup"]).script =
      "[\n    React.createElement(\"li\", \x7b\n        \"id\": null\n    \x7d),\n"
        ++ "    function go\rup() \x7b\x7d\n]" := by
  rw [Json.script_eq_printAt _ (by decide)]
  decide +kernel

end PropSandbox

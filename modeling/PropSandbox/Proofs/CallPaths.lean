import PropSandbox.Generation.Minimal
import PropSandbox.Generation.Random
import PropSandbox.Proofs.Forms

/-!
# The calls of a generation

A generator asks for the values of parts by calls, each for a type and a path, and puts together
what they return only afterwards. Here a generation is run a second time with a log, into which
every call, every question about null and every choice are written as they happen. The log changes
nothing about the values (`Watches`), and it shows that the path of every call is the one at which
the finished value holds what the call returned.
-/

namespace PropSandbox

/-! ## Logs -/

/-- A call for a value of a type at a path. -/
structure Call where
  type : PropType
  path : Cursor

/-- What happens in the course of a call. -/
inductive Event where
  | returned (value : Json)
  | askedNull (leaf : TypeLeaf) (path : Cursor)
  | chose (path : Cursor) (count : Nat) (answer : Option Nat)

/-- An event with the calls in the course of which it happened, innermost first. -/
structure Note where
  calls : List Call
  event : Event

abbrev Log := List Note

/-- The note seen from the call in the course of which another one was made. -/
def Note.inside (call : Call) (note : Note) : Note :=
  { note with calls := note.calls ++ [call] }

section

variable {σ α : Type}

/-- Does some work and leaves the log as it is. -/
def quietly (work : StateM σ α) : StateM (σ × Log) α := fun (s, log) =>
  ((work.run s).1, (work.run s).2, log)

def note (event : Event) : StateM (σ × Log) Unit := fun (s, log) =>
  ((), s, log ++ [⟨[], event⟩])

/-- Answers a call by some work, with notes of what happens meanwhile and of what it returns. -/
def Call.record (call : Call) (work : StateM (σ × Log) Json) : StateM (σ × Log) Json :=
  fun (s, log) =>
    let (value, s, inner) := work.run (s, [])
    (value, s, log ++ (inner ++ [Note.mk [] (.returned value)]).map (Note.inside call))

/-- The generator with a record of the calls it makes. -/
def Generator.recording (make : Generator (σ × Log)) : Generator (σ × Log) :=
  fun leaf path recurse choose =>
    make leaf path (fun part at' => Call.record ⟨part.val, at'⟩ (recurse part at')) choose

/-- A source of the same draws. -/
def RandomSource.quiet (source : RandomSource σ) : RandomSource (σ × Log) where
  start seed := (source.start seed, [])
  below n positive := quietly (source.below n positive)
  word := quietly source.word
  hostEnding := quietly source.hostEnding

end

/-! ## Configurations -/

/-- What a configuration leaves open whose containers are generated as the program does it. -/
structure Stock (σ : Type) where
  /-- Generators for kinds without parts, which make no calls. -/
  leaf : Kind → Option (TypeLeaf → Cursor → Chooser σ → StateM σ Json)
  /-- How the number of items of a list is drawn; else every list has one item. -/
  lists : Option (RandomPolicy × RandomSource σ)
  nullability : Nullability σ
  chooser : Chooser σ

namespace Stock

variable {σ : Type}

/-- The generators that come in addition to those of containers, or in their place. -/
def overrides (stock : Stock σ) : GeneratorTable σ
  | .built .arrayOf => stock.lists.map fun draws => draws.1.listOf draws.2
  | .built _ => none
  | kind => (stock.leaf kind).map fun make leaf path _ choose => make leaf path choose

def config (stock : Stock σ) : GenerationConfig σ where
  generators := GeneratorTable.containers.union stock.overrides
  nullability := stock.nullability
  chooser := stock.chooser

/-- The same with a log, into which questions about null and the choices of containers are written.
What a generator of another kind chooses is its own affair. -/
def logged (stock : Stock σ) : Stock (σ × Log) where
  leaf kind := (stock.leaf kind).map fun make leaf path _ =>
    quietly (make leaf path stock.config.choose)
  lists := stock.lists.map fun draws => (draws.1, draws.2.quiet)
  nullability path leaf := do
    let answer ← quietly (stock.nullability path leaf)
    note (.askedNull leaf path)
    pure answer
  chooser path count := do
    let answer ← quietly (stock.chooser path count)
    note (.chose path count answer)
    pure answer

/-- The same with a log, into which calls are written as well. -/
def watched (stock : Stock σ) : GenerationConfig (σ × Log) :=
  { stock.logged.config with
    generators := fun kind => (stock.logged.config.generators kind).map Generator.recording }

/-- The static policy. -/
def static : Stock σ where
  leaf
    | .leaf kind => some fun _ _ _ => pure kind.minimalValue
    | _ => none
  lists := none
  nullability := .optionalIsNull
  chooser := .first

/-- The random policy. -/
def random (policy : RandomPolicy) (source : RandomSource σ) : Stock σ where
  leaf
    | .leaf kind => some fun _ path _ => policy.leafValue source path kind
    | _ => none
  lists := some (policy, source)
  nullability := policy.isNull source
  chooser := RandomPolicy.choose source

theorem config_random (policy : RandomPolicy) (source : RandomSource σ) :
    (random policy source).config = policy.config source := by
  rw [config, RandomPolicy.config]
  refine congrArg (GenerationConfig.mk · _ _) (congrArg _ (funext fun kind => ?_))
  cases kind with
  | leaf kind => cases kind <;> rfl
  | built kind => cases kind <;> rfl
  | extension => rfl

end Stock

/-! ## Work with and without a log -/

/-- Work with a log does what the work without one does, and adds notes to the log. -/
def Watches {σ α : Type} (work : StateM σ α) (watched : StateM (σ × Log) α) (P : α → Log → Prop) :
    Prop :=
  ∀ s log, ∃ notes, watched.run (s, log) = ((work.run s).1, (work.run s).2, log ++ notes) ∧
    P (work.run s).1 notes

namespace Watches

variable {σ α β : Type} {work : StateM σ α} {watched : StateM (σ × Log) α} {P P' : α → Log → Prop}
  {Q : β → Log → Prop}

theorem pure {result : α} (holds : P result []) :
    Watches (pure result : StateM σ α) (pure result) P :=
  fun _ log => ⟨[], by rw [List.append_nil]; rfl, holds⟩

theorem bind {next : α → StateM σ β} {watchedNext : α → StateM (σ × Log) β}
    (first : Watches work watched P)
    (second : ∀ result notes, P result notes →
      Watches (next result) (watchedNext result) fun final more => Q final (notes ++ more)) :
    Watches (work >>= next) (watched >>= watchedNext) Q := by
  intro s log
  obtain ⟨notes, same, holds⟩ := first s log
  obtain ⟨more, same', holds'⟩ := second _ _ holds (work.run s).2 (log ++ notes)
  refine ⟨notes ++ more, ?_, holds'⟩
  rw [StateT.run_bind, same, ← List.append_assoc]
  exact same'

theorem mono (watches : Watches work watched P)
    (sub : ∀ result notes, P result notes → P' result notes) : Watches work watched P' := by
  intro s log
  obtain ⟨notes, same, holds⟩ := watches s log
  exact ⟨notes, same, sub _ _ holds⟩

/-- A result that is put to use without further work needs no further notes. -/
theorem finish {f : α → β} (first : Watches work watched P)
    (sub : ∀ result notes, P result notes → Q (f result) notes) :
    Watches (work >>= fun result => Pure.pure (f result))
      (watched >>= fun result => Pure.pure (f result)) Q :=
  first.bind fun result notes holds => .pure (by rw [List.append_nil]; exact sub result notes holds)

theorem quietly (work : StateM σ α) : Watches work (quietly work) fun _ notes => notes = [] :=
  fun _ log => ⟨[], by rw [List.append_nil]; rfl, rfl⟩

/-- Work whose outcome is noted adds one note. -/
theorem noted (work : StateM σ α) (event : α → Event) :
    Watches work (do let result ← PropSandbox.quietly work; note (event result); Pure.pure result)
      fun result notes => notes = [⟨[], event result⟩] :=
  fun _ _ => ⟨_, rfl, rfl⟩

theorem record {work : StateM σ Json} {watched : StateM (σ × Log) Json} {P : Json → Log → Prop}
    (watches : Watches work watched P) (call : Call) :
    Watches work (call.record watched) fun value notes => ∃ inner, P value inner ∧
      notes = (inner ++ [Note.mk [] (.returned value)]).map (Note.inside call) := by
  intro s log
  obtain ⟨inner, same, holds⟩ := watches s []
  rw [List.nil_append] at same
  refine ⟨_, ?_, inner, holds, rfl⟩
  change (let (value, s, inner) := watched.run (s, [])
    (value, s, log ++ (inner ++ [Note.mk [] (.returned value)]).map (Note.inside call))) = _
  rw [same]

end Watches

/-! ## What notes tell -/

def PropType.IsUnion (t : PropType) : Prop :=
  t.kind? = some (.built .oneOfType)

/-- What a note tells about a call that returned a value. A call in its course returned what the
value holds at the rest of the path, and outside of unions it was for the type there. Null was asked
about for optional values, and choices were made among some options, both at the path of the call
that asked; and where nothing was chosen the value holds null. -/
inductive Note.Addresses (root : Call) (value : Json) : Note → Prop where
  | returned {call : Call} {outer : List Call} {q : Cursor} {part : Json}
      (path : call.path = root.path ++ q) (found : q.get? value = some part)
      (isAt : (∀ c ∈ outer, ¬ c.type.IsUnion) → root.type.at? q = some call.type) :
      Addresses root value ⟨call :: outer, .returned part⟩
  | askedNull {leaf : TypeLeaf} {outer : List Call} {q : Cursor}
      (optional : leaf.required = false) :
      Addresses root value
        ⟨⟨.known leaf, root.path ++ q⟩ :: outer, .askedNull leaf (root.path ++ q)⟩
  | chose {t : PropType} {outer : List Call} {q : Cursor} {count : Nat} {answer : Option Nat}
      (positive : 0 < count)
      (null : answer.filter (· < count) = none → q.get? value = some .null) :
      Addresses root value ⟨⟨t, root.path ++ q⟩ :: outer, .chose (root.path ++ q) count answer⟩

namespace Note.Addresses

variable {root : Call} {value part : Json} {inner : PropType} {step : Segment} {note : Note}

/-- What a note tells about the call for a part it tells about the call for the whole. -/
theorem below (addresses : note.Addresses ⟨inner, root.path.child step⟩ part)
    (child : value.child? step = some part) (isBelow : root.type.below? step = some inner) :
    (note.inside root).Addresses root value := by
  have longer (q : Cursor) : root.path.child step ++ q = root.path ++ step :: q :=
    List.append_assoc ..
  have found (q : Cursor) : Cursor.get? (step :: q) value = q.get? part := by
    rw [Cursor.get?_cons, child, Option.bind_some]
  cases addresses with
  | @returned call outer q here path isFound isAt =>
    rw [longer] at path
    rw [← found] at isFound
    refine .returned path isFound fun noUnion => ?_
    rw [PropType.at?, isBelow, Option.bind_some]
    exact isAt fun c member => noUnion c (List.mem_append_left _ member)
  | askedNull optional =>
    rw [longer]
    exact .askedNull optional
  | @chose t outer q count answer positive null =>
    rw [longer]
    rw [← found] at null
    exact .chose positive null

/-- The call for a candidate is at the path of the union and returns the value of the union. -/
theorem within_union (addresses : note.Addresses ⟨inner, root.path⟩ value)
    (isUnion : root.type.IsUnion) : (note.inside root).Addresses root value := by
  cases addresses with
  | returned path found =>
    -- the union is now among the outer calls, and nothing is claimed about the type any more
    exact .returned path found fun noUnion =>
      absurd isUnion (noUnion root (List.mem_append_right _ List.mem_cons_self))
  | askedNull optional => exact .askedNull optional
  | chose positive null => exact .chose positive null

end Note.Addresses

/-- Notes made in the course of a call that tell about the value it returns. -/
def Log.Tells (root : Call) (value : Json) (notes : Log) : Prop :=
  ∀ note ∈ notes, (note.inside root).Addresses root value

theorem Log.tells_append {root : Call} {value : Json} {notes more : Log}
    (tells : Log.Tells root value notes) (further : Log.Tells root value more) :
    Log.Tells root value (notes ++ more) :=
  List.forall_mem_append.2 ⟨tells, further⟩

/-- With what the call returned, they tell about it from outside. -/
theorem Watches.record_tells {σ : Type} {work : StateM σ Json} {watched : StateM (σ × Log) Json}
    {call : Call} (watches : Watches work watched (Log.Tells call)) :
    Watches work (call.record watched) fun value notes =>
      ∀ note ∈ notes, note.Addresses call value := by
  refine (watches.record call).mono fun value notes ⟨inner, tells, same⟩ => ?_
  rw [same, List.forall_mem_map, List.forall_mem_append, List.forall_mem_singleton]
  refine ⟨tells, ?_⟩
  exact .returned (q := []) (List.append_nil _).symm rfl fun _ => rfl

/-! ## Parts of a type in order -/

/-- The names of the field parts of a type in order come in order. -/
theorem PropType.Ordered.ascending_fieldParts {leaf : TypeLeaf}
    (ordered : (PropType.known leaf).Ordered) : Record.Ascending leaf.fieldParts := by
  cases ordered with
  | known fields _ =>
    match isPart : leaf.fieldParts with
    | [] => exact List.Pairwise.nil
    | entry :: rest =>
      have listed : entry ∈ leaf.fieldParts := isPart ▸ List.mem_cons_self
      obtain ⟨declared, isFields, _⟩ := Described.argument?_of_fieldParts listed
      have ascending := fields declared isFields
      rwa [← Described.fieldParts_val isFields, Record.Ascending, Record.keys_mapValues, isPart]
        at ascending

/-! ## Generators -/

section

variable {σ : Type} {leaf : TypeLeaf} {path : Cursor} {recurse : Part leaf → Cursor → StateM σ Json}
  {watchedRecurse : Part leaf → Cursor → StateM (σ × Log) Json} (choose : Chooser σ)
  (watchedChoose : Chooser (σ × Log))

/-- Calls for a part, with and without a log, whose notes tell about what they return. -/
def Answers (recurse : Part leaf → Cursor → StateM σ Json)
    (watchedRecurse : Part leaf → Cursor → StateM (σ × Log) Json) (part : Part leaf) : Prop :=
  ∀ at', Watches (recurse part at') (watchedRecurse part at') fun value notes =>
    ∀ note ∈ notes, note.Addresses ⟨part.val, at'⟩ value

/-- Choices at a path, with and without a log, among some options. -/
def Chooses (choose : Chooser σ) (watchedChoose : Chooser (σ × Log)) (path : Cursor) : Prop :=
  ∀ count, Watches (choose path count) (watchedChoose path count) fun choice notes =>
    ∀ note ∈ notes, ∃ answer, note = ⟨[], .chose path count answer⟩ ∧ 0 < count ∧
      choice = answer.filter (· < count)

/-- The notes of a choice tell about a value that is null if nothing was chosen. -/
theorem tells_of_choice {t : PropType} {count : Nat} {choice : Option Nat} {notes : Log}
    {value : Json}
    (chosen : ∀ note ∈ notes, ∃ answer, note = ⟨[], .chose path count answer⟩ ∧ 0 < count ∧
      choice = answer.filter (· < count))
    (null : choice = none → value = .null) : Log.Tells ⟨t, path⟩ value notes := by
  intro note member
  obtain ⟨answer, rfl, positive, same⟩ := chosen note member
  have here := @Note.Addresses.chose ⟨t, path⟩ value t [] [] count answer positive fun nothing => by
    rw [null (same.trans nothing), Cursor.get?_nil]
  rwa [List.append_nil] at here

theorem singletonList_tells (kind : leaf.kind = .built .arrayOf)
    (answers : ∀ item, leaf.elementPart? = some item → Answers recurse watchedRecurse item) :
    Watches (Generator.singletonList leaf path recurse choose)
      (Generator.singletonList leaf path watchedRecurse watchedChoose)
      (Log.Tells ⟨.known leaf, path⟩) := by
  cases isItem : leaf.elementPart? with
  | none =>
    simp only [Generator.singletonList, isItem]
    exact .pure nofun
  | some item =>
    simp only [Generator.singletonList, isItem]
    refine (answers item isItem _).finish fun value notes addresses note member => ?_
    exact (addresses note member).below rfl
      (PropType.below?_item kind (Described.argument?_of_elementPart? isItem) 0)

/-- The notes of the calls for items tell about the item that each call returned. -/
theorem itemValues_tells {item : Part leaf} (answers : Answers recurse watchedRecurse item)
    (n index : Nat) :
    Watches (RandomPolicy.itemValues item path recurse n index)
      (RandomPolicy.itemValues item path watchedRecurse n index) fun values notes =>
        ∀ note ∈ notes, ∃ i value, values[i]? = some value ∧
          note.Addresses ⟨item.val, path.child (.index (index + i))⟩ value := by
  induction n generalizing index with
  | zero => exact .pure nofun
  | succ n ih =>
    refine (answers _).bind fun value notes addresses =>
      (ih (index + 1)).finish fun rest more others => ?_
    refine List.forall_mem_append.2 ⟨fun note member => ?_, fun note member => ?_⟩
    · exact ⟨0, value, rfl, addresses note member⟩
    · obtain ⟨i, other, found, addresses⟩ := others note member
      rw [Nat.add_right_comm] at addresses
      exact ⟨i + 1, other, found, addresses⟩

theorem listOf_tells (policy : RandomPolicy) (source : RandomSource σ)
    (kind : leaf.kind = .built .arrayOf)
    (answers : ∀ item, leaf.elementPart? = some item → Answers recurse watchedRecurse item) :
    Watches (policy.listOf source leaf path recurse choose)
      (policy.listOf source.quiet leaf path watchedRecurse watchedChoose)
      (Log.Tells ⟨.known leaf, path⟩) := by
  cases isItem : leaf.elementPart? with
  | none =>
    simp only [RandomPolicy.listOf, isItem]
    exact .pure nofun
  | some item =>
    simp only [RandomPolicy.listOf, isItem]
    -- the number is drawn before the first item is made, and a draw is no event
    have counts : Watches (source.within policy.items) (source.quiet.within policy.items)
        fun _ notes => notes = [] :=
      (Watches.quietly _).finish fun _ _ none => none
    refine counts.bind fun count notes none =>
      (itemValues_tells (answers item isItem) count 0).finish fun values more each => ?_
    rw [none, List.nil_append]
    intro note member
    obtain ⟨i, value, found, addresses⟩ := each note member
    have child : (Json.array values).child? (.index i) = some value := found
    rw [Nat.zero_add] at addresses
    exact addresses.below child
      (PropType.below?_item kind (Described.argument?_of_elementPart? isItem) i)

/-- The notes of the calls for fields tell about the member that each call returned. -/
theorem fieldValues_tells {parts : Record (Part leaf)}
    (answers : ∀ entry ∈ parts, Answers recurse watchedRecurse entry.2) :
    Watches (Generator.fieldValues path recurse parts)
      (Generator.fieldValues path watchedRecurse parts) fun members notes =>
        Record.keys members = Record.keys parts ∧ ∀ note ∈ notes, ∃ entry ∈ parts, ∃ value,
          (entry.1, value) ∈ members ∧
            note.Addresses ⟨entry.2.val, path.child (.key entry.1)⟩ value := by
  induction parts with
  | nil => exact .pure ⟨rfl, nofun⟩
  | cons entry rest ih =>
    refine (answers entry List.mem_cons_self _).bind fun value notes addresses =>
      (ih fun entry member => answers entry (List.mem_cons_of_mem _ member)).finish
        fun members more ⟨keys, others⟩ => ⟨congrArg (entry.1 :: ·) keys, ?_⟩
    refine List.forall_mem_append.2 ⟨fun note member => ?_, fun note member => ?_⟩
    · exact ⟨entry, List.mem_cons_self, value, List.mem_cons_self, addresses note member⟩
    · obtain ⟨other, listed, value, held, addresses⟩ := others note member
      exact ⟨other, List.mem_cons_of_mem _ listed, value, List.mem_cons_of_mem _ held, addresses⟩

theorem shape_tells (kind : leaf.kind = .built .shape) (ordered : (PropType.known leaf).Ordered)
    (answers : ∀ entry ∈ leaf.fieldParts, Answers recurse watchedRecurse entry.2) :
    Watches (Generator.shape leaf path recurse choose)
      (Generator.shape leaf path watchedRecurse watchedChoose) (Log.Tells ⟨.known leaf, path⟩) := by
  refine (fieldValues_tells answers).finish fun members notes ⟨keys, each⟩ => ?_
  have ascending : Record.Ascending members := by
    rw [Record.Ascending, keys]
    exact ordered.ascending_fieldParts
  intro note member
  obtain ⟨entry, isPart, value, held, addresses⟩ := each note member
  obtain ⟨declared, isFields, listed⟩ := Described.argument?_of_fieldParts isPart
  have child : (Json.object members).child? (.key entry.1) = some value :=
    Record.get?_of_mem ascending held
  exact addresses.below child (ordered.below?_field kind isFields listed)

variable {choose : Chooser σ} {watchedChoose : Chooser (σ × Log)}

theorem oneOf_tells (recurse : Part leaf → Cursor → StateM σ Json)
    (watchedRecurse : Part leaf → Cursor → StateM (σ × Log) Json)
    (chooses : Chooses choose watchedChoose path) :
    Watches (Generator.oneOf leaf path recurse choose)
      (Generator.oneOf leaf path watchedRecurse watchedChoose) (Log.Tells ⟨.known leaf, path⟩) := by
  refine (chooses _).finish fun choice notes chosen => tells_of_choice chosen fun nothing => ?_
  rw [nothing]
  rfl

theorem oneOfType_tells (kind : leaf.kind = .built .oneOfType)
    (chooses : Chooses choose watchedChoose path)
    (answers : ∀ part ∈ leaf.candidateParts, Answers recurse watchedRecurse part.intoRequired) :
    Watches (Generator.oneOfType leaf path recurse choose)
      (Generator.oneOfType leaf path watchedRecurse watchedChoose)
      (Log.Tells ⟨.known leaf, path⟩) := by
  refine (chooses _).bind fun choice notes chosen => ?_
  cases found : choice.bind (leaf.candidateParts[·]?) with
  | none =>
    refine .pure ?_
    rw [List.append_nil]
    exact tells_of_choice chosen fun _ => rfl
  | some candidate =>
    obtain ⟨i, isChoice, isCandidate⟩ := Option.bind_eq_some_iff.1 found
    refine (answers candidate (List.mem_of_getElem? isCandidate) path).mono
      fun value more addresses => Log.tells_append ?_ fun note member => ?_
    · exact tells_of_choice chosen fun nothing => by rw [nothing] at isChoice; cases isChoice
    · exact (addresses note member).within_union (congrArg some kind)

end

namespace Stock

variable {σ : Type} (stock : Stock σ) {leaf : TypeLeaf}

theorem chooses (path : Cursor) : Chooses stock.config.choose stock.watched.choose path := by
  intro count
  by_cases zero : count = 0
  · rw [GenerationConfig.choose, GenerationConfig.choose, if_pos zero, if_pos zero]
    exact .pure nofun
  · rw [GenerationConfig.choose, GenerationConfig.choose, if_neg zero, if_neg zero]
    refine (Watches.noted (stock.chooser path count) (.chose path count)).finish
      fun answer notes same => ?_
    rw [same]
    exact List.forall_mem_singleton.2 ⟨answer, rfl, Nat.pos_of_ne_zero zero, rfl⟩

/-- Null is asked about for optional values only. -/
theorem asksNull (leaf : TypeLeaf) (path : Cursor) :
    Watches (stock.config.isNull path leaf) (stock.watched.isNull path leaf) fun _ notes =>
      ∀ note ∈ notes, note = ⟨[], .askedNull leaf path⟩ ∧ leaf.required = false := by
  by_cases required : leaf.required = true
  · rw [GenerationConfig.isNull, GenerationConfig.isNull, if_pos required, if_pos required]
    exact .pure nofun
  · rw [GenerationConfig.isNull, GenerationConfig.isNull, if_neg required, if_neg required]
    refine (Watches.noted (stock.nullability path leaf) fun _ => .askedNull leaf path).mono ?_
    rintro _ _ rfl
    exact List.forall_mem_singleton.2 ⟨rfl, Bool.eq_false_iff.2 required⟩

/-- A kind without parts has the generator it was given, or else null. -/
theorem generator_leaf {kind : Kind} (notBuilt : kind.isBuilt = false) :
    stock.config.generator kind = (stock.leaf kind).elim (Generator.constant .null)
      fun make leaf path _ choose => make leaf path choose := by
  cases kind with
  | built => cases notBuilt
  | leaf kind | extension name =>
    simp only [GenerationConfig.generator, config, GeneratorTable.union, overrides]
    cases stock.leaf _ <;> rfl

/-- Every generator is recorded, apart from the one that gives null. -/
theorem generator_watched (kind : Kind) :
    stock.watched.generator kind = (stock.logged.config.generator kind).recording := by
  simp only [GenerationConfig.generator, watched]
  cases stock.logged.config.generators kind <;> rfl

/-- A generator for a kind without parts makes no calls. -/
theorem leaf_tells {kind : Kind} (notBuilt : kind.isBuilt = false) (path : Cursor)
    (recurse : Part leaf → Cursor → StateM σ Json)
    (watchedRecurse : Part leaf → Cursor → StateM (σ × Log) Json) :
    Watches (stock.config.generator kind leaf path recurse stock.config.choose)
      (stock.watched.generator kind leaf path watchedRecurse stock.watched.choose)
      (Log.Tells ⟨.known leaf, path⟩) := by
  have logged : stock.logged.leaf kind = (stock.leaf kind).map fun make leaf path _ =>
    quietly (make leaf path stock.config.choose) := rfl
  rw [generator_watched, generator_leaf _ notBuilt, generator_leaf _ notBuilt, logged]
  cases stock.leaf kind with
  | none => exact .pure nofun
  | some make =>
    refine (Watches.quietly _).mono ?_
    rintro _ _ rfl
    exact nofun

/-- Lists have one item, or as many as are drawn. -/
theorem generator_arrayOf : stock.config.generator (.built .arrayOf) =
    stock.lists.elim Generator.singletonList fun draws => draws.1.listOf draws.2 := by
  simp only [GenerationConfig.generator, config, GeneratorTable.union, overrides]
  cases stock.lists <;> rfl

theorem list_tells {path : Cursor} {recurse : Part leaf → Cursor → StateM σ Json}
    {watchedRecurse : Part leaf → Cursor → StateM (σ × Log) Json}
    (kind : leaf.kind = .built .arrayOf)
    (answers : ∀ item, leaf.elementPart? = some item → Answers recurse
      (fun part at' => Call.record ⟨part.val, at'⟩ (watchedRecurse part at')) item) :
    Watches (stock.config.generator (.built .arrayOf) leaf path recurse stock.config.choose)
      (Generator.recording (stock.logged.config.generator (.built .arrayOf)) leaf path
        watchedRecurse stock.watched.choose)
      (Log.Tells ⟨.known leaf, path⟩) := by
  have logged : stock.logged.lists = stock.lists.map fun draws => (draws.1, draws.2.quiet) := rfl
  rw [generator_arrayOf, generator_arrayOf, logged]
  cases stock.lists with
  | none => exact singletonList_tells stock.config.choose stock.watched.choose kind answers
  | some draws =>
    exact listOf_tells stock.config.choose stock.watched.choose draws.1 draws.2 kind answers

theorem generator_tells (ordered : (PropType.known leaf).Ordered) (path : Cursor)
    {recurse : Part leaf → Cursor → StateM σ Json}
    {watchedRecurse : Part leaf → Cursor → StateM (σ × Log) Json}
    (answers : ∀ part : Part leaf, part.val.Ordered → Answers recurse
      (fun part at' => Call.record ⟨part.val, at'⟩ (watchedRecurse part at')) part) :
    Watches (stock.config.generator leaf.kind leaf path recurse stock.config.choose)
      (stock.watched.generator leaf.kind leaf path watchedRecurse stock.watched.choose)
      (Log.Tells ⟨.known leaf, path⟩) := by
  cases kind : leaf.kind with
  | leaf | extension => exact stock.leaf_tells rfl path recurse watchedRecurse
  | built built =>
    rw [generator_watched]
    cases built with
    | shape =>
      refine shape_tells stock.config.choose stock.watched.choose kind ordered
        fun entry isPart => answers _ ?_
      obtain ⟨declared, isFields, listed⟩ := Described.argument?_of_fieldParts isPart
      exact ordered.part isFields (List.mem_map_of_mem listed)
    | arrayOf =>
      refine stock.list_tells kind fun item isItem => answers item ?_
      exact ordered.part (Described.argument?_of_elementPart? isItem) List.mem_cons_self
    | oneOf => exact oneOf_tells recurse watchedRecurse (stock.chooses path)
    | oneOfType =>
      refine oneOfType_tells kind (stock.chooses path) fun part isPart => answers _ ?_
      obtain ⟨candidates, isCandidates, listed⟩ := Described.argument?_of_candidateParts isPart
      exact (ordered.part isCandidates listed).intoRequired
    | objectOf | instanceOf => exact .pure nofun

/-- A generation with a log does what the one without does, and what is noted tells about its value.
By induction on the size of the type. -/
theorem generate_tells {t : PropType} (ordered : t.Ordered) (path : Cursor) :
    Watches (stock.config.generate t path) (stock.watched.generate t path)
      (Log.Tells ⟨t, path⟩) := by
  induction weight : t.weight using Nat.strongRecOn generalizing t path with
  | ind n ih =>
    cases t with
    | unknown =>
      rw [GenerationConfig.generate, GenerationConfig.generate]
      exact .pure (List.forall_mem_nil _)
    | known leaf =>
      -- a part is asked for through a record of the call, so its notes come with what it returned
      have answers : ∀ part : Part leaf, part.val.Ordered → Answers
          (fun part at' => stock.config.generate part.val at')
          (fun part at' => Call.record ⟨part.val, at'⟩ (stock.watched.generate part.val at'))
          part :=
        fun part partOrdered at' =>
          (ih _ (weight ▸ part.property) partOrdered at' rfl).record_tells
      rw [GenerationConfig.generate, GenerationConfig.generate]
      refine (stock.asksNull leaf path).bind fun null notes asked => ?_
      have tells (value : Json) : Log.Tells ⟨.known leaf, path⟩ value notes := by
        intro note member
        obtain ⟨rfl, optional⟩ := asked note member
        have here := @Note.Addresses.askedNull ⟨.known leaf, path⟩ value leaf [] [] optional
        rwa [List.append_nil] at here
      cases null with
      | true =>
        refine .pure ?_
        rw [List.append_nil]
        exact tells _
      | false =>
        exact (stock.generator_tells ordered path answers).mono fun value more further =>
          Log.tells_append (tells value) further

end Stock

/-- The random policy makes its values so, whatever is drawn: every call for a part, as for each of
the items of a list whose number is drawn first, stands at the path of what it returned. -/
theorem random_calls_address {σ : Type} (policy : RandomPolicy) (source : RandomSource σ)
    {t : PropType} (ordered : t.Ordered) (path : Cursor) (s : σ) :
    ∃ notes,
      (Call.record ⟨t, path⟩ ((Stock.random policy source).watched.generate t path)).run (s, []) =
        ((((policy.config source).generate t path).run s).1,
          (((policy.config source).generate t path).run s).2, notes) ∧
      ∀ note ∈ notes,
        note.Addresses ⟨t, path⟩ (((policy.config source).generate t path).run s).1 := by
  rw [← Stock.config_random]
  exact ((Stock.random policy source).generate_tells ordered path).record_tells s []

/-! ## An example -/

/-- A word that must be there, a list of such words, and a page with such a list. -/
def wordType : PropType :=
  .known ⟨.leaf .string, true, none, (Library.fresh.standard .string).required⟩

def wordsType : PropType :=
  .known ⟨.built .arrayOf, true, some [.element wordType], (Library.fresh.standard .array).required⟩

def pageType : PropType :=
  .known ⟨.built .shape, true, some [.fields [("words", wordsType)]],
    (Library.fresh.standard .object).required⟩

end PropSandbox

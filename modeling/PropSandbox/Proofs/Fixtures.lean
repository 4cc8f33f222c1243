import PropSandbox.Command
import PropSandbox.Proofs.RoundTrip
import PropSandbox.Proofs.Runs

/-!
# Stored fixtures

Fixtures are generated in one session, stored, and checked in another. A command that generates
selects the component, appends instance after instance to the ones there are and stores them all; a
command that checks selects the component again and looks at what the store gives back. What was
generated passes: it has exactly the declared props, each with a value that its validator accepts
under whatever names. What was stored before stays as it was, and so does every verdict on it.
-/

namespace PropSandbox

variable {σ τ : Type}

/-! ## Places outside -/

/-- A source that has a component under a key, whatever state it is in; looking changes nothing. -/
def ComponentSource.Finds (source : ComponentSource (StateM τ)) (key : String) (c : Component) :
    Prop :=
  ∀ state, (source.find key).run.run state = (.ok (some c), state)

theorem Registry.source_finds {registry : Registry} {key : String} {c : Component}
    (listed : Record.get? registry key = some c) :
    (registry.source : ComponentSource (StateM τ)).Finds key c := by
  intro state
  change (Except.ok (Record.get? registry key), state) = _
  rw [listed]

namespace FixtureStore

/-- A state in which a store has a set under a key; loading changes nothing. -/
def Holds (store : FixtureStore (StateM τ)) (key : String) (set : FixtureSet) (state : τ) : Prop :=
  (store.load key).run.run state = (.ok set, state)

/-- A store that loads back what was saved under a key. -/
def LoadsBack (store : FixtureStore (StateM τ)) : Prop :=
  ∀ key set state, ∃ state', (store.save key set).run.run state = (.ok (), state') ∧
    store.Holds key set state'

theorem inMemory_holds {key : String} {set : FixtureSet} {stored : Record FixtureSet}
    (listed : Record.get? stored key = some set) : inMemory.Holds key set stored := by
  change (Except.ok ((Record.get? stored key).getD .empty), stored) = _
  rw [listed, Option.getD_some]

theorem inMemory_loadsBack : inMemory.LoadsBack := fun key set stored =>
  ⟨Record.insert stored key set, rfl, inMemory_holds (Record.get?_insert_self stored key set)⟩

end FixtureStore

namespace FixtureSet

/-- A set with generated instances after its own. -/
def extended (set : FixtureSet) (new : List (Record Json)) : FixtureSet :=
  ⟨set.instances ++ new.map .object⟩

@[simp] theorem extended_nil (set : FixtureSet) : set.extended [] = set := by
  simp [extended]

theorem extended_extended (set : FixtureSet) (props : Record Json) (new : List (Record Json)) :
    (set.extended [props]).extended new = set.extended (props :: new) := by
  simp [extended]

theorem size_extended (set : FixtureSet) (props : Record Json) :
    (set.extended [props]).size = set.size + 1 := by
  simp [extended, size]

theorem getElem?_extended (set : FixtureSet) (props : Record Json) :
    (set.extended [props]).instances[set.size]? = some (.object props) := by
  simp [extended, size]

end FixtureSet

/-! ## A component that is shown -/

/-- The session with a component selected and all of it loaded. -/
def Session.showing (s : Session) (key : String) (c : Component) (types : PropTypes)
    (set : FixtureSet) : Session :=
  { s with selected := some ⟨key, some c, some types, some set⟩ }

variable {s : Session} {key : String} {c : Component} {types : PropTypes} {set : FixtureSet}
  {state state' : τ}

/-- The errors in the props of an instance, by name. -/
def PropTypes.errors (types : PropTypes) (owner : String) (value : Json) : List PropError :=
  types.filterMap fun entry =>
    (entry.2.check ((value.member? entry.1).getD .null) entry.1 owner).error?

/-- Types whose checks come to an end with every value. -/
def PropTypes.Conclusive (types : PropTypes) : Prop :=
  ∀ entry ∈ types, ∀ value prop owner, (entry.2.check value prop owner).abort? = none

namespace SessionWork

/-- What is selected is shown with what the source and the store have of it. -/
theorem exec_select {backing : Backing (StateM τ)} (lib : Library)
    (found : backing.components.Finds key c) (holds : backing.fixtures.Holds key set state) :
    exec (select backing lib key) s state =
      (.ok (), s.showing key c (c.types lib) set, state) := by
  rw [select, exec_bind_ok (exec_modify _), exec_bind_ok (exec_outside_of_run (found state))]
  dsimp only
  rw [exec_bind_ok (exec_modify _), exec_bind_ok (exec_outside_of_run holds), exec_modify]
  simp [Session.start, Session.componentDidLoad, Session.fixturesDidLoad, Session.deliver,
    Session.showing]

theorem exec_save {backing : Backing (StateM τ)}
    (saved : (backing.fixtures.save key set).run.run state = (.ok (), state')) :
    exec (save backing) (s.showing key c types set) state =
      (.ok (), s.showing key c types set, state') := by
  rw [save, exec_bind_ok exec_get]
  exact exec_outside_of_run saved

end SessionWork

namespace Command

open SessionWork

/-! ## Generating -/

/-- The text that is written for generated instances, which come after a number of others. -/
def instanceTexts (start : Nat) (new : List (Record Json)) : String :=
  String.join (new.mapIdx fun i props => instanceText (start + i) (.object props))

theorem instanceTexts_cons (start : Nat) (props : Record Json) (new : List (Record Json)) :
    instanceTexts start (props :: new) =
      instanceText start (.object props) ++ instanceTexts (start + 1) new := by
  rw [instanceTexts, List.mapIdx_cons, String.join_cons, instanceTexts]
  simp only [Nat.add_zero, Nat.add_assoc, Nat.add_comm 1]

/-- An instance is generated, appended and written, and then the others. -/
theorem exec_addInstances_succ (config : GenerationConfig σ) (n : Nat) (draws : σ)
    (written : String) :
    let made := (config.generateProps types).run draws
    exec (addInstances config (n + 1) draws written) (s.showing key c types set) state =
      exec (addInstances config n made.2 (written ++ instanceText set.size (.object made.1)))
        (s.showing key c types (set.extended [made.1])) state := by
  intro made
  have added : (s.showing key c types set).addFixture config draws =
      ((.ok set.size, s.showing key c types (set.extended [made.1])), made.2) := rfl
  -- the text is that of the instance found in the session at the index that was answered
  have stored : (s.showing key c types (set.extended [made.1])).fixtures? =
      some (set.extended [made.1]) := rfl
  rw [addInstances, exec_bind_ok exec_get, added]
  dsimp only
  rw [exec_bind_ok (exec_set _), exec_result_bind, stored, Option.bind_some,
    FixtureSet.getElem?_extended]
  rfl

/-- A number of instances with a property are generated after the others and written. -/
theorem exec_addInstances {config : GenerationConfig σ} {P : Record Json → Prop}
    (made : Always (config.generateProps types) P) (n : Nat) (draws : σ) (written : String) :
    ∃ new : List (Record Json), new.length = n ∧ (∀ props ∈ new, P props) ∧
      exec (addInstances config n draws written) (s.showing key c types set) state =
        (.ok (written ++ instanceTexts set.size new),
          s.showing key c types (set.extended new), state) := by
  induction n generalizing draws written set with
  | zero => exact ⟨[], rfl, nofun, by simp [addInstances, instanceTexts]⟩
  | succ n ih =>
    rw [exec_addInstances_succ]
    obtain ⟨new, length, each, run⟩ := @ih (set.extended _) _ _
    refine ⟨_ :: new, congrArg Nat.succ length, List.forall_mem_cons.2 ⟨made draws, each⟩, ?_⟩
    rw [run, FixtureSet.size_extended, FixtureSet.extended_extended, instanceTexts_cons,
      String.append_assoc]

/-! ## Checking -/

/-- The lines that a check writes for each instance. -/
def checkTexts (types : PropTypes) (owner : String) (set : FixtureSet) : List String :=
  set.instances.mapIdx fun i value => checkText i (types.errors owner value)

/-- What a check writes of a component. -/
def checkReport (component : String) (texts : List String) : String :=
  (if texts.isEmpty then s!"{component} has no fixtures\n" else "") ++ String.join texts

theorem exec_errorsOf {verdicts : List Verdict}
    (conclusive : ∀ verdict ∈ verdicts, verdict.abort? = none) :
    exec (errorsOf verdicts) s state = (.ok (verdicts.filterMap Verdict.error?), s, state) := by
  rw [errorsOf, List.findSome?_eq_none_iff.2 conclusive]
  rfl

/-- Only a verdict that accepts is no complaint, and it has no error. -/
theorem filterMap_error?_filter (verdicts : List Verdict) :
    (verdicts.filter fun verdict => !verdict.isAccepted).filterMap Verdict.error? =
      verdicts.filterMap Verdict.error? := by
  rw [List.filterMap_filter]
  congr 1
  funext verdict
  cases verdict <;> rfl

theorem exec_checkInstances_cons (conclusive : types.Conclusive) {i : Nat} {value : Json}
    (stored : set.instances[i]? = some value) (rest : List Nat) (written : String) :
    exec (checkInstances (i :: rest) written) (s.showing key c types set) state =
      exec (checkInstances rest (written ++ checkText i (types.errors key value)))
        (s.showing key c types set) state := by
  have complaints : (s.showing key c types set).complaints i = .ok
      ((types.map fun entry =>
          entry.2.check ((value.member? entry.1).getD .null) entry.1 key).filter
        fun verdict => !verdict.isAccepted) := by
    simp [Session.complaints, Session.showing, Session.selection, Selection.loadedTypes,
      Selection.loadedFixtures, FixtureSet.instanceAt, stored, bind, Except.bind, pure, Except.pure]
  rw [checkInstances, exec_bind_ok exec_get, complaints, exec_result_bind,
    exec_bind_ok (exec_errorsOf ?_), filterMap_error?_filter, List.filterMap_map]
  · rfl
  · intro verdict complaint
    obtain ⟨entry, listed, rfl⟩ := List.mem_map.1 (List.mem_filter.1 complaint).1
    exact conclusive entry listed _ _ _

theorem exec_checkInstances (conclusive : types.Conclusive) {indices : List Nat}
    (inside : ∀ i ∈ indices, i < set.size) (written : String) :
    exec (checkInstances indices written) (s.showing key c types set) state =
      (.ok (written ++ String.join (indices.map fun i =>
          checkText i (types.errors key (set.instances.getD i .null)))),
        s.showing key c types set, state) := by
  induction indices generalizing written with
  | nil => simp [checkInstances]
  | cons i rest ih =>
    obtain ⟨here, later⟩ := List.forall_mem_cons.1 inside
    have stored : set.instances[i]? = some set.instances[i] := List.getElem?_eq_getElem here
    rw [exec_checkInstances_cons conclusive stored, ih later, List.map_cons, String.join_cons,
      List.getD_eq_getElem?_getD, stored, Option.getD_some, String.append_assoc]

/-- The instances by index are all the instances there are. -/
theorem checkTexts_eq (types : PropTypes) (owner : String) (set : FixtureSet) :
    (List.range set.size).map (fun i =>
      checkText i (types.errors owner (set.instances.getD i .null))) =
      checkTexts types owner set := by
  refine List.ext_getElem (by simp [checkTexts, FixtureSet.size]) fun i listed _ => ?_
  have inside : i < set.instances.length := by
    rwa [List.length_map, List.length_range] at listed
  have stored : set.instances[i]? = some set.instances[i] := List.getElem?_eq_getElem inside
  simp only [checkTexts, List.getElem_map, List.getElem_range, List.getElem_mapIdx,
    List.getD_eq_getElem?_getD, stored, Option.getD_some]

/-- Generated instances without errors are written as such, after the others. -/
theorem checkTexts_extended (set : FixtureSet) {owner : String} {new : List (Record Json)}
    (accepted : ∀ props ∈ new, types.errors owner (.object props) = []) :
    checkTexts types owner (set.extended new) = checkTexts types owner set ++
      (List.range new.length).map fun i => s!"instance {set.size + i}: ok\n" := by
  rw [checkTexts, FixtureSet.extended, List.mapIdx_append, checkTexts]
  congr 1
  refine List.ext_getElem (by simp) fun i inside _ => ?_
  rw [List.length_mapIdx, List.length_map] at inside
  rw [List.getElem_mapIdx, List.getElem_map, accepted _ (List.getElem_mem inside), checkText]
  simp [FixtureSet.size, Nat.add_comm]

/-- A check reports on every instance in the store and changes nothing there. -/
theorem exec_check {backing : Backing (StateM τ)} {lib : Library}
    (found : backing.components.Finds key c) (holds : backing.fixtures.Holds key set state)
    (conclusive : (c.types lib).Conclusive) (settings : GenerationSettings)
    (source : RandomSource σ) :
    exec (execute backing lib settings source (.check key)) s state =
      (.ok (checkReport key (checkTexts (c.types lib) key set)),
        s.showing key c (c.types lib) set, state) := by
  have stored : exec storedInstances (s.showing key c (c.types lib) set) state =
      (.ok set.instances, s.showing key c (c.types lib) set, state) := rfl
  have empty : set.instances.isEmpty = (checkTexts (c.types lib) key set).isEmpty := by
    rw [Bool.eq_iff_iff, List.isEmpty_iff, List.isEmpty_iff, checkTexts, List.mapIdx_eq_nil_iff]
  rw [execute, exec_bind_ok (exec_select lib found holds), exec_bind_ok stored]
  dsimp only
  rw [← FixtureSet.size, exec_checkInstances conclusive fun i inside => List.mem_range.1 inside,
    checkTexts_eq, empty, checkReport]

/-- Instances are generated after those in the store, and stored with them if that is asked for. -/
theorem exec_generate {backing : Backing (StateM τ)} {lib : Library}
    (found : backing.components.Finds key c) (holds : backing.fixtures.Holds key set state)
    (loadsBack : backing.fixtures.LoadsBack) (settings : GenerationSettings)
    {source : RandomSource σ} {P : Record Json → Prop}
    (made : Always ((settings.config source).generateProps (c.types lib)) P) (n : Nat)
    (save : Bool) :
    ∃ (new : List (Record Json)) (state' : τ), new.length = n ∧ (∀ props ∈ new, P props) ∧
      exec (execute backing lib settings source (.generate key n save)) s state =
        (.ok (instanceTexts set.size new),
          s.showing key c (c.types lib) (set.extended new), state') ∧
      if save then backing.fixtures.Holds key (set.extended new) state' else state' = state := by
  obtain ⟨new, length, each, added⟩ := @exec_addInstances _ _ s key c _ set state _ _ made n
    (source.start settings.seed) ""
  rw [String.empty_append] at added
  rw [execute, exec_bind_ok (exec_select lib found holds), exec_bind_ok added]
  cases save with
  | false => exact ⟨new, state, length, each, rfl, rfl⟩
  | true =>
    obtain ⟨state', saved, later⟩ := loadsBack key (set.extended new) state
    rw [if_pos rfl, exec_bind_ok (exec_save saved)]
    exact ⟨new, state', length, each, rfl, later⟩

end Command

/-! ## What generated props are worth -/

/-- Exactly the declared props, each with a value that passes the check of its type. -/
structure PropTypes.Satisfied (types : PropTypes) (props : Record Json) : Prop where
  keys : Record.keys props = Record.keys types
  accepted : ∀ entry ∈ types, ∃ value, Record.get? props entry.1 = some value ∧
    ∀ prop owner, entry.2.check value prop owner = .accepted

theorem PropTypes.Satisfied.errors {props : Record Json} (satisfied : types.Satisfied props)
    (owner : String) : types.errors owner (.object props) = [] := by
  refine List.filterMap_eq_nil_iff.2 fun entry declared => ?_
  obtain ⟨value, given, accepted⟩ := satisfied.accepted entry declared
  have found : (Json.object props).member? entry.1 = some value := given
  rw [found, Option.getD_some, accepted]
  rfl

/-- If every value that is made for a type passes, the props do. No name hides another one, since
the types are listed by ascending name. -/
theorem GenerationConfig.generateProps_satisfied {config : GenerationConfig σ}
    (ascending : Record.Ascending types)
    (each : ∀ entry ∈ types, ∀ path, Always (config.generate entry.2 path) fun value =>
      ∀ prop owner, entry.2.check value prop owner = .accepted) :
    Always (config.generateProps types) types.Satisfied := by
  induction types with
  | nil => exact .pure ⟨rfl, nofun⟩
  | cons entry rest ih =>
    obtain ⟨name, t⟩ := entry
    obtain ⟨first, others⟩ := List.pairwise_cons.1 ascending
    obtain ⟨here, later⟩ := List.forall_mem_cons.1 each
    refine (here _).bind fun value accepted => (ih others later).bind fun props satisfied => .pure ?_
    refine ⟨congrArg (name :: ·) satisfied.keys, List.forall_mem_cons.2 ⟨?_, ?_⟩⟩
    · exact ⟨value, by rw [Record.get?_cons, if_pos rfl], accepted⟩
    · intro entry declared
      have less : name < entry.1 := first _ (List.mem_map_of_mem declared)
      have differ : name ≠ entry.1 := fun same => String.lt_irrefl name (same ▸ less)
      rw [Record.get?_cons, if_neg differ]
      exact satisfied.accepted entry declared

theorem Component.keys_types (c : Component) (lib : Library) :
    Record.keys (c.types lib) = Record.keys c.props :=
  Record.keys_mapValues lib.infer c.props

/-- Every prop has a validator from a workshop, made by a plan that values can be generated for. -/
def Component.Generable (c : Component) (w : Workshop) : Prop :=
  ∀ entry ∈ c.props, ∃ plan, (plan, entry.2) ∈ w.made ∧ plan.Generable

/-- The check of an inferred type decides the table of the plan, under whatever names. -/
theorem Library.Knows.check_decides {lib : Library} {plan : Plan} {v : Validator}
    (knows : lib.Knows plan v) (plain : plan.Plain) (value : Json) (prop owner : String) :
    ((lib.infer v).check value prop owner).Decides (plan.Accepts value) := by
  have decides := (knows.built plain).fits.decides [(prop, value)] prop owner .prop
  rw [Record.get?_cons, if_pos rfl, Option.getD_some] at decides
  rwa [PropType.check, Library.infer_validator]

namespace Workshop.Documented

variable {w : Workshop}

theorem conclusive (documented : w.Documented) (generable : c.Generable w) :
    (c.types w.library).Conclusive := by
  refine List.forall_mem_map.2 fun entry declared value prop owner => ?_
  obtain ⟨plan, made, generable⟩ := generable entry declared
  have decides := (documented.knows _ made).check_decides generable.plain value prop owner
  rcases decides with ⟨accepted, _⟩ | ⟨⟨error, rejected⟩, _⟩
  · rw [accepted]
    rfl
  · rw [rejected]
    rfl

theorem generateProps_satisfied (documented : w.Documented) (generable : c.Generable w)
    (ascending : Record.Ascending c.props) {config : GenerationConfig σ}
    (faithful : config.generators.Faithful) (inRange : config.chooser.InRange) :
    Always (config.generateProps (c.types w.library)) (c.types w.library).Satisfied := by
  refine GenerationConfig.generateProps_satisfied ?_ (List.forall_mem_map.2 ?_)
  · rwa [Record.Ascending, c.keys_types]
  · intro entry declared path
    obtain ⟨plan, made, generable⟩ := generable entry declared
    have knows := documented.knows _ made
    have fills := GenerationConfig.Fills.of_describes faithful inRange knows.describes generable
    exact (fills.asIs path).mono fun value accepted prop owner =>
      (knows.check_decides generable.plain value prop owner).accepted_iff.2 accepted

end Workshop.Documented

namespace GenerationSettings

variable (settings : GenerationSettings) (source : RandomSource σ)

theorem config_shipped : (settings.config source).generators.Shipped := by
  rw [config]
  cases settings.policy with
  | static => exact .static
  | random => exact .random _ source

theorem config_inRange : (settings.config source).chooser.InRange := by
  rw [config]
  cases settings.policy with
  | static => exact Chooser.first_inRange
  | random => exact RandomPolicy.choose_inRange source

end GenerationSettings

/-! ## From one session to the next -/

/-- What is generated and saved with either policy for a component passes the check of a later
session: after the instances that were stored before, which stay as they are and get the verdicts
they got before, the store has the new ones, each with exactly the declared props, and every one of
these is reported to be in order. What is generated and not saved leaves no trace in the store. -/
theorem generated_fixtures_pass {lib : Library} (reachable : lib.Reachable)
    (instrumented : lib.instrumented = true) {w : Workshop} (work : (Workshop.opened lib).Steps w)
    {c : Component} (ascending : Record.Ascending c.props) (generable : c.Generable w)
    {backing : Backing (StateM τ)} {key : String} (found : backing.components.Finds key c)
    (loadsBack : backing.fixtures.LoadsBack) {old : FixtureSet} {state : τ}
    (holds : backing.fixtures.Holds key old state) (settings : GenerationSettings)
    (source : RandomSource σ) (n : Nat) (s : Session) :
    let run := fun command : Command =>
      SessionWork.exec (command.execute backing w.library settings source)
    let texts := Command.checkTexts (c.types w.library) key old
    (∃ text s', run (.generate key n false) s state = (.ok text, s', state)) ∧
      ∃ (new : List (Record Json)) (s' : Session) (state' : τ),
        run (.generate key n true) s state =
          (.ok (Command.instanceTexts old.size new), s', state') ∧
        new.length = n ∧ (∀ props ∈ new, Record.keys props = Record.keys c.props) ∧
        backing.fixtures.Holds key ⟨old.instances ++ new.map .object⟩ state' ∧
        ∀ later : Session,
          (run (.check key) later state).1 = .ok (Command.checkReport key texts) ∧
          (run (.check key) later state').1 = .ok (Command.checkReport key
            (texts ++ (List.range n).map fun i => s!"instance {old.size + i}: ok\n")) := by
  intro run texts
  have documented := work.documented (.opened reachable.sound instrumented)
  have conclusive := documented.conclusive generable
  have satisfied := documented.generateProps_satisfied generable ascending
    (settings.config_shipped source).faithful (settings.config_inRange source)
  constructor
  · obtain ⟨new, _, _, _, generated, rfl⟩ :=
      Command.exec_generate (s := s) found holds loadsBack settings satisfied n false
    exact ⟨_, _, generated⟩
  · obtain ⟨new, state', rfl, each, generated, saved⟩ :=
      Command.exec_generate (s := s) found holds loadsBack settings satisfied n true
    refine ⟨new, _, state', generated, rfl, fun props listed => ?_, saved, fun later => ?_⟩
    · rw [(each props listed).keys, c.keys_types]
    · refine ⟨congrArg Prod.fst (Command.exec_check found holds conclusive settings source), ?_⟩
      rw [← Command.checkTexts_extended old fun props listed => (each props listed).errors key]
      exact congrArg Prod.fst (Command.exec_check found saved conclusive settings source)

/-- Two random grids are stored after one that lacks its rows, and pass. -/
theorem generated_grids_pass :
    let lib := (Library.instrument.run .fresh).2
    let made := cells.run lib
    let grid : Component := ⟨"Grid", none, [("rows", made.1)]⟩
    let backing : Backing (StateM (Record FixtureSet)) :=
      ⟨Registry.source [("Grid", grid)], .inMemory⟩
    let settings : GenerationSettings := { GenerationSettings.default with policy := .random }
    let run := fun command : Command =>
      SessionWork.exec (command.execute backing made.2 settings (Mixer.source 0))
    let old : FixtureSet := ⟨[.object []]⟩
    ∃ text s' stored,
      run (.generate "Grid" 2 true) .fresh [("Grid", old)] = (.ok text, s', stored) ∧
      (run (.check "Grid") .fresh stored).1 = .ok (Command.checkReport "Grid"
        (Command.checkTexts (grid.types made.2) "Grid" old ++
          ["instance 1: ok\n", "instance 2: ok\n"])) := by
  intro lib made grid backing settings run old
  obtain ⟨entries, work, listed⟩ := @cells_made lib rfl
  have reachable : lib.Reachable := ⟨_, Relation.ReflTransGen.single .instrument⟩
  have generable : grid.Generable ⟨made.2, entries⟩ :=
    List.forall_mem_singleton.2 ⟨cellsPlan, listed, cells_generable⟩
  have ascending : Record.Ascending grid.props := List.pairwise_singleton ..
  have found : backing.components.Finds "Grid" grid := Registry.source_finds rfl
  have holds : backing.fixtures.Holds "Grid" old [("Grid", old)] :=
    FixtureStore.inMemory_holds rfl
  have numbered : (List.range 2).map (fun i => s!"instance {old.size + i}: ok\n") =
      ["instance 1: ok\n", "instance 2: ok\n"] := by decide
  obtain ⟨_, new, s', stored, generated, _, _, _, checked⟩ :=
    generated_fixtures_pass reachable rfl work ascending generable found
      FixtureStore.inMemory_loadsBack holds settings (Mixer.source 0) 2 .fresh
  rw [← numbered]
  exact ⟨_, s', stored, generated, (checked .fresh).2⟩

end PropSandbox

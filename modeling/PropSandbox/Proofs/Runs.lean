import PropSandbox.Generation.Minimal
import PropSandbox.Proofs.StaleLoads
import PropSandbox.Session.Backing

/-!
# Runs of a session

In any run of operations, whatever they are asked to do and whatever is delivered to them, the types
of the selected component are those that were inferred for it. Edits and additions leave the
selection alone: an edit changes at most the instance that it addresses, and an addition appends one.
So an instance stays where it was added, up to the next selection or the next fixtures that are
loaded for the selected component.
-/

namespace PropSandbox

/-! ## Work in a session -/

namespace SessionWork

variable {τ α β : Type}

/-- What work comes to in a session, over places outside in some state: its result, with the session
and the state that it leaves behind. -/
def exec (work : SessionWork (StateM τ) α) (s : Session) (state : τ) :
    Except Failure α × Session × τ :=
  match (work.run.run s).run state with
  | ((result, s'), state') => (result, s', state')

variable {work : SessionWork (StateM τ) α} {next : α → SessionWork (StateM τ) β} {s s' : Session}
  {state state' : τ} {a : α} {e : Failure}

@[simp] theorem exec_pure (a : α) : exec (pure a) s state = (.ok a, s, state) := rfl

@[simp] theorem exec_throw (e : Failure) :
    exec (throw e : SessionWork (StateM τ) α) s state = (.error e, s, state) := rfl

@[simp] theorem exec_get :
    exec (get : SessionWork (StateM τ) Session) s state = (.ok s, s, state) := rfl

@[simp] theorem exec_set (s' : Session) :
    exec (set s' : SessionWork (StateM τ) PUnit) s state = (.ok ⟨⟩, s', state) := rfl

@[simp] theorem exec_modify (change : Session → Session) :
    exec (modify change : SessionWork (StateM τ) PUnit) s state = (.ok ⟨⟩, change s, state) := rfl

@[simp] theorem exec_outside (work : ExceptT Failure (StateM τ) α) :
    exec (outside work) s state = ((work.run.run state).1, s, (work.run.run state).2) := rfl

theorem exec_outside_of_run {work : ExceptT Failure (StateM τ) α} {result : Except Failure α}
    (run : work.run.run state = (result, state')) :
    exec (outside work) s state = (result, s, state') := by
  rw [exec_outside, run]

/-- Work goes on with the result of what came before it, or stops at its failure. -/
theorem exec_bind (work : SessionWork (StateM τ) α) (next : α → SessionWork (StateM τ) β) :
    exec (work >>= next) s state =
      match exec work s state with
      | (.ok a, s', state') => exec (next a) s' state'
      | (.error e, s', state') => (.error e, s', state') := by
  simp only [exec, ExceptT.run_bind, StateT.run_bind]
  generalize StateT.run (StateT.run (ExceptT.run work) s) state = outcome
  obtain ⟨⟨result, s'⟩, state'⟩ := outcome
  cases result <;> rfl

theorem exec_bind_ok (first : exec work s state = (.ok a, s', state')) :
    exec (work >>= next) s state = exec (next a) s' state' := by
  rw [exec_bind, first]

theorem exec_result_bind (a : α) (next : α → SessionWork (StateM τ) β) :
    exec (result (.ok a) >>= next) s state = exec (next a) s state := by
  rw [result, pure_bind]

variable (backing : Backing (StateM τ)) (lib : Library) (key : String)

/-- Saving only reads the session. -/
theorem session_save : (exec (save backing) s state).2.1 = s := by
  rw [save, exec_bind_ok exec_get]
  cases s.toSave <;> rfl

theorem selected_loadComponentList (s : Session) (state : τ) :
    (exec (loadComponentList backing) s state).2.1.selected = s.selected := by
  rw [loadComponentList, exec_bind_ok (exec_modify _), exec_bind, exec_outside]
  cases (backing.components.list.run.run state).1 <;> rfl

/-- Selecting a component comes as far as its key, its definition or its fixtures. -/
theorem session_select (s : Session) (state : τ) :
    (exec (select backing lib key) s state).2.1 = s.start key ∨
      ∃ c, (exec (select backing lib key) s state).2.1 =
          ((s.start key).componentDidLoad lib key c).2 ∨
        ∃ set, (exec (select backing lib key) s state).2.1 =
          (((s.start key).componentDidLoad lib key c).2.fixturesDidLoad key set).2 := by
  rw [select, exec_bind_ok (exec_modify _), exec_bind, exec_outside]
  cases ((backing.components.find key).run.run state).1 with
  | error e => exact .inl rfl
  | ok found =>
    cases found with
    | none => exact .inl rfl
    | some c =>
      refine .inr ⟨c, ?_⟩
      dsimp only
      rw [exec_bind_ok (exec_modify _), exec_bind, exec_outside]
      cases ((backing.fixtures.load key).run.run
        ((backing.components.find key).run.run state).2).1 with
      | error e => exact .inl rfl
      | ok set => exact .inr ⟨set, rfl⟩

end SessionWork

/-! ## Operations -/

namespace Session

/-- An operation on a session, with what it is given and the states that it draws from. Operations
that only read are left out. -/
inductive Operation : Type 1 where
  | list {τ : Type} (backing : Backing (StateM τ)) (state : τ)
  | select {τ : Type} (backing : Backing (StateM τ)) (state : τ) (key : String)
  | start (key : String)
  | deliverComponent (key : String) (c : Component)
  | deliverFixtures (key : String) (set : FixtureSet)
  | update (c : Cursor) (value : Json)
  | edit {σ : Type} (config : GenerationConfig σ) (state : σ) (c : Cursor) (edit : FieldEdit)
  | add {σ : Type} (config : GenerationConfig σ) (state : σ)
  | save {τ : Type} (backing : Backing (StateM τ)) (state : τ)

/-- The session that an operation leaves behind, whether it succeeds or not. -/
def perform (lib : Library) (s : Session) : Operation → Session
  | .list backing state => ((SessionWork.loadComponentList backing).exec s state).2.1
  | .select backing state key => ((SessionWork.select backing lib key).exec s state).2.1
  | .start key => s.start key
  | .deliverComponent key c => (s.componentDidLoad lib key c).2
  | .deliverFixtures key set => (s.fixturesDidLoad key set).2
  | .update c value => (s.update c value).2
  | .edit config state c edit => ((s.applyEdit config c edit).run state).1.2
  | .add config state => ((s.addFixture config).run state).1.2
  | .save backing state => ((SessionWork.save backing).exec s state).2.1

/-- The session after a list of operations, in order. -/
def run (lib : Library) (s : Session) (operations : List Operation) : Session :=
  operations.foldl (perform lib) s

variable {lib : Library} {s s' : Session} {c : Cursor} {key : String} {operation : Operation}

/-! ## Selections -/

/-- The same key is selected, with the same component and the same types. -/
structure SameSelection (s s' : Session) : Prop where
  key : s'.selectedKey? = s.selectedKey?
  component : s'.component? = s.component?
  types : s'.types? = s.types?

theorem SameSelection.refl (s : Session) : s.SameSelection s :=
  ⟨rfl, rfl, rfl⟩

theorem sameSelection_withFixtures {current : Selection} (selected : s.selected = some current)
    (set : FixtureSet) : s.SameSelection (s.withFixtures current set) := by
  refine ⟨selectedKey?_withFixtures selected set, ?_, ?_⟩
  · rw [component?, component?, selected]
    rfl
  · rw [types?, types?, selected]
    rfl

theorem sameSelection_editCall {outcome : Except SandboxError Unit × Session}
    (call : s.EditCall c outcome) : s.SameSelection outcome.2 := by
  rcases editCall_cases call with ⟨e, rfl⟩ | ⟨place, w, addressed, rfl, _⟩
  · exact .refl s
  · exact sameSelection_withFixtures addressed.selected _

theorem sameSelection_addFixture {σ : Type} (config : GenerationConfig σ) (state : σ) :
    s.SameSelection ((s.addFixture config).run state).1.2 := by
  rcases addFixture_cases (s := s) config state with ⟨e, same⟩ | ⟨_, _, set, selected, _, _, same⟩
  · rw [same]
    exact .refl s
  · rw [same]
    exact sameSelection_withFixtures selected _

/-! ## Inferred types -/

/-- The types are there if the component is, and then they are those inferred for it. -/
def Inferred (lib : Library) (s : Session) : Prop :=
  s.types? = s.component?.map (Component.types lib)

theorem SameSelection.inferred (same : s.SameSelection s') (inferred : s.Inferred lib) :
    s'.Inferred lib := by
  rw [Inferred, same.types, same.component]
  exact inferred

theorem inferred_deliver {change : Selection → Selection} (inferred : s.Inferred lib)
    (keeps : ∀ current : Selection, current.types = current.component.map (Component.types lib) →
      (change current).types = (change current).component.map (Component.types lib)) :
    (s.deliver key change).2.Inferred lib := by
  unfold deliver
  cases selected : s.selected with
  | none => exact inferred
  | some current =>
    dsimp only
    split
    · refine keeps current ?_
      rw [Inferred, types?, component?, selected] at inferred
      exact inferred
    · exact inferred

theorem inferred_componentDidLoad (inferred : s.Inferred lib) (component : Component) :
    (s.componentDidLoad lib key component).2.Inferred lib :=
  inferred_deliver inferred fun _ _ => rfl

theorem inferred_fixturesDidLoad (inferred : s.Inferred lib) (set : FixtureSet) :
    (s.fixturesDidLoad key set).2.Inferred lib :=
  inferred_deliver inferred fun _ inferred => inferred

/-- No operation parts the types from the component. -/
theorem Inferred.perform (inferred : s.Inferred lib) (operation : Operation) :
    (s.perform lib operation).Inferred lib := by
  have started : ∀ key, (s.start key).Inferred lib := fun _ => rfl
  cases operation with
  | list backing state =>
    have same := SessionWork.selected_loadComponentList backing s state
    rw [Inferred, types?, component?] at inferred ⊢
    rw [Session.perform, same]
    exact inferred
  | select backing state key =>
    rw [Session.perform]
    rcases SessionWork.session_select backing lib key s state with
      same | ⟨component, same | ⟨set, same⟩⟩
    · rw [same]
      exact started key
    · rw [same]
      exact inferred_componentDidLoad (started key) component
    · rw [same]
      exact inferred_fixturesDidLoad (inferred_componentDidLoad (started key) component) set
  | start key => exact started key
  | deliverComponent key component => exact inferred_componentDidLoad inferred component
  | deliverFixtures key set => exact inferred_fixturesDidLoad inferred set
  | update c value => exact (sameSelection_editCall (.update value)).inferred inferred
  | edit config state c edit =>
    exact (sameSelection_editCall (.edit config edit state)).inferred inferred
  | add config state => exact (sameSelection_addFixture config state).inferred inferred
  | save backing state =>
    rw [Session.perform, SessionWork.session_save]
    exact inferred

theorem Inferred.run (inferred : s.Inferred lib) (operations : List Operation) :
    (s.run lib operations).Inferred lib := by
  induction operations generalizing s with
  | nil => exact inferred
  | cons operation rest ih => exact ih (inferred.perform operation)

/-! ## Instances -/

/-- The fixtures have the same number of instances, and other instances than those at some indices
are as they were. -/
structure SameInstances (s s' : Session) (changed : Nat → Prop) : Prop where
  size : s'.fixtures?.map FixtureSet.size = s.fixtures?.map FixtureSet.size
  others : ∀ i, ¬ changed i → s'.instance? i = s.instance? i

/-- A call to change the fixtures changes at most the instance that it addresses. -/
theorem sameInstances_editCall {outcome : Except SandboxError Unit × Session}
    (call : s.EditCall c outcome) :
    s.SameInstances outcome.2 fun i => c.head? = some (.index i) := by
  rcases editCall_cases call with ⟨e, rfl⟩ | ⟨place, w, addressed, rfl, _⟩
  · exact ⟨rfl, fun _ _ => rfl⟩
  · have before : s.fixtures? = some place.fixtures := by
      rw [fixtures?, addressed.selected]
      exact addressed.loaded
    refine ⟨?_, fun i other => ?_⟩
    · rw [before]
      exact congrArg some List.length_set
    · have elsewhere : place.index ≠ i := by
        rintro rfl
        rw [addressed.cursor] at other
        exact other rfl
      rw [instance?, instance?, before]
      exact List.getElem?_set_ne elsewhere

/-- An addition that fails changes nothing, and one that succeeds appends an instance. -/
theorem addFixture_appends {σ : Type} (config : GenerationConfig σ) (state : σ) :
    (∀ e, ((s.addFixture config).run state).1.1 = .error e →
        ((s.addFixture config).run state).1.2 = s) ∧
      ∀ i, ((s.addFixture config).run state).1.1 = .ok i → ∃ set added,
        s.fixtures? = some set ∧ i = set.size ∧
          ((s.addFixture config).run state).1.2.fixtures? = some ⟨set.instances ++ [added]⟩ := by
  rcases addFixture_cases (s := s) config state with ⟨e, same⟩ | ⟨_, _, set, selected, _, loaded, same⟩
  · rw [same]
    exact ⟨fun _ _ => rfl, nofun⟩
  · rw [same]
    refine ⟨nofun, ?_⟩
    rintro _ ⟨⟩
    refine ⟨set, _, ?_, rfl, rfl⟩
    rw [fixtures?, selected]
    exact loaded

/-- An operation that neither selects a component nor loads fixtures for the selected one. -/
def Operation.Spares (selected? : Option String) : Operation → Prop
  | .select .. | .start _ => False
  | .deliverFixtures key _ => selected? ≠ some key
  | _ => True

theorem deliver_of_ne (other : s.selectedKey? ≠ some key) (change : Selection → Selection) :
    s.deliver key change = (false, s) := by
  unfold deliver
  cases selected : s.selected with
  | none => rfl
  | some current =>
    dsimp only
    rw [selectedKey?, selected] at other
    exact if_neg fun same => other (congrArg some same)

/-- The same key is selected, and where there was an instance there still is one. -/
structure Keeps (s s' : Session) : Prop where
  key : s'.selectedKey? = s.selectedKey?
  instances : ∀ i, (s.instance? i).isSome → (s'.instance? i).isSome

theorem Keeps.refl (s : Session) : s.Keeps s :=
  ⟨rfl, fun _ there => there⟩

theorem Keeps.trans {s'' : Session} (first : s.Keeps s') (second : s'.Keeps s'') : s.Keeps s'' :=
  ⟨second.key.trans first.key, fun i there => second.instances i (first.instances i there)⟩

theorem Keeps.of_fixtures? (key : s'.selectedKey? = s.selectedKey?)
    (fixtures : s'.fixtures? = s.fixtures?) : s.Keeps s' := by
  refine ⟨key, fun i there => ?_⟩
  rw [instance?, fixtures]
  exact there

theorem isSome_instance?_iff {i : Nat} :
    (s.instance? i).isSome ↔ ∃ size, s.fixtures?.map FixtureSet.size = some size ∧ i < size := by
  cases loaded : s.fixtures? <;> simp [instance?, loaded, FixtureSet.size]

theorem keeps_editCall {outcome : Except SandboxError Unit × Session}
    (call : s.EditCall c outcome) : s.Keeps outcome.2 := by
  refine ⟨(sameSelection_editCall call).key, fun i there => ?_⟩
  rw [isSome_instance?_iff] at there ⊢
  rwa [(sameInstances_editCall call).size]

theorem keeps_addFixture {σ : Type} (config : GenerationConfig σ) (state : σ) :
    s.Keeps ((s.addFixture config).run state).1.2 := by
  refine ⟨(sameSelection_addFixture config state).key, fun i there => ?_⟩
  obtain ⟨failed, succeeded⟩ := addFixture_appends (s := s) config state
  cases result : ((s.addFixture config).run state).1.1 with
  | error e =>
    rw [failed e result]
    exact there
  | ok index =>
    obtain ⟨set, added, before, _, after⟩ := succeeded index result
    rw [isSome_instance?_iff, before] at there
    obtain ⟨_, ⟨⟩, inside⟩ := there
    rw [isSome_instance?_iff, after]
    exact ⟨_, rfl, by simpa [FixtureSet.size] using Nat.lt_succ_of_lt inside⟩

/-- What spares the fixtures keeps their instances. -/
theorem keeps_perform (spares : operation.Spares s.selectedKey?) :
    s.Keeps (s.perform lib operation) := by
  cases operation with
  | list backing state =>
    have same := SessionWork.selected_loadComponentList backing s state
    refine .of_fixtures? ?_ ?_
    · rw [perform, selectedKey?, selectedKey?, same]
    · rw [perform, fixtures?, fixtures?, same]
  | select | start => exact spares.elim
  | deliverComponent key component =>
    refine .of_fixtures? (selectedKey?_deliver key fun _ => rfl) ?_
    rw [perform, componentDidLoad, deliver]
    cases selected : s.selected with
    | none => rfl
    | some current =>
      dsimp only
      split
      · rw [fixtures?, fixtures?, selected]
        rfl
      · rfl
  | deliverFixtures key set =>
    rw [perform, fixturesDidLoad, deliver_of_ne spares]
    exact .refl s
  | update c value => exact keeps_editCall (.update value)
  | edit config state c edit => exact keeps_editCall (.edit config edit state)
  | add config state => exact keeps_addFixture config state
  | save backing state =>
    rw [perform, SessionWork.session_save]
    exact .refl s

theorem keeps_run {operations : List Operation}
    (spares : ∀ operation ∈ operations, operation.Spares s.selectedKey?) :
    s.Keeps (s.run lib operations) := by
  induction operations generalizing s with
  | nil => exact .refl s
  | cons operation rest ih =>
    obtain ⟨first, later⟩ := List.forall_mem_cons.1 spares
    have step : s.Keeps (s.perform lib operation) := keeps_perform first
    refine step.trans (ih fun operation listed => ?_)
    rw [step.key]
    exact later operation listed

/-! ## Every run -/

/-- What an addition answers and leaves behind: a failed one nothing, one that succeeds an instance
at the end, which is addressed by the index that is answered until fixtures are replaced. -/
structure Appends (lib : Library) (s : Session) (outcome : Except SandboxError Nat × Session) :
    Prop where
  selection : s.SameSelection outcome.2
  failed : ∀ e, outcome.1 = .error e → outcome.2 = s
  succeeded : ∀ i, outcome.1 = .ok i → ∃ set added, s.fixtures? = some set ∧ i = set.size ∧
    outcome.2.fixtures? = some ⟨set.instances ++ [added]⟩
  addressed : ∀ i, outcome.1 = .ok i → ∀ later : List Operation,
    (∀ operation ∈ later, operation.Spares s.selectedKey?) →
    ((outcome.2.run lib later).instance? i).isSome

theorem appends_addFixture {σ : Type} (lib : Library) (config : GenerationConfig σ) (state : σ) :
    s.Appends lib ((s.addFixture config).run state).1 := by
  obtain ⟨failed, succeeded⟩ := addFixture_appends (s := s) config state
  have same := sameSelection_addFixture (s := s) config state
  refine ⟨same, failed, succeeded, fun i result later spares => ?_⟩
  obtain ⟨set, added, _, rfl, after⟩ := succeeded i result
  rw [← same.key] at spares
  refine (keeps_run spares).instances _ ?_
  rw [isSome_instance?_iff, after]
  exact ⟨_, rfl, by simp [FixtureSet.size]⟩

/-- After every run of operations, the selected component has the types that were inferred for it, a
load for a key that is not selected is dropped, edits change at most the instance that they address,
and additions append one that keeps its index. -/
theorem run_consistent (lib : Library) (operations : List Operation) :
    let s := fresh.run lib operations
    s.Inferred lib ∧
      (∀ key, s.selectedKey? ≠ some key →
        (∀ c, s.componentDidLoad lib key c = (false, s)) ∧
          ∀ set, s.fixturesDidLoad key set = (false, s)) ∧
      (∀ c outcome, s.EditCall c outcome → s.SameSelection outcome.2 ∧
        s.SameInstances outcome.2 fun i => c.head? = some (.index i)) ∧
      ∀ {σ : Type} (config : GenerationConfig σ) (state : σ),
        s.Appends lib ((s.addFixture config).run state).1 := by
  intro s
  refine ⟨?_, fun key other => ?_, fun c outcome call => ?_, fun config state => ?_⟩
  · have nothing : fresh.Inferred lib := rfl
    exact nothing.run operations
  · exact ⟨fun c => deliver_of_ne other _, fun set => deliver_of_ne other _⟩
  · exact ⟨sameSelection_editCall call, sameInstances_editCall call⟩
  · exact appends_addFixture lib config state

/-- A card is loaded, an instance is added, and fixtures of a badge come late. -/
theorem card_consistent :
    let loads : List Operation :=
      [.start "Card", .deliverFixtures "Card" .empty, .deliverComponent "Card" ⟨"Card", none, []⟩]
    let later : List Operation :=
      [.deliverFixtures "Badge" .empty, .update [.index 0, .key "title"] (.string "edited"),
        .add .static ()]
    let added := (((fresh.run .fresh loads).addFixture .static).run ()).1
    added.1 = .ok 0 ∧ ((added.2.run .fresh later).instance? 0).isSome := by
  intro loads later added
  have appends := (run_consistent .fresh loads).2.2.2 .static ()
  refine ⟨rfl, appends.addressed 0 rfl later ?_⟩
  have other : some "Card" ≠ some "Badge" := by decide
  rw [List.forall_mem_cons, List.forall_mem_cons, List.forall_mem_singleton]
  exact ⟨other, trivial, trivial⟩

end Session

end PropSandbox

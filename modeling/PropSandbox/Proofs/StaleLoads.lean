import Mathlib.Logic.Relation
import PropSandbox.Proofs.FailedEdits

/-!
# Loads that come late

Calls that select a component may overlap: each starts its selection, then delivers the component,
then the fixtures, and between these steps other calls and edits may run. A load carries the key of
its call and no more, so what decides is whether that key is the one of the call that was started
last (`Current`). A load for any other key is dropped. A load of an earlier call for the same key
is taken like one of the last call, even over edits.
-/

namespace PropSandbox

/-- How far a call that selects a component has come. -/
inductive SelectStage where
  | started
  | componentDelivered
  | done
  deriving DecidableEq, Repr

/-- A call that selects a component. -/
structure SelectCall where
  key : String
  stage : SelectStage

/-- A session with the calls that select a component in it, in the order they were started. -/
structure Overlap where
  session : Session
  calls : List SelectCall

namespace Overlap

/-- A session in which no call has been started. -/
def quiet (s : Session) : Overlap := ⟨s, []⟩

/-- The key of the call that was started last. -/
def latestKey? (w : Overlap) : Option String :=
  (w.calls.map SelectCall.key).getLast?

/-- A call delivers what it has loaded, and is told whether that was taken. -/
inductive Delivers (w : Overlap) (i : Nat) : Bool → Overlap → Prop where
  | component {call : SelectCall} (lib : Library) (c : Component) (found : w.calls[i]? = some call)
      (stage : call.stage = .started) :
      Delivers w i (w.session.componentDidLoad lib call.key c).1
        ⟨(w.session.componentDidLoad lib call.key c).2,
          w.calls.set i { call with stage := .componentDelivered }⟩
  | fixtures {call : SelectCall} (set : FixtureSet) (found : w.calls[i]? = some call)
      (stage : call.stage = .componentDelivered) :
      Delivers w i (w.session.fixturesDidLoad call.key set).1
        ⟨(w.session.fixturesDidLoad call.key set).2, w.calls.set i { call with stage := .done }⟩

/-- One step of a run: a call starts or delivers, or fixtures are edited or added. -/
inductive Step (w : Overlap) : Overlap → Prop where
  | start (key : String) : Step w ⟨w.session.start key, w.calls ++ [⟨key, .started⟩]⟩
  | deliver {i : Nat} {taken : Bool} {w' : Overlap} (delivers : w.Delivers i taken w') : Step w w'
  | edit {c : Cursor} {outcome : Except SandboxError Unit × Session}
      (call : w.session.EditCall c outcome) : Step w ⟨outcome.2, w.calls⟩
  | add {σ : Type} (config : GenerationConfig σ) (state : σ) :
      Step w ⟨((w.session.addFixture config).run state).1.2, w.calls⟩

/-- Any number of steps. -/
abbrev Steps : Overlap → Overlap → Prop := Relation.ReflTransGen Step

/-- The key of the call that was started last is selected. -/
def Current (w : Overlap) : Prop :=
  ∀ key, w.latestKey? = some key → w.session.selectedKey? = some key

end Overlap

/-! ## Selected keys -/

namespace Session

variable {s : Session}

/-- A load is taken exactly if its key is selected, and otherwise changes nothing. -/
theorem deliver_taken_iff {key current : String} (selected : s.selectedKey? = some current)
    (change : Selection → Selection) :
    ((s.deliver key change).1 = true ↔ key = current) ∧
      (key ≠ current → (s.deliver key change).2 = s) := by
  obtain ⟨selection, found, rfl⟩ := Option.map_eq_some_iff.1 selected
  rw [deliver, found]
  dsimp only
  by_cases same : selection.key = key
  · rw [if_pos same]
    exact ⟨iff_of_true rfl same.symm, fun differ => absurd same.symm differ⟩
  · rw [if_neg same]
    exact ⟨iff_of_false Bool.false_ne_true fun h => same h.symm, fun _ => rfl⟩

/-- A delivery keeps the key if its change does. -/
theorem selectedKey?_deliver (key : String) {change : Selection → Selection}
    (keeps : ∀ selection, (change selection).key = selection.key) :
    (s.deliver key change).2.selectedKey? = s.selectedKey? := by
  unfold deliver
  split
  · rename_i selection selected
    split
    · simp [selectedKey?, selected, keeps]
    · rfl
  · rfl

theorem selectedKey?_withFixtures {selection : Selection} (selected : s.selected = some selection)
    (set : FixtureSet) : (s.withFixtures selection set).selectedKey? = s.selectedKey? := by
  simp [withFixtures, selectedKey?, selected]

theorem selectedKey?_editCall {c : Cursor} {outcome : Except SandboxError Unit × Session}
    (call : s.EditCall c outcome) : outcome.2.selectedKey? = s.selectedKey? := by
  rcases editCall_cases call with ⟨_, rfl⟩ | ⟨place, w, addressed, rfl, _⟩
  · rfl
  · exact selectedKey?_withFixtures addressed.selected _

/-- An instance is added after the others, or nothing happens. -/
theorem addFixture_cases {σ : Type} (config : GenerationConfig σ) (state : σ) :
    (∃ e, ((s.addFixture config).run state).1 = (.error e, s)) ∨
      ∃ (current : Selection) (types : PropTypes) (set : FixtureSet),
        s.selected = some current ∧ current.types = some types ∧ current.fixtures = some set ∧
        ((s.addFixture config).run state).1 = (.ok set.size, s.withFixtures current
          ⟨set.instances ++ [.object ((config.generateProps types).run state).1]⟩) := by
  unfold addFixture
  cases found : s.toGenerate with
  | error e => exact .inl ⟨e, rfl⟩
  | ok target =>
    obtain ⟨current, types⟩ := target
    obtain ⟨_, selected, found⟩ := bind_eq_ok found
    obtain ⟨_, typed, found⟩ := bind_eq_ok found
    cases found
    cases loaded : current.loadedFixtures with
    | error e =>
      simp only [loaded]
      exact .inl ⟨e, rfl⟩
    | ok set =>
      simp only [loaded]
      exact .inr ⟨current, types, set, selection_ok selected, Selection.loadedTypes_ok typed,
        Selection.loadedFixtures_ok loaded, rfl⟩

theorem selectedKey?_addFixture {σ : Type} (config : GenerationConfig σ) (state : σ) :
    ((s.addFixture config).run state).1.2.selectedKey? = s.selectedKey? := by
  rcases addFixture_cases (s := s) config state with ⟨e, unchanged⟩ | ⟨_, _, set, selected, _, _, added⟩
  · rw [unchanged]
  · rw [added]
    exact selectedKey?_withFixtures selected _

end Session

namespace Overlap

variable {s : Session} {w w' : Overlap} {i : Nat} {taken : Bool}

/-- A call keeps its key at every stage. -/
theorem keys_set {calls : List SelectCall} {call : SelectCall} (found : calls[i]? = some call)
    (stage : SelectStage) :
    (calls.set i { call with stage }).map SelectCall.key = calls.map SelectCall.key := by
  obtain ⟨inside, rfl⟩ := List.getElem?_eq_some_iff.1 found
  rw [List.map_set, ← List.getElem_map SelectCall.key, List.set_getElem_self]
  simpa using inside

theorem Delivers.latestKey? (delivers : w.Delivers i taken w') : w'.latestKey? = w.latestKey? := by
  cases delivers with
  | component _ _ found => exact congrArg List.getLast? (keys_set found _)
  | fixtures _ found => exact congrArg List.getLast? (keys_set found _)

theorem Delivers.selectedKey? (delivers : w.Delivers i taken w') :
    w'.session.selectedKey? = w.session.selectedKey? := by
  cases delivers with
  | component => exact Session.selectedKey?_deliver _ fun _ => rfl
  | fixtures => exact Session.selectedKey?_deliver _ fun _ => rfl

theorem Step.current (step : w.Step w') (current : w.Current) : w'.Current := by
  cases step with
  | start key =>
    intro latest found
    simp only [latestKey?, List.map_append, List.map_cons, List.map_nil, List.getLast?_concat] at found
    exact found
  | deliver delivers =>
    intro latest found
    rw [delivers.latestKey?] at found
    rw [delivers.selectedKey?]
    exact current latest found
  | edit call =>
    intro latest found
    exact (Session.selectedKey?_editCall call).trans (current latest found)
  | add config state =>
    intro latest found
    exact (Session.selectedKey?_addFixture config state).trans (current latest found)

theorem Steps.current (steps : w.Steps w') (current : w.Current) : w'.Current := by
  induction steps with
  | refl => exact current
  | tail _ step ih => exact step.current ih

theorem Delivers.taken_iff {call : SelectCall} {key : String} (delivers : w.Delivers i taken w')
    (found : w.calls[i]? = some call) (selected : w.session.selectedKey? = some key) :
    (taken = true ↔ call.key = key) ∧ (call.key ≠ key → w'.session = w.session) := by
  cases delivers with
  | component lib c here =>
    cases found.symm.trans here
    exact Session.deliver_taken_iff selected _
  | fixtures set here =>
    cases found.symm.trans here
    exact Session.deliver_taken_iff selected _

/-- A load that a call for another key delivers. -/
def Stale (key : String) (w w' : Overlap) : Prop :=
  ∃ i call taken, w.calls[i]? = some call ∧ call.key ≠ key ∧ w.Delivers i taken w'

/-- In every run of overlapping calls, edits and additions, a load is taken exactly if its key is
the one of the call that was started last, and otherwise changes nothing. So no number of loads for
other keys changes a session. -/
theorem stale_loads_dropped (run : (quiet s).Steps w) {key : String}
    (latest : w.latestKey? = some key) :
    (∀ i call taken w', w.calls[i]? = some call → w.Delivers i taken w' →
      (taken = true ↔ call.key = key) ∧ (call.key ≠ key → w'.session = w.session)) ∧
    ∀ w', Relation.ReflTransGen (Stale key) w w' → w'.session = w.session := by
  have current : (quiet s).Current := nofun
  have selected := Steps.current run current key latest
  refine ⟨fun i call taken w' found delivers => delivers.taken_iff found selected, ?_⟩
  intro w' loads
  induction loads with
  | refl => rfl
  | tail _ load ih =>
    obtain ⟨i, call, taken, found, other, delivers⟩ := load
    rw [← ih] at selected
    exact ((delivers.taken_iff found selected).2 other).trans ih

/-! ## Two cards and a badge -/

/-- A component without props. -/
def bare (name : String) : Component := ⟨name, none, []⟩

/-- Fixtures of one instance with a title. -/
def titled (title : String) : FixtureSet := ⟨[.object [("title", .string title)]]⟩

/-- The session after the second card has been loaded and its title edited. -/
def edited : Session :=
  ⟨none, some ⟨"Card", some (bare "Card"), some [], some (titled "edited")⟩⟩

/-- A card, a badge and a card again are selected, the last call loads and its title is edited. -/
def reselected (stage : SelectStage) : Overlap :=
  ⟨edited, [⟨"Card", stage⟩, ⟨"Badge", .started⟩, ⟨"Card", .done⟩]⟩

theorem reselected_steps : (quiet .fresh).Steps (reselected .started) := by
  have selections : (quiet .fresh).Steps ⟨Session.start .fresh "Card",
      [⟨"Card", .started⟩, ⟨"Badge", .started⟩, ⟨"Card", .started⟩]⟩ :=
    ((Relation.ReflTransGen.single (.start "Card")).tail (.start "Badge")).tail (.start "Card")
  have component := selections.tail (.deliver (.component (i := 2) .fresh (bare "Card") rfl rfl))
  have fixtures := component.tail (.deliver (.fixtures (i := 2) (titled "stored") rfl rfl))
  exact fixtures.tail (.edit (c := [.index 0, .key "title"]) (.update (.string "edited")))

/-- The badge that was selected in between is not heard any more. -/
theorem badge_dropped :
    (edited.componentDidLoad .fresh "Badge" (bare "Badge")).1 ≠ true ∧
      (edited.componentDidLoad .fresh "Badge" (bare "Badge")).2 = edited := by
  have badge : (reselected .started).Delivers 1 _ _ := .component .fresh (bare "Badge") rfl rfl
  have verdict := (stale_loads_dropped reselected_steps rfl).1 1 _ _ _ rfl badge
  have other : "Badge" ≠ "Card" := by decide
  exact ⟨fun taken => other (verdict.1.1 taken), verdict.2 other⟩

/-- The first call for the card is heard, although another one was started later, and its fixtures
take the place of the edited ones. -/
theorem loads_of_earlier_calls_taken :
    ¬ ∀ (s : Session) (w w' : Overlap) (i : Nat) (taken : Bool), (quiet s).Steps w →
      w.Delivers i taken w' → i + 1 < w.calls.length → w'.session = w.session := by
  intro dropped
  have first : (reselected .started).Delivers 0 _ _ := .component .fresh (bare "Card") rfl rfl
  have run : (quiet .fresh).Steps (reselected .componentDelivered) :=
    reselected_steps.tail (.deliver first)
  have late : (reselected .componentDelivered).Delivers 0 _ _ :=
    .fixtures (titled "stored") rfl rfl
  have same := congrArg Session.fixtures? (dropped _ _ _ _ _ run late (by decide))
  change some (titled "stored") = some (titled "edited") at same
  simp [titled] at same

end Overlap

end PropSandbox

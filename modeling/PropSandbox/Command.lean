import PropSandbox.Json.Text
import PropSandbox.Session.Backing
import PropSandbox.Settings

/-!
# Commands

A command does one piece of work in a session and renders what it finds: lists in plain lines,
instances as script literals, types and forms as indented JSON.
-/

namespace PropSandbox

/-- What the sandbox is asked to do. -/
inductive Command where
  /-- List the components. -/
  | list
  /-- Show the prop types of a component. -/
  | infer (component : String)
  /-- Generate instances, and keep them if asked to. -/
  | generate (component : String) (count : Nat) (save : Bool)
  /-- Check every stored instance. -/
  | check (component : String)
  /-- Show the stored instances. -/
  | display (component : String)
  /-- Show the form of one instance. -/
  | form (component : String) (index : Nat)
  deriving DecidableEq, Repr

def PropTypes.toJson (identity : ValidatorId → Json) (types : PropTypes) : Json :=
  .object (Record.mapValues (PropType.toJson identity) types)

namespace Command

/-- The lines of a component in a list. -/
def summaryText (s : ComponentSummary) : String :=
  let title := match s.description with
    | some description => s.name ++ ": " ++ description ++ "\n"
    | none => s.name ++ "\n"
  if s.props.isEmpty then title
  else title ++ "  props: " ++ ", ".intercalate s.props ++ "\n"

def instanceText (index : Nat) (value : Json) : String :=
  let literal := value.script
  s!"// instance {index}\n{literal}\n"

def checkText (index : Nat) (errors : List PropError) : String :=
  if errors.isEmpty then s!"instance {index}: ok\n"
  else
    let lines := errors.map fun e => "  - " ++ e.message ++ "\n"
    s!"instance {index}:\n" ++ String.join lines

/-- An indented value on lines of its own. -/
def valueText (value : Json) : String :=
  value.pretty ++ "\n"

variable {m : Type → Type} [Monad m]

/-- The errors among verdicts, unless a validator gave up. -/
def errorsOf (verdicts : List Verdict) : SessionWork m (List PropError) :=
  match verdicts.findSome? Verdict.abort? with
  | some text => throw (.aborted text)
  | none => pure (verdicts.filterMap Verdict.error?)

/-- Adds a number of generated instances and writes each of them after the text there is. -/
def addInstances {σ : Type} (config : GenerationConfig σ) :
    Nat → σ → String → SessionWork m String
  | 0, _, written => pure written
  | n + 1, draws, written => do
    let ((added, session), draws) := (← get).addFixture config draws
    set session
    let index ← SessionWork.result added
    let value := (session.fixtures?.bind fun set => set.instances[index]?).map (instanceText index)
    addInstances config n draws (written ++ value.getD "")

/-- Checks the instances with given indices and writes what is wrong after the text there is. -/
def checkInstances : List Nat → String → SessionWork m String
  | [], written => pure written
  | index :: rest, written => do
    let verdicts ← SessionWork.result ((← get).complaints index)
    let errors ← errorsOf verdicts
    checkInstances rest (written ++ checkText index errors)

/-- The stored instances of the selected component. -/
def storedInstances : SessionWork m (List Json) := do
  return ((← get).fixtures?.getD .empty).instances

/-- Carries out a command and renders what it comes to. -/
def execute {σ : Type} (backing : Backing m) (lib : Library) (settings : GenerationSettings)
    (source : RandomSource σ) : Command → SessionWork m String
  | .list => do
    let summaries ← SessionWork.loadComponentList backing
    pure (String.join (summaries.map summaryText))
  | .infer component => do
    SessionWork.select backing lib component
    let types := (← get).types?
    pure ((types.map fun types => valueText (types.toJson PropType.numbered)).getD "")
  | .generate component count save => do
    SessionWork.select backing lib component
    let written ←
      addInstances (settings.config source) count (source.start settings.seed) ""
    if save then SessionWork.save backing
    pure written
  | .check component => do
    SessionWork.select backing lib component
    let instances ← storedInstances
    let written := if instances.isEmpty then s!"{component} has no fixtures\n" else ""
    checkInstances (List.range instances.length) written
  | .display component => do
    SessionWork.select backing lib component
    let instances ← storedInstances
    pure (String.join (instances.mapIdx instanceText))
  | .form component index => do
    SessionWork.select backing lib component
    let views ← SessionWork.result ((← get).form index)
    match FieldView.abortAmong? views with
    | some text => throw (.aborted text)
    | none => pure (valueText (.array (views.map FieldView.toJson)))

end Command

end PropSandbox

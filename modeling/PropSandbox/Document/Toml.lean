import PropSandbox.Document.Toml.Table
import PropSandbox.Document.Toml.Value

/-!
# Reading TOML

The reader takes a text apart into statements, one to a line, and fills the table of the document
with them.
-/

namespace PropSandbox

namespace Toml

open Reader

/-- Leaves out blanks, line ends and comments. What a comment may not hold stays. -/
def withoutGap : (inComment : Bool) → List Char → List Char
  | _, [] => []
  | inComment, c :: rest =>
    if c == '\n' then withoutGap false rest
    else if (inComment || c == '#') && isAllowed c then withoutGap true rest
    else if isBlank c then withoutGap false rest
    else c :: rest

/-- Leaves out what may stand between statements and between the items of an array. -/
def gap : Reader Unit :=
  modify (withoutGap false)

/-- Goes past the end of a line, on which only a comment may be left. -/
def lineEnd : Reader Unit := do
  skipWhile isBlank
  if ← accept "#" then skipWhile isAllowed
  unless (← rest).isEmpty do expect "\n"

/-! ## Keys -/

def isKeyChar (c : Char) : Bool :=
  c.isAlphanum || c == '_' || c == '-'

/-- One name of a key, with the blanks around it. -/
def keyName : Reader String := do
  skipWhile isBlank
  let name ← match ← lineString? with
    | some name => pure name
    | none => return String.ofList (← takeSome isKeyChar)
  skipWhile isBlank
  pure name

/-- A key: names with points between. The bound is on their number. -/
def key : Nat → Reader (List String)
  | 0 => failure
  | bound + 1 => do
    let name ← keyName
    skipWhile isBlank
    if ← accept "." then return name :: (← key bound)
    else pure [name]

/-- A key of any length. -/
def anyKey : Reader (List String) := do
  key ((← rest).length + 1)

/-! ## Values -/

mutual

/-- A value. The bound is on the number of steps. -/
def value : Nat → Reader Node
  | 0 => failure
  | steps + 1 => do
    if ← accept "[" then return .sequence (← items steps)
    else if ← accept "\x7b" then
      skipWhile isBlank
      let entries ← if ← accept "\x7d" then pure [] else entries steps
      match tableOf? entries with
      | some table => pure table
      | none => failure
    else
      match ← string? with
      | some s => pure (.scalar (.ofText s))
      | none => return .scalar (← bare)
termination_by structural steps => steps

/-- The items of an array up to its closing bracket, which is taken. -/
def items : Nat → Reader (List Node)
  | 0 => failure
  | steps + 1 => do
    gap
    if ← accept "]" then pure []
    else
      let item ← value steps
      gap
      if ← accept "," then return item :: (← items steps)
      else if ← accept "]" then pure [item]
      else failure
termination_by structural steps => steps

/-- The entries of an inline table up to its closing bracket, which is taken. -/
def entries : Nat → Reader (List Statement)
  | 0 => failure
  | steps + 1 => do
    let path ← anyKey
    expect "="
    skipWhile isBlank
    let item ← value steps
    skipWhile isBlank
    if ← accept "," then return .entry path item :: (← entries steps)
    else if ← accept "\x7d" then pure [.entry path item]
    else failure
termination_by structural steps => steps

end

/-! ## Documents -/

/-- A statement, with the end of its line. -/
def statement : Reader Statement := do
  let made ← if ← accept "[[" then do
      let path ← anyKey
      expect "]]"
      pure (Statement.listHeader path)
    else if ← accept "[" then do
      let path ← anyKey
      expect "]"
      pure (Statement.header path)
    else do
      let path ← anyKey
      expect "="
      skipWhile isBlank
      let node ← value (2 * (← rest).length + 1)
      pure (Statement.entry path node)
  lineEnd
  pure made

/-- All statements of a text. The bound is on their number. -/
def statements : Nat → Reader (List Statement)
  | 0 => failure
  | bound + 1 => do
    gap
    if (← rest).isEmpty then pure []
    else
      let first ← statement
      return first :: (← statements bound)

/-- A text with every line end written as a line feed. -/
def withLineFeeds : List Char → List Char
  | '\r' :: '\n' :: rest => '\n' :: withLineFeeds rest
  | c :: rest => c :: withLineFeeds rest
  | [] => []

/-- The statements of a whole text, which may begin with a byte order mark. -/
def allStatements : Reader (List Statement) := do
  let _ ← accept "\ufeff"
  statements ((← rest).length + 1)

end Toml

def Node.ofTomlText? (text : String) : Option Node :=
  (Toml.allStatements.runAll (Toml.withLineFeeds text.toList)).bind Toml.tableOf?

end PropSandbox

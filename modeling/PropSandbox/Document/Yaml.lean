import PropSandbox.Document.Yaml.Text

/-!
# Reading YAML

The reader takes a document of mappings and sequences, in blocks set off by indentation or in flow
between brackets, with plain and quoted scalars and with comments. Tags, anchors, aliases, explicit
keys and literal blocks are not accepted.

A block reader stands where content begins, knows the column of it, and answers beside its node
what comes next: content at some column of a later line, or the end of the document.
-/

namespace PropSandbox

namespace Yaml

open Reader

/-- What comes next. -/
inductive Next where
  /-- Content on the same line, at a column. -/
  | here (column : Nat)
  /-- Content that begins a later line, at a column. -/
  | line (column : Nat)
  | finished

/-- Leaves out blanks, line ends and comments. Keeps the column, and whether a line has begun.
Outside flow collections a tab is no indentation, and stays where a line begins. -/
def skipSpace (inFlow : Bool) :
    (onNewLine inComment : Bool) → (column : Nat) → List Char → Bool × Nat × List Char
  | onNewLine, _, column, [] => (onNewLine, column, [])
  | onNewLine, inComment, column, c :: rest =>
    if c == '\n' then skipSpace inFlow true false 0 rest
    else if inComment || c == '#' then skipSpace inFlow onNewLine true (column + 1) rest
    else if c == ' ' || (c == '\t' && (inFlow || !onNewLine)) then
      skipSpace inFlow onNewLine false (column + 1) rest
    else (onNewLine, column, c :: rest)

/-- Whether a mark stands alone at the start of a text. -/
def markNext (mark : String) (text : List Char) : Bool :=
  mark.toList.isPrefixOf text && spaceNext (text.drop mark.length)

/-- Whether a text begins with a mark between documents. -/
def documentMarkNext (text : List Char) : Bool :=
  markNext "---" text || markNext "..." text

/-- Goes on to the next content, from a column. -/
def advance (onNewLine : Bool) (column : Nat) : Reader Next := do
  let (fresh, column, text) := skipSpace false onNewLine false column (← rest)
  set text
  if text.isEmpty || (fresh && column == 0 && documentMarkNext text) then pure .finished
  else pure (if fresh then .line column else .here column)

/-- Goes on past the end of a line to the next content. -/
def nextLine : Reader Next := do
  match ← advance false 0 with
  | .here _ => failure
  | next => pure next

/-- Leaves out what may stand between the parts of a flow collection. -/
def gap : Reader Unit := do
  set (skipSpace true false false 0 (← rest)).2.2

/-- Whether an entry of a block sequence comes next. -/
def entryNext : Reader Bool := do
  return markNext "-" (← rest)

/-- Takes the mark of an entry in a block sequence. No tab comes before what the entry holds. -/
def entryMark : Reader Unit := do
  expect "-"
  if ((← rest).dropWhile (· == ' ')).head? == some '\t' then failure

/-- The key of an entry in a block mapping, with its colon. -/
def key : Reader Scalar := do
  let scalar ← match ← quoted? with
    | some scalar => pure scalar
    | none => do
      unless plainBegins false (← rest) do failure
      pure (plainScalar (String.ofList (← plainLine false)))
  skipWhile isBlank
  unless markNext ":" (← rest) do failure
  expect ":"
  pure scalar

/-- Whether an entry of a block mapping comes next. -/
def keyNext : Reader Bool := fun text =>
  some ((key text).isSome, text)

/-! ## Flow collections -/

mutual

/-- A node inside a flow collection. The bound is on the number of steps. -/
def flowNode : Nat → Reader Node
  | 0 => failure
  | steps + 1 => do
    if ← accept "[" then return .sequence (← flowItems steps)
    else if ← accept "\x7b" then return .mapping (← flowEntries steps)
    else
      match ← quoted? with
      | some scalar => pure (.scalar scalar)
      | none => return .scalar (← plain true 0)
termination_by structural steps => steps

/-- The value after the colon of an entry; it may be left empty. -/
def flowValue : Nat → Reader Node
  | 0 => failure
  | steps + 1 => do
    gap
    match ← peek? with
    | some ',' | some ']' | some '\x7d' => pure void
    | _ => flowNode steps
termination_by structural steps => steps

/-- The items of a flow sequence up to its closing bracket, which is taken. An item may be a single
entry of a mapping. -/
def flowItems : Nat → Reader (List Node)
  | 0 => failure
  | steps + 1 => do
    gap
    if ← accept "]" then pure []
    else
      let node ← flowNode steps
      gap
      let item ← if ← accept ":" then
          match node with
          | .scalar name => do pure (Node.mapping [(name, ← flowValue steps)])
          | _ => failure
        else pure node
      gap
      if ← accept "," then return item :: (← flowItems steps)
      else if ← accept "]" then pure [item]
      else failure
termination_by structural steps => steps

/-- The entries of a flow mapping up to its closing bracket, which is taken. -/
def flowEntries : Nat → Reader (List (Scalar × Node))
  | 0 => failure
  | steps + 1 => do
    gap
    if ← accept "\x7d" then pure []
    else
      let name ← match ← flowNode steps with
        | .scalar name => pure name
        | _ => failure
      gap
      let value ← if ← accept ":" then flowValue steps else pure void
      gap
      if ← accept "," then return (name, value) :: (← flowEntries steps)
      else if ← accept "\x7d" then pure [(name, value)]
      else failure
termination_by structural steps => steps

end

/-- A node that is no block collection. Its further lines are at least at a floor. -/
def inline (floor : Nat) : Reader Node := do
  match ← peek? with
  | some '[' | some '\x7b' => flowNode (2 * (← rest).length + 1)
  | _ =>
    match ← quoted? with
    | some scalar => pure (.scalar scalar)
    | none => return .scalar (← plain false floor)

/-! ## Block collections -/

mutual

/-- The node that begins at a column. Its further lines are at least at a floor. The bound is on
the number of steps. -/
def block : (steps floor column : Nat) → Reader (Node × Next)
  | 0, _, _ => failure
  | steps + 1, floor, column => do
    if ← entryNext then
      let (items, next) ← blockItems steps column
      pure (.sequence items, next)
    else if ← keyNext then
      let (entries, next) ← blockEntries steps column
      pure (.mapping entries, next)
    else
      let node ← inline floor
      return (node, ← nextLine)
termination_by structural steps => steps

/-- The items of a block sequence at a column. -/
def blockItems : (steps column : Nat) → Reader (List Node × Next)
  | 0, _ => failure
  | steps + 1, column => do
    entryMark
    let (item, next) ← match ← advance false (column + 1) with
      | .here inner => block steps (column + 1) inner
      | .line inner =>
        if column < inner then block steps (column + 1) inner else pure (void, .line inner)
      | .finished => pure (void, .finished)
    match next with
    | .line following =>
      if column < following then failure
      else if following = column ∧ (← entryNext) then
        let (items, next) ← blockItems steps column
        pure (item :: items, next)
      else pure ([item], next)
    | next => pure ([item], next)
termination_by structural steps => steps

/-- The entries of a block mapping at a column. A sequence may stand at the column of its key. -/
def blockEntries : (steps column : Nat) → Reader (List (Scalar × Node) × Next)
  | 0, _ => failure
  | steps + 1, column => do
    let name ← key
    let (value, next) ← match ← advance false column with
      | .here _ => do
        let node ← inline (column + 1)
        pure (node, ← nextLine)
      | .line inner =>
        if column < inner then block steps (column + 1) inner
        else if inner = column ∧ (← entryNext) then do
          let (items, next) ← blockItems steps column
          pure (Node.sequence items, next)
        else pure (void, .line inner)
      | .finished => pure (void, .finished)
    match next with
    | .line following =>
      if column < following then failure
      else if following = column then
        let (entries, next) ← blockEntries steps column
        pure ((name, value) :: entries, next)
      else pure ([(name, value)], next)
    | next => pure ([(name, value)], next)
termination_by structural steps => steps

end

/-! ## Documents -/

/-- The node of a document, after the mark at its start if there is one. -/
def content (next : Next) : Reader Node := do
  let (node, _) ← match next with
    | .here _ => do
      let node ← inline 0
      pure (node, ← nextLine)
    | .line column => do
      let (node, next) ← block (2 * (← rest).length + 2) 0 column
      match next with
      | .finished => pure (node, next)
      | _ => failure
    | .finished => pure (void, .finished)
  pure node

/-- Whether a text may hold a character: no control character but tabs and line ends. -/
def isAllowed (c : Char) : Bool :=
  c == '\t' || c == '\n' || (32 ≤ c.toNat && c.toNat < 127) || c == '\u0085'
    || (160 ≤ c.toNat && c.toNat != 0xFFFE && c.toNat != 0xFFFF)

/-- A whole text, which may begin with a byte order mark and holds at most one document. -/
def document : Reader Node := do
  unless (← rest).all isAllowed do failure
  let start := if ← accept "\ufeff" then 1 else 0
  let node ← match ← advance true start with
    | .finished => if ← accept "---" then content (← advance false 3) else pure void
    | next => content next
  let _ ← accept "..."
  gap
  pure node

/-- A text with every line end written as a line feed. -/
def withLineFeeds : List Char → List Char
  | '\r' :: '\n' :: rest => '\n' :: withLineFeeds rest
  | '\r' :: rest => '\n' :: withLineFeeds rest
  | c :: rest => c :: withLineFeeds rest
  | [] => []

end Yaml

def Node.ofYamlText? (text : String) : Option Node :=
  Yaml.document.runAll (Yaml.withLineFeeds text.toList)

end PropSandbox

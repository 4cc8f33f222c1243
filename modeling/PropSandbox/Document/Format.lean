import PropSandbox.Document.JsonText
import PropSandbox.Document.Toml
import PropSandbox.Document.Yaml
import PropSandbox.Path

/-!
# Document formats

The ending of a file says in which format its document is written.
-/

namespace PropSandbox

/-- The formats of documents. -/
inductive DocumentFormat where
  | json | yaml | toml
  deriving DecidableEq, Repr

namespace DocumentFormat

/-- The format of files with an ending. -/
def ofExtension? (ending : String) : Option DocumentFormat :=
  if ending = "json" then some .json
  else if ending = "yaml" ∨ ending = "yml" then some .yaml
  else if ending = "toml" then some .toml
  else none

def ofPath? (path : String) : Option DocumentFormat :=
  (Path.extension? path).bind ofExtension?

def document? : DocumentFormat → String → Option Node
  | .json, text => Node.ofJsonText? text
  | .yaml, text => Node.ofYamlText? text
  | .toml, text => Node.ofTomlText? text

end DocumentFormat

end PropSandbox

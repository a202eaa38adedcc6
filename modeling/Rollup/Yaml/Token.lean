/-
Tokens: the words and brackets of a document.

Indentation appears as tokens of its own, so what follows the lexer does not
need to look at columns.
-/

namespace Rollup.Yaml

inductive Token where
  | versionDirective
  | tagDirective (handle expansion : String)
  | documentStart
  | documentEnd
  | streamEnd
  | blockSequenceStart
  | blockMappingStart
  | blockEnd
  | flowSequenceStart
  | flowSequenceEnd
  | flowMappingStart
  | flowMappingEnd
  | blockEntry
  | flowEntry
  | key
  | value
  | anchor (name : String)
  | alias (name : String)
  | tag (handle suffix : String)
  /-- a scalar; only plain ones are resolved -/
  | scalar (plain : Bool) (text : String)
  deriving DecidableEq

end Rollup.Yaml

/-!
# Tokens of YAML

The marks, names and scalars of a document in their order.  Block collections, which are told by
columns, have tokens for their starts and ends as flow collections have brackets.
-/

namespace OptimalAssignment.Yaml

inductive Token where
  | version (major minor : Nat)
  /-- A short name for the beginnings of tags. -/
  | handle (name expansion : String)
  | documentStart
  | documentEnd
  | blockSequence
  | blockMapping
  | blockEnd
  | flowSequence
  | flowSequenceEnd
  | flowMapping
  | flowMappingEnd
  /-- A dash. -/
  | item
  /-- A comma. -/
  | separator
  | key
  | value
  | anchor (name : String)
  | alias (name : String)
  | tag (handle suffix : String)
  | scalar (plain : Bool) (text : String)
  deriving DecidableEq, Repr

end OptimalAssignment.Yaml

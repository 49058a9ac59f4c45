import Conveyor.Yaml.Fault

/-! The tokens of a document: marks, names, scalars and the bounds of collections. -/

namespace Conveyor.Yaml

inductive Directive where
  | version (major : Nat)
  | tagHandle (handle base : String)
  | other
  deriving DecidableEq, Repr

/-- A token. Collections in block form have no written bounds; theirs come from the indentation.
After a scalar that cannot be read there are no further tokens that count. -/
inductive Token where
  | directive (d : Directive)
  | documentStart
  | documentEnd
  | blockSequenceStart
  | blockMappingStart
  | blockEnd
  | flowSequenceStart
  | flowSequenceEnd
  | flowMappingStart
  | flowMappingEnd
  | blockEntry
  | flowEntry
  | key
  | value
  | alias (name : String)
  | anchor (name : String)
  | tag (handle : Option String) (suffix : String)
  | scalar (text : String) (plain : Bool)
  | unreadable (fault : Fault)
  deriving DecidableEq, Repr

end Conveyor.Yaml

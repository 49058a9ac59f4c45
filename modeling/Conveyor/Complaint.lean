import Conveyor.Value.Text

/-! Complaints about a pipeline declaration: a message and the single problems found. -/

namespace Conveyor

structure Complaint where
  message : String
  problems : List String := []
  deriving DecidableEq, Repr, Inhabited

def Complaint.text (c : Complaint) : String :=
  "\n".intercalate (c.message :: c.problems.map ("  - " ++ ·))

inductive ValueFault where
  | unordered (left right : String)
  | dateWithTime
  | mixedOffsets
  | badKey (kind : String)
  | unwritable
  | endless
  deriving DecidableEq, Repr

namespace ValueFault

def message : ValueFault → String
  | .unordered left right => s!"'<' not supported between instances of '{left}' and '{right}'"
  | .dateWithTime => "can't compare datetime.datetime to datetime.date"
  | .mixedOffsets => "can't compare offset-naive and offset-aware datetimes"
  | .badKey kind => "keys must be str, int, float, bool or None, not " ++ kind
  | .unwritable => Value.unwritableMessage
  | .endless => "maximum recursion depth exceeded"

def kind : ValueFault → String
  | .unwritable => "ValueError"
  | .endless => "RecursionError"
  | _ => "TypeError"

end ValueFault

/-- Why a declaration is refused: a complaint about it, or a value that cannot be used. -/
inductive Rejection where
  | complaint (c : Complaint)
  | unusable (f : ValueFault)
  deriving DecidableEq, Repr

namespace Value

/-- The text of a value. A number with too many digits has none. -/
def written (v : Value) : Except ValueFault String :=
  if v.isUnwritable then .error .unwritable else .ok v.text

def checkWritten (entries : Mapping) : Except ValueFault Unit :=
  if anyEntryUnwritable entries then .error .unwritable else .ok ()

end Value

def Rejection.text : Rejection → String
  | .complaint c => c.text
  | .unusable f => f.message

end Conveyor

import Conveyor.Artifact.Inputs
import Conveyor.Document.Checked

/-! What a step gives back: an outcome, or an error. -/

namespace Conveyor

structure StepOutcome where
  exitStatus : Int
  logs : String := ""
  cancelled : Bool := false
  deriving DecidableEq, Repr, Inhabited

def StepOutcome.ok (o : StepOutcome) : Bool := o.exitStatus == 0 && !o.cancelled

inductive StepFault where
  | missing (m : MissingArtifact)
  | ambiguous (a : AmbiguousArtifact)
  | undeclared (job name : String) (produces : List String)
  | publishedTwice (job name : String)
  | unknownExecutor (name : String) (known : List String)
  | badExitStatus (v : Value)
  | unnamedAxis (key : Value)
  | filterWithoutKeys (v : Value)
  | badFilter (m : Document.Misuse)
  | raised (kind message : String)
  deriving DecidableEq, Repr

namespace StepFault

def kind : StepFault → String
  | .missing _ => "MissingArtifactError"
  | .ambiguous _ => "AmbiguousArtifactError"
  | .undeclared _ _ _ => "ValueError"
  | .publishedTwice _ _ => "ValueError"
  | .unknownExecutor _ _ => "KeyError"
  | .badExitStatus (.str _) => "ValueError"
  | .badExitStatus (.float (.nan _)) => "ValueError"
  | .badExitStatus (.float _) => "OverflowError"
  | .badExitStatus _ => "TypeError"
  | .unnamedAxis (.bytes _) => "TypeError"
  | .unnamedAxis _ => "AttributeError"
  | .filterWithoutKeys _ => "AttributeError"
  | .badFilter m => m.kind
  | .raised kind _ => kind

def unknownExecutorText (name : String) (known : List String) : String :=
  "No executor registered for " ++ Text.quoted name ++ ". Known: " ++ Text.quotedList known

def message : StepFault → String
  | .missing m => m.text
  | .ambiguous a => a.message
  | .undeclared job name produces =>
    "[" ++ job ++ "] artifact " ++ Text.quoted name ++ " is not declared in produces " ++
      Text.quotedList produces
  | .publishedTwice job name => "[" ++ job ++ "] artifact " ++ Text.quoted name ++ " published twice"
  | .unknownExecutor name known => Text.quoted (unknownExecutorText name known)
  | .badExitStatus (.str s) => Number.wholeMessage 10 s
  | .badExitStatus (.float (.nan _)) => "cannot convert float NaN to integer"
  | .badExitStatus (.float _) => "cannot convert float infinity to integer"
  | .badExitStatus v =>
    "int() argument must be a string, a bytes-like object or a real number, not '" ++
      v.fullKindName ++ "'"
  | .unnamedAxis (.bytes _) => "a bytes-like object is required, not 'str'"
  | .unnamedAxis key => "'" ++ key.fullKindName ++ "' object has no attribute 'upper'"
  | .filterWithoutKeys v => "'" ++ v.fullKindName ++ "' object has no attribute 'items'"
  | .badFilter m => m.message
  | .raised _ message => message

def isMissing : StepFault → Bool
  | .missing _ => true
  | _ => false

def isUnwritable : StepFault → Bool
  | .missing m => Value.anyEntryUnwritable m.matrix
  | _ => false

def ofValue (f : ValueFault) : StepFault := .raised f.kind f.message

end StepFault

/-- What an attempt at a step gives: an outcome, an error, nothing at all, or an interruption of the
whole run. -/
inductive Reply where
  | outcome (o : StepOutcome)
  | raised (f : StepFault)
  | nothing
  | interrupted
  deriving DecidableEq, Repr

end Conveyor

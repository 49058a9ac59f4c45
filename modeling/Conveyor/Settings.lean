import Conveyor.Number.Text
import Conveyor.Table

/-! The settings of a run: how many jobs at once, for how long, and where artifacts go. -/

namespace Conveyor

structure Settings where
  maxWorkers : Option Int := none
  jobTimeout : Option Number := none
  keepArtifacts : Bool := false
  artifactDir : Option String := none
  debug : Bool := false
  deriving DecidableEq, Repr, Inhabited

inductive SettingsFault where
  | notInteger (variableName text : String)
  | notSeconds (variableName text : String)
  | tooFewWorkers
  | noTime
  deriving DecidableEq, Repr

def SettingsFault.message : SettingsFault → String
  | .notInteger name text => name ++ " must be an integer, got " ++ Text.quoted text
  | .notSeconds name text => name ++ " must be a number of seconds, got " ++ Text.quoted text
  | .tooFewWorkers => "max_workers must be >= 1"
  | .noTime => "job_timeout must be > 0"

structure SettingsChange where
  maxWorkers : Option Int := none
  jobTimeout : Option Number := none
  keepArtifacts : Option Bool := none
  artifactDir : Option String := none
  debug : Option Bool := none
  deriving DecidableEq, Repr, Inhabited

namespace Settings

def checked (s : Settings) : Except SettingsFault Settings :=
  if s.maxWorkers.any (· < 1) then .error .tooFewWorkers
  else if s.jobTimeout.any (·.isNonPositive) then .error .noTime
  else .ok s

def override (s : Settings) (change : SettingsChange) : Except SettingsFault Settings :=
  checked
    { maxWorkers := change.maxWorkers <|> s.maxWorkers
      jobTimeout := change.jobTimeout <|> s.jobTimeout
      keepArtifacts := change.keepArtifacts.getD s.keepArtifacts
      artifactDir := change.artifactDir <|> s.artifactDir
      debug := change.debug.getD s.debug }

/-- The value of a variable without the blanks around it; none if there is nothing else. -/
def setting? (env : Table String String) (name : String) : Option String :=
  ((env.get? name).map Text.strip).filter (· ≠ "")

def isOn (env : Table String String) (name : String) : Bool :=
  match setting? env name with
  | some text =>
    ["1", "true", "yes", "on"].contains (String.ofList (text.toList.map Char.toLower))
  | none => false

def workersName : String := "MATRIXCI_MAX_WORKERS"

def timeoutName : String := "MATRIXCI_JOB_TIMEOUT"

def keepName : String := "MATRIXCI_KEEP_ARTIFACTS"

def folderName : String := "MATRIXCI_ARTIFACT_DIR"

def debugName : String := "MATRIXCI_DEBUG"

def variableNames : List String := [workersName, timeoutName, keepName, folderName, debugName]

def ofVariables (env : Table String String) : Except SettingsFault Settings := do
  let maxWorkers ← (setting? env workersName).mapM fun text =>
    match Number.readInt? text with
    | some n => Except.ok n
    | none => .error (.notInteger workersName text)
  let jobTimeout ← (setting? env timeoutName).mapM fun text =>
    match Number.readDouble? text with
    | some d => Except.ok (Number.float d)
    | none => .error (.notSeconds timeoutName text)
  checked
    { maxWorkers, jobTimeout
      keepArtifacts := isOn env keepName
      artifactDir := (env.get? folderName).filter (· ≠ "")
      debug := isOn env debugName }

def defaultWorkers (processors : Nat) : Nat := max 1 processors

def workers (s : Settings) (processors : Nat) : Nat :=
  match s.maxWorkers with
  | some n => if n = 0 then defaultWorkers processors else n.toNat
  | none => defaultWorkers processors

def usesFiles (s : Settings) : Bool := s.artifactDir.any (· ≠ "")

end Settings
end Conveyor

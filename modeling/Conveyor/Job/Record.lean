import Conveyor.Job.Basic
import Conveyor.Job.Status

/-! What is known of a job during and after a run. -/

namespace Conveyor

structure StepResult where
  name : String
  exitStatus : Option Int
  logs : String := ""
  deriving DecidableEq, Repr, Inhabited

structure JobRecord where
  job : Job
  status : Status := .pending
  cause : Option FailureCause := none
  skipReason : Option SkipReason := none
  message : String := ""
  artifacts : List String := []
  steps : List StepResult := []
  startedAt : Option Number := none
  finishedAt : Option Number := none
  history : List Status := [.pending]
  deriving DecidableEq, Repr, Inhabited

namespace JobRecord

def duration (r : JobRecord) : Option Number :=
  match r.startedAt, r.finishedAt with
  | some start, some finish => some (finish.sub start)
  | _, _ => none

def detail (r : JobRecord) : String :=
  match r.status, r.cause, r.skipReason with
  | .failed, some cause, _ => "failed (" ++ cause.name ++ ")"
  | .skipped, _, some reason => "skipped (" ++ reason.name ++ ")"
  | status, _, _ => status.name

end JobRecord

structure StageReport where
  name : String
  status : Status
  skipReason : Option SkipReason := none
  deriving DecidableEq, Repr, Inhabited

def StageReport.detail (s : StageReport) : String :=
  match s.status, s.skipReason with
  | .skipped, some reason => "skipped (" ++ reason.name ++ ")"
  | status, _ => status.name

end Conveyor

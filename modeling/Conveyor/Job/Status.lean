/-! The states of a job, why it was skipped or failed, and which state may follow which. -/

namespace Conveyor

inductive Status where
  | pending
  | ready
  | running
  | succeeded
  | failed
  | cancelled
  | skipped
  deriving DecidableEq, Repr, Inhabited

namespace Status

def all : List Status := [.pending, .ready, .running, .succeeded, .failed, .cancelled, .skipped]

def name : Status → String
  | .pending => "pending"
  | .ready => "ready"
  | .running => "running"
  | .succeeded => "succeeded"
  | .failed => "failed"
  | .cancelled => "cancelled"
  | .skipped => "skipped"

def ofName? (name : String) : Option Status := all.find? (·.name == name)

def isTerminal : Status → Bool
  | .succeeded => true
  | .failed => true
  | .cancelled => true
  | .skipped => true
  | _ => false

def successors : Status → List Status
  | .pending => [.ready, .skipped, .cancelled, .failed]
  | .ready => [.running, .cancelled, .failed]
  | .running => [.succeeded, .failed, .cancelled]
  | _ => []

def mayBecome (s next : Status) : Bool := s.successors.contains next

theorem successors_eq_nil_iff {s : Status} : s.successors = [] ↔ s.isTerminal = true := by
  cases s <;> simp [successors, isTerminal]

end Status

inductive SkipReason where
  | gateClosed
  | dependencyFailed
  deriving DecidableEq, Repr, Inhabited

namespace SkipReason

def name : SkipReason → String
  | .gateClosed => "gate_closed"
  | .dependencyFailed => "dependency_failed"

def ofName? (name : String) : Option SkipReason :=
  [gateClosed, dependencyFailed].find? (·.name == name)

end SkipReason

inductive FailureCause where
  | stepFailed
  | timeout
  | missingArtifact
  | executorError
  deriving DecidableEq, Repr, Inhabited

namespace FailureCause

def name : FailureCause → String
  | .stepFailed => "step_failed"
  | .timeout => "timeout"
  | .missingArtifact => "missing_artifact"
  | .executorError => "executor_error"

def ofName? (name : String) : Option FailureCause :=
  [stepFailed, timeout, missingArtifact, executorError].find? (·.name == name)

end FailureCause
end Conveyor

import Conveyor.Executor.JobContext

/-! A worker runs the steps of one job, one after the other, and stops at the first that does not do
its work. It decides nothing about other jobs. -/

namespace Conveyor

inductive Outcome where
  | succeeded (steps : List StepResult) (artifacts : Table String Blob)
  | cancelled (message : String) (steps : List StepResult)
  | failed (cause : FailureCause) (message : String) (steps : List StepResult)
  deriving DecidableEq, Repr

/-- The outcome of a worker whose own work breaks off. What it knew of its steps is lost. -/
def Outcome.escaped (kind message : String) : Outcome :=
  .failed .executorError (kind ++ ": " ++ message) []

def Outcome.unwritable : Outcome :=
  .escaped ValueFault.unwritable.kind ValueFault.unwritable.message

inductive Completion where
  | returned (outcome : Outcome)
  | interrupted
  deriving DecidableEq, Repr

/-- A worker: the surroundings of its job, the steps that are left, and what became of the others. -/
structure Worker where
  context : JobContext
  remaining : List Step
  results : List StepResult := []
  deriving DecidableEq, Repr

inductive Turn where
  | attempt (step : Step)
  | finish (completion : Completion)
  deriving DecidableEq, Repr

namespace Worker

def start (job : Job) (run : Context) (inputs : Inputs) : Worker :=
  { context := { job, run, inputs }, remaining := job.steps }

def stepFailure (job step : String) (exitStatus : Option Int) : String :=
  let code := match exitStatus with
    | some n => toString n
    | none => "None"
  "[" ++ job ++ "] step '" ++ step ++ "' failed (exit=" ++ code ++ ")"

/-- The outcome after all steps: the job has succeeded if it has published all that it declares. -/
def conclude (w : Worker) : Outcome :=
  let job := w.context.job
  match job.produces.find? fun name => !w.context.staged.has name with
  | some name =>
    let missing : MissingArtifact :=
      { stage := job.stage, name, matrix := job.matrix
        reason := "declared in produces but never published" }
    if Value.anyEntryUnwritable job.matrix then .unwritable
    else .failed .missingArtifact missing.text w.results
  | none => .succeeded w.results w.context.staged

/-- What comes next: the end, or an attempt at a step, which is announced with the name of the job. -/
def turn (w : Worker) (cancelled : Bool) : Turn :=
  match w.remaining with
  | [] => .finish (.returned w.conclude)
  | step :: _ =>
    if cancelled then
      .finish (.returned
        (.cancelled ("cancelled before step '" ++ step.displayName ++ "'") w.results))
    else if Value.anyEntryUnwritable w.context.job.assignment then .finish (.returned .unwritable)
    else .attempt step

def raised (w : Worker) (step : Step) (fault : StepFault) : Outcome :=
  let steps := w.results ++ [⟨step.displayName, none, fault.message⟩]
  if fault.isMissing then .failed .missingArtifact fault.message steps
  else
    .failed .executorError
      ("[" ++ w.context.job.id ++ "] step '" ++ step.displayName ++ "' raised " ++ fault.kind ++ ": " ++
        fault.message)
      steps

def nothingText : String := "'NoneType' object has no attribute 'exit_status'"

/-- Takes in the reply to an attempt at the next step, which may have published artifacts, given
whether the job is asked to stop by then. The worker goes on, or ends; it breaks off if there is no
reply, or if what it has to say has no text. -/
def receive (w : Worker) (step : Step) (staged : Table String Blob) (reply : Reply)
    (cancelled : Bool) : Except Completion Worker :=
  match reply with
  | .interrupted => .error .interrupted
  | .nothing => .error (.returned (.escaped "AttributeError" nothingText))
  | .raised fault => .error (.returned (if fault.isUnwritable then .unwritable else w.raised step fault))
  | .outcome o =>
    let results := w.results ++ [⟨step.displayName, some o.exitStatus, o.logs⟩]
    if o.cancelled || (cancelled && !o.ok) then
      .error (.returned (.cancelled ("cancelled during step '" ++ step.displayName ++ "'") results))
    else if !o.ok then
      .error (.returned (if (Value.int o.exitStatus).isUnwritable then .unwritable
        else .failed .stepFailed
          (stepFailure w.context.job.id step.displayName (some o.exitStatus)) results))
    else
      .ok { w with
        context := { w.context with staged }, remaining := w.remaining.tail, results }

end Worker
end Conveyor

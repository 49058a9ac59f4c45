import Conveyor.Executor.JobContext

/-! Scripts: what scripted steps do, one action after the other. -/

namespace Conveyor.Rehearsal

inductive Action where
  /-- Sleeps, unless the job is asked to stop meanwhile. -/
  | sleep (seconds : Double)
  /-- Sleeps, whatever the job is asked. -/
  | busy (seconds : Double)
  /-- Publishes all that the job declares and has not published yet. -/
  | publishAll
  | publish (name : String) (blob : Blob)
  | fetch (stage name : String) (filter : Mapping)
  | fetchAll (stage name : String) (filter : Mapping)
  | log (text : String)
  | raise (kind message : String)
  | outcome (o : StepOutcome)
  /-- Ends the step with a bare value as its exit status. -/
  | exit (v : Value)
  deriving Repr

structure Rule where
  job : Option String := none
  step : Option String := none
  actions : List Action
  deriving Repr

abbrev Script := List Rule

def defaultActions : List Action := [.publishAll]

def Script.actions (s : Script) (job step : String) : List Action :=
  match s.find? fun r => r.job.all (· == job) && r.step.all (· == step) with
  | some rule => rule.actions
  | none => defaultActions

def exitStatus (v : Value) : Except StepFault Int :=
  match v with
  | .null => .ok 0
  | .int i => .ok i
  | .bool b => .ok (Value.boolInt b)
  | .float d =>
    match d.truncate? with
    | some i => .ok i
    | none => .error (.badExitStatus v)
  | .str s =>
    match Number.readInt? s with
    | some i => .ok i
    | none => .error (.badExitStatus v)
  | v => .error (.badExitStatus v)

def raisedMessage (kind message : String) : String :=
  if kind = "KeyError" then Text.quoted message else message

def ownBlob (job : Job) (name : String) : Blob := Blob.ofText (job.id ++ ":" ++ name)

def publishAll (c : JobContext) : Except StepFault JobContext :=
  c.job.produces.foldlM
    (fun c name => if c.staged.has name then .ok c else c.publish name (ownBlob c.job name)) c

end Conveyor.Rehearsal

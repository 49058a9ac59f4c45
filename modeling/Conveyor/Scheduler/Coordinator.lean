import Conveyor.Console.Notice
import Conveyor.Graph.Run
import Conveyor.Scheduler.Worker

/-! The coordinator of a run. It alone moves jobs from state to state: it opens a stage when all
stages that it needs have ended, starts ready jobs while workers are free, and takes in what the
workers return. A job that fails stops the other jobs of its stage, if the stage asks for that. -/

namespace Conveyor

inductive Request where
  | launch (slot : Nat) (worker : Worker)
  | cancel (slot : Nat)
  deriving DecidableEq, Repr

structure Deadline where
  time : Double
  limit : Number
  deriving DecidableEq, Repr

inductive SchedulerFault where
  | illegal (job : String) (status next : Status)
  | unfinished (jobs : List String)
  | interrupted
  | unusable (f : ValueFault)
  | limitTooLarge
  | waitTooLong
  deriving DecidableEq, Repr

def SchedulerFault.message : SchedulerFault → String
  | .illegal job status next => s!"Illegal transition for {job}: {status.name} -> {next.name}"
  | .unfinished jobs => "Scheduler finished with non-terminal jobs: " ++ Text.quotedList jobs
  | .interrupted => ""
  | .unusable f => f.message
  | .limitTooLarge => "int too large to convert to float"
  | .waitTooLong => "timestamp out of range for platform time_t"

structure Halt (τ : Type) where
  fault : SchedulerFault
  state : τ
  deriving Repr

structure Setup where
  graph : StageGraph
  context : Context
  workers : Nat
  timeout : Option Number := none
  deriving Repr

/-- The state of a run. Jobs are known by their place in the list of records. -/
structure Coordinator where
  setup : Setup
  records : List JobRecord
  opened : List Nat := []
  ready : List Nat := []
  inFlight : List Nat := []
  tokens : Table Nat Bool := []
  deadlines : Table Nat Deadline := []
  manifest : List (Nat × Entry) := []
  requests : List Request := []
  log : List Notice := []
  deriving Repr

structure Remark where
  cause : Option FailureCause := none
  skipReason : Option SkipReason := none
  message : String := ""
  deriving DecidableEq, Repr

def JobRecord.moved (r : JobRecord) (now : Double) (next : Status) (remark : Remark) : JobRecord :=
  { r with
    status := next
    history := r.history ++ [next]
    cause := remark.cause <|> r.cause
    skipReason := remark.skipReason <|> r.skipReason
    message := if remark.message = "" then r.message else remark.message
    finishedAt :=
      if next.isTerminal ∧ r.startedAt.isSome ∧ r.finishedAt.isNone then some (.float now)
      else r.finishedAt }

def JobRecord.notices (r : JobRecord) (next : Status) (remark : Remark) : List Notice :=
  match next with
  | .running => [.jobStarted r.job.id]
  | .succeeded => [.succeeded r.job.id]
  | .skipped => [.skipped r.job.id ((remark.skipReason.map SkipReason.name).getD "")]
  | .cancelled => [.cancelled r.job.id remark.message]
  | .failed =>
    [.failed r.job.id remark.message (r.steps.getLast?.bind (·.exitStatus)) "" true]
  | _ => []

def timeoutMessage (job : String) (limit : Number) : String :=
  "[" ++ job ++ "] timed out after " ++ limit.figure ++ "s"

namespace Coordinator

def record? (c : Coordinator) (i : Nat) : Option JobRecord := c.records[i]?

def update (c : Coordinator) (i : Nat) (f : JobRecord → JobRecord) : Coordinator :=
  { c with records := c.records.modify i f }

def members (c : Coordinator) (stage : String) : List Nat :=
  (List.range c.records.length).filter fun i => (c.record? i).any (·.job.stage = stage)

def recordsOf (c : Coordinator) (stage : String) : List JobRecord :=
  c.records.filter (·.job.stage = stage)

def sharesKey (c : Coordinator) (i j : Nat) : Bool :=
  i == j ||
    match c.record? i, c.record? j with
    | some r, some s => r.job.sameKey s.job
    | _, _ => false

def slot (c : Coordinator) (i : Nat) : Nat :=
  ((List.range c.records.length).filter fun j => c.sharesKey i j).getLast?.getD i

def firsts (c : Coordinator) : List Nat :=
  (List.range c.records.length).filter fun i =>
    !((List.range i).any fun j => c.sharesKey j i)

/-- The rank of a place in the order of the run: the number of keys that come before it. -/
def rank (c : Coordinator) (i : Nat) : Nat := (c.firsts.filter (· < i)).length

def note (c : Coordinator) (n : Notice) : Coordinator := { c with log := c.log ++ [n] }

def request (c : Coordinator) (r : Request) : Coordinator := { c with requests := c.requests ++ [r] }

def move (c : Coordinator) (now : Double) (i : Nat) (next : Status) (remark : Remark) :
    Except (Halt Coordinator) Coordinator :=
  match c.record? i with
  | none => .ok c
  | some r =>
    if r.status.mayBecome next then
      let c := c.update i fun r => r.moved now next remark
      .ok { c with log := c.log ++ r.notices next remark }
    else .error ⟨.illegal r.job.id r.status next, c⟩

def askToStop (c : Coordinator) (i : Nat) (job : String) : Coordinator :=
  let slot := c.slot i
  match c.tokens.get? slot with
  | some false =>
    ({ c with tokens := c.tokens.insert slot true }.request (.cancel slot)).note
      (.cancelRequested job)
  | _ => c

def stopSibling (now : Double) (failed : JobRecord) (c : Coordinator) (i : Nat) :
    Except (Halt Coordinator) Coordinator :=
  match c.record? i with
  | none => .ok c
  | some sibling =>
    match sibling.status with
    | .pending | .ready =>
      c.move now i .cancelled { message := "fail-fast after " ++ failed.job.id ++ " failed" }
    | .running => .ok (c.askToStop i sibling.job.id)
    | _ => .ok c

def stage? (c : Coordinator) (name : String) : Option Stage :=
  c.setup.graph.stages.find? (·.name == name)

def failFast (c : Coordinator) (now : Double) (i : Nat) : Except (Halt Coordinator) Coordinator :=
  match c.record? i with
  | none => .ok c
  | some failed =>
    if (c.stage? failed.job.stage).any (·.failFast) then
      ((c.members failed.job.stage).filter (· ≠ i)).foldlM (stopSibling now failed) c
    else .ok c

def transition (c : Coordinator) (now : Double) (i : Nat) (next : Status) (remark : Remark) :
    Except (Halt Coordinator) Coordinator := do
  let c ← c.move now i next remark
  if next = .failed then c.failFast now i else return c

/-! ### Stages -/

def stageOutcome (c : Coordinator) (stage : Nat) : Option (Status × Option SkipReason) :=
  if !c.opened.contains stage then none
  else
    let records := c.recordsOf ((c.setup.graph.stages[stage]?.map (·.name)).getD "")
    if records.any fun r => !r.status.isTerminal then none
    else if records.all (·.status = .succeeded) then some (.succeeded, none)
    else if records.all (·.status = .skipped) then
      some (.skipped, records.head?.bind (·.skipReason))
    else some (.failed, none)

/-- Whether the condition of a stage lets it run; if not, why. -/
def gate (c : Coordinator) (s : Stage) : Except (Coordinator × String) Coordinator :=
  match s.condition with
  | none => .ok c
  | some condition =>
    if condition = "" then .ok c
    else
      match Condition.evaluate condition c.setup.context.bindings with
      | .ok true => .ok c
      | .ok false => .error (c, "condition " ++ Text.quoted condition ++ " is false")
      | .error failure =>
        .error (c.note (.debug ("[" ++ s.name ++ "] " ++ failure.text)), failure.text)

def moveAll (c : Coordinator) (now : Double) (stage : String) (next : Status) (remark : Remark) :
    Except (Halt Coordinator) Coordinator :=
  (c.members stage).foldlM (fun c i => c.transition now i next remark) c

def release (c : Coordinator) (now : Double) (stage : String) :
    Except (Halt Coordinator) Coordinator := do
  let c ← c.moveAll now stage .ready {}
  return { c with ready := c.ready ++ (c.members stage).map c.slot }

/-- Opens a stage whose prerequisites have ended: a failed one or a skipped one skips its jobs, and
so does a closed gate; otherwise its jobs are ready. -/
def openStage (c : Coordinator) (now : Double) (i : Nat) (s : Stage)
    (outcomes : List (String × Status × Option SkipReason)) :
    Except (Halt Coordinator) Coordinator :=
  let c := { c with opened := c.opened ++ [i] }
  match outcomes.find? (·.2.1 = .failed), outcomes.find? (·.2.1 = .skipped) with
  | some (name, _), _ =>
    c.moveAll now s.name .skipped
      { skipReason := some .dependencyFailed, message := "needs " ++ name ++ " which failed" }
  | none, some (name, _, reason) =>
    c.moveAll now s.name .skipped
      { skipReason := some (reason.getD .gateClosed)
        message := "needs " ++ name ++ " which was skipped" }
  | none, none =>
    match c.gate s with
    | .ok c => c.release now s.name
    | .error (c, why) =>
      c.moveAll now s.name .skipped { skipReason := some .gateClosed, message := why }

/-- The outcomes of the stages that a stage needs; none if one of them has not ended. -/
def prerequisites? (c : Coordinator) (i : Nat) :
    Option (List (String × Status × Option SkipReason)) :=
  (Graph.entry c.setup.graph.needs i).mapM fun n =>
    (c.stageOutcome n).map fun outcome =>
      ((c.setup.graph.stages[n]?.map (·.name)).getD "", outcome)

/-- Opens a stage if it is not open and its prerequisites have ended, and says whether it did. -/
def resolveStage (now : Double) (acc : Coordinator × Bool) (i : Nat) :
    Except (Halt Coordinator) (Coordinator × Bool) :=
  let (c, changed) := acc
  if c.opened.contains i then .ok (c, changed)
  else
    match c.setup.graph.stages[i]?, c.prerequisites? i with
    | some s, some outcomes => do return (← c.openStage now i s outcomes, true)
    | _, _ => .ok (c, changed)

def resolveStages (c : Coordinator) (now : Double) :
    Except (Halt Coordinator) (Coordinator × Bool) :=
  c.setup.graph.order.foldlM (resolveStage now) (c, false)

/-! ### Starting jobs -/

/-- The limit on the time of a job: its own, or else that of the run. A limit of zero is none. -/
def effectiveTimeout (c : Coordinator) (job : Job) : Option Number :=
  let own := job.timeout.filter fun limit => !limit.isZero
  (own <|> c.setup.timeout).filter fun limit => !limit.isZero

/-- Notes when the time of a job is over. A whole limit has to be in the range of doubles. -/
def schedule (c : Coordinator) (now : Double) (i : Nat) (job : Job) :
    Except (Halt Coordinator) Coordinator :=
  match c.effectiveTimeout job with
  | none => .ok c
  | some limit =>
    if limit.isTooLarge then .error ⟨.limitTooLarge, c⟩
    else .ok { c with deadlines := c.deadlines.insert i ⟨now.add limit.toDouble, limit⟩ }

def launch (c : Coordinator) (now : Double) (i : Nat) (job : Job) (inputs : Inputs) :
    Except (Halt Coordinator) Coordinator := do
  let c := { c with tokens := c.tokens.insert i false }
  let c := c.update i fun r => { r with startedAt := some (.float now) }
  let c ← c.transition now i .running {}
  let c ← c.schedule now i job
  let worker := Worker.start job c.setup.context inputs
  return { c with inFlight := c.inFlight ++ [i] }.request (.launch i worker)

/-- Takes up a job of the queue, and counts it if it was still ready. A job whose inputs are missing
fails at once, if it can be said what is missing; any other one is started. -/
def takeUp {σ : Type} [ArtifactStore σ] (c : Coordinator) (store : σ) (now : Double) (i : Nat) :
    Except (Halt Coordinator) (Coordinator × Nat) :=
  match c.record? i with
  | none => .ok (c, 0)
  | some r =>
    if r.status ≠ .ready then .ok (c, 0)
    else
      match Inputs.resolve store c.recordsOf r.job.consumes with
      | .error fault =>
        match fault.message with
        | .error f => .error ⟨.unusable f, c⟩
        | .ok message => do
          return (← c.transition now i .failed { cause := some .missingArtifact, message }, 1)
      | .ok inputs => do return (← c.launch now i r.job inputs, 1)

/-- Takes up the jobs of a queue, in order, while workers are free, and counts those that were
still ready. -/
def dispatchFrom {σ : Type} [ArtifactStore σ] (store : σ) (now : Double) :
    List Nat → Coordinator → Nat → Except (Halt Coordinator) (Coordinator × Nat)
  | [], c, taken => .ok (c, taken)
  | i :: queue, c, taken =>
    if c.inFlight.length ≥ c.setup.workers then .ok (c, taken)
    else do
      let (c, count) ← { c with ready := queue }.takeUp store now i
      dispatchFrom store now queue c (taken + count)

def dispatch {σ : Type} [ArtifactStore σ] (c : Coordinator) (store : σ) (now : Double) :
    Except (Halt Coordinator) (Coordinator × Nat) :=
  dispatchFrom store now c.ready c 0

/-! ### Taking in results -/

def patience (c : Coordinator) (now : Double) : Option Double :=
  match c.deadlines with
  | [] => none
  | (_, first) :: rest =>
    let earliest := rest.foldl (fun t (_, d) => if d.time.lt t then d.time else t) first.time
    let left := earliest.sub now
    some (if Double.zero.lt left then left else .zero)

/-- Stores the artifacts of a job, in order, up to the first that the store does not take. -/
def commit {σ : Type} [ArtifactStore σ] (i : Nat) (job : Job) :
    List (String × Blob) → Coordinator → σ → Coordinator × σ × Option StoreFault
  | [], c, store => (c, store, none)
  | (name, blob) :: rest, c, store =>
    match ArtifactStore.put store ⟨job.producer, name⟩ blob with
    | .error fault => (c, store, some fault)
    | .ok (entry, store) =>
      let c := { c with manifest := c.manifest ++ [(c.rank i, entry)] }
      let c := c.update i fun r => { r with artifacts := r.artifacts ++ [name] }
      commit i job rest (c.note (.artifact job.id name entry.size)) store

def inNameOrder (artifacts : Table String Blob) : List (String × Blob) :=
  artifacts.mergeSort fun a b => Text.le a.1 b.1

def settled {σ : Type} (c : Coordinator) (store : σ) (now : Double) (i : Nat) (next : Status)
    (remark : Remark) : Except (Halt (Coordinator × σ)) (Coordinator × σ) :=
  match c.transition now i next remark with
  | .ok c => .ok (c, store)
  | .error halt => .error ⟨halt.fault, (halt.state, store)⟩

def conclude {σ : Type} [ArtifactStore σ] (c : Coordinator) (store : σ) (now : Double) (i : Nat)
    (job : Job) (outcome : Outcome) : Except (Halt (Coordinator × σ)) (Coordinator × σ) :=
  match outcome with
  | .succeeded steps artifacts =>
    let c := c.update i fun r => { r with steps }
    match commit i job (inNameOrder artifacts) c store with
    | (c, store, some fault) =>
      c.settled store now i .failed
        { cause := some .executorError, message := "artifact store: " ++ fault.message }
    | (c, store, none) => c.settled store now i .succeeded {}
  | .cancelled message steps =>
    let c := c.update i fun r => { r with steps }
    c.settled store now i .cancelled { message := if message = "" then "cancelled" else message }
  | .failed cause message steps =>
    let c := c.update i fun r => { r with steps }
    c.settled store now i .failed { cause := some cause, message }

/-- Takes in the end of one worker. What it says of a job that has been stopped for its time is
dropped. -/
def collect {σ : Type} [ArtifactStore σ] (now : Double) (acc : Coordinator × σ)
    (finished : Nat × Completion) : Except (Halt (Coordinator × σ)) (Coordinator × σ) :=
  let (c, store) := acc
  let (i, completion) := finished
  let c := { c with inFlight := c.inFlight.filter (· ≠ i), deadlines := c.deadlines.erase i }
  match completion with
  | .interrupted => .error ⟨.interrupted, (c, store)⟩
  | .returned outcome =>
    match c.record? i with
    | none => .ok (c, store)
    | some r =>
      if r.status = .running then c.conclude store now i r.job outcome else .ok (c, store)

def expire (now : Double) (c : Coordinator) (entry : Nat × Deadline) :
    Except (Halt Coordinator) Coordinator :=
  let (i, deadline) := entry
  if now.lt deadline.time then .ok c
  else
    let c := { c with deadlines := c.deadlines.erase i }
    match c.record? i with
    | none => .ok c
    | some r =>
      if r.status = .running then
        let c := { c with tokens := c.tokens.insert i true }.request (.cancel i)
        c.transition now i .failed
          { cause := some .timeout, message := timeoutMessage r.job.id deadline.limit }
      else .ok c

def byRank {α : Type} (c : Coordinator) (items : List (Nat × α)) : List (Nat × α) :=
  ((items.map fun item => (c.rank item.1, item)).mergeSort fun a b => a.1 ≤ b.1).map (·.2)

/-- Takes in the workers that have ended, in the order of their jobs, and then stops the jobs whose
deadline has come. -/
def settle {σ : Type} [ArtifactStore σ] (c : Coordinator) (store : σ) (now : Double)
    (finished : List (Nat × Completion)) : Except (Halt (Coordinator × σ)) (Coordinator × σ) := do
  let (c, store) ← (c.byRank finished).foldlM (collect now) (c, store)
  match (c.byRank c.deadlines).foldlM (expire now) c with
  | .ok c => return (c, store)
  | .error halt => throw ⟨halt.fault, (halt.state, store)⟩

/-! ### The whole run -/

def start (setup : Setup) (g : RunGraph) : Coordinator :=
  { setup, records := g.allJobs.map fun job => { job } }

def reported (c : Coordinator) : List JobRecord :=
  c.firsts.filterMap fun i => c.record? (c.slot i)

def unfinished (c : Coordinator) : List String :=
  (c.reported.filter fun r => !r.status.isTerminal).map (·.job.id)

def stageReports (c : Coordinator) : List StageReport :=
  c.setup.graph.order.map fun i =>
    let (status, skipReason) := (c.stageOutcome i).getD (.failed, none)
    { name := (c.setup.graph.stages[i]?.map (·.name)).getD "", status, skipReason }

def entries (c : Coordinator) : List Entry :=
  (c.manifest.mergeSort fun a b =>
    a.1 < b.1 || (a.1 == b.1 && Text.le a.2.name b.2.name)).map (·.2)

end Coordinator
end Conveyor

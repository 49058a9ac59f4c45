import Conveyor.Json.Printer
import Conveyor.Scheduler.Coordinator

/-! The report of a run: its state, that of every stage and job, and the stored artifacts. -/

namespace Conveyor

inductive RunStatus where
  | succeeded
  | failed
  | notTriggered
  deriving DecidableEq, Repr, Inhabited

def RunStatus.name : RunStatus → String
  | .succeeded => "succeeded"
  | .failed => "failed"
  | .notTriggered => "not_triggered"

structure RunReport where
  pipeline : String
  status : RunStatus
  context : Context
  stages : List StageReport := []
  jobs : List JobRecord := []
  manifest : List Entry := []
  deriving DecidableEq, Repr

namespace RunReport

def succeeded (r : RunReport) : Bool := r.status == .succeeded

def triggered (r : RunReport) : Bool := r.status != .notTriggered

def stage? (r : RunReport) (name : String) : Option StageReport :=
  r.stages.find? (·.name == name)

def jobsFor (r : RunReport) (stage : String) : List JobRecord :=
  r.jobs.filter (·.job.stage == stage)

def job? (r : RunReport) (id : String) : Option JobRecord := r.jobs.find? (·.job.id == id)

def executed (r : RunReport) : List JobRecord := r.jobs.filter (·.startedAt.isSome)

def table (r : RunReport) : List (String × String × String) :=
  r.jobs.map fun j => (j.job.stage, j.job.id, j.detail)

/-! ### As text -/

def summary (r : RunReport) : List String :=
  let rule := String.ofList (List.replicate 40 '=')
  let stages := r.stages.flatMap fun s =>
    ("  " ++ s.name ++ ": " ++ Text.upper s.detail) ::
      ((r.jobsFor s.name).filter fun j => !j.job.assignment.isEmpty).map fun j =>
        "    " ++ j.job.id ++ ": " ++ Text.upper j.detail
  let entries := r.manifest.map fun e =>
    "  " ++ e.producer.text ++ "/" ++ e.name ++ s!" {e.size} bytes sha256=" ++
      String.ofList (e.sha256.toList.take 12) ++ "..."
  ["\n" ++ rule, "RESULTS: " ++ Text.upper r.status.name, rule] ++ stages
    ++ (if entries.isEmpty then [] else "\nARTIFACTS" :: entries)

/-! ### As a document -/

def optionalJson : Option String → Json
  | some s => .str s
  | none => .null

def keyText : Value → String
  | .null => "null"
  | .bool b => if b then "true" else "false"
  | .float d => Json.floatLiteral d
  | v => v.text

def valueJson : Value → Json
  | .null => .null
  | .bool b => .bool b
  | .int i => .int i
  | .float d => .float d
  | v => .str v.text

def matrixJson (m : Mapping) : Except ValueFault Json := do
  let keys ← Value.sorted m.keys
  match keys.find? fun k => !(k == .null || k.isScalar) with
  | some k => throw (.badKey k.kindName)
  | none =>
    if keys.any Value.isUnwritable then throw .unwritable
    return .obj (keys.map fun k => (keyText k, valueJson ((m.get? k).getD .null)))

def jobJson (r : JobRecord) : Except ValueFault Json := do
  let steps := r.steps.map fun s =>
    Json.obj [("exit_status", match s.exitStatus with
      | some n => .int n
      | none => .null), ("name", .str s.name)]
  return .obj
    [ ("artifacts", .arr (r.artifacts.map .str)),
      ("cause", optionalJson (r.cause.map FailureCause.name)),
      ("duration", match r.duration with
        | some (.int n) => .int n
        | some (.float d) => .float d
        | none => .null),
      ("id", .str r.job.id),
      ("matrix", ← matrixJson r.job.matrix),
      ("message", .str r.message),
      ("skip_reason", optionalJson (r.skipReason.map SkipReason.name)),
      ("stage", .str r.job.stage),
      ("status", .str r.status.name),
      ("steps", .arr steps) ]

def document (r : RunReport) : Except ValueFault Json := do
  let artifacts := r.manifest.map fun e =>
    Json.obj [("name", .str e.name), ("qualifier", .str e.producer.qualifier),
      ("sha256", .str e.sha256), ("size", .int e.size), ("stage", .str e.producer.stage)]
  let stages := r.stages.map fun s =>
    Json.obj [("name", .str s.name), ("skip_reason", optionalJson (s.skipReason.map SkipReason.name)),
      ("status", .str s.status.name)]
  return .obj
    [ ("artifacts", .arr artifacts),
      ("event", .obj [("actor", optionalJson r.context.actor),
        ("event", .str r.context.event.name), ("ref", .str r.context.ref)]),
      ("jobs", .arr (← r.jobs.mapM jobJson)),
      ("pipeline", .str r.pipeline),
      ("stages", .arr stages),
      ("status", .str r.status.name) ]

def fileText (r : RunReport) : Except ValueFault String := do
  return (← r.document).pretty true 0 ++ "\n"

end RunReport

/-- The report of a run that has come to its end. A run succeeds if no stage has failed. -/
def Coordinator.report (c : Coordinator) : RunReport :=
  let stages := c.stageReports
  let ok := stages.all fun s => s.status = .succeeded ∨ s.status = .skipped
  { pipeline := "", status := if ok then .succeeded else .failed, context := c.setup.context, stages
    jobs := c.reported, manifest := c.entries }

end Conveyor

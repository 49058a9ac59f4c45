import Conveyor.Pipeline.Validate
import Conveyor.Scheduler.Operation
import Conveyor.Settings

/-! Runs of a pipeline for an event: the pipeline is checked, its triggers are asked, its jobs are
run, and artifacts of earlier runs of the same jobs do not count. -/

namespace Conveyor

/-- What came of an attempt at a run: the world afterwards, what was told, and the report or the
reason that there is none. -/
structure Attempt (ω ε : Type) where
  world : ω
  log : List Notice := []
  result : Except ε RunReport

inductive RunFault where
  | rejected (r : Rejection)
  | settings (f : SettingsFault)
  | noContext
  | broken (f : SchedulerFault)
  deriving DecidableEq, Repr

def RunFault.message : RunFault → String
  | .rejected r => r.text
  | .settings f => f.message
  | .noContext => "Scheduler.run needs a RunContext"
  | .broken f => f.message

namespace Engine

variable {ω : Type} [World ω]

def schedule (setup : Setup) (g : RunGraph) (world : ω) : Attempt ω SchedulerFault :=
  match (Operation.start setup g world).run with
  | .ok o => ⟨o.world, o.coord.log, .ok o.coord.report⟩
  | .error halt => ⟨halt.state.world, halt.state.coord.log, .error halt.fault⟩

/-- Runs the jobs of a pipeline as it stands: it is not checked, and its triggers are not asked. Its
templates may see another event than its conditions. A given number of workers goes before that of
the settings. -/
def scheduleOnly (settings : Settings) (processors : Nat) (workers : Option Int)
    (p : Pipeline) (context early : Option Context) (world : ω) : Attempt ω RunFault :=
  let chosen := { settings with maxWorkers := workers <|> settings.maxWorkers }
  match RunGraph.build p (early <|> context) with
  | .error r => ⟨world, [], .error (.rejected r)⟩
  | .ok g =>
    if chosen.maxWorkers.any (· < 0) then ⟨world, [], .error (.settings .tooFewWorkers)⟩
    else
      match context <|> early with
      | none => ⟨world, [], .error .noContext⟩
      | some context =>
        let setup : Setup :=
          { graph := g.graph, context, workers := chosen.workers processors
            timeout := settings.jobTimeout }
        let attempt := schedule setup g world
        ⟨attempt.world, attempt.log, attempt.result.mapError .broken⟩

def discardAll (jobs : List Job) (world : ω) : ω :=
  jobs.foldl (fun world job => ArtifactStore.discard world job.producer) world

def eventLine (c : Context) : String := c.event.name ++ " " ++ c.ref

def run {α : Type} (executors : Registry α) (settings : Settings) (processors : Nat) (p : Pipeline)
    (context : Context) (world : ω) : Attempt ω RunFault :=
  match Validation.check executors p with
  | .error r => ⟨world, [], .error (.rejected r)⟩
  | .ok () =>
    if !Trigger.anyAccepts p.triggers context then
      ⟨world, [.notTriggered p.name (eventLine context)],
        .ok { pipeline := p.name, status := .notTriggered, context }⟩
    else
      match RunGraph.build p (some context) with
      | .error r => ⟨world, [], .error (.rejected r)⟩
      | .ok g =>
        let jobs := g.allJobs
        let started : Notice :=
          .runStarted p.name (eventLine context) g.graph.stages.length jobs.length
        let setup : Setup :=
          { graph := g.graph, context, workers := settings.workers processors
            timeout := settings.jobTimeout }
        let attempt := schedule setup g (discardAll jobs world)
        { world := if settings.keepArtifacts then attempt.world else discardAll jobs attempt.world
          log := started :: attempt.log
          result := match attempt.result with
            | .ok report => .ok { report with pipeline := p.name }
            | .error f => .error (.broken f) }

def plan {α : Type} (executors : Registry α) (p : Pipeline) (context : Option Context) :
    Except Rejection (List (String × List Job) × List (List String)) := do
  Validation.check executors p
  let g ← RunGraph.build p context
  let stages := g.graph.order.filterMap fun i => (g.graph.stage? i).map fun s => (s.name, g.jobsOf i)
  return (stages, g.graph.levels)

def planNotices (stages : List (String × List Job)) (levels : List (List String)) : List Notice :=
  levels.zipIdx.flatMap fun (level, index) =>
    .wave (index + 1) level ::
      level.flatMap fun name =>
        ((Table.get? stages name).getD []).map fun job =>
          .planJob job.id s!"{job.steps.length} step(s)"

end Engine
end Conveyor

import Conveyor.Graph.Basic
import Conveyor.Job.Expand

/-! The graph of a run: the stage graph with the jobs of every stage. -/

namespace Conveyor

structure RunGraph where
  graph : StageGraph
  jobs : List (List Job)
  context : Option Context := none
  deriving DecidableEq, Repr

namespace RunGraph

def layered (p : Pipeline) : List Stage :=
  if p.env.isEmpty then p.stages
  else p.stages.map fun s => { s with env := p.env.update s.env }

def build (p : Pipeline) (context : Option Context) : Except Rejection RunGraph := do
  let graph ← (StageGraph.build (layered p)).mapError fun fault => .complaint fault.complaint
  let jobs ← graph.stages.mapM fun s => s.expand context
  return { graph, jobs, context }

def jobsOf (g : RunGraph) (i : Nat) : List Job := g.jobs.getD i []

def allJobs (g : RunGraph) : List Job := g.graph.order.flatMap g.jobsOf

def prerequisites (g : RunGraph) (job : Job) : List Job :=
  match g.graph.index? job.stage with
  | some i => (Graph.entry g.graph.needs i).flatMap g.jobsOf
  | none => []

end RunGraph
end Conveyor

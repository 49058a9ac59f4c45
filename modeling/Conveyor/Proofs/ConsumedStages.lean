import Conveyor.Pipeline.Validate
import Conveyor.Proofs.StageAncestors

/-! A valid pipeline consumes artifacts of earlier stages only: every stage that a job of a run consumes from is
needed by its own stage, directly or through others. -/

namespace Conveyor

open Fallible

namespace Validation

/-- A problem is not passed over: it is written down, or the reference cannot be written. -/
theorem consumeProblem_ne_nil (s : Stage) (ref : ArtifactRef) (text : String) : consumeProblem s ref text ≠ .ok [] := by
  unfold consumeProblem
  split <;> simp

theorem consumeProblems_nil {p : Pipeline} {s : Stage} {ancestors : List String} {ref : ArtifactRef}
    (clean : consumeProblems p s ancestors ref = .ok []) : ref.stage ∈ ancestors := by
  by_contra stranger
  have unknown : (!ancestors.contains ref.stage) = true := by simpa using stranger
  rw [consumeProblems, if_pos unknown] at clean
  exact consumeProblem_ne_nil _ _ _ clean

theorem allStageProblems_nil {α : Type} {executors : Registry α} {p : Pipeline} {g : StageGraph} {s : Stage}
    {index : Nat} (clean : allStageProblems executors p g s index = .ok []) :
    stageProblems executors s = .ok [] ∧ ∀ ref ∈ s.consumes,
      consumeProblems p s ((g.ancestors index).filterMap fun i => (g.stage? i).map (·.name)) ref = .ok [] := by
  obtain ⟨own, first, rest⟩ := bind_ok.1 clean
  obtain ⟨consumed, second, same⟩ := bind_ok.1 rest
  obtain ⟨rfl, flat⟩ := List.append_eq_nil_iff.1 (Except.ok.inj same)
  refine ⟨first, fun ref member => ?_⟩
  obtain ⟨i, found⟩ := List.mem_iff_getElem?.1 member
  obtain ⟨problems, place, done⟩ := mapM_place second found
  rw [List.flatten_eq_nil_iff] at flat
  rw [done, flat problems (List.mem_of_getElem? place)]

theorem check_ok {α : Type} {executors : Registry α} {p : Pipeline} (valid : check executors p = .ok ()) :
    ∃ g, StageGraph.build p.stages = .ok g ∧ checkEnds p.env.values = .ok () ∧
      templateProblems "pipeline env" (Template.namesOfFields p.env) Context.knownVariables [] = [] ∧
      ∀ i s, g.stages[i]? = some s → allStageProblems executors p g s i = .ok [] := by
  obtain ⟨g, built, rest⟩ := bind_ok.1 valid
  obtain ⟨_, ends, rest⟩ := bind_ok.1 rest
  obtain ⟨stages, checked, rest⟩ := bind_ok.1 rest
  simp only at rest
  split at rest
  next clean =>
    simp only [List.isEmpty_iff, List.append_eq_nil_iff, List.flatten_eq_nil_iff] at clean
    refine ⟨g, mapError_ok.1 built, mapError_ok.1 ends, clean.1.2, fun i s stage => ?_⟩
    have place : g.stages.zipIdx[i]? = some (s, i) := by simp [List.getElem?_zipIdx, stage]
    obtain ⟨problems, found, done⟩ := mapM_place (mapError_ok.1 checked) place
    simp only at done
    rw [done, clean.2 problems (List.mem_of_getElem? found)]
  next => cases rest

end Validation

namespace RunGraph

/-- The variables of a stage in a run: its own, and those of the pipeline that it does not set. -/
def envOf (p : Pipeline) (t : Stage) : Fields := if p.env.isEmpty then t.env else p.env.update t.env

theorem layered_eq (p : Pipeline) : layered p = p.stages.map fun t => { t with env := envOf p t } := by
  unfold layered envOf
  split
  · exact (List.map_id _).symm
  · rfl

theorem layered_stage {p : Pipeline} {i : Nat} {s : Stage} (stage : (layered p)[i]? = some s) :
    ∃ t, p.stages[i]? = some t ∧ s = { t with env := envOf p t } := by
  rw [layered_eq, List.getElem?_map, Option.map_eq_some_iff] at stage
  obtain ⟨t, found, rfl⟩ := stage
  exact ⟨t, found, rfl⟩

theorem layered_map {α : Type} (p : Pipeline) (f : Stage → α) (blind : ∀ s env, f { s with env } = f s) :
    (layered p).map f = p.stages.map f := by
  rw [layered_eq, List.map_map]
  exact List.map_congr_left fun s _ => blind s _

theorem build_needs {p : Pipeline} {context : Option Context} {g : RunGraph} {own : StageGraph}
    (built : build p context = .ok g) (graph : StageGraph.build p.stages = .ok own) :
    g.graph.stages = layered p ∧ own.stages = p.stages ∧ g.graph.needs = own.needs := by
  obtain ⟨stages, needs, _⟩ := StageGraph.build_ordered (build_graph built)
  obtain ⟨stages', needs', _⟩ := StageGraph.build_ordered graph
  refine ⟨stages, stages', ?_⟩
  rw [needs, needs', layered_map p (·.name) fun _ _ => rfl]
  exact layered_map p (Graph.needsOf (p.stages.map (·.name))) fun _ _ => rfl

/-- Whatever a job consumes comes from a stage that its own one needs, directly or through others. -/
def Provisioned (g : RunGraph) : Prop :=
  ∀ i s, g.graph.stages[i]? = some s → ∀ job ∈ g.jobsOf i, ∀ ref ∈ job.consumes,
    ∃ n t, Relation.TransGen g.graph.Needs i n ∧ g.graph.stages[n]? = some t ∧ t.name = ref.stage

theorem build_provisioned {α : Type} {executors : Registry α} {p : Pipeline} {context : Option Context} {g : RunGraph}
    (valid : Validation.check executors p = .ok ()) (built : build p context = .ok g) : g.Provisioned := by
  intro i s stage job member ref consumed
  obtain ⟨own, graph, _, _, clean⟩ := Validation.check_ok valid
  obtain ⟨stages, stages', needs⟩ := build_needs built graph
  obtain ⟨_, _, _, made⟩ := (build_populated built).made i s stage job member
  obtain ⟨_, _, _, _, sources⟩ := Stage.job_ok made
  obtain ⟨declared, listed, same⟩ := sources ref consumed
  obtain ⟨t, found, rfl⟩ := layered_stage (stages ▸ stage)
  have problems := (Validation.allStageProblems_nil (clean i t (stages' ▸ found))).2 declared listed
  have inside := Validation.consumeProblems_nil problems
  obtain ⟨n, ancestor, named⟩ := List.mem_filterMap.1 inside
  obtain ⟨u, place, name⟩ := Option.map_eq_some_iff.1 named
  have below : Relation.TransGen g.graph.Needs i n := by
    have reached := (StageGraph.mem_ancestors graph).1 ancestor
    unfold StageGraph.Needs at reached ⊢
    rwa [needs]
  have names := congrArg (·[n]?) (layered_map p (·.name) fun _ _ => rfl)
  simp only [List.getElem?_map, ← stages, ← stages', show own.stages[n]? = some u from place] at names
  obtain ⟨v, place', name'⟩ := Option.map_eq_some_iff.1 names
  exact ⟨n, v, below, place', name'.trans (name.trans same.symm)⟩

end RunGraph
end Conveyor

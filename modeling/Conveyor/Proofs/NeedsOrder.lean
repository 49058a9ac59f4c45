import Conveyor.Proofs.RunGraphJobs
import Conveyor.Proofs.StageCycles

/-! The order of needs. Two pipelines are akin if their stages differ at most in the order in which they list their needs
and in how often. The search for the order of the graph asks how many stages a stage needs and which stages need it, never
which need comes first. So graphs of akin pipelines have one order, and their stages the same jobs. -/

namespace Conveyor

/-- The same stage, with the same needs in some order. -/
structure Stage.Akin (s s' : Stage) : Prop where
  declaration : s' = { s with needs := s'.needs }
  needs : ∀ need, need ∈ s'.needs ↔ need ∈ s.needs

/-- The same pipeline, with the needs of its stages in some order. -/
structure Pipeline.Akin (p p' : Pipeline) : Prop where
  declaration : p' = { p with stages := p'.stages }
  stages : List.Forall₂ Stage.Akin p.stages p'.stages

namespace Stage.Akin

variable {s s' : Stage}

theorem refl (s : Stage) : s.Akin s := ⟨rfl, fun _ => Iff.rfl⟩

variable (akin : s.Akin s')

include akin

theorem name : s'.name = s.name := by rw [akin.declaration]

theorem condition : s'.condition = s.condition := by rw [akin.declaration]

theorem failFast : s'.failFast = s.failFast := by rw [akin.declaration]

theorem expand (context : Option Context) : s'.expand context = s.expand context := by
  rw [akin.declaration]
  rfl

theorem withEnv (env : Fields) :
    Stage.Akin { s with env := env.update s.env } { s' with env := env.update s'.env } := by
  obtain ⟨declaration, needs⟩ := akin
  refine ⟨?_, needs⟩
  rw [declaration]

end Stage.Akin

theorem Pipeline.Akin.refl (p : Pipeline) : p.Akin p := ⟨rfl, List.forall₂_same.2 fun s _ => .refl s⟩

namespace Graph

variable {stages stages' : List Stage}

theorem place_akin (akin : List.Forall₂ Stage.Akin stages stages') (i : Nat) :
    Option.Rel Stage.Akin stages[i]? stages'[i]? := by
  induction akin generalizing i with
  | nil => exact .none
  | cons first _ ih =>
    cases i with
    | zero => exact .some first
    | succ i => exact ih i

theorem names_akin (akin : List.Forall₂ Stage.Akin stages stages') : stages'.map (·.name) = stages.map (·.name) := by
  induction akin with
  | nil => rfl
  | cons first _ ih => rw [List.map_cons, List.map_cons, first.name, ih]

theorem needsOf_perm {s s' : Stage} (akin : s.Akin s') (names : List String) :
    (needsOf names s').Perm (needsOf names s) := by
  apply (List.perm_ext_iff_of_nodup (nodup_eraseDups _) (nodup_eraseDups _)).2
  intro n
  simp only [List.mem_eraseDups, List.mem_filterMap, akin.needs]

theorem entry_akin (akin : List.Forall₂ Stage.Akin stages stages') (names : List String) (i : Nat) :
    (entry (stages'.map (needsOf names)) i).Perm (entry (stages.map (needsOf names)) i) := by
  induction akin generalizing i with
  | nil => rfl
  | cons first _ ih =>
    cases i with
    | zero => exact needsOf_perm first names
    | succ i => exact ih i

theorem dependentsOf_congr {needs needs' : List (List Nat)} (size : needs'.length = needs.length)
    (same : ∀ i, (entry needs' i).Perm (entry needs i)) (i : Nat) : dependentsOf needs' i = dependentsOf needs i := by
  unfold dependentsOf
  rw [size]
  apply List.filter_congr
  intro j _
  rw [Bool.eq_iff_iff, List.contains_iff_mem, List.contains_iff_mem, (same j).mem_iff]

theorem topologicalOrder_congr {needs needs' : List (List Nat)} (size : needs'.length = needs.length)
    (same : ∀ i, (entry needs' i).Perm (entry needs i)) (dependents : List (List Nat)) :
    topologicalOrder needs' dependents = topologicalOrder needs dependents := by
  have counts : needs'.map (fun n => (n.length : Int)) = needs.map fun n => (n.length : Int) := by
    apply List.ext_getElem (by simpa using size)
    intro i first second
    have entries := (same i).length_eq
    simp only [List.length_map] at first second
    simp only [entry, List.getD_eq_getElem?_getD, List.getElem?_eq_getElem, first, second, Option.getD_some] at entries
    simp only [List.getElem_map, entries]
  have unneedy (i : Nat) : (entry needs' i).isEmpty = (entry needs i).isEmpty := (same i).isEmpty_eq
  simp only [topologicalOrder, counts, size, unneedy]

theorem orderOf_akin (akin : List.Forall₂ Stage.Akin stages stages') : orderOf stages' = orderOf stages := by
  have size :
      (stages'.map (needsOf (stages.map (·.name)))).length = (stages.map (needsOf (stages.map (·.name)))).length := by
    simp [akin.length_eq]
  have same := entry_akin akin (stages.map (·.name))
  simp only [orderOf, names_akin akin, ← akin.length_eq, topologicalOrder_congr size same,
    funext (dependentsOf_congr size same)]

end Graph

namespace StageGraph

open Conveyor.Graph

variable {stages stages' : List Stage}

theorem Declared.akin (declared : Declared stages) (akin : List.Forall₂ Stage.Akin stages stages') : Declared stages' := by
  refine ⟨names_akin akin ▸ declared.names, fun s' member need listed => ?_⟩
  obtain ⟨i, stage⟩ := List.mem_iff_getElem?.1 member
  have places := place_akin akin i
  rw [stage] at places
  generalize source : stages[i]? = found at places
  cases places with
  | some same =>
    rw [names_akin akin]
    exact declared.needs _ (List.mem_of_getElem? source) need ((same.needs need).1 listed)

/-- Graphs with one order, whose stages are akin and need the same stages. -/
structure Akin (g g' : StageGraph) : Prop where
  stages : List.Forall₂ Stage.Akin g.stages g'.stages
  needs : ∀ i n, g'.Needs i n ↔ g.Needs i n
  order : g'.order = g.order

theorem build_akin (akin : List.Forall₂ Stage.Akin stages stages') {g : StageGraph} (built : build stages = .ok g) :
    ∃ g', build stages' = .ok g' ∧ g.Akin g' := by
  obtain ⟨declared, shape⟩ := build_ok built
  rw [build_declared declared] at built
  have whole : (orderOf stages).length = stages.length := by
    by_contra part
    rw [if_neg part] at built
    cases built
  rw [build_declared (declared.akin akin), orderOf_akin akin, ← akin.length_eq, if_pos whole]
  subst shape
  refine ⟨_, rfl, akin, fun i n => ?_, rfl⟩
  simp only [Needs, names_akin akin]
  exact (entry_akin akin _ i).mem_iff

end StageGraph

namespace RunGraph

variable {p p' : Pipeline}

theorem layered_akin (akin : p.Akin p') : List.Forall₂ Stage.Akin (layered p) (layered p') := by
  have env : p'.env = p.env := by rw [akin.declaration]
  unfold layered
  rw [env]
  split
  next => exact akin.stages
  next =>
    rw [List.forall₂_map_left_iff, List.forall₂_map_right_iff]
    exact akin.stages.imp fun s s' same => same.withEnv p.env

theorem expand_akin {stages stages' : List Stage} (akin : List.Forall₂ Stage.Akin stages stages')
    (context : Option Context) :
    stages'.mapM (fun s => s.expand context) = stages.mapM fun s => s.expand context := by
  induction akin with
  | nil => rfl
  | cons first _ ih => rw [List.mapM_cons, List.mapM_cons, first.expand context, ih]

theorem build_akin (akin : p.Akin p') {context : Option Context} {g : RunGraph} (built : build p context = .ok g) :
    ∃ g', build p' context = .ok g' ∧ g.graph.Akin g'.graph ∧ g'.allJobs = g.allJobs := by
  obtain ⟨graph', built', same⟩ := StageGraph.build_akin (layered_akin akin) (build_graph built)
  have jobs : graph'.stages.mapM (fun s => s.expand context) = .ok g.jobs :=
    (expand_akin same.stages context).trans (build_jobs built)
  refine ⟨⟨graph', g.jobs, context⟩, ?_, same, ?_⟩
  · exact Fallible.bind_ok.2 ⟨graph', Fallible.mapError_ok.2 built', Fallible.bind_ok.2 ⟨g.jobs, jobs, rfl⟩⟩
  · unfold allJobs
    rw [same.order]
    rfl

end RunGraph
end Conveyor

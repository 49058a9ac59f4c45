import Mathlib.Data.List.Basic
import Conveyor.Proofs.RunGraphJobs
import Conveyor.Proofs.StageLevels

/-! The positions of stages and jobs. A stage enters the queue of the order when the last of its needs is taken, and it
leaves the queue in its turn. So a stage that stands before another one has none of its needs behind all needs of the
other. The jobs of a run are listed by the positions of their stages, and those of one stage by their index. -/

namespace Conveyor
namespace Graph

section

variable {needs dependents : List (List Nat)} {taken queue : List Nat} {counts : List Int}

theorem take_queue (dependents : List (List Nat)) (fuel : Nat) (counts : List Int) (queue : List Nat) :
    queue <+: take fuel dependents counts queue ∨ take fuel dependents counts queue <+: queue := by
  induction fuel generalizing counts queue with
  | zero => exact Or.inr List.nil_prefix
  | succ fuel ih =>
    cases queue with
    | nil => exact Or.inl List.nil_prefix
    | cons node queue =>
      simp only [take, List.prefix_cons_inj]
      generalize release ((entry dependents node).mergeSort (· ≤ ·)) counts = released
      rcases ih released.1 (queue ++ released.2) with longer | shorter
      · exact Or.inl ((List.prefix_append _ _).trans longer)
      · exact List.prefix_or_prefix_of_prefix (List.prefix_append _ _) shorter

theorem take_state (coherent : Coherent needs dependents) (fuel : Nat) (underway : Underway needs taken counts queue)
    {before after : List Nat} (split : take fuel dependents counts queue = before ++ after) :
    ∃ counts' queue', Underway needs (taken ++ before) counts' queue' ∧ (queue' <+: after ∨ after <+: queue') := by
  induction fuel generalizing taken counts queue before with
  | zero =>
    obtain ⟨rfl, rfl⟩ := List.append_eq_nil_iff.1 split.symm
    exact ⟨counts, queue, by simpa using underway, Or.inr List.nil_prefix⟩
  | succ fuel ih =>
    cases before with
    | nil =>
      refine ⟨counts, queue, by simpa using underway, ?_⟩
      have next := take_queue dependents (fuel + 1) counts queue
      rwa [split] at next
    | cons first before =>
      cases queue with
      | nil => cases split
      | cons node queue =>
        simp only [take, List.cons_append, List.cons.injEq] at split
        obtain ⟨rfl, rest⟩ := split
        obtain ⟨counts', queue', state, next⟩ := ih (underway.step coherent) rest
        exact ⟨counts', queue', by simpa using state, next⟩

/-- When the needs of a stage are among the first ones of the order, so are the needs of all stages before it. -/
theorem topologicalOrder_timely (coherent : Coherent needs dependents) {before after : List Nat}
    (split : topologicalOrder needs dependents = before ++ after) {i j : Nat}
    (listed : i ∈ topologicalOrder needs dependents) (inside : j < needs.length)
    (earlier : (topologicalOrder needs dependents).idxOf i < (topologicalOrder needs dependents).idxOf j)
    (free : ∀ u ∈ entry needs j, u ∈ before) : ∀ n ∈ entry needs i, n ∈ before := by
  obtain ⟨counts, queue, state, next⟩ := take_state coherent needs.length (underway_start needs) split
  rw [List.nil_append] at state
  have entered : j ∈ before ++ queue := (state.free j).2 ⟨inside, free⟩
  suffices member : i ∈ before ++ queue from ((state.free i).1 member).2
  rcases next with ⟨rest, rfl⟩ | ⟨rest, rfl⟩
  · -- The stages taken or queued by then are the first ones of the order.
    rw [split, ← List.append_assoc] at listed earlier
    rw [List.idxOf_append_of_mem entered] at earlier
    have bound := List.idxOf_lt_length_iff.2 entered
    have first : i ∈ (before ++ queue ++ rest).take (before ++ queue).length :=
      (List.mem_take_iff_idxOf_lt listed).2 (by omega)
    rwa [List.take_left] at first
  · rw [split] at listed
    rw [← List.append_assoc]
    exact List.mem_append_left _ listed

end

end Graph

namespace StageGraph

open Conveyor.Graph

variable {g : StageGraph}

/-- Of two stages the later one has a need that does not stand before any need of the earlier one. -/
theorem build_timely {stages : List Stage} (built : build stages = .ok g) {i j n : Nat} (listed : i ∈ g.order)
    (inside : j < g.stages.length) (earlier : g.order.idxOf i < g.order.idxOf j) (need : g.Needs i n) :
    ∃ u, g.Needs j u ∧ g.order.idxOf n ≤ g.order.idxOf u := by
  obtain ⟨same, needs, ordered⟩ := build_ordered built
  obtain ⟨coherent, order⟩ := build_searched built
  have first : n ∈ g.order := (ordered.complete n).2 (ordered.needs i n need).2
  by_contra none
  have free (u : Nat) (other : u ∈ entry g.needs j) : u ∈ g.order.take (g.order.idxOf n) := by
    refine (List.mem_take_iff_idxOf_lt ((ordered.complete u).2 (ordered.needs j u other).2)).2 ?_
    by_contra late
    exact none ⟨u, other, by omega⟩
  have split : topologicalOrder g.needs g.dependents =
      g.order.take (g.order.idxOf n) ++ g.order.drop (g.order.idxOf n) := by
    rw [List.take_append_drop, order]
  have taken : n ∈ g.order.take (g.order.idxOf n) :=
    topologicalOrder_timely coherent split (order ▸ listed) (by simpa [needs, same] using inside) (order ▸ earlier) free
      n need
  exact absurd ((List.mem_take_iff_idxOf_lt first).1 taken) (Nat.lt_irrefl _)

theorem Ordered.idxOf_eq (ordered : g.Ordered) {before after : List Nat} {i : Nat}
    (split : g.order = before ++ i :: after) : g.order.idxOf i = before.length := by
  have fresh : i ∉ before := by
    have distinct := ordered.distinct
    rw [split, List.nodup_append] at distinct
    exact fun member => distinct.2.2 i member i List.mem_cons_self rfl
  rw [split, List.idxOf_append_of_notMem fresh, List.idxOf_cons_self, Nat.add_zero]

theorem Ordered.idxOf_lt (ordered : g.Ordered) {i n : Nat} (need : g.Needs i n) :
    g.order.idxOf n < g.order.idxOf i := by
  obtain ⟨before, after, split⟩ := List.append_of_mem ((ordered.complete i).2 (ordered.needs i n need).1)
  have first := ordered.earlier before i after split n need
  rw [ordered.idxOf_eq split, split, List.idxOf_append_of_mem first]
  exact List.idxOf_lt_length_iff.2 first

def position (g : StageGraph) (stage : String) : Nat := (g.ordered.map (·.name)).idxOf stage

theorem Ordered.position_eq (ordered : g.Ordered) {i : Nat} {s : Stage} (stage : g.stages[i]? = some s) :
    g.position s.name = g.order.idxOf i := by
  have listed : i ∈ g.order := (ordered.complete i).2 (List.getElem?_eq_some_iff.1 stage).1
  have names : g.ordered.map (·.name) = g.namesOf g.order := List.map_filterMap
  have distinct : (g.namesOf g.order).Nodup := ordered.namesOf_order.nodup_iff.2 ordered.names
  have each : g.namesOf g.order = g.order.map fun k => (g.stages[k]?.map (·.name)).getD "" := by
    rw [namesOf, ← List.filterMap_eq_map]
    apply List.filterMap_congr
    intro k member
    obtain ⟨t, found⟩ := ordered.stage member
    simp [stage?, found]
  have inside := List.idxOf_lt_length_iff.2 listed
  have place : (g.namesOf g.order)[g.order.idxOf i]? = some s.name := by
    rw [each, List.getElem?_map, List.getElem?_idxOf listed, Option.map_some, stage]
    rfl
  obtain ⟨bound, same⟩ := List.getElem?_eq_some_iff.1 place
  rw [position, names, ← same, distinct.idxOf_getElem]

theorem Ordered.position_inj (ordered : g.Ordered) {s t : Stage} (declared : s ∈ g.stages) (declared' : t ∈ g.stages)
    (same : g.position s.name = g.position t.name) : s.name = t.name := by
  obtain ⟨i, stage⟩ := List.mem_iff_getElem?.1 declared
  obtain ⟨j, stage'⟩ := List.mem_iff_getElem?.1 declared'
  rw [ordered.position_eq stage, ordered.position_eq stage'] at same
  cases (List.idxOf_inj ((ordered.complete i).2 (List.getElem?_eq_some_iff.1 stage).1)).1 same
  rw [Option.some.inj (stage.symm.trans stage')]

end StageGraph

namespace Stage

open Fallible

theorem expand_index {s : Stage} {context : Option Context} {jobs : List Job} (done : s.expand context = .ok jobs)
    {k : Nat} {job : Job} (place : jobs[k]? = some job) : job.index = k := by
  obtain ⟨combinations, _, rest⟩ := bind_ok.1 done
  have inside : k < combinations.length := by
    have bound := (List.getElem?_eq_some_iff.1 place).1
    rwa [mapM_length rest, List.length_zipIdx] at bound
  have source : combinations.zipIdx[k]? = some (combinations[k], k) := by simp [inside]
  obtain ⟨_, again, made⟩ := mapM_place rest source
  cases again.symm.trans place
  simp only at made
  split at made
  · cases made
  · exact (job_ok (mapError_ok.1 made)).2.1

end Stage

namespace RunGraph

/-- A job comes before another one: its stage does, or the stage is the same and its index is less. -/
def Precedes (g : RunGraph) (a b : Job) : Prop :=
  g.graph.position a.stage < g.graph.position b.stage ∨
    g.graph.position a.stage = g.graph.position b.stage ∧ a.index < b.index

theorem Precedes.asymm {g : RunGraph} {a b : Job} (first : g.Precedes a b) : ¬ g.Precedes b a := by
  intro second
  unfold Precedes at first second
  omega

theorem Populated.same_stage {g : RunGraph} (populated : g.Populated) {a b : Job} (member : a ∈ g.allJobs)
    (member' : b ∈ g.allJobs) (same : g.graph.position a.stage = g.graph.position b.stage) : a.stage = b.stage := by
  obtain ⟨_, s, _, stage, _, named⟩ := populated.home member
  obtain ⟨_, t, _, stage', _, named'⟩ := populated.home member'
  rw [named, named'] at same ⊢
  exact populated.ordered.position_inj (List.mem_of_getElem? stage) (List.mem_of_getElem? stage') same

theorem build_listed {p : Pipeline} {context : Option Context} {g : RunGraph} (built : build p context = .ok g) :
    g.allJobs.Pairwise g.Precedes := by
  have populated := build_populated built
  rw [allJobs, List.pairwise_flatMap]
  constructor
  · intro i listed
    obtain ⟨s, stage⟩ := populated.ordered.stage listed
    rw [List.pairwise_iff_getElem]
    intro k l inside inside' before
    have named (job : Job) (member : job ∈ g.jobsOf i) := populated.stage stage member
    have expanded := build_expanded built i s stage
    have first := Stage.expand_index expanded (List.getElem?_eq_getElem inside)
    have second := Stage.expand_index expanded (List.getElem?_eq_getElem inside')
    refine Or.inr ⟨?_, by omega⟩
    rw [named _ (List.getElem_mem inside), named _ (List.getElem_mem inside')]
  · rw [List.pairwise_iff_getElem]
    intro k l inside inside' before a member b member'
    obtain ⟨s, stage⟩ := populated.ordered.stage (List.getElem_mem inside)
    obtain ⟨t, stage'⟩ := populated.ordered.stage (List.getElem_mem inside')
    left
    rw [populated.stage stage member, populated.stage stage' member', populated.ordered.position_eq stage,
      populated.ordered.position_eq stage', populated.ordered.distinct.idxOf_getElem,
      populated.ordered.distinct.idxOf_getElem]
    exact before

/-- The jobs are listed in their order, and a stage that stands before another one has none of its needs behind all
needs of the other. -/
structure Arranged (g : RunGraph) : Prop where
  populated : g.Populated
  jobs : g.allJobs.Pairwise g.Precedes
  timely : ∀ i j n, i ∈ g.graph.order → j ∈ g.graph.order → g.graph.order.idxOf i < g.graph.order.idxOf j →
    g.graph.Needs i n → ∃ u, g.graph.Needs j u ∧ g.graph.order.idxOf n ≤ g.graph.order.idxOf u

theorem build_arranged {p : Pipeline} {context : Option Context} {g : RunGraph} (built : build p context = .ok g) :
    g.Arranged := by
  have populated := build_populated built
  refine ⟨populated, build_listed built, fun i j n listed later earlier need => ?_⟩
  exact StageGraph.build_timely (build_graph built) listed ((populated.ordered.complete j).1 later) earlier need

end RunGraph
end Conveyor

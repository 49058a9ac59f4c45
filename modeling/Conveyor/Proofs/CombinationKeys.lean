import Conveyor.Proofs.ConsumedStages
import Conveyor.Proofs.DistinctKeys

/-! The keys of jobs. Two jobs have one key if they belong to one stage and their combinations are equal as values; so
whether the jobs of a run can be told apart is a matter of the combinations of each stage. -/

namespace Conveyor

open Fallible

theorem Double.same_comm (d e : Double) : d.same e = e.same d := by
  unfold Double.same
  cases d with
  | nan payload => cases e <;> rfl
  | infinite a =>
    cases e with
    | nan payload => rfl
    | infinite b => cases a <;> cases b <;> rfl
    | finite b n f => cases a <;> rfl
  | finite a m e' =>
    cases e with
    | nan payload => rfl
    | infinite b => cases b <;> rfl
    | finite b n f =>
      rw [Bool.eq_iff_iff, beq_iff_eq, beq_iff_eq]
      simp only [Double.compare?, Option.some.injEq, Std.LawfulEqCmp.compare_eq_iff_eq, Int.min_comm f e']
      exact eq_comm

theorem Double.alike_comm (d e : Double) : d.alike e = e.alike d := by
  cases d with
  | nan payload =>
    cases e with
    | nan other => exact Bool.beq_comm
    | infinite | finite => exact Double.same_comm _ _
  | infinite | finite => cases e <;> exact Double.same_comm _ _

namespace Matrix

theorem alike_comm {v w : Value} (first : isPlain v = true) (second : isPlain w = true) : v.alike w = w.alike v := by
  cases v with
  | null | bool | int | float | str =>
    cases w with
    | null | bool | int | float | str => simp only [Value.alike, Bool.beq_comm, Double.alike_comm]
    | bytes | date | timestamp | list | tuple | set | map | knot | again => cases second
  | bytes | date | timestamp | list | tuple | set | map | knot | again => cases first

def Plain (combination : Mapping) : Prop :=
  ∀ entry ∈ combination, isPlain entry.1 = true ∧ isPlain entry.2 = true

theorem Plain.alike_comm {a b : Mapping} (first : Plain a) (second : Plain b) :
    Value.alikePairsInOrder a b = Value.alikePairsInOrder b a := by
  induction a generalizing b with
  | nil => cases b <;> rfl
  | cons entry a ih =>
    cases b with
    | nil => rfl
    | cons entry' b =>
      obtain ⟨⟨key, value⟩, rest⟩ := List.forall_mem_cons.1 first
      obtain ⟨⟨key', value'⟩, rest'⟩ := List.forall_mem_cons.1 second
      simp only [Value.alikePairsInOrder]
      rw [Matrix.alike_comm key key', Matrix.alike_comm value value', ih rest rest']

theorem Plain.insert {a : Mapping} (plain : Plain a) {key value : Value} (first : isPlain key = true)
    (second : isPlain value = true) : Plain (Table.insert a key value) := by
  induction a with
  | nil =>
    intro entry member
    cases List.mem_singleton.1 member
    exact ⟨first, second⟩
  | cons entry a ih =>
    obtain ⟨here, rest⟩ := List.forall_mem_cons.1 plain
    unfold Table.insert
    split
    · exact List.forall_mem_cons.2 ⟨⟨here.1, second⟩, rest⟩
    · exact List.forall_mem_cons.2 ⟨here, ih rest⟩

theorem Plain.update {a b : Mapping} (plain : Plain a) (more : Plain b) : Plain (Table.update a b) := by
  unfold Table.update
  induction b generalizing a with
  | nil => exact plain
  | cons entry b ih =>
    obtain ⟨⟨key, value⟩, rest⟩ := List.forall_mem_cons.1 more
    exact ih (plain.insert key value) rest

theorem product_plain {axes : Table String (List Value)} (plain : ∀ axis ∈ axes, ∀ v ∈ axis.2, isPlain v = true) :
    ∀ combination ∈ product axes, Plain combination := by
  induction axes with
  | nil =>
    intro combination member
    cases List.mem_singleton.1 member
    exact List.forall_mem_nil _
  | cons axis axes ih =>
    obtain ⟨here, rest⟩ := List.forall_mem_cons.1 plain
    intro combination member
    obtain ⟨v, listed, member⟩ := List.mem_flatMap.1 member
    obtain ⟨tail, others, rfl⟩ := List.mem_map.1 member
    exact List.forall_mem_cons.2 ⟨⟨rfl, here v listed⟩, ih rest tail others⟩

/-- What holds of the combinations of the axes and of the included entries, and is kept when an entry is merged into a
combination, holds of all combinations. -/
theorem merged_each {m : Matrix} (holds : Mapping → Prop) (start : ∀ c ∈ m.survivors, holds c)
    (own : ∀ entry ∈ m.included, holds entry)
    (grown : ∀ c, holds c → ∀ entry ∈ m.included, holds (c.update entry)) : ∀ c ∈ m.merged, holds c := by
  have along (entries : List Mapping) (listed : ∀ entry ∈ entries, entry ∈ m.included)
      (state : List Mapping × List Mapping) (before : (∀ c ∈ state.1, holds c) ∧ ∀ c ∈ state.2, holds c) :
      (∀ c ∈ (entries.foldl m.extend state).1, holds c) ∧ ∀ c ∈ (entries.foldl m.extend state).2, holds c := by
    induction entries generalizing state with
    | nil => exact before
    | cons entry entries ih =>
      obtain ⟨here, rest⟩ := List.forall_mem_cons.1 listed
      apply ih rest
      unfold extend
      dsimp only
      split
      · refine ⟨?_, before.2⟩
        intro c member
        obtain ⟨old, present, rfl⟩ := List.mem_map.1 member
        split
        · exact grown old (before.1 old present) entry here
        · exact before.1 old present
      · refine ⟨before.1, ?_⟩
        intro c member
        rcases List.mem_append.1 member with present | same
        · exact before.2 c present
        · cases List.mem_singleton.1 same
          exact own entry here
  obtain ⟨extended, added⟩ := along m.included (fun _ member => member) (m.survivors, []) ⟨start, List.forall_mem_nil _⟩
  intro c member
  exact (List.mem_append.1 member).elim (extended c) (added c)

def TextKeys (m : Matrix) : Prop := ∀ entry ∈ m.included ++ m.excluded, ∀ field ∈ entry, ∃ text, field.1 = .str text

theorem merged_plain {m : Matrix} (texts : m.TextKeys) (scalars : m.nonScalars = []) :
    ∀ combination ∈ m.merged, Plain combination := by
  simp only [nonScalars, nonScalarEntries, List.append_eq_nil_iff, List.flatMap_eq_nil_iff, List.map_eq_nil_iff,
    List.filter_eq_nil_iff, Bool.not_eq_true', Bool.not_eq_false] at scalars
  obtain ⟨⟨axes, included⟩, _⟩ := scalars
  have entries : ∀ entry ∈ m.included, Plain entry := by
    intro entry member field present
    obtain ⟨text, key⟩ := texts entry (List.mem_append.2 (Or.inl member)) field present
    exact ⟨by rw [key]; rfl, included entry member field present⟩
  have start : ∀ c ∈ m.survivors, Plain c := by
    unfold survivors
    split
    · exact List.forall_mem_nil _
    · intro c member
      exact product_plain axes c (List.mem_filter.1 member).1
  exact merged_each Plain start entries fun c plain entry member => plain.update (entries entry member)

theorem combinations_plain {m : Matrix} (texts : m.TextKeys) {found : List Mapping} (done : m.combinations = .ok found) :
    ∀ combination ∈ found, Plain combination := by
  rcases combinations_ok done with ⟨_, _, rfl⟩ | ⟨scalars, rfl, _⟩
  · intro c member
    cases List.mem_singleton.1 member
    exact List.forall_mem_nil _
  · exact merged_plain texts scalars

end Matrix

def Pipeline.TextKeys (p : Pipeline) : Prop := ∀ s ∈ p.stages, ∀ m, s.matrix = some m → m.TextKeys

variable {p : Pipeline} {s : Stage} {context : Option Context} {g : RunGraph}

theorem Pipeline.textKeys_of_axes (bare : ∀ s ∈ p.stages, ∀ m ∈ s.matrix, m.included ++ m.excluded = []) :
    p.TextKeys := by
  intro s member m matrix entry inside
  rw [bare s member m matrix] at inside
  cases inside

theorem Stage.combinations_plain (texts : ∀ m, s.matrix = some m → m.TextKeys) {found : List Mapping}
    (done : s.combinations = .ok found) : ∀ combination ∈ found, Matrix.Plain combination := by
  unfold Stage.combinations at done
  split at done
  · cases done
    intro c member
    cases List.mem_singleton.1 member
    exact List.forall_mem_nil _
  next m matrix => exact Matrix.combinations_plain (texts m matrix) (mapError_ok.1 done)

theorem Stage.expand_combinations {jobs : List Job} (done : s.expand context = .ok jobs) :
    s.combinations = .ok (jobs.map (·.assignment)) := by
  obtain ⟨combinations, found, rest⟩ := bind_ok.1 done
  rw [found]
  congr 1
  apply List.ext_getElem?
  intro i
  cases place : combinations[i]? with
  | none =>
    have length := mapM_length rest
    rw [List.length_zipIdx] at length
    rw [List.getElem?_eq_none_iff] at place
    rw [List.getElem?_map, List.getElem?_eq_none (by omega)]
    rfl
  | some combination =>
    have indexed : combinations.zipIdx[i]? = some (combination, i) := by simp [List.getElem?_zipIdx, place]
    obtain ⟨job, there, made⟩ := mapM_place rest indexed
    dsimp only at made
    split at made
    · cases made
    · obtain ⟨_, _, assignment, _⟩ := Stage.job_ok (mapError_ok.1 made)
      rw [List.getElem?_map, there, Option.map_some, assignment]

theorem RunGraph.assignment_plain (texts : p.TextKeys) (built : build p context = .ok g) {job : Job}
    (member : job ∈ g.allJobs) : Matrix.Plain job.assignment := by
  obtain ⟨i, s, _, stage, own, _⟩ := (build_populated built).home member
  have expanded := build_expanded built i s stage
  rw [(StageGraph.build_ordered (build_graph built)).1] at stage
  obtain ⟨t, place, same⟩ := layered_stage stage
  have keys : ∀ m, s.matrix = some m → m.TextKeys := by
    rw [same]
    exact texts t (List.mem_of_getElem? place)
  exact Stage.combinations_plain keys (Stage.expand_combinations expanded) _ (List.mem_map_of_mem own)

theorem RunGraph.distinctKeys_iff (texts : p.TextKeys) (built : build p context = .ok g) :
    g.DistinctKeys ↔ g.allJobs.Pairwise fun a b => a.sameKey b = false := by
  constructor
  · intro distinct
    exact distinct.imp And.left
  · intro unmerged
    apply unmerged.imp_of_mem
    intro a b first second apart
    refine ⟨apart, ?_⟩
    have back := (assignment_plain texts built second).alike_comm (assignment_plain texts built first)
    rwa [Job.sameKey, back, Bool.beq_comm]

theorem Stage.expand_unmerged {jobs : List Job} (done : s.expand context = .ok jobs) :
    (jobs.Pairwise fun a b => a.sameKey b = false) ↔
      (jobs.map (·.assignment)).Pairwise fun a b => Value.alikePairsInOrder a b = false := by
  have named {job : Job} (member : job ∈ jobs) : job.stage = s.name := by
    obtain ⟨_, _, made⟩ := (Stage.expand_ok done).2 job member
    exact (Stage.job_ok made).1
  have apart {a b : Job} (first : a ∈ jobs) (second : b ∈ jobs) :
      a.sameKey b = Value.alikePairsInOrder a.assignment b.assignment := by
    rw [Job.sameKey, named first, named second, beq_self_eq_true, Bool.true_and]
  rw [List.pairwise_map]
  constructor
  · intro pairs
    apply pairs.imp_of_mem
    intro a b first second unshared
    rwa [apart first second] at unshared
  · intro pairs
    apply pairs.imp_of_mem
    intro a b first second unlike
    rwa [apart first second]

/-- No job has the key of an earlier one if and only if no stage has two combinations that are equal as values. -/
theorem RunGraph.unmerged_iff (built : build p context = .ok g) :
    (g.allJobs.Pairwise fun a b => a.sameKey b = false) ↔ ∀ s ∈ p.stages, ∀ found, s.combinations = .ok found →
      found.Pairwise fun a b => Value.alikePairsInOrder a b = false := by
  have populated := build_populated built
  have ordered := populated.ordered
  have within {i : Nat} {s : Stage} (stage : g.graph.stages[i]? = some s) :
      ((g.jobsOf i).Pairwise fun a b => a.sameKey b = false) ↔ ∀ found, s.combinations = .ok found →
        found.Pairwise fun a b => Value.alikePairsInOrder a b = false := by
    have expanded := build_expanded built i s stage
    rw [Stage.expand_unmerged expanded]
    constructor
    · intro pairs found done
      cases done.symm.trans (Stage.expand_combinations expanded)
      exact pairs
    · intro pairs
      exact pairs _ (Stage.expand_combinations expanded)
  -- Jobs of different stages are always told apart.
  have across : g.graph.order.Pairwise fun i k => ∀ a ∈ g.jobsOf i, ∀ b ∈ g.jobsOf k, a.sameKey b = false := by
    apply ordered.distinct.imp_of_mem
    intro i k listed listed' other a member b member'
    obtain ⟨s, stage⟩ := ordered.stage listed
    obtain ⟨t, stage'⟩ := ordered.stage listed'
    have names : s.name ≠ t.name := fun same => other (ordered.unique stage stage' same)
    rw [Job.sameKey, populated.stage stage member, populated.stage stage' member', beq_eq_false_iff_ne.2 names,
      Bool.false_and]
  have shared : g.graph.stages.map Stage.combinations = p.stages.map Stage.combinations := by
    rw [(StageGraph.build_ordered (build_graph built)).1]
    exact layered_map p Stage.combinations fun _ _ => rfl
  rw [allJobs, List.pairwise_flatMap, and_iff_left across]
  constructor
  · intro pairs t member found done
    have listed : Except.ok found ∈ g.graph.stages.map Stage.combinations := by
      rw [shared, ← done]
      exact List.mem_map_of_mem member
    obtain ⟨s, declared, same⟩ := List.mem_map.1 listed
    obtain ⟨i, stage⟩ := List.mem_iff_getElem?.1 declared
    have inside := (ordered.complete i).2 (List.getElem?_eq_some_iff.1 stage).1
    exact (within stage).1 (pairs i inside) found same
  · intro pairs i listed
    obtain ⟨s, stage⟩ := ordered.stage listed
    rw [within stage]
    intro found done
    have listed : Except.ok found ∈ p.stages.map Stage.combinations := by
      rw [← shared, ← done]
      exact List.mem_map_of_mem (List.mem_of_getElem? stage)
    obtain ⟨t, declared, same⟩ := List.mem_map.1 listed
    exact pairs t declared found same

end Conveyor

import Conveyor.Proofs.JobHistory
import Conveyor.Proofs.RunGraphJobs

/-! What becomes of stages. The outcome of a stage is read off its records once all of them have ended, so it
never changes from then on. -/

namespace Conveyor
namespace Coordinator

def stageName (c : Coordinator) (n : Nat) : String := (c.setup.graph.stages[n]?.map (·.name)).getD ""

variable {c c' : Coordinator} {n : Nat} {outcome : Status × Option SkipReason} {stage : String}

theorem stageOutcome_some (settled : c.stageOutcome n = some outcome) :
    n ∈ c.opened ∧ ∀ r ∈ c.recordsOf (c.stageName n), r.status.isTerminal = true := by
  simp only [stageOutcome] at settled
  split at settled
  next => cases settled
  next opened =>
    split at settled
    next => cases settled
    next ended =>
      refine ⟨by simpa using opened, fun r member => ?_⟩
      simp only [List.any_eq_true, not_exists, not_and, Bool.not_eq_true', Bool.not_eq_false] at ended
      exact ended r member

theorem stageOutcome_isSome (opened : n ∈ c.opened)
    (ended : ∀ r ∈ c.recordsOf (c.stageName n), r.status.isTerminal = true) : (c.stageOutcome n).isSome := by
  have settled : ¬ (c.recordsOf (c.stageName n)).any (fun r => !r.status.isTerminal) = true := by
    simpa using ended
  unfold stageName at settled
  simp only [stageOutcome, List.contains_iff_mem.2 opened, Bool.not_true, Bool.false_eq_true, if_false, settled]
  split
  · rfl
  · split <;> rfl

theorem stageOutcome_cases (settled : c.stageOutcome n = some outcome) :
    outcome = (.succeeded, none) ∧ (∀ r ∈ c.recordsOf (c.stageName n), r.status = .succeeded) ∨
      (∃ reason, outcome = (.skipped, reason)) ∧ (∀ r ∈ c.recordsOf (c.stageName n), r.status = .skipped) ∨
      outcome = (.failed, none) := by
  simp only [stageOutcome] at settled
  split at settled
  next => cases settled
  next =>
    split at settled
    next => cases settled
    next =>
      split at settled
      next all =>
        cases settled
        exact Or.inl ⟨rfl, by simpa [stageName] using all⟩
      next =>
        split at settled
        next all =>
          cases settled
          exact Or.inr (Or.inl ⟨⟨_, rfl⟩, by simpa [stageName] using all⟩)
        next =>
          cases settled
          exact Or.inr (Or.inr rfl)

theorem stageOutcome_succeeded (opened : n ∈ c.opened)
    (all : ∀ r ∈ c.recordsOf (c.stageName n), r.status = .succeeded) :
    c.stageOutcome n = some (.succeeded, none) := by
  have settled : ¬ (c.recordsOf (c.stageName n)).any (fun r => !r.status.isTerminal) = true := by
    simp only [List.any_eq_true, not_exists, not_and]
    intro r member
    rw [all r member]
    simp [Status.isTerminal]
  have every : (c.recordsOf (c.stageName n)).all (fun r => decide (r.status = .succeeded)) = true := by
    simpa using all
  unfold stageName at settled every
  simp only [stageOutcome, List.contains_iff_mem.2 opened, Bool.not_true, Bool.false_eq_true, if_false, settled, every,
    if_true]

theorem stageOutcome_skipped (opened : n ∈ c.opened) {q : JobRecord} (present : q ∈ c.recordsOf (c.stageName n))
    (all : ∀ r ∈ c.recordsOf (c.stageName n), r.status = .skipped) :
    c.stageOutcome n = some (.skipped, (c.recordsOf (c.stageName n)).head?.bind (·.skipReason)) := by
  have settled : ¬ (c.recordsOf (c.stageName n)).any (fun r => !r.status.isTerminal) = true := by
    simp only [List.any_eq_true, not_exists, not_and]
    intro r member
    rw [all r member]
    simp [Status.isTerminal]
  have idle : ¬ (c.recordsOf (c.stageName n)).all (fun r => decide (r.status = .succeeded)) = true := by
    intro every
    have done := of_decide_eq_true (List.all_eq_true.1 every q present)
    cases (all q present).symm.trans done
  have every : (c.recordsOf (c.stageName n)).all (fun r => decide (r.status = .skipped)) = true := by
    simpa using all
  unfold stageName at settled idle every ⊢
  simp only [stageOutcome, List.contains_iff_mem.2 opened, Bool.not_true, Bool.false_eq_true, if_false, settled, idle,
    every, if_true]

/-- The outcome of a stage is read off the states of its jobs and the reasons for skipping them. -/
theorem stageOutcome_congr (graph : c'.setup.graph = c.setup.graph) (opened : n ∈ c'.opened ↔ n ∈ c.opened)
    (records : (c'.recordsOf (c.stageName n)).map (fun r => (r.status, r.skipReason)) =
      (c.recordsOf (c.stageName n)).map fun r => (r.status, r.skipReason)) :
    c'.stageOutcome n = c.stageOutcome n := by
  have contains : c'.opened.contains n = c.opened.contains n := by
    rw [Bool.eq_iff_iff, List.contains_iff_mem, List.contains_iff_mem, opened]
  have unended := congrArg (List.any · fun x => !x.1.isTerminal) records
  have every (status : Status) := congrArg (List.all · fun x => decide (x.1 = status)) records
  have first := congrArg (fun states => states.head?.bind Prod.snd) records
  simp only [List.any_map, List.all_map, List.head?_map, Option.bind_map, Function.comp_def] at unended every first
  unfold stageName at unended every first
  simp only [stageOutcome, graph, contains, unended, every, first]

theorem mem_recordsOf {r : JobRecord} :
    r ∈ c.recordsOf stage ↔ ∃ j, c.record? j = some r ∧ r.job.stage = stage := by
  rw [recordsOf, List.mem_filter, List.mem_iff_getElem?, decide_eq_true_eq]
  exact exists_and_right.symm

private theorem map_filter_of_places {α β : Type} {p : α → Bool} {f : α → β} {xs ys : List α}
    (size : ys.length = xs.length)
    (same : ∀ (j : Nat) x y, xs[j]? = some x → ys[j]? = some y → p y = p x ∧ (p x = true → f y = f x)) :
    (ys.filter p).map f = (xs.filter p).map f := by
  induction xs generalizing ys with
  | nil =>
    rw [List.length_eq_zero_iff.1 size]
  | cons x xs ih =>
    cases ys with
    | nil => simp at size
    | cons y ys =>
      have tail := ih (by simpa using size) fun j x y first second =>
        same (j + 1) x y (by simpa using first) (by simpa using second)
      obtain ⟨agree, image⟩ := same 0 x y rfl rfl
      cases kept : p x <;> simp_all

/-- Two runs of the same jobs show the same of a stage if they show the same of each of its jobs. -/
theorem recordsOf_congr {β : Type} {f : JobRecord → β} (jobs : SameJobs c c')
    (same : ∀ j r r', c.record? j = some r → c'.record? j = some r' → r.job.stage = stage → f r' = f r) :
    (c'.recordsOf stage).map f = (c.recordsOf stage).map f := by
  refine map_filter_of_places jobs.length fun j r r' found found' => ?_
  have job : r'.job = r.job := by
    have shared := jobs.job j
    rw [record?, record?, found, found'] at shared
    exact Option.some.inj shared
  exact ⟨by rw [job], fun member => same j r r' found found' (of_decide_eq_true member)⟩

theorem Evolved.recordsOf (evolved : Evolved c c') (ended : ∀ r ∈ c.recordsOf stage, r.status.isTerminal = true) :
    c'.recordsOf stage = c.recordsOf stage := by
  rw [← List.map_id (c'.recordsOf stage), ← List.map_id (c.recordsOf stage)]
  refine recordsOf_congr evolved.sameJobs fun j r r' found found' member => ?_
  rw [evolved.frozen found (ended r (mem_recordsOf.2 ⟨j, found, member⟩))] at found'
  exact (Option.some.inj found').symm

theorem Evolved.stageOutcome (evolved : Evolved c c') (setup : c'.setup = c.setup)
    (opened : ∀ i ∈ c.opened, i ∈ c'.opened) (settled : c.stageOutcome n = some outcome) :
    c'.stageOutcome n = some outcome := by
  obtain ⟨started, ended⟩ := stageOutcome_some settled
  rw [stageOutcome_congr (congrArg Setup.graph setup) (by simp [started, opened n started])
    (by rw [evolved.recordsOf ended]), settled]

theorem prerequisites?_congr {i : Nat} (graph : c'.setup.graph = c.setup.graph)
    (same : ∀ n, c.setup.graph.Needs i n → c'.stageOutcome n = c.stageOutcome n) :
    c'.prerequisites? i = c.prerequisites? i := by
  unfold prerequisites?
  unfold StageGraph.Needs at same
  rw [graph]
  generalize Graph.entry c.setup.graph.needs i = needs at same
  induction needs with
  | nil => rfl
  | cons n needs ih =>
    rw [List.mapM_cons, List.mapM_cons, same n (by simp), ih fun k member => same k (by simp [member])]

theorem Evolved.prerequisites (evolved : Evolved c c') (setup : c'.setup = c.setup)
    (opened : ∀ i ∈ c.opened, i ∈ c'.opened) {i : Nat} {outcomes : List (String × Status × Option SkipReason)}
    (settled : c.prerequisites? i = some outcomes) : c'.prerequisites? i = some outcomes := by
  rw [← settled]
  refine prerequisites?_congr (congrArg Setup.graph setup) fun n need => ?_
  obtain ⟨_, _, known⟩ := Fallible.mapM_some_member settled need
  obtain ⟨own, ended, _⟩ := Option.map_eq_some_iff.1 known
  rw [evolved.stageOutcome setup opened ended, ended]

end Coordinator

namespace Moment

variable {ω : Type} [World ω]

theorem Step.frame {m m' : Moment ω} (step : Step m m') :
    m'.coord.setup = m.coord.setup ∧ ∀ i ∈ m.coord.opened, i ∈ m'.coord.opened := by
  cases step with
  | opens _ _ _ _ opened =>
    have opened := Coordinator.openStage_ok opened
    exact ⟨opened.setup, fun i member => by rw [opened.opened]; simp [member]⟩
  | takes _ _ taken =>
    obtain ⟨setup, opened, _⟩ := (Coordinator.takeUp_ok taken).frame
    exact ⟨setup, fun i member => by rw [opened]; exact member⟩
  | delivers => exact ⟨rfl, fun _ member => member⟩
  | awaits => exact ⟨rfl, fun _ member => member⟩
  | collects collected =>
    cases Coordinator.collect_ok collected with
    | dropped => exact ⟨rfl, fun _ member => member⟩
    | taken _ _ returned => exact ⟨returned.setup, fun i member => by rw [returned.opened]; exact member⟩
  | looks => exact ⟨rfl, fun _ member => member⟩
  | expires expired =>
    cases Coordinator.expire_ok expired with
    | early => exact ⟨rfl, fun _ member => member⟩
    | ended => exact ⟨rfl, fun _ member => member⟩
    | stopped _ _ late => exact ⟨late.setup, fun i member => by rw [late.opened]; exact member⟩

theorem Step.stageOutcome {m m' : Moment ω} (step : Step m m') {n : Nat} {outcome : Status × Option SkipReason}
    (settled : m.coord.stageOutcome n = some outcome) : m'.coord.stageOutcome n = some outcome :=
  step.evolved.stageOutcome step.frame.1 step.frame.2 settled

theorem Path.setup {m m' : Moment ω} (path : Path m m') : m'.coord.setup = m.coord.setup := by
  induction path with
  | refl => rfl
  | tail _ step ih => exact step.frame.1.trans ih

/-- A moment of a run of a graph: its stages and its jobs, each at its place. -/
structure Runs (g : RunGraph) (m : Moment ω) : Prop where
  graph : m.coord.setup.graph = g.graph
  jobs : m.coord.records.map (·.job) = g.allJobs

omit [World ω] in
theorem Runs.start {setup : Setup} {g : RunGraph} (graph : setup.graph = g.graph) (w : ω) :
    Runs g (Operation.start setup g w).moment :=
  ⟨graph, by simp [Operation.moment, Operation.start, Coordinator.start, Function.comp_def]⟩

theorem Runs.step {g : RunGraph} {m m' : Moment ω} (step : Step m m') (runs : Runs g m) : Runs g m' :=
  ⟨by rw [step.frame.1, runs.graph], Eq.trans step.evolved.sameJobs runs.jobs⟩

omit [World ω] in
theorem Runs.job {g : RunGraph} {m : Moment ω} (runs : Runs g m) {j : Nat} {r : JobRecord}
    (found : m.coord.record? j = some r) : r.job ∈ g.allJobs := by
  rw [← runs.jobs]
  exact List.mem_map_of_mem (List.mem_of_getElem? found)

end Moment
end Conveyor

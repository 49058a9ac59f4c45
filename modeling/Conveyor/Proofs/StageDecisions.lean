import Conveyor.Proofs.DependencyBarrier

/-! What is decided about a stage. It follows from the outcomes of the stages that it needs and from its condition,
and it is final: at every moment the jobs of the stage are where the decision has put them, or further on. -/

namespace Conveyor
namespace Coordinator

/-- A job of a stage has failed, and the stage asks for the others to be stopped then. -/
def Tripped (c : Coordinator) (stage : String) : Prop :=
  (c.stage? stage).any (·.failFast) = true ∧ ∃ k q, c.record? k = some q ∧ q.status = .failed ∧ q.job.stage = stage

/-- The stages that a stage needs have ended, and this is what follows for its jobs. -/
def Decided (c : Coordinator) (stage : String) (change : Status × Remark) : Prop :=
  ∃ i s outcomes, c.setup.graph.stages[i]? = some s ∧ s.name = stage ∧ c.prerequisites? i = some outcomes ∧
    c.opening s outcomes = change

variable {c : Coordinator} {stage : String}

theorem Decided.unique {change change' : Status × Remark} (decided : c.Decided stage change)
    (again : c.Decided stage change') (ordered : c.setup.graph.Ordered) :
    change = change' := by
  obtain ⟨i, s, outcomes, place, named, settled, rfl⟩ := decided
  obtain ⟨k, t, others, place', named', settled', rfl⟩ := again
  cases ordered.unique place place' (named.trans named'.symm)
  cases place.symm.trans place'
  cases settled.symm.trans settled'
  rfl

/-- A stage is released only if all stages that it needs have succeeded. -/
theorem Decided.cleared (decided : c.Decided stage (.ready, {})) (ordered : c.setup.graph.Ordered) :
    c.Cleared stage := by
  obtain ⟨i, s, outcomes, place, named, settled, change⟩ := decided
  intro k t n place' named' need
  cases ordered.unique place place' (named.trans named'.symm)
  exact succeeded_of_released settled (by rw [change]) need

theorem opening_skipped {s : Stage} {outcomes : List (String × Status × Option SkipReason)}
    (skipped : (c.opening s outcomes).1 = .skipped) : ∃ why, (c.opening s outcomes).2.skipReason = some why := by
  unfold opening at skipped ⊢
  split at skipped
  · exact ⟨_, rfl⟩
  · exact ⟨_, rfl⟩
  · split at skipped
    · cases skipped
    · exact ⟨_, rfl⟩

/-- A job has been treated as its stage was decided; only a job that was skipped with its stage has a reason. -/
inductive Accords (c : Coordinator) (r : JobRecord) : Prop
  | pending (status : r.status = .pending) (silent : r.skipReason = none)
  | skipped {remark : Remark} {why : SkipReason} (decided : c.Decided r.job.stage (.skipped, remark))
      (said : remark.skipReason = some why) (status : r.status = .skipped) (reason : r.skipReason = some why)
  | released (decided : c.Decided r.job.stage (.ready, {})) (released : r.Released) (silent : r.skipReason = none)

theorem Accords.of_active {r : JobRecord} (accords : c.Accords r) (active : r.status = .ready ∨ r.status = .running) :
    c.Decided r.job.stage (.ready, {}) ∧ r.skipReason = none := by
  cases accords with
  | pending status => simp [status] at active
  | skipped _ _ status => simp [status] at active
  | released decided _ silent => exact ⟨decided, silent⟩

end Coordinator

namespace Moment

open Coordinator

variable {ω : Type} {g : RunGraph} {m m' : Moment ω}

theorem accords_start (setup : Setup) (g : RunGraph) (w : ω) :
    ∀ j r, (Operation.start setup g w).moment.coord.record? j = some r →
      (Operation.start setup g w).moment.coord.Accords r := by
  intro j r found
  obtain ⟨job, _, rfl⟩ := Operation.start_record found
  exact .pending rfl rfl

/-- The jobs of a stage of which one is at work are not pending. -/
theorem Runs.awake (runs : Runs g m) (populated : g.Populated) (sound : m.coord.Sound) {i j : Nat}
    {q r : JobRecord} (held : m.coord.record? i = some q) (active : q.status = .ready ∨ q.status = .running)
    (found : m.coord.record? j = some r) (same : r.job.stage = q.job.stage) : r.status ≠ .pending := by
  obtain ⟨k, s, stage, named⟩ := runs.home populated held
  rw [Ne, sound.pending k s j r stage found (same.trans named), ← sound.pending k s i q stage held named]
  rcases active with status | status <;> simp [status]

variable [World ω]

theorem Step.tripped (step : Step m m') {stage : String} (tripped : m.coord.Tripped stage) :
    m'.coord.Tripped stage := by
  obtain ⟨asks, k, q, found, failed, member⟩ := tripped
  refine ⟨?_, k, q, step.evolved.frozen found (by rw [failed]; rfl), failed, member⟩
  simpa only [stage?, step.frame.1] using asks

theorem Step.decided (step : Step m m') {stage : String} {change : Status × Remark}
    (decided : m.coord.Decided stage change) : m'.coord.Decided stage change := by
  obtain ⟨i, s, outcomes, place, named, settled, change⟩ := decided
  obtain ⟨setup, opened⟩ := step.frame
  exact ⟨i, s, outcomes, by rw [setup]; exact place, named, step.evolved.prerequisites setup opened settled,
    (opening_congr (by rw [setup]) s outcomes).trans change⟩

/-- In every step the jobs stay in accord with the decisions about their stages. -/
theorem Step.accords (step : Step m m') (runs : Runs g m) (populated : g.Populated) (sound : m.coord.Sound)
    (accords : ∀ j r, m.coord.record? j = some r → m.coord.Accords r) :
    ∀ j r, m'.coord.record? j = some r → m'.coord.Accords r := by
  intro j r' found'
  obtain ⟨r, found, _⟩ := step.evolved.source found'
  have fate := step.fate_of found found'
  have before := accords j r found
  cases fate with
  | kept =>
    cases before with
    | pending status silent => exact .pending status silent
    | skipped decided said status reason => exact .skipped (step.decided decided) said status reason
    | released decided released silent => exact .released (step.decided decided) released silent
  | @opened now i s outcomes stage closed opens settled member legal =>
    have silent : r.skipReason = none := by
      have pending := (sound.pending i s j r stage found member).2 closed
      cases before with
      | pending _ silent => exact silent
      | skipped _ _ status => cases pending.symm.trans status
      | released _ released => exact (released.1 pending).elim
    have decided := step.decided ⟨i, s, outcomes, stage, member.symm, settled, rfl⟩
    rcases m.coord.opening_cases s outcomes with change | change
    · rw [opening_ready_silent change] at decided ⊢
      exact .released decided (by simp [JobRecord.Released]) silent
    · obtain ⟨why, said⟩ := opening_skipped change
      have shape : m.coord.opening s outcomes = (.skipped, (m.coord.opening s outcomes).2) :=
        Prod.ext change rfl
      rw [shape] at decided
      exact .skipped decided said change (by simp [JobRecord.moved, said])
  | lacked ready =>
    obtain ⟨decided, silent⟩ := before.of_active (Or.inl ready)
    exact .released (step.decided decided) (by simp [JobRecord.Released]) silent
  | launched ready =>
    obtain ⟨decided, silent⟩ := before.of_active (Or.inl ready)
    exact .released (step.decided decided) (by simp [JobRecord.Released]) silent
  | @returned _ outcome _ _ _ _ fault running =>
    obtain ⟨decided, silent⟩ := before.of_active (Or.inr running)
    cases outcome with
    | succeeded =>
      cases fault <;> exact .released (step.decided decided) (by simp [JobRecord.Released, Outcome.ending]) silent
    | cancelled => exact .released (step.decided decided) (by simp [JobRecord.Released, Outcome.ending]) silent
    | failed => exact .released (step.decided decided) (by simp [JobRecord.Released, Outcome.ending]) silent
  | expired running =>
    obtain ⟨decided, silent⟩ := before.of_active (Or.inr running)
    exact .released (step.decided decided) (by simp [JobRecord.Released]) silent
  | stopped waiting held active _ _ _ same =>
    -- The failed job had been let in, so its stage is open and none of its jobs is pending.
    have ready := waiting.resolve_left (runs.awake populated sound held active found same)
    obtain ⟨decided, silent⟩ := before.of_active (Or.inl ready)
    exact .released (step.decided decided) (by simp [JobRecord.Released]) silent

/-- At every moment of a run the jobs are in accord with the decisions about their stages. -/
theorem Path.accords {roster : Roster ω} (populated : g.Populated) (distinct : g.DistinctKeys) {setup : Setup}
    (graph : setup.graph = g.graph) {w : ω} (vacant : roster.postings w = [])
    (path : Path (Operation.start setup g w).moment m) :
    ∀ j r, m.coord.record? j = some r → m.coord.Accords r := by
  have both := path.preserves
    (fun m => Orderly g roster m ∧ ∀ j r, m.coord.record? j = some r → m.coord.Accords r) ?_
    ⟨orderly_start graph roster vacant, accords_start setup g w⟩
  · exact both.2
  · rintro m m' step ⟨orderly, accords⟩
    exact ⟨orderly.step populated distinct step, step.accords orderly.runs populated orderly.sound accords⟩

end Moment
end Conveyor

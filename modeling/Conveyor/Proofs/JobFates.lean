import Conveyor.Proofs.RunSteps
import Conveyor.Proofs.WorkerReturn

/-! What a step of a run does to a single job. It is kept as it is, or something happens to it or to another
job of its stage; these are all the ways in which a record can change. -/

namespace Conveyor

/-- What is said of a job that is stopped because another one has failed. -/
def failFastAfter (failed : Job) : Remark := { message := "fail-fast after " ++ failed.id ++ " failed" }

namespace Moment

variable {ω : Type} [World ω]

/-- What may become of the record at a place in a step from one moment to another. -/
inductive Fate (m m' : Moment ω) (j : Nat) (r : JobRecord) : JobRecord → Prop
  | kept : Fate m m' j r r
  | opened {now : Double} {i : Nat} {s : Stage} {outcomes : List (String × Status × Option SkipReason)}
      (stage : m.coord.setup.graph.stages[i]? = some s) (closed : i ∉ m.coord.opened)
      (opens : m'.coord.opened = m.coord.opened ++ [i])
      (settled : m.coord.prerequisites? i = some outcomes) (member : r.job.stage = s.name)
      (legal : r.status.mayBecome (m.coord.opening s outcomes).1 = true) :
      Fate m m' j r (r.moved now (m.coord.opening s outcomes).1 (m.coord.opening s outcomes).2)
  | lacked {now : Double} {missing : MissingArtifact} (ready : r.status = .ready)
      (resolved : Inputs.resolve m.world m.coord.recordsOf r.job.consumes = .error (.missing missing)) :
      Fate m m' j r (r.moved now .failed (Coordinator.lacking missing))
  | launched {now : Double} {inputs : Inputs} (ready : r.status = .ready)
      (resolved : Inputs.resolve m.world m.coord.recordsOf r.job.consumes = .ok inputs)
      (inFlight : m'.coord.inFlight = m.coord.inFlight ++ [j])
      (requests : m'.coord.requests =
        m.coord.requests ++ [.launch j (Worker.start r.job m.coord.setup.context inputs)]) :
      Fate m m' j r ({ r with startedAt := some (.float now) }.moved now .running {})
  | returned {now : Double} {outcome : Outcome} {later : List (Nat × Completion)}
      {taken rest : List (String × Blob)} {entries : List Entry} {fault : Option StoreFault}
      (running : r.status = .running) (arrived : m.arrived = (j, .returned outcome) :: later)
      (returned : m.coord.Returned m'.coord m.world m'.world now j r outcome taken rest entries fault) :
      Fate m m' j r ({ r with steps := outcome.steps, artifacts := r.artifacts ++ taken.map Prod.fst }.moved now
        (outcome.ending fault).1 (outcome.ending fault).2)
  | expired {now : Double} {deadline : Deadline} {later : List (Nat × Deadline)} (running : r.status = .running)
      (due : m.due = (j, deadline) :: later) :
      Fate m m' j r (r.moved now .failed (Coordinator.overdue r deadline))
  | stopped {now : Double} {i : Nat} {q q' : JobRecord} (waiting : r.Waiting)
      (held : m.coord.record? i = some q) (active : q.status = .ready ∨ q.status = .running)
      (held' : m'.coord.record? i = some q') (failed : q'.status = .failed)
      (contagious : m.coord.contagious q = true) (same : r.job.stage = q.job.stage) :
      Fate m m' j r (r.moved now .cancelled (failFastAfter q.job))

open Coordinator in
private theorem fate_elsewhere (m m' : Moment ω) {now : Double} {i j : Nat} {q r : JobRecord} {next : Status}
    {remark : Remark} {change : Nat → JobRecord → JobRecord} (rewritten : m.coord.Rewritten m'.coord change)
    (here : (change i q).status = next)
    (there : change j r = m.coord.aftermath now i q next remark j r) (apart : j ≠ i)
    (held : m.coord.record? i = some q) (active : q.status = .ready ∨ q.status = .running) :
    Fate m m' j r (change j r) := by
  rw [there, aftermath, if_neg apart]
  split
  next reached =>
    obtain ⟨failure, contagious, same⟩ := reached
    by_cases waiting : r.Waiting
    · rw [JobRecord.stopped_of_waiting waiting]
      have held' : m'.coord.record? i = some (change i q) := by simp [rewritten i, held]
      exact .stopped waiting held active held' (here.trans failure) contagious same
    · rw [JobRecord.stopped_of_begun waiting]
      exact .kept
  next => exact .kept

open Coordinator in
theorem Step.rewritten {m m' : Moment ω} (step : Step m m') :
    ∃ change, m.coord.Rewritten m'.coord change := by
  cases step with
  | opens _ _ _ _ opened => exact ⟨_, (openStage_ok opened).records⟩
  | @takes c c' _ _ _ _ _ _ _ taken =>
    cases takeUp_ok taken with
    | passed => exact ⟨_, .refl c⟩
    | lacked held _ _ failed => exact ⟨_, (transition_ok failed held).2.2.1⟩
    | launched _ _ _ started => exact ⟨_, started.records⟩
  | @delivers c _ => exact ⟨_, .refl c⟩
  | @awaits c _ _ _ _ => exact ⟨_, .refl c⟩
  | @collects c _ _ _ _ _ _ collected =>
    cases collect_ok collected with
    | dropped => exact ⟨_, .refl c⟩
    | taken _ _ returned => exact ⟨_, returned.records⟩
  | looks => exact ⟨_, .refl _⟩
  | @expires c _ _ _ _ _ expired =>
    cases expire_ok expired with
    | early => exact ⟨_, .refl _⟩
    | ended => exact ⟨_, .refl c⟩
    | stopped _ _ late => exact ⟨_, late.records⟩

open Coordinator in
theorem Step.fate {m m' : Moment ω} (step : Step m m') {j : Nat} {r : JobRecord}
    (found : m.coord.record? j = some r) : ∃ r', m'.coord.record? j = some r' ∧ Fate m m' j r r' := by
  cases step with
  | opens listed closed stage settled opened =>
    have opened := openStage_ok opened
    refine ⟨_, opened.records.found found, ?_⟩
    split
    next member => exact .opened stage closed opened.opened settled member (opened.legal j r found member)
    next => exact .kept
  | @takes c c' w now i count queue head free taken =>
    cases takeUp_ok taken with
    | passed => exact ⟨r, found, .kept⟩
    | @lacked q missing _ held ready resolved failed =>
      obtain ⟨_, _, records, _⟩ := transition_ok failed held
      refine ⟨_, records.found found, ?_⟩
      by_cases here : j = i
      · subst here
        cases held.symm.trans found
        simp only [aftermath, if_true]
        exact .lacked ready resolved
      · have elsewhere : Rewritten c c' (c.aftermath now i q .failed (lacking missing)) := records
        exact fate_elsewhere ⟨c, w, [], []⟩ ⟨c', w, [], []⟩ elsewhere (by simp [aftermath]) rfl here held (Or.inl ready)
    | launched held ready resolved started =>
      refine ⟨_, started.records.found found, ?_⟩
      split
      next here =>
        subst here
        cases held.symm.trans found
        exact .launched ready resolved started.inFlight started.requests
      next => exact .kept
  | delivers => exact ⟨r, found, .kept⟩
  | awaits => exact ⟨r, found, .kept⟩
  | @collects c c' w w' _ _ rest collected =>
    cases collect_ok collected with
    | dropped => exact ⟨r, found, .kept⟩
    | @taken i _ q _ _ _ _ _ _ held running returned =>
      refine ⟨_, returned.records.found found, ?_⟩
      by_cases here : j = i
      · subst here
        cases held.symm.trans found
        simp only [aftermath, if_true]
        exact .returned running rfl returned
      · exact fate_elsewhere ⟨c, w, _ :: rest, []⟩ ⟨c', w', rest, []⟩ returned.records (by simp [aftermath])
          (congrArg (c.aftermath _ i q _ _ j) (if_neg here)) here held (Or.inr running)
  | looks => exact ⟨r, found, .kept⟩
  | @expires c c' w _ _ rest expired =>
    cases expire_ok expired with
    | early => exact ⟨r, found, .kept⟩
    | ended => exact ⟨r, found, .kept⟩
    | @stopped i _ q _ held running late =>
      refine ⟨_, late.records.found found, ?_⟩
      by_cases here : j = i
      · subst here
        cases held.symm.trans found
        simp only [aftermath, if_true]
        exact .expired running rfl
      · exact fate_elsewhere ⟨c, w, [], _ :: rest⟩ ⟨c', w, [], rest⟩ late.records (by simp [aftermath]) rfl here held
          (Or.inr running)

theorem Step.fate_of {m m' : Moment ω} (step : Step m m') {j : Nat} {r r' : JobRecord}
    (found : m.coord.record? j = some r) (found' : m'.coord.record? j = some r') : Fate m m' j r r' := by
  obtain ⟨_, again, fate⟩ := step.fate found
  cases found'.symm.trans again
  exact fate

end Moment
end Conveyor

import Conveyor.Proofs.JobAccounts

/-! The accounts hold throughout a run. Every worker works for a running job with the inputs that the job has, and
is asked to stop only after a failure in its stage, so what it returns fits the account of its job. -/

namespace Conveyor
namespace Moment

open Coordinator

variable {ω : Type} [World ω] {m m' : Moment ω} {g : RunGraph} {roster : Roster ω} {conduct : Conduct}

/-- The worker is the one that the running job at a place has been given. -/
def Assigned (m : Moment ω) (slot : Nat) (worker : Worker) : Prop :=
  ∃ r inputs, m.coord.record? slot = some r ∧ r.status = .running ∧ m.inputs r.job = .ok inputs ∧
    worker = Worker.start r.job m.coord.setup.context inputs

/-- The job at a place may be stopped, since one of its stage has failed. -/
def Excused (m : Moment ω) (slot : Nat) : Prop :=
  ∃ r, m.coord.record? slot = some r ∧ m.coord.Tripped r.job.stage

/-- Workers work for running jobs with the inputs that these have, and are stopped only after a failure. -/
def settledTerms : Terms ω := ⟨Assigned, Excused⟩

/-- All that is known of a moment of a run in a world of settled conduct. -/
structure Accounted (conduct : Conduct) (g : RunGraph) (roster : Roster ω) (m : Moment ω) : Prop where
  orderly : Orderly g roster m
  barred : m.coord.Barred
  unlimited : m.coord.setup.timeout = none
  untimed : m.coord.deadlines = []
  due : m.due = []
  accounts : ∀ j r, m.coord.record? j = some r → Account conduct m j r
  lined : Lined m
  crewed : Crewed settledTerms conduct.Allows Untouched roster m

variable {j slot : Nat} {r : JobRecord}

theorem Accounted.decided (accounted : Accounted conduct g roster m) (found : m.coord.record? j = some r)
    (released : r.Released) :
    m.coord.Decided r.job.stage (.ready, {}) := by
  cases accounted.accounts j r found with
  | pending status => exact (released.1 status).elim
  | skipped _ verdict => exact (released.2 (congrArg Verdict.status verdict)).elim
  | released decided => exact decided

theorem Step.running_kept (step : Step m m') (due : m.due = []) (found : m.coord.record? j = some r)
    (running : r.status = .running) (aloft : ∀ outcome rest, m.arrived ≠ (j, .returned outcome) :: rest) :
    m'.coord.record? j = some r := by
  obtain ⟨r', found', fate⟩ := step.fate found
  cases fate with
  | kept => exact found'
  | @opened _ _ s outcomes _ _ _ _ _ legal =>
    rcases m.coord.opening_cases s outcomes with change | change <;>
      simp [running, change, Status.mayBecome, Status.successors] at legal
  | lacked ready => simp [running] at ready
  | launched ready => simp [running] at ready
  | returned _ arrived => exact (aloft _ _ arrived).elim
  | expired _ late => simp [due] at late
  | stopped waiting => rcases waiting with status | status <;> simp [running] at status

theorem Assigned.step (keeps : World.Keeps ω) (regular : g.Regular) (accounted : Accounted conduct g roster m)
    (step : Step m m') {worker : Worker} (assigned : m.Assigned slot worker)
    (aloft : ∀ outcome rest, m.arrived ≠ (slot, .returned outcome) :: rest) : m'.Assigned slot worker := by
  obtain ⟨r, inputs, found, running, resolved, rfl⟩ := assigned
  refine ⟨r, inputs, step.running_kept accounted.due found running aloft, running, ?_, by rw [step.frame.1]⟩
  rw [step.inputs keeps accounted.orderly.runs regular accounted.barred found
    (accounted.decided found (by simp [JobRecord.Released, running])), resolved]

theorem Excused.step (step : Step m m') (excused : m.Excused slot) : m'.Excused slot := by
  obtain ⟨r, found, tripped⟩ := excused
  obtain ⟨r', found', evolves⟩ := step.evolved.record found
  exact ⟨r', found', by rw [evolves.job]; exact step.tripped tripped⟩

theorem Step.untimed (regular : g.Regular) (accounted : Accounted conduct g roster m) (step : Step m m') :
    m'.coord.deadlines = [] ∧ m'.due = [] := by
  have runs := accounted.orderly.runs
  have unlimited := accounted.unlimited
  have untimed := accounted.untimed
  have due := accounted.due
  clear accounted
  cases step with
  | opens _ _ _ _ opened => exact ⟨(openStage_ok opened).deadlines.trans untimed, rfl⟩
  | takes _ _ taken =>
    refine ⟨?_, rfl⟩
    cases takeUp_ok taken with
    | passed => exact untimed
    | lacked held _ _ failed => exact (transition_ok failed held).2.1.deadlines.trans untimed
    | launched held _ _ started =>
      have limit := regular.untimed _ (runs.job held)
      simp only at unlimited untimed
      simp [started.deadlines, effectiveTimeout, limit, unlimited, untimed]
  | delivers => exact ⟨untimed, rfl⟩
  | awaits => exact ⟨untimed, rfl⟩
  | collects collected =>
    refine ⟨?_, rfl⟩
    simp only at untimed
    cases collect_ok collected with
    | dropped => simp [landed, untimed, Table.erase]
    | taken _ _ returned => simp [returned.deadlines, untimed, Table.erase]
  | looks =>
    simp only at untimed
    exact ⟨untimed, by simp [byRank, untimed]⟩
  | expires => cases due

theorem Step.aloft (step : Step m m') (flying : slot ∈ m'.coord.inFlight) (outcome : Outcome)
    (rest : List (Nat × Completion)) : m.arrived ≠ (slot, .returned outcome) :: rest := by
  intro arrived
  cases step with
  | opens | takes | delivers | awaits | looks | expires => cases arrived
  | collects collected =>
    cases arrived
    cases collect_ok collected with
    | dropped => simp [landed] at flying
    | taken _ _ returned => simp [returned.inFlight] at flying

section

variable (keeps : World.Keeps ω) (regular : g.Regular) (accounted : Accounted conduct g roster m) (step : Step m m')

include keeps regular accounted step

theorem Account.kept (found : m.coord.record? j = some r) (found' : m'.coord.record? j = some r) :
    Account conduct m' j r := by
  have runs := accounted.orderly.runs
  have holds {stock : List (String × Blob)} (held : m.Holds j r.job.producer stock) :
      m'.Holds j r.job.producer stock := step.holds keeps runs regular found found' (fun running => running) held
  cases accounted.accounts j r found with
  | pending status blank empty => exact .pending status blank (holds empty)
  | skipped decided verdict empty => exact .skipped (step.decided decided) verdict (holds empty)
  | released decided course =>
    have inputs := step.inputs keeps runs regular accounted.barred found decided
    refine .released (step.decided decided) ?_
    cases course with
    | ready status blank empty => exact .ready status blank (holds empty)
    | running status blank resolved empty => exact .running status blank (inputs.trans resolved) (holds empty)
    | stopped status tripped empty =>
      exact .stopped status (step.tripped tripped) (holds empty)
    | settled yields stock => exact .settled (by rw [inputs, step.frame.1]; exact yields) (holds stock)

theorem Account.returned {now : Double} {j : Nat} {r : JobRecord} {outcome : Outcome} {later : List (Nat × Completion)}
    {taken rest : List (String × Blob)} {entries : List Entry} {fault : Option StoreFault}
    (found : m.coord.record? j = some r) (running : r.status = .running)
    (arrived : m.arrived = (j, .returned outcome) :: later)
    (returned : m.coord.Returned m'.coord m.world m'.world now j r outcome taken rest entries fault) :
    Account conduct m' j ({ r with steps := outcome.steps, artifacts := r.artifacts ++ taken.map Prod.fst }.moved now
      (outcome.ending fault).1 (outcome.ending fault).2) := by
  have runs := accounted.orderly.runs
  obtain ⟨decided, blank, empty⟩ := (accounted.accounts j r found).of_active (Or.inr running)
  have split := keeps.returned_stock returned fun name => by rw [empty.contents]; rfl
  have stock : m'.Holds j r.job.producer (outcome.stock r.job.producer) := by
    rw [Outcome.stock, split]
    exact empty.returned keeps runs regular.keys found returned
  have inputs := step.inputs keeps runs regular accounted.barred found decided
  have verdict : ({ r with steps := outcome.steps, artifacts := r.artifacts ++ taken.map Prod.fst }.moved now
      (outcome.ending fault).1 (outcome.ending fault).2).verdict = outcome.verdict r.job.producer := by
    rw [blank.returned, Outcome.verdict, Outcome.stock, split]
  refine .released (step.decided decided) ?_
  obtain ⟨worker, asked, ⟨q, given, held, _, resolved, rfl⟩, excused, ends⟩ :=
    accounted.crewed.arrived j outcome (by rw [arrived]; simp)
  cases found.symm.trans held
  rcases ends.unless_cancelled with ends | ⟨called, message, steps, rfl⟩
  · refine .settled ?_ stock
    rw [verdict, JobRecord.moved_job, inputs, step.frame.1, resolved]
    exact .working ends
  · obtain ⟨q, held, tripped⟩ := excused called
    cases found.symm.trans held
    exact .stopped rfl (step.tripped tripped) stock

theorem Step.account {r' : JobRecord} (found' : m'.coord.record? j = some r') : Account conduct m' j r' := by
  obtain ⟨r, found, _⟩ := step.evolved.source found'
  have fate := step.fate_of found found'
  have runs := accounted.orderly.runs
  have idle (unstarted : r.status ≠ .running) (empty : m.Holds j r.job.producer []) : m'.Holds j r.job.producer [] :=
    step.holds keeps runs regular found found' (fun running => (unstarted running).elim) empty
  cases fate with
  | kept => exact .kept keeps regular accounted step found found'
  | @opened now i s outcomes stage closed opens settled member legal =>
    have pending := (accounted.orderly.sound.pending i s j r stage found member).2 closed
    obtain ⟨blank, empty, _⟩ := (accounted.accounts j r found).unended (by rw [pending]; rfl)
    have decided : m'.coord.Decided r.job.stage (m.coord.opening s outcomes) :=
      step.decided ⟨i, s, outcomes, stage, member.symm, settled, rfl⟩
    have still := idle (by simp [pending]) empty
    rcases m.coord.opening_cases s outcomes with change | change
    · rw [opening_ready_silent change] at decided ⊢
      exact .released decided (.ready rfl (blank.moved now .ready {}) still)
    · refine @Account.skipped _ _ _ _ _ _ (m.coord.opening s outcomes).2 ?_ ?_ still
      · rw [← change]
        exact decided
      · rw [blank.moved, change]
  | @lacked now missing ready resolved =>
    obtain ⟨decided, blank, empty⟩ := (accounted.accounts j r found).of_active (Or.inl ready)
    have inputs := step.inputs keeps runs regular accounted.barred found decided
    refine .released (step.decided decided) (.settled ?_ (idle (by simp [ready]) empty))
    rw [blank.moved, JobRecord.moved_job, inputs, show m.inputs r.job = .error (.missing missing) from resolved]
    exact .lacking missing
  | @launched now inputs ready resolved =>
    obtain ⟨decided, blank, empty⟩ := (accounted.accounts j r found).of_active (Or.inl ready)
    have same := step.inputs keeps runs regular accounted.barred found decided
    have stamped : JobRecord.Blank { r with startedAt := some (.float now) } := blank
    exact .released (step.decided decided)
      (.running rfl (stamped.moved now .running {}) (same.trans resolved) (idle (by simp [ready]) empty))
  | returned running arrived returned => exact .returned keeps regular accounted step found running arrived returned
  | expired _ due => simp [accounted.due] at due
  | @stopped now i q q' waiting held active held' failed contagious same =>
    -- The stage of the failed job has been opened, so its jobs are no longer pending.
    have ready := waiting.resolve_left (runs.awake regular.populated accounted.orderly.sound held active found same)
    obtain ⟨decided, _, empty⟩ := (accounted.accounts j r found).of_active (Or.inl ready)
    refine .released (step.decided decided)
      (.stopped rfl ⟨?_, i, q', held', failed, ?_⟩ (idle (by simp [ready]) empty))
    · simpa only [Coordinator.contagious, stage?, JobRecord.moved_job, same, step.frame.1] using contagious
    · obtain ⟨_, origin, evolves⟩ := step.evolved.source held'
      cases held.symm.trans origin
      rw [evolves.job]
      exact same.symm

theorem Step.settled_crew (performs : roster.Performs conduct.Allows Untouched) :
    Crewed settledTerms conduct.Allows Untouched roster m' := by
  have runs := accounted.orderly.runs
  apply step.crewed performs accounted.orderly _ _ _ _ accounted.crewed
  · intro slot worker flying assigned
    exact assigned.step keeps regular accounted step (step.aloft flying)
  · intro slot excused
    exact excused.step step
  · intro slot worker asked
    refine (step.launching asked).imp_right ?_
    rintro ⟨r, r', inputs, held, ready, resolved, rfl, held', running⟩
    obtain ⟨decided, _⟩ := (accounted.accounts slot r held).of_active (Or.inl ready)
    have evolves := step.evolved.evolves held held'
    refine ⟨r', inputs, held', running, ?_, by rw [evolves.job, step.frame.1]⟩
    rw [evolves.job, step.inputs keeps runs regular accounted.barred held decided, resolved]
  · intro slot asked
    refine (step.stopping (runs.apart regular.keys) asked).imp_right ?_
    rintro (tripped | ⟨_, _, _, due, _⟩)
    · exact tripped
    · simp [accounted.due] at due

end

theorem accounted_start {setup : Setup} (graph : setup.graph = g.graph) (unlimited : setup.timeout = none) {w : ω}
    (vacant : roster.postings w = [])
    (empty : ∀ job ∈ g.allJobs, ∀ name, ArtifactStore.get? w ⟨job.producer, name⟩ = none) :
    Accounted conduct g roster (Operation.start setup g w).moment := by
  refine ⟨orderly_start graph roster vacant, barred_start setup g w, unlimited, rfl, rfl, ?_, ?_, ?_⟩
  · intro j r found
    obtain ⟨job, member, rfl⟩ := Operation.start_record found
    exact .pending rfl rfl ⟨empty job member, rfl⟩
  · intro entry member
    cases member
  · exact crewed_start settledTerms setup g vacant

theorem Step.accounted (keeps : World.Keeps ω) (performs : roster.Performs conduct.Allows Untouched) (regular : g.Regular)
    (step : Step m m') (accounted : Accounted conduct g roster m) : Accounted conduct g roster m' where
  orderly := accounted.orderly.step regular.populated regular.keys step
  barred := step.barred (accounted.orderly.runs.graph ▸ regular.populated.ordered) accounted.barred
  unlimited := by rw [step.frame.1]; exact accounted.unlimited
  untimed := (step.untimed regular accounted).1
  due := (step.untimed regular accounted).2
  accounts := fun _ _ found => step.account keeps regular accounted found
  lined := step.lined keeps accounted.orderly.runs regular.keys accounted.lined
  crewed := step.settled_crew keeps regular accounted performs

/-- In a world of settled conduct all jobs are accounted for at every moment of a run. -/
theorem Path.accounted (keeps : World.Keeps ω) (performs : roster.Performs conduct.Allows Untouched) (regular : g.Regular)
    (path : Path m m') (accounted : Accounted conduct g roster m) : Accounted conduct g roster m' :=
  path.preserves (Accounted conduct g roster) (fun _ _ step => step.accounted keeps performs regular) accounted

end Moment
end Conveyor

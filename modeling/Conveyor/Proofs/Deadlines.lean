import Conveyor.Proofs.FailFast

/-! The deadlines of a run. A step sets one when a job with a limit on its time starts, and strikes it out when the job
has ended; so at every moment they are those of the running jobs that have a limit. -/

namespace Conveyor

theorem Table.nodup_keys_erase {κ α : Type} [Key κ] {table : Table κ α} (key : κ) (distinct : table.keys.Nodup) :
    (table.erase key).keys.Nodup :=
  distinct.sublist (List.Sublist.map Prod.fst List.filter_sublist)

namespace Coordinator

/-- The deadline of a job: it runs, it has a limit, and it has started at some time. -/
structure Due (c : Coordinator) (r : JobRecord) (deadline : Deadline) : Prop where
  running : r.status = .running
  limited : c.effectiveTimeout r.job = some deadline.limit
  start : ∃ started, r.startedAt = some (.float started) ∧ deadline.time = started.add deadline.limit.toDouble

theorem aftermath_running {c : Coordinator} {now : Double} {i j : Nat} {r q : JobRecord} {next : Status} {remark : Remark}
    (elsewhere : j ≠ i) : (c.aftermath now i r next remark j q).status = .running ↔ q.status = .running := by
  rw [aftermath, if_neg elsewhere]
  split
  · by_cases waiting : q.Waiting
    · rw [JobRecord.stopped_of_waiting waiting]
      refine iff_of_false Status.noConfusion fun running => ?_
      simp [JobRecord.Waiting, running] at waiting
    · rw [JobRecord.stopped_of_begun waiting]
  · rfl

end Coordinator

namespace Moment

open Coordinator

variable {ω : Type} [World ω] {m m' : Moment ω}

/-- What a step does to the deadlines: nothing while the same jobs run, one is struck out when its job has ended, and a
job that starts gets one if it has a limit. -/
inductive Timekeeping (m m' : Moment ω) : Prop
  | still (deadlines : m'.coord.deadlines = m.coord.deadlines)
      (running : ∀ j r r', m.coord.record? j = some r → m'.coord.record? j = some r' →
        (r'.status = .running ↔ r.status = .running))
  | struck {i : Nat} (deadlines : m'.coord.deadlines = m.coord.deadlines.erase i)
      (ended : ∀ r', m'.coord.record? i = some r' → r'.status ≠ .running)
      (others : ∀ j r r', j ≠ i → m.coord.record? j = some r → m'.coord.record? j = some r' →
        (r'.status = .running ↔ r.status = .running))
  | set {i : Nat} {now : Double} {r r' : JobRecord} (found : m.coord.record? i = some r)
      (ready : r.status = .ready) (found' : m'.coord.record? i = some r') (running : r'.status = .running)
      (started : r'.startedAt = some (.float now))
      (deadlines : m'.coord.deadlines = (m.coord.effectiveTimeout r.job).elim m.coord.deadlines
        fun limit => m.coord.deadlines.insert i ⟨now.add limit.toDouble, limit⟩)
      (others : ∀ j, j ≠ i → m'.coord.record? j = m.coord.record? j)

omit [World ω] in
private theorem still_of_records (deadlines : m'.coord.deadlines = m.coord.deadlines)
    (records : m'.coord.records = m.coord.records) : Timekeeping m m' := by
  refine .still deadlines fun j r r' found found' => ?_
  rw [record?, records] at found'
  cases found.symm.trans found'
  rfl

omit [World ω] in
private theorem struck_of_records {i : Nat} (deadlines : m'.coord.deadlines = m.coord.deadlines.erase i)
    (records : m'.coord.records = m.coord.records)
    (idle : ∀ r, m.coord.record? i = some r → r.status ≠ .running) : Timekeeping m m' := by
  refine .struck deadlines (fun r' found' => ?_) fun j r r' _ found found' => ?_
  · rw [record?, records] at found'
    exact idle r' found'
  · rw [record?, records] at found'
    cases found.symm.trans found'
    rfl

theorem Step.timekeeping (step : Step m m') : Timekeeping m m' := by
  cases step with
  | opens _ _ _ _ opened =>
    have opened := openStage_ok opened
    refine .still opened.deadlines fun j r r' found found' => ?_
    cases found'.symm.trans (opened.records.found found)
    split
    next member =>
      have legal := opened.legal j r found member
      rcases opening_cases _ _ _ with change | change
      all_goals
        rw [change] at legal
        rw [JobRecord.moved_status, change]
        refine iff_of_false Status.noConfusion fun running => ?_
        rw [running] at legal
        cases legal
    next => rfl
  | @takes c c' w now i _ queue _ _ taken =>
    cases takeUp_ok taken with
    | passed => exact still_of_records rfl rfl
    | lacked held ready _ failed =>
      obtain ⟨_, quiet, records, _⟩ := transition_ok failed held
      refine .still quiet.deadlines fun j r r' found found' => ?_
      cases found'.symm.trans (records.found found)
      by_cases here : j = i
      · subst here
        cases held.symm.trans found
        simp [aftermath, ready]
      · exact aftermath_running here
    | @launched r _ _ held ready _ started =>
      have deadlines : c'.deadlines = (c.effectiveTimeout r.job).elim c.deadlines
          fun limit => c.deadlines.insert i ⟨now.add limit.toDouble, limit⟩ := by
        rw [started.deadlines]
        change _ = ((Coordinator.effectiveTimeout { c with ready := queue } r.job).elim _ _)
        split
        next limited => rw [limited]; rfl
        next limited => rw [limited]; rfl
      refine .set held ready (started.records.found held) (by simp) (by simp [JobRecord.moved]) deadlines ?_
      intro j other
      have same := started.records j
      simpa [other, record?] using same
  | delivers => exact still_of_records rfl rfl
  | awaits => exact still_of_records rfl rfl
  | collects collected =>
    cases collect_ok collected with
    | dropped idle => exact struck_of_records rfl rfl idle
    | @taken i outcome _ _ _ _ _ _ fault held _ returned =>
      refine .struck returned.deadlines (fun r' found' running => ?_) fun j r r' other found found' => ?_
      · cases found'.symm.trans (returned.records.found held)
        have terminal := outcome.ending_terminal fault
        simp only [aftermath, if_true, JobRecord.moved_status] at running
        rw [running] at terminal
        cases terminal
      · cases found'.symm.trans (returned.records.found found)
        rw [if_neg other]
        exact aftermath_running other
  | looks => exact still_of_records rfl rfl
  | expires expired =>
    cases expire_ok expired with
    | early => exact still_of_records rfl rfl
    | ended idle => exact struck_of_records rfl rfl idle
    | stopped held _ late =>
      refine .struck late.deadlines (fun r' found' running => ?_) fun j r r' other found found' => ?_
      · cases found'.symm.trans (late.records.found held)
        simp [aftermath] at running
      · cases found'.symm.trans (late.records.found found)
        exact aftermath_running other

/-- The deadlines are those of the running jobs that have a limit, and every running job has a time of start. -/
structure Clocked (m : Moment ω) : Prop where
  exact : ∀ j deadline, m.coord.deadlines.get? j = some deadline ↔
    ∃ r, m.coord.record? j = some r ∧ m.coord.Due r deadline
  distinct : m.coord.deadlines.keys.Nodup
  started : ∀ j r, m.coord.record? j = some r → r.status = .running → ∃ time, r.startedAt = some (.float time)

omit [World ω] in
theorem clocked_start (setup : Setup) (g : RunGraph) (w : ω) : Clocked (Operation.start setup g w).moment := by
  have idle {j : Nat} {r : JobRecord} (found : (Operation.start setup g w).moment.coord.record? j = some r) :
      r.status ≠ .running := by
    simp [Operation.start_pending found]
  constructor
  case exact =>
    refine fun j deadline => iff_of_false (fun impossible => by cases impossible) ?_
    rintro ⟨r, found, due⟩
    exact idle found due.running
  case distinct => exact .nil
  case started => exact fun j r found running => (idle found running).elim

theorem Step.timeout (step : Step m m') {j : Nat} {r r' : JobRecord} (found : m.coord.record? j = some r)
    (found' : m'.coord.record? j = some r') :
    m'.coord.effectiveTimeout r'.job = m.coord.effectiveTimeout r.job := by
  rw [effectiveTimeout, effectiveTimeout, step.frame.1, (step.evolved.evolves found found').job]

theorem Step.due_iff (step : Step m m') {j : Nat} {r r' : JobRecord} (found : m.coord.record? j = some r)
    (found' : m'.coord.record? j = some r') (same : r'.status = .running ↔ r.status = .running)
    (deadline : Deadline) : m'.coord.Due r' deadline ↔ m.coord.Due r deadline := by
  have limit := step.timeout found found'
  by_cases running : r.status = .running
  · have start := ((step.evolved.evolves found found').begun (by simp [JobRecord.Waiting, running])).1
    constructor
    · rintro ⟨_, limited, begun⟩
      exact ⟨running, limit ▸ limited, start ▸ begun⟩
    · rintro ⟨_, limited, begun⟩
      exact ⟨same.2 running, limit.trans limited, start.symm ▸ begun⟩
  · exact iff_of_false (fun due => running (same.1 due.running)) fun due => running due.running

omit [World ω] in
theorem Clocked.get?_iff (clocked : Clocked m) {j : Nat} {r : JobRecord} (found : m.coord.record? j = some r)
    (deadline : Deadline) :
    m.coord.deadlines.get? j = some deadline ↔ m.coord.Due r deadline := by
  rw [clocked.exact]
  constructor
  · rintro ⟨_, again, due⟩
    cases again.symm.trans found
    exact due
  · exact fun due => ⟨r, found, due⟩

omit [World ω] in
theorem Clocked.absent (clocked : Clocked m) {j : Nat}
    (idle : ∀ r, m.coord.record? j = some r → r.status ≠ .running) : m.coord.deadlines.get? j = none := by
  by_contra present
  obtain ⟨deadline, found⟩ := Option.ne_none_iff_exists'.1 present
  obtain ⟨r, held, due⟩ := (clocked.exact j deadline).1 found
  exact idle r held due.running

private theorem due_of_set {i : Nat} {now : Double} {r r' : JobRecord} (step : Step m m')
    (found : m.coord.record? i = some r) (found' : m'.coord.record? i = some r')
    (running : r'.status = .running) (started : r'.startedAt = some (.float now))
    (absent : m.coord.deadlines.get? i = none) (deadline : Deadline) :
    ((m.coord.effectiveTimeout r.job).elim m.coord.deadlines fun limit =>
        m.coord.deadlines.insert i ⟨now.add limit.toDouble, limit⟩).get? i = some deadline ↔
      m'.coord.Due r' deadline := by
  have limit := step.timeout found found'
  cases limited : m.coord.effectiveTimeout r.job with
  | none =>
    rw [Option.elim_none, absent]
    refine iff_of_false (fun impossible => by cases impossible) fun due => ?_
    cases due.limited.symm.trans (limit.trans limited)
  | some value =>
    simp only [Option.elim_some, Table.get?_insert, Key.same, decide_true, if_true, Option.some.injEq]
    constructor
    · rintro rfl
      exact ⟨running, limit.trans limited, now, started, rfl⟩
    · rintro ⟨_, own, time, begun, sum⟩
      obtain ⟨at', limit'⟩ := deadline
      cases own.symm.trans (limit.trans limited)
      cases begun.symm.trans started
      simp only at sum
      rw [sum]

private theorem Step.deadline_absent (step : Step m m') (clocked : Clocked m) {j : Nat}
    (nobody : m.coord.record? j = none) : m'.coord.deadlines.get? j = none := by
  have absent : m.coord.deadlines.get? j = none := clocked.absent (by simp [nobody])
  cases step.timekeeping with
  | still deadlines => rw [deadlines, absent]
  | struck deadlines =>
    rw [deadlines, Table.get?_erase, absent]
    split <;> rfl
  | @set i _ r _ found _ _ _ _ deadlines =>
    have other : i ≠ j := by
      rintro rfl
      cases nobody.symm.trans found
    rw [deadlines]
    cases m.coord.effectiveTimeout r.job <;> simp [Table.get?_insert, Key.same, other, absent]

private theorem Step.deadline_iff (step : Step m m') (clocked : Clocked m) {j : Nat} {r r' : JobRecord}
    (held : m.coord.record? j = some r) (found' : m'.coord.record? j = some r') (deadline : Deadline) :
    m'.coord.deadlines.get? j = some deadline ↔ m'.coord.Due r' deadline := by
  cases step.timekeeping with
  | still deadlines running =>
    rw [deadlines, clocked.get?_iff held, step.due_iff held found' (running j r r' held found')]
  | @struck i deadlines ended others =>
    rw [deadlines, Table.get?_erase]
    by_cases here : i = j
    · subst here
      simp only [Key.same, decide_true, if_true]
      exact iff_of_false (fun impossible => by cases impossible) fun due => ended r' found' due.running
    · simp only [Key.same, here, decide_false, Bool.false_eq_true, if_false]
      rw [clocked.get?_iff held, step.due_iff held found' (others j r r' (Ne.symm here) held found')]
  | @set i now q q' found ready again running started deadlines others =>
    rw [deadlines]
    by_cases here : i = j
    · subst here
      cases found.symm.trans held
      cases again.symm.trans found'
      have absent : m.coord.deadlines.get? i = none := by
        apply clocked.absent
        intro p place
        cases place.symm.trans held
        simp [ready]
      exact due_of_set step held found' running started absent deadline
    · have same : r' = r := by
        rw [others j (Ne.symm here), held] at found'
        cases found'
        rfl
      subst same
      rw [step.due_iff held found' Iff.rfl, ← clocked.get?_iff held]
      cases m.coord.effectiveTimeout q.job <;> simp [Table.get?_insert, Key.same, here]

theorem Step.clocked (step : Step m m') (clocked : Clocked m) : Clocked m' := by
  have timekeeping := step.timekeeping
  constructor
  case exact =>
    intro j deadline
    cases held : m.coord.record? j with
    | none =>
      rw [step.deadline_absent clocked held]
      refine iff_of_false (fun impossible => by cases impossible) ?_
      rintro ⟨r', found', _⟩
      obtain ⟨r, found, _⟩ := step.evolved.source found'
      cases held.symm.trans found
    | some r =>
      obtain ⟨r', found', _⟩ := step.evolved.record held
      rw [step.deadline_iff clocked held found' deadline]
      simp [found']
  case distinct =>
    cases timekeeping with
    | still deadlines =>
      rw [deadlines]
      exact clocked.distinct
    | struck deadlines =>
      rw [deadlines]
      exact Table.nodup_keys_erase _ clocked.distinct
    | @set i _ r _ _ _ _ _ _ deadlines =>
      rw [deadlines]
      cases m.coord.effectiveTimeout r.job with
      | none => exact clocked.distinct
      | some => exact Table.nodup_keys_insert (Key.exact i) clocked.distinct
  case started =>
    intro j r' found' running'
    obtain ⟨r, found, evolves⟩ := step.evolved.source found'
    have kept (running : r.status = .running) : ∃ time, r'.startedAt = some (.float time) := by
      rw [(evolves.begun (by simp [JobRecord.Waiting, running])).1]
      exact clocked.started j r found running
    cases timekeeping with
    | still _ running => exact kept ((running j r r' found found').1 running')
    | @struck i _ ended others =>
      refine kept ((others j r r' ?_ found found').1 running')
      rintro rfl
      exact ended r' found' running'
    | @set i now _ _ _ _ again _ started _ others =>
      by_cases here : j = i
      · subst here
        cases again.symm.trans found'
        exact ⟨now, started⟩
      · rw [others j here, found] at found'
        cases found'
        exact clocked.started j _ found running'

end Moment
end Conveyor

import Conveyor.Proofs.FailFast

/-! The queue and the jobs in flight. A step lets jobs leave the head of the queue and enter at its end, and it lets
workers land and at most one start. So at every moment of a run whose jobs have different keys the ready jobs are in
the queue, the running ones are in flight, and both only once; and a job is given to a worker only once. -/

namespace Conveyor

theorem Status.walk_ready {walk : List Status} (begins : walk.head? = some .pending)
    (walks : walk.IsChain fun s next => s.mayBecome next = true) (ends : walk.getLast? = some .ready) :
    walk = [.pending, .ready] := by
  obtain ⟨early, rfl⟩ := List.getLast?_eq_some_iff.1 ends
  obtain ⟨walks, _, last⟩ := List.isChain_append.1 walks
  rcases List.eq_nil_or_concat early with rfl | ⟨first, before, rfl⟩
  · cases begins
  · rw [List.concat_eq_append] at walks last ⊢
    have pending : before = .pending := by
      have legal := last before (by simp) .ready (by simp)
      cases before <;> simp_all [Status.mayBecome, Status.successors]
    subst pending
    -- Nothing comes before the pending state.
    obtain ⟨_, _, earlier⟩ := List.isChain_append.1 walks
    rcases List.eq_nil_or_concat first with rfl | ⟨_, other, rfl⟩
    · rfl
    · have legal := earlier other (by simp) .pending (by simp)
      cases other <;> simp [Status.mayBecome, Status.successors] at legal

theorem JobRecord.Lived.of_ready {r : JobRecord} (lived : r.Lived) (ready : r.status = .ready) :
    r.history = [.pending, .ready] :=
  Status.walk_ready lived.begins lived.walks (ready ▸ lived.ends)

namespace Coordinator

/-- The job was cancelled while it stood in the queue, because another job of its stage had failed. -/
structure Swept (c : Coordinator) (r : JobRecord) : Prop where
  status : r.status = .cancelled
  history : r.history = [.pending, .ready, .cancelled]
  reason : ∃ i q, c.record? i = some q ∧ q.status = .failed ∧ q.job.stage = r.job.stage ∧ c.contagious q = true ∧
    r.message = (failFastAfter q.job).message

theorem Evolved.swept {c c' : Coordinator} (evolved : Evolved c c') (setup : c'.setup = c.setup) {r : JobRecord}
    (swept : c.Swept r) : c'.Swept r := by
  obtain ⟨status, history, i, q, held, failed, same, contagious, message⟩ := swept
  refine ⟨status, history, i, q, evolved.frozen held (by rw [failed]; rfl), failed, same, ?_, message⟩
  rwa [Coordinator.contagious, stage?, setup]

/-- A ready job that is not the one that ends stays ready or is cancelled. -/
theorem aftermath_ready {c : Coordinator} {now : Double} {i j : Nat} {r q : JobRecord} {next : Status} {remark : Remark}
    (elsewhere : j ≠ i) (ready : q.status = .ready) : (c.aftermath now i r next remark j q).status = .ready ∨
      (c.aftermath now i r next remark j q).status = .cancelled := by
  rw [aftermath, if_neg elsewhere]
  split
  · rw [JobRecord.stopped_of_waiting (Or.inr ready)]
    exact Or.inr rfl
  · exact Or.inl ready

theorem ready_of_aftermath {c : Coordinator} {now : Double} {i j : Nat} {r q : JobRecord} {next : Status}
    {remark : Remark} (terminal : next.isTerminal = true)
    (ready : (c.aftermath now i r next remark j q).status = .ready) : j ≠ i ∧ q.status = .ready := by
  unfold aftermath at ready
  split at ready
  · rw [JobRecord.moved_status] at ready
    rw [ready] at terminal
    cases terminal
  next elsewhere =>
    refine ⟨elsewhere, ?_⟩
    split at ready
    · by_cases waiting : q.Waiting
      · rw [JobRecord.stopped_of_waiting waiting] at ready
        cases ready
      · rwa [JobRecord.stopped_of_begun waiting] at ready
    · exact ready

end Coordinator

namespace Moment

open Coordinator

variable {ω : Type} [World ω] {m m' : Moment ω}

/-- What a step does to the queue: jobs leave at its head and enter at its end. Those that leave are no longer ready, those
that enter have become so, and a ready job is started or fails only by leaving. -/
structure Queueing (m m' : Moment ω) (left stays entered : List Nat) : Prop where
  before : m.coord.ready = left ++ stays
  after : m'.coord.ready = stays ++ entered
  served : ∀ j ∈ left, ∀ r', m'.coord.record? j = some r' → r'.status ≠ .ready
  fresh : ∀ j ∈ entered, ∃ r r', m.coord.record? j = some r ∧ r.status = .pending ∧
    m'.coord.record? j = some r' ∧ r'.status = .ready
  distinct : entered.Nodup
  complete : ∀ j r r', m.coord.record? j = some r → m'.coord.record? j = some r' →
    r.status ≠ .ready → r'.status = .ready → j ∈ entered
  orderly : ∀ j r r', m.coord.record? j = some r → m'.coord.record? j = some r' → r.status = .ready →
    r'.status ≠ .ready → r'.status ≠ .cancelled → j ∈ left

omit [World ω] in
/-- A step that leaves the records as they are may let a job leave that is not ready. -/
private theorem queueing_of_records {left : List Nat} (records : m'.coord.records = m.coord.records)
    (before : m.coord.ready = left ++ m'.coord.ready)
    (served : ∀ j ∈ left, ∀ r, m.coord.record? j = some r → r.status ≠ .ready) :
    Queueing m m' left m'.coord.ready [] := by
  have same (j : Nat) : m'.coord.record? j = m.coord.record? j := by rw [record?, record?, records]
  refine ⟨before, by simp, ?_, by simp, .nil, ?_, ?_⟩
  · intro j member r' found'
    exact served j member r' (same j ▸ found')
  · intro j r r' found found' idle ready
    cases (same j).symm.trans found' |>.symm.trans found
    exact (idle ready).elim
  · intro j r r' found found' ready other
    cases (same j).symm.trans found' |>.symm.trans found
    exact (other ready).elim

omit [World ω] in
/-- A step in which a job ends lets it leave if it stood in the queue. -/
private theorem queueing_of_noted {now : Double} {i : Nat} {r : JobRecord} {next : Status} {remark : Remark}
    {left : List Nat} (terminal : next.isTerminal = true) (note : JobRecord → JobRecord)
    (records : m.coord.Rewritten m'.coord fun j q =>
      m.coord.aftermath now i r next remark j (if j = i then note q else q))
    (before : m.coord.ready = left ++ m'.coord.ready) (only : ∀ j ∈ left, j = i)
    (held : m.coord.record? i = some r) (stood : r.status = .ready → i ∈ left) :
    Queueing m m' left m'.coord.ready [] := by
  refine ⟨before, by simp, ?_, by simp, .nil, ?_, ?_⟩
  · intro j member r' found' ready
    obtain ⟨q, found, rfl⟩ := Option.map_eq_some_iff.1 ((records j).symm.trans found')
    exact (ready_of_aftermath terminal ready).1 (only j member)
  · intro j q q' found found' idle ready
    cases found'.symm.trans (records.found found)
    obtain ⟨elsewhere, same⟩ := ready_of_aftermath terminal ready
    rw [if_neg elsewhere] at same
    exact (idle same).elim
  · intro j q q' found found' ready other uncancelled
    cases found'.symm.trans (records.found found)
    by_cases here : j = i
    · subst here
      cases held.symm.trans found
      exact stood ready
    · rw [if_neg here] at other uncancelled
      exact ((aftermath_ready here ready).elim other uncancelled).elim

omit [World ω] in
private theorem queueing_of_aftermath {now : Double} {i : Nat} {r : JobRecord} {next : Status} {remark : Remark}
    {left : List Nat} (terminal : next.isTerminal = true)
    (records : m.coord.Rewritten m'.coord (m.coord.aftermath now i r next remark))
    (before : m.coord.ready = left ++ m'.coord.ready) (only : ∀ j ∈ left, j = i)
    (held : m.coord.record? i = some r) (stood : r.status = .ready → i ∈ left) :
    Queueing m m' left m'.coord.ready [] :=
  queueing_of_noted terminal id (by simpa only [id, ite_self] using records) before only held stood

theorem Step.queueing (step : Step m m') (apart : (m.coord.records.map (·.job)).Pairwise Job.Apart) :
    ∃ left stays entered, Queueing m m' left stays entered := by
  cases step with
  | @opens c c' _ _ _ s outcomes _ _ _ _ opened =>
    have opened := openStage_ok opened
    have slots : (c.members s.name).map c.slot = c.members s.name := by
      rw [List.map_congr_left fun j _ => slot_eq apart j, List.map_id']
    refine ⟨[], c.ready, _, rfl, opened.ready, by simp, ?_, ?_, ?_, ?_⟩
    · intro j member
      split at member
      next ready =>
        rw [slots] at member
        obtain ⟨r, found, inside⟩ := mem_members.1 member
        refine ⟨r, _, found, ?_, opened.records.found found, by simp [inside, ready]⟩
        have legal := opened.legal j r found inside
        rw [ready] at legal
        cases status : r.status <;> simp_all [Status.mayBecome, Status.successors]
      next => cases member
    · split
      · rw [slots]
        exact c.members_nodup s.name
      · exact .nil
    · intro j r r' found found' idle ready
      cases found'.symm.trans (opened.records.found found)
      split at ready
      next inside =>
        rw [JobRecord.moved_status] at ready
        rw [if_pos ready, slots]
        exact mem_members.2 ⟨r, found, inside⟩
      next => exact (idle ready).elim
    · intro j r r' found found' ready other uncancelled
      cases found'.symm.trans (opened.records.found found)
      split at other
      next inside =>
        have legal := opened.legal j r found inside
        rcases c.opening_cases s outcomes with change | change
        all_goals
          rw [ready, change] at legal
          cases legal
      next => exact (other ready).elim
  | @takes c c' w _ i _ queue head _ taken =>
    cases takeUp_ok taken with
    | passed idle =>
      refine ⟨[i], queue, [], queueing_of_records rfl head ?_⟩
      intro j member
      cases List.mem_singleton.1 member
      exact idle
    | @lacked r missing _ held ready _ failed =>
      obtain ⟨_, quiet, records, _⟩ := transition_ok failed held
      have rest : c'.ready = queue := quiet.ready
      have before : c.ready = [i] ++ c'.ready := by rw [rest, head, List.singleton_append]
      exact ⟨[i], _, [], queueing_of_aftermath rfl records before (by simp) held (by simp)⟩
    | @launched r _ _ held ready _ started =>
      have rest : c'.ready = queue := started.ready
      refine ⟨[i], queue, [], head, by simp [rest], ?_, by simp, .nil, ?_, ?_⟩
      · intro j member r' found'
        cases List.mem_singleton.1 member
        cases found'.symm.trans (started.records.found held)
        simp
      · intro j q q' found found' idle ready
        cases found'.symm.trans (started.records.found found)
        split at ready
        · cases ready
        · exact (idle ready).elim
      · intro j q q' found found' ready other _
        cases found'.symm.trans (started.records.found found)
        split at other
        next here => exact List.mem_singleton.2 here
        next => exact (other ready).elim
  | delivers => exact ⟨[], _, [], queueing_of_records rfl rfl (by simp)⟩
  | awaits => exact ⟨[], _, [], queueing_of_records rfl rfl (by simp)⟩
  | collects collected =>
    cases collect_ok collected with
    | dropped => exact ⟨[], _, [], queueing_of_records rfl rfl (by simp)⟩
    | @taken _ outcome _ _ _ _ _ _ fault held running returned =>
      exact ⟨[], _, [], queueing_of_noted (outcome.ending_terminal fault) _ returned.records returned.ready.symm
        (by simp) held (by simp [running])⟩
  | looks => exact ⟨[], _, [], queueing_of_records rfl rfl (by simp)⟩
  | expires expired =>
    cases expire_ok expired with
    | early => exact ⟨[], _, [], queueing_of_records rfl rfl (by simp)⟩
    | ended => exact ⟨[], _, [], queueing_of_records rfl rfl (by simp)⟩
    | stopped held running late =>
      exact ⟨[], _, [], queueing_of_aftermath rfl late.records late.ready.symm (by simp) held (by simp [running])⟩

def submitted (m m' : Moment ω) : List Nat :=
  launches (m'.coord.requests.drop m.coord.requests.length)

omit [World ω] in
theorem submitted_append {more : List Request} (requests : m'.coord.requests = m.coord.requests ++ more) :
    submitted m m' = launches more := by
  rw [submitted, requests, List.drop_left]

omit [World ω] in
theorem submitted_same (requests : m'.coord.requests = m.coord.requests) : submitted m m' = [] := by
  rw [submitted_append (requests.trans (List.append_nil _).symm)]
  rfl

omit [World ω] in
theorem submitted_asked (base : Coordinator) {among : Nat → Prop} (more : List Nat)
    (requests : base.requests = m.coord.requests ++ more.map .cancel) (asked : StopsAsked base m'.coord among) :
    submitted m m' = [] := by
  obtain ⟨slots, later, _⟩ := asked.requests
  rw [requests, List.append_assoc] at later
  rw [submitted_append later, launches_append, launches_cancels, launches_cancels, List.append_nil]

/-- What a step does to the jobs in flight: some land, and they do not run any more; and a ready job may be given to a
worker, if one is free. -/
structure Flights (m m' : Moment ω) (landed : List Nat) : Prop where
  inFlight : m'.coord.inFlight = m.coord.inFlight.filter (· ∉ landed) ++ submitted m m'
  ended : ∀ j ∈ landed, ∀ r', m'.coord.record? j = some r' → r'.status ≠ .running
  single : (submitted m m').length ≤ 1
  begun : ∀ j ∈ submitted m m', m.coord.inFlight.length < m.coord.setup.workers ∧
    ∃ r r', m.coord.record? j = some r ∧ r.status = .ready ∧ m'.coord.record? j = some r' ∧
      r'.status = .running

omit [World ω] in
theorem Flights.distinct {landed : List Nat} (flights : Flights m m' landed) : (submitted m m').Nodup := by
  have single := flights.single
  cases submission : submitted m m' with
  | nil => exact .nil
  | cons j rest =>
    rw [submission, List.length_cons] at single
    rw [List.eq_nil_of_length_eq_zero (by omega : rest.length = 0)]
    exact List.nodup_singleton j

omit [World ω] in
private theorem flights_of_same (inFlight : m'.coord.inFlight = m.coord.inFlight)
    (nobody : submitted m m' = []) : Flights m m' [] := by
  refine ⟨?_, by simp, by simp [nobody], by simp [nobody]⟩
  rw [inFlight, nobody, List.append_nil, List.filter_eq_self.2 (by simp)]

omit [World ω] in
private theorem flights_of_landed {i : Nat} (inFlight : m'.coord.inFlight = m.coord.inFlight.filter (· ≠ i))
    (ended : ∀ r', m'.coord.record? i = some r' → r'.status ≠ .running) (nobody : submitted m m' = []) :
    Flights m m' [i] := by
  refine ⟨?_, by simpa using ended, by simp [nobody], by simp [nobody]⟩
  rw [inFlight, nobody, List.append_nil]
  simp

theorem Step.flights (step : Step m m') : ∃ landed, Flights m m' landed := by
  cases step with
  | opens _ _ _ _ opened =>
    have opened := openStage_ok opened
    exact ⟨[], flights_of_same opened.inFlight (submitted_same opened.requests)⟩
  | @takes c c' w _ i _ queue _ free taken =>
    cases takeUp_ok taken with
    | passed => exact ⟨[], flights_of_same rfl (submitted_same rfl)⟩
    | lacked held _ _ failed =>
      obtain ⟨_, quiet, _, asked⟩ := transition_ok failed held
      refine ⟨[], flights_of_same quiet.inFlight ?_⟩
      exact submitted_asked { c with ready := queue } [] (by simp) asked
    | @launched r inputs _ held ready _ started =>
      have submission : submitted (⟨c, w, [], []⟩ : Moment ω) ⟨c', w, [], []⟩ = [i] := by
        rw [submitted_append started.requests]
        rfl
      refine ⟨[], ?_, by simp, by simp [submission], ?_⟩
      · rw [submission, started.inFlight, List.filter_eq_self.2 (by simp)]
      · intro j member
        rw [submission] at member
        cases List.mem_singleton.1 member
        exact ⟨free, r, _, held, ready, started.records.found held, by simp⟩
  | delivers => exact ⟨[], flights_of_same rfl (by simp [submitted, launches])⟩
  | awaits => exact ⟨[], flights_of_same rfl (submitted_same rfl)⟩
  | @collects c _ _ _ _ _ _ collected =>
    cases collect_ok collected with
    | @dropped i _ idle => exact ⟨[i], flights_of_landed rfl idle (submitted_same rfl)⟩
    | @taken i outcome r _ _ _ _ _ fault held _ returned =>
      refine ⟨[i], flights_of_landed returned.inFlight ?_ ?_⟩
      · intro r' found' running
        cases found'.symm.trans (returned.records.found held)
        have terminal := outcome.ending_terminal fault
        simp only [aftermath, if_true, JobRecord.moved_status] at running
        rw [running] at terminal
        cases terminal
      · exact submitted_asked c [] (by simp) returned.asked
  | looks => exact ⟨[], flights_of_same rfl (submitted_same rfl)⟩
  | @expires c _ _ _ _ _ expired =>
    cases expire_ok expired with
    | early => exact ⟨[], flights_of_same rfl (submitted_same rfl)⟩
    | ended => exact ⟨[], flights_of_same rfl (submitted_same rfl)⟩
    | @stopped i _ _ _ _ _ late =>
      refine ⟨[], flights_of_same late.inFlight ?_⟩
      exact submitted_asked _ [i] (by simp [request]) late.asked

/-- The queue and the jobs in flight agree with the states of the jobs. -/
structure Consistent (m : Moment ω) : Prop where
  bounded : m.coord.inFlight.length ≤ m.coord.setup.workers
  single : m.coord.inFlight.Nodup
  flying : ∀ j r, m.coord.record? j = some r → r.status = .running → j ∈ m.coord.inFlight
  manned : ∀ j ∈ m.coord.inFlight, ∃ r, m.coord.record? j = some r ∧
    (r.status = .running ∨ r.status = .failed ∧ r.cause = some .timeout)
  distinct : m.coord.ready.Nodup
  waiting : ∀ j r, m.coord.record? j = some r → r.status = .ready → j ∈ m.coord.ready
  queued : ∀ j ∈ m.coord.ready, ∃ r, m.coord.record? j = some r ∧
    (r.status = .ready ∨ m.coord.Swept r)

omit [World ω] in
theorem start_lived {setup : Setup} {g : RunGraph} {w : ω} (j : Nat) (r : JobRecord)
    (found : (Operation.start setup g w).moment.coord.record? j = some r) : r.Lived := by
  obtain ⟨job, _, rfl⟩ := Operation.start_record found
  exact JobRecord.lived_fresh job

omit [World ω] in
theorem start_apart {g : RunGraph} (distinct : g.DistinctKeys) (setup : Setup) (w : ω) :
    ((Operation.start setup g w).moment.coord.records.map (·.job)).Pairwise Job.Apart := by
  simpa [RunGraph.DistinctKeys, Operation.moment, Operation.start, Coordinator.start, Function.comp_def] using distinct

omit [World ω] in
theorem consistent_start (setup : Setup) (g : RunGraph) (w : ω) : Consistent (Operation.start setup g w).moment := by
  refine ⟨Nat.zero_le _, .nil, ?_, fun _ member => (List.not_mem_nil member).elim, .nil, ?_,
    fun _ member => (List.not_mem_nil member).elim⟩
  · intro j r found running
    cases (Operation.start_pending found).symm.trans running
  · intro j r found ready
    cases (Operation.start_pending found).symm.trans ready

theorem Step.manned (step : Step m m') {j : Nat} {r : JobRecord} (found : m.coord.record? j = some r)
    (running : r.status = .running) (still : j ∈ m'.coord.inFlight) : ∃ r', m'.coord.record? j = some r' ∧
      (r'.status = .running ∨ r'.status = .failed ∧ r'.cause = some .timeout) := by
  obtain ⟨r', found', fate⟩ := step.fate found
  refine ⟨r', found', ?_⟩
  cases fate with
  | kept => exact Or.inl running
  | opened _ _ _ _ _ legal =>
    rcases opening_cases _ _ _ with change | change
    all_goals
      rw [running, change] at legal
      cases legal
  | lacked ready => cases running.symm.trans ready
  | launched ready => cases running.symm.trans ready
  | returned _ _ returned =>
    rw [returned.inFlight] at still
    simp at still
  | expired => exact Or.inr ⟨rfl, rfl⟩
  | stopped waiting => simp [JobRecord.Waiting, running] at waiting

/-- A job that stands in the queue before and after a step is ready after it, or has been cancelled. -/
theorem Step.stands (step : Step m m') {left stays entered : List Nat} (queueing : Queueing m m' left stays entered)
    (distinct : m.coord.ready.Nodup) {j : Nat} {r : JobRecord} (found : m.coord.record? j = some r)
    (lived : r.Lived) (ready : r.status = .ready) (remains : j ∈ stays) : ∃ r', m'.coord.record? j = some r' ∧
      (r'.status = .ready ∨ m'.coord.Swept r') := by
  obtain ⟨r', found', fate⟩ := step.fate found
  refine ⟨r', found', ?_⟩
  -- It has not been taken up, for then it would have left.
  have unserved (other : r'.status ≠ .ready) (uncancelled : r'.status ≠ .cancelled) : False := by
    have gone := queueing.orderly j r r' found found' ready other uncancelled
    rw [queueing.before, List.nodup_append] at distinct
    exact distinct.2.2 j gone j remains rfl
  cases fate with
  | kept => exact Or.inl ready
  | opened _ _ _ _ _ legal =>
    rcases opening_cases _ _ _ with change | change
    all_goals
      rw [ready, change] at legal
      cases legal
  | lacked => exact (unserved Status.noConfusion Status.noConfusion).elim
  | launched => exact (unserved Status.noConfusion Status.noConfusion).elim
  | returned running => cases ready.symm.trans running
  | expired running => cases ready.symm.trans running
  | @stopped now i q q' _ held _ held' failed contagious same =>
    have onward := step.evolved.evolves held held'
    refine Or.inr ⟨rfl, ?_, i, q', held', failed, ?_, ?_, ?_⟩
    · rw [JobRecord.moved, lived.of_ready ready]
      rfl
    · rw [onward.job, JobRecord.moved_job, same]
    · rw [Coordinator.contagious, stage?, step.frame.1, onward.job]
      exact contagious
    · rw [onward.job, JobRecord.moved]
      simp [failFastAfter]

/-- Every step keeps the queue and the jobs in flight in agreement with the states of the jobs. -/
theorem Step.consistent (step : Step m m') (apart : (m.coord.records.map (·.job)).Pairwise Job.Apart)
    (lived : ∀ j r, m.coord.record? j = some r → r.Lived) (consistent : Consistent m) : Consistent m' := by
  obtain ⟨left, stays, entered, queueing⟩ := step.queueing apart
  obtain ⟨landed, flights⟩ := step.flights
  constructor
  case bounded =>
    rw [flights.inFlight, List.length_append, step.frame.1]
    have fewer := List.length_filter_le (fun j => decide (j ∉ landed)) m.coord.inFlight
    have bounded := consistent.bounded
    have one := flights.single
    cases submission : submitted m m' with
    | nil => simpa using fewer.trans bounded
    | cons j rest =>
      have free := (flights.begun j (by simp [submission])).1
      rw [submission] at one
      omega
  case single =>
    rw [flights.inFlight, List.nodup_append]
    refine ⟨consistent.single.filter _, flights.distinct, ?_⟩
    rintro j member _ fresh rfl
    obtain ⟨_, r, _, found, ready, _⟩ := flights.begun j fresh
    obtain ⟨_, again, busy⟩ := consistent.manned j (List.mem_filter.1 member).1
    cases found.symm.trans again
    simp [ready] at busy
  case flying =>
    intro j r' found' running
    obtain ⟨r, found, _⟩ := step.evolved.source found'
    have fate := step.fate_of found found'
    by_cases before : r.status = .running
    · rw [flights.inFlight, List.mem_append, List.mem_filter]
      refine Or.inl ⟨consistent.flying j r found before, decide_eq_true fun gone => ?_⟩
      exact flights.ended j gone r' found' running
    · cases fate with
      | kept => exact (before running).elim
      | opened =>
        rcases opening_cases _ _ _ with change | change
        all_goals
          rw [JobRecord.moved_status, change] at running
          cases running
      | lacked => cases running
      | launched _ _ inFlight => simp [inFlight]
      | returned busy => exact (before busy).elim
      | expired busy => exact (before busy).elim
      | stopped => cases running
  case manned =>
    intro j member
    have still := member
    rw [flights.inFlight, List.mem_append, List.mem_filter] at member
    rcases member with ⟨before, _⟩ | fresh
    · obtain ⟨r, found, running | ⟨failed, cause⟩⟩ := consistent.manned j before
      · exact step.manned found running still
      · exact ⟨r, step.evolved.frozen found (by rw [failed]; rfl), Or.inr ⟨failed, cause⟩⟩
    · obtain ⟨_, _, r', _, _, found', running⟩ := flights.begun j fresh
      exact ⟨r', found', Or.inl running⟩
  case distinct =>
    have before := consistent.distinct
    rw [queueing.before, List.nodup_append] at before
    rw [queueing.after, List.nodup_append]
    refine ⟨before.2.1, queueing.distinct, ?_⟩
    rintro j member _ fresh rfl
    obtain ⟨r, _, found, pending, _⟩ := queueing.fresh j fresh
    obtain ⟨_, again, ready | swept⟩ := consistent.queued j (by simp [queueing.before, member])
    · cases found.symm.trans again
      cases pending.symm.trans ready
    · cases found.symm.trans again
      cases pending.symm.trans swept.status
  case waiting =>
    intro j r' found' ready
    obtain ⟨r, found, _⟩ := step.evolved.source found'
    rw [queueing.after, List.mem_append]
    by_cases before : r.status = .ready
    · have member := consistent.waiting j r found before
      rw [queueing.before, List.mem_append] at member
      exact Or.inl (member.resolve_left fun gone => queueing.served j gone r' found' ready)
    · exact Or.inr (queueing.complete j r r' found found' before ready)
  case queued =>
    intro j member
    rw [queueing.after, List.mem_append] at member
    rcases member with stays | fresh
    · obtain ⟨r, found, ready | swept⟩ := consistent.queued j (by simp [queueing.before, stays])
      · exact step.stands queueing consistent.distinct found (lived j r found) ready stays
      · have frozen := step.evolved.frozen found (by rw [swept.status]; rfl)
        exact ⟨r, frozen, Or.inr (step.evolved.swept step.frame.1 swept)⟩
    · obtain ⟨_, r', _, _, found', ready⟩ := queueing.fresh j fresh
      exact ⟨r', found', Or.inl ready⟩

theorem Path.consistent (path : Path m m') (apart : (m.coord.records.map (·.job)).Pairwise Job.Apart)
    (lived : ∀ j r, m.coord.record? j = some r → r.Lived) (consistent : Consistent m) :
    m'.coord.setup = m.coord.setup ∧ Consistent m' := by
  induction path with
  | refl => exact ⟨rfl, consistent⟩
  | tail earlier step ih =>
    obtain ⟨setup, consistent⟩ := ih
    have evolved := Path.evolved earlier
    refine ⟨step.frame.1.trans setup, step.consistent (evolved.sameJobs ▸ apart) ?_ consistent⟩
    intro j r' found'
    obtain ⟨r, found, evolves⟩ := evolved.source found'
    exact evolves.lived (lived j r found)

/-- A run up to a moment, with all jobs that it has given to workers, in order. -/
inductive Submissions (first : Moment ω) : List Nat → Moment ω → Prop
  | none : Submissions first [] first
  | step {slots : List Nat} {m m' : Moment ω} (before : Submissions first slots m) (step : Step m m') :
      Submissions first (slots ++ submitted m m') m'

theorem Submissions.path {first : Moment ω} {slots : List Nat} (submissions : Submissions first slots m) :
    Path first m := by
  induction submissions with
  | none => exact .refl
  | step _ step ih => exact ih.tail step

theorem Path.submissions {first : Moment ω} (path : Path first m) : ∃ slots, Submissions first slots m := by
  induction path with
  | refl => exact ⟨[], .none⟩
  | tail _ step ih =>
    obtain ⟨slots, before⟩ := ih
    exact ⟨_, .step before step⟩

/-- A job that has been given to a worker never waits again, so it is given to no other. -/
theorem Submissions.begun {first : Moment ω} {slots : List Nat} (submissions : Submissions first slots m) :
    slots.Nodup ∧ ∀ j ∈ slots, ∃ r, m.coord.record? j = some r ∧ ¬ r.Waiting := by
  induction submissions with
  | none => exact ⟨.nil, by simp⟩
  | step _ step ih =>
    obtain ⟨distinct, begun⟩ := ih
    obtain ⟨landed, flights⟩ := step.flights
    constructor
    · rw [List.nodup_append]
      refine ⟨distinct, flights.distinct, ?_⟩
      rintro j member _ fresh rfl
      obtain ⟨r, found, busy⟩ := begun j member
      obtain ⟨_, _, _, again, ready, _⟩ := flights.begun j fresh
      cases found.symm.trans again
      exact busy (Or.inr ready)
    · intro j member
      rcases List.mem_append.1 member with member | fresh
      · obtain ⟨r, found, busy⟩ := begun j member
        obtain ⟨r', found', evolves⟩ := step.evolved.record found
        exact ⟨r', found', fun waiting => busy (evolves.waiting waiting)⟩
      · obtain ⟨_, _, r', _, _, found', running⟩ := flights.begun j fresh
        exact ⟨r', found', by simp [JobRecord.Waiting, running]⟩

/-- At every moment of a run whose jobs have different keys, whatever its workers do, no more jobs are in flight than
there are workers. Every running job is in flight once, and every job in flight is running or was failed because its
time was over. Every ready job is in the queue once, and every job in the queue is ready or was cancelled there because
another job of its stage had failed. No job is given to a worker twice. -/
theorem queue_consistency {g : RunGraph} (distinct : g.DistinctKeys) {setup : Setup} {w : ω} {slots : List Nat}
    {m : Moment ω} (reached : Submissions (Operation.start setup g w).moment slots m) :
    m.coord.inFlight.length ≤ setup.workers ∧
    (∀ j r, m.coord.record? j = some r → r.status = .running → m.coord.inFlight.count j = 1) ∧
    (∀ j ∈ m.coord.inFlight, ∃ r, m.coord.record? j = some r ∧
      (r.status = .running ∨ r.status = .failed ∧ r.cause = some .timeout)) ∧
    (∀ j r, m.coord.record? j = some r → r.status = .ready → m.coord.ready.count j = 1) ∧
    (∀ j ∈ m.coord.ready, ∃ r, m.coord.record? j = some r ∧
      (r.status = .ready ∨ m.coord.Swept r)) ∧
    slots.Nodup := by
  obtain ⟨workers, consistent⟩ :=
    reached.path.consistent (start_apart distinct setup w) start_lived (consistent_start setup g w)
  have bounded := consistent.bounded
  rw [workers] at bounded
  refine ⟨bounded, ?_, consistent.manned, ?_, consistent.queued, reached.begun.1⟩
  · exact fun j r found running => List.count_eq_one_of_mem consistent.single (consistent.flying j r found running)
  · exact fun j r found ready => List.count_eq_one_of_mem consistent.distinct (consistent.waiting j r found ready)

/-- Two of three tests are in flight when the first one fails. The third one is still in the queue, though it has been
cancelled, before the look at the code, which is ready. -/
theorem queue_consistency_checks :
    let craft : Craft := fun w => ([], { exitStatus := if w.context.job.index = 0 then 1 else 0 })
    let setup : Setup := { graph := checksGraph.graph, context := pushed, workers := 2 }
    let world : Workshop craft := {}
    checksGraph.DistinctKeys ∧ ∃ (slots : List Nat) (m : Moment (Workshop craft)) (running third look : JobRecord),
      Submissions (Operation.start setup checksGraph world).moment slots m ∧ slots.Nodup ∧
      m.coord.inFlight = [1] ∧ m.coord.inFlight.length ≤ 2 ∧
      m.coord.record? 1 = some running ∧ running.status = .running ∧ m.coord.inFlight.count 1 = 1 ∧
      m.coord.ready = [2, 3] ∧
      m.coord.record? 2 = some third ∧ m.coord.Swept third ∧
      m.coord.record? 3 = some look ∧ look.status = .ready ∧ m.coord.ready.count 3 = 1 := by
  intro craft setup world
  have distinct : checksGraph.DistinctKeys := by decide +kernel
  obtain ⟨m, m', _, _, running, third, look, path, step, flying, ready, _, _, _, _, _, found, runs, last, gone, _, waiting,
    waits⟩ := checks_fail
  obtain ⟨slots, submissions⟩ := Path.submissions (path.tail step)
  obtain ⟨bounded, flights, _, queue, standing, single⟩ := queue_consistency distinct submissions
  obtain ⟨_, again, reason⟩ := standing 2 (by simp [ready])
  cases again.symm.trans last
  have swept := reason.resolve_left fun ready => by cases gone.1.symm.trans ready
  exact ⟨distinct, slots, m', running, third, look, submissions, single, flying, bounded, found, runs.1,
    flights 1 running found runs.1, ready, last, swept, waiting, waits.1, queue 3 look waiting waits.1⟩

end Moment
end Conveyor

import Conveyor.Proofs.CoordinatorTransitions

/-! Jobs on their way from the queue to a worker. A job that is taken up is started with its inputs,
or fails for want of them; one that is no longer ready is passed over. The coordinator breaks off where it cannot say
what is missing, or cannot tell when the time of the job is over. -/

namespace Conveyor

open Fallible

theorem InputFault.message_ok {fault : InputFault} {message : String} (told : fault.message = .ok message) :
    ∃ missing, fault = .missing missing ∧ message = missing.text := by
  cases fault with
  | missing missing =>
    obtain ⟨_, _, same⟩ := bind_ok.1 told
    exact ⟨missing, rfl, (Except.ok.inj same).symm⟩
  | unusable => cases told

namespace Coordinator

structure Launched (c c' : Coordinator) (now : Double) (i : Nat) (job : Job) (inputs : Inputs) : Prop where
  setup : c'.setup = c.setup
  opened : c'.opened = c.opened
  ready : c'.ready = c.ready
  inFlight : c'.inFlight = c.inFlight ++ [i]
  deadlines : c'.deadlines =
    match c.effectiveTimeout job with
    | some limit => c.deadlines.insert i ⟨now.add limit.toDouble, limit⟩
    | none => c.deadlines
  manifest : c'.manifest = c.manifest
  requests : c'.requests = c.requests ++ [.launch i (Worker.start job c.setup.context inputs)]
  tokens : ∀ k, c'.tokens.get? k = if k = i then some false else c.tokens.get? k
  records : Rewritten c c' fun j q =>
    if j = i then { q with startedAt := some (.float now) }.moved now .running {} else q

private def stamp (c : Coordinator) (now : Double) (i : Nat) : Coordinator :=
  { c with tokens := c.tokens.insert i false }.update i fun r => { r with startedAt := some (.float now) }

private theorem stamp_records (c : Coordinator) (now : Double) (i : Nat) :
    Rewritten c (c.stamp now i) fun j q => if j = i then { q with startedAt := some (.float now) } else q :=
  fun j => record?_update { c with tokens := c.tokens.insert i false } i j _

/-- The bookkeeping that follows the change of state of a started job. -/
private def board (c : Coordinator) (i : Nat) (job : Job) (inputs : Inputs) : Coordinator :=
  { c with inFlight := c.inFlight ++ [i] }.request (.launch i (Worker.start job c.setup.context inputs))

/-- The limit on the time of a job is beyond the range of doubles. -/
def Immeasurable (c : Coordinator) (job : Job) : Prop :=
  ∃ limit, c.effectiveTimeout job = some limit ∧ limit.isTooLarge = true

variable {c c' : Coordinator} {now : Double} {i : Nat}

theorem not_immeasurable {job : Job} (unlimited : c.effectiveTimeout job = none) : ¬ c.Immeasurable job := by
  rintro ⟨limit, limited, _⟩
  cases unlimited.symm.trans limited

private theorem board_launched {begun : Coordinator} (job : Job) (inputs : Inputs) (quiet : Undisturbed c begun)
    (requests : begun.requests = c.requests)
    (tokens : ∀ k, begun.tokens.get? k = if k = i then some false else c.tokens.get? k)
    (records : Rewritten c begun fun j q =>
      if j = i then { q with startedAt := some (.float now) }.moved now .running {} else q) :
    (∃ timed, begun.schedule now i job = .ok timed ∧ Launched c (timed.board i job inputs) now i job inputs) ∨
      ∃ state, begun.schedule now i job = .error ⟨.limitTooLarge, state⟩ ∧ c.Immeasurable job := by
  have limit : begun.effectiveTimeout job = c.effectiveTimeout job := by
    simp only [effectiveTimeout, quiet.setup]
  rw [schedule, limit]
  cases limited : c.effectiveTimeout job with
  | none =>
    refine Or.inl ⟨begun, rfl, quiet.setup, quiet.opened, quiet.ready, by simp [board, request, quiet.inFlight], ?_,
      quiet.manifest, by simp [board, request, requests, quiet.setup], tokens, records⟩
    simp [board, request, quiet.deadlines, limited]
  | some limit =>
    dsimp only
    split
    next large => exact Or.inr ⟨begun, rfl, limit, limited, large⟩
    next =>
      refine Or.inl ⟨_, rfl, quiet.setup, quiet.opened, quiet.ready, by simp [board, request, quiet.inFlight], ?_,
        quiet.manifest, by simp [board, request, requests, quiet.setup], tokens, records⟩
      simp [board, request, quiet.deadlines, limited]

theorem launch_cases {r : JobRecord} (found : c.record? i = some r) (now : Double) (job : Job) (inputs : Inputs)
    (legal : r.status.mayBecome .running = true) :
    (∃ c', c.launch now i job inputs = .ok c' ∧ Launched c c' now i job inputs) ∨
      ∃ state, c.launch now i job inputs = .error ⟨.limitTooLarge, state⟩ ∧ c.Immeasurable job := by
  have quiet : Undisturbed c (c.stamp now i) := ⟨rfl, rfl, rfl, rfl, rfl, rfl⟩
  have records := c.stamp_records now i
  have present : (c.stamp now i).record? i = some { r with startedAt := some (.float now) } := by simp [records i, found]
  obtain ⟨begun, first, later, moved, asked⟩ := transition_legal present now .running {} legal
  obtain ⟨requests, tokens⟩ := asked.quiet (by simp)
  have set (k : Nat) : begun.tokens.get? k = if k = i then some false else c.tokens.get? k := by
    rw [tokens, stamp, update, Table.get?_insert]
    by_cases here : k = i
    · simp [here, Key.same]
    · simp [here, Key.same, Ne.symm here]
  have rewritten : Rewritten c begun fun j q =>
      if j = i then { q with startedAt := some (.float now) }.moved now .running {} else q := by
    apply (records.trans moved).congr
    intro j q _
    by_cases here : j = i <;> simp [aftermath, here]
  refine (board_launched job inputs (quiet.trans later) requests set rewritten).imp ?_ ?_
  · rintro ⟨timed, noted, launched⟩
    exact ⟨_, bind_ok.2 ⟨begun, first, bind_ok.2 ⟨timed, noted, rfl⟩⟩, launched⟩
  · rintro ⟨state, refused, immeasurable⟩
    exact ⟨state, bind_error.2 (Or.inr ⟨begun, first, bind_error.2 (Or.inl refused)⟩), immeasurable⟩

theorem launch_ok {r : JobRecord} {job : Job} {inputs : Inputs} (found : c.record? i = some r)
    (legal : r.status.mayBecome .running = true) (done : c.launch now i job inputs = .ok c') :
    Launched c c' now i job inputs := by
  rcases launch_cases found now job inputs legal with ⟨last, again, launched⟩ | ⟨_, refused, _⟩
  · cases done.symm.trans again
    exact launched
  · cases done.symm.trans refused

def lacking (missing : MissingArtifact) : Remark :=
  { cause := some .missingArtifact, message := missing.text }

inductive TakenUp {σ : Type} [ArtifactStore σ] (c : Coordinator) (store : σ) (now : Double) (i : Nat) :
    Coordinator → Nat → Prop
  | passed (idle : ∀ r, c.record? i = some r → r.status ≠ .ready) : TakenUp c store now i c 0
  | lacked {r : JobRecord} {missing : MissingArtifact} {c' : Coordinator} (found : c.record? i = some r)
      (ready : r.status = .ready) (resolved : Inputs.resolve store c.recordsOf r.job.consumes = .error (.missing missing))
      (failed : c.transition now i .failed (lacking missing) = .ok c')
      (told : missing.message = .ok missing.text) : TakenUp c store now i c' 1
  | launched {r : JobRecord} {inputs : Inputs} {c' : Coordinator} (found : c.record? i = some r)
      (ready : r.status = .ready) (resolved : Inputs.resolve store c.recordsOf r.job.consumes = .ok inputs)
      (started : Launched c c' now i r.job inputs) : TakenUp c store now i c' 1

variable {σ : Type} [ArtifactStore σ]

/-- Why the coordinator breaks off when it takes up a job. -/
inductive Refused (c : Coordinator) (store : σ) (r : JobRecord) : SchedulerFault → Prop
  | untold {fault : InputFault} {f : ValueFault}
      (resolved : Inputs.resolve store c.recordsOf r.job.consumes = .error fault) (untold : fault.message = .error f) :
      Refused c store r (.unusable f)
  | immeasurable (limit : c.Immeasurable r.job) : Refused c store r .limitTooLarge

/-- Whatever happens to the job, the queues before it and the open stages stay as they are. -/
theorem TakenUp.frame {store : σ} {count : Nat} (taken : TakenUp c store now i c' count) :
    c'.setup = c.setup ∧ c'.opened = c.opened ∧ c'.ready = c.ready := by
  cases taken with
  | passed => exact ⟨rfl, rfl, rfl⟩
  | lacked found _ _ failed =>
    obtain ⟨_, quiet, _⟩ := transition_ok failed found
    exact ⟨quiet.setup, quiet.opened, quiet.ready⟩
  | launched _ _ _ started => exact ⟨started.setup, started.opened, started.ready⟩

theorem takeUp_ok {store : σ} {count : Nat} (done : c.takeUp store now i = .ok (c', count)) :
    TakenUp c store now i c' count := by
  unfold takeUp at done
  split at done
  next absent =>
    cases done
    exact .passed (by simp [absent])
  next r found =>
    split at done
    next idle =>
      cases done
      exact .passed (by simp [found, idle])
    next ready =>
      have ready : r.status = .ready := by simpa using ready
      split at done
      next fault resolved =>
        split at done
        next => cases done
        next message told =>
          obtain ⟨last, failed, same⟩ := bind_ok.1 done
          cases same
          obtain ⟨missing, rfl, text⟩ := InputFault.message_ok told
          cases text
          exact .lacked found ready resolved failed told
      next inputs resolved =>
        obtain ⟨last, started, same⟩ := bind_ok.1 done
        cases same
        exact .launched found ready resolved (launch_ok found (by simp [ready]; decide) started)

theorem takeUp_cases (c : Coordinator) (store : σ) (now : Double) (i : Nat) :
    (∃ c' count, c.takeUp store now i = .ok (c', count)) ∨
      ∃ fault state, c.takeUp store now i = .error ⟨fault, state⟩ ∧
        ∃ r, c.record? i = some r ∧ r.status = .ready ∧ c.Refused store r fault := by
  unfold takeUp
  cases found : c.record? i with
  | none => exact Or.inl ⟨c, 0, rfl⟩
  | some r =>
    by_cases ready : r.status = .ready
    · simp only [ready, ne_eq, not_true_eq_false, if_false]
      cases resolved : Inputs.resolve store c.recordsOf r.job.consumes with
      | error fault =>
        dsimp only
        cases told : fault.message with
        | error f => exact Or.inr ⟨.unusable f, c, rfl, r, rfl, ready, .untold resolved told⟩
        | ok message =>
          obtain ⟨last, failed, _⟩ := transition_legal found now .failed { cause := some .missingArtifact, message }
            (by simp [ready]; decide)
          exact Or.inl ⟨last, 1, bind_ok.2 ⟨last, failed, rfl⟩⟩
      | ok inputs =>
        rcases launch_cases found now r.job inputs (by simp [ready]; decide) with
          ⟨last, started, _⟩ | ⟨state, refused, limit⟩
        · exact Or.inl ⟨last, 1, bind_ok.2 ⟨last, started, rfl⟩⟩
        · exact Or.inr ⟨.limitTooLarge, state, bind_error.2 (Or.inl refused), r, rfl, ready, .immeasurable limit⟩
    · exact Or.inl ⟨c, 0, by simp [ready]⟩

end Coordinator
end Conveyor

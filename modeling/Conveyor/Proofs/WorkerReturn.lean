import Conveyor.Proofs.CoordinatorTransitions

/-! Workers that have ended, and jobs whose time is over. What a worker says of a job that still runs is
taken in: its steps are noted, its artifacts are stored in the order of their names, and the job comes
to its end. -/

namespace Conveyor

namespace Outcome

def steps : Outcome → List StepResult
  | .succeeded steps _ => steps
  | .cancelled _ steps => steps
  | .failed _ _ steps => steps

def offered : Outcome → List (String × Blob)
  | .succeeded _ artifacts => Coordinator.inNameOrder artifacts
  | _ => []

/-- The state that the job comes into, and what is said of it. A store that does not take an artifact
makes the job fail. -/
def ending : Outcome → Option StoreFault → Status × Remark
  | .succeeded _ _, none => (.succeeded, {})
  | .succeeded _ _, some fault =>
    (.failed, { cause := some .executorError, message := "artifact store: " ++ fault.message })
  | .cancelled message _, _ => (.cancelled, { message := if message = "" then "cancelled" else message })
  | .failed cause message _, _ => (.failed, { cause := some cause, message })

theorem ending_follows_running (outcome : Outcome) (fault : Option StoreFault) :
    Status.running.mayBecome (outcome.ending fault).1 = true := by
  unfold ending
  split <;> rfl

theorem ending_terminal (outcome : Outcome) (fault : Option StoreFault) :
    (outcome.ending fault).1.isTerminal = true := by
  unfold ending
  split <;> rfl

end Outcome

/-- Artifacts stored one after the other for one producer. -/
inductive Stored {σ : Type} [ArtifactStore σ] (producer : Producer) :
    σ → List (String × Blob) → List Entry → σ → Prop
  | nil (store : σ) : Stored producer store [] [] store
  | cons {first second last : σ} {name : String} {blob : Blob} {entry : Entry} {rest : List (String × Blob)}
      {entries : List Entry} (put : ArtifactStore.put first ⟨producer, name⟩ blob = .ok (entry, second))
      (others : Stored producer second rest entries last) :
      Stored producer first ((name, blob) :: rest) (entry :: entries) last

/-- How far the storing of artifacts came: through all of them, or up to one that was not taken. -/
inductive Reach {σ : Type} [ArtifactStore σ] (producer : Producer) (store : σ) :
    List (String × Blob) → Option StoreFault → Prop
  | all : Reach producer store [] none
  | refused {name : String} {blob : Blob} {rest : List (String × Blob)} {fault : StoreFault}
      (refusal : ArtifactStore.put store ⟨producer, name⟩ blob = .error fault) :
      Reach producer store ((name, blob) :: rest) (some fault)

namespace Coordinator

open Fallible

variable {σ : Type} [ArtifactStore σ]

structure Committed (c c' : Coordinator) (i : Nat) (names : List String) (entries : List Entry) : Prop where
  setup : c'.setup = c.setup
  opened : c'.opened = c.opened
  ready : c'.ready = c.ready
  inFlight : c'.inFlight = c.inFlight
  deadlines : c'.deadlines = c.deadlines
  requests : c'.requests = c.requests
  tokens : c'.tokens = c.tokens
  manifest : c'.manifest = c.manifest ++ entries.map fun entry => (c.rank i, entry)
  records : Rewritten c c' fun j q => if j = i then { q with artifacts := q.artifacts ++ names } else q

/-- A stored artifact is noted in the manifest and in the record of its job. -/
private def shelve (c : Coordinator) (i : Nat) (job : Job) (name : String) (entry : Entry) : Coordinator :=
  (Coordinator.update { c with manifest := c.manifest ++ [(c.rank i, entry)] } i
    fun r => { r with artifacts := r.artifacts ++ [name] }).note (.artifact job.id name entry.size)

theorem commit_spec (i : Nat) (job : Job) (offered : List (String × Blob)) (c : Coordinator) (store : σ) :
    ∃ c' store' fault taken rest entries, commit i job offered c store = (c', store', fault) ∧
      offered = taken ++ rest ∧ Stored job.producer store taken entries store' ∧
      Reach job.producer store' rest fault ∧ Committed c c' i (taken.map Prod.fst) entries := by
  induction offered generalizing c store with
  | nil =>
    refine ⟨c, store, none, [], [], [], rfl, rfl, .nil store, .all,
      ⟨rfl, rfl, rfl, rfl, rfl, rfl, rfl, by simp, ?_⟩⟩
    exact .idle (by simp)
  | cons artifact others ih =>
    obtain ⟨name, blob⟩ := artifact
    cases put : ArtifactStore.put store ⟨job.producer, name⟩ blob with
    | error fault =>
      refine ⟨c, store, some fault, [], (name, blob) :: others, [], ?_, rfl, .nil store, .refused put,
        ⟨rfl, rfl, rfl, rfl, rfl, rfl, rfl, by simp, .idle (by simp)⟩⟩
      simp [commit, put]
    | ok stored =>
      obtain ⟨entry, next⟩ := stored
      have records : Rewritten c (c.shelve i job name entry) fun j q =>
          if j = i then { q with artifacts := q.artifacts ++ [name] } else q :=
        fun j => record?_update { c with manifest := c.manifest ++ [(c.rank i, entry)] } i j _
      have rank : (c.shelve i job name entry).rank i = c.rank i :=
        (records.sameJobs (by intro j r; split <;> rfl)).rank i
      obtain ⟨c', store', fault, taken, rest, entries, done, split, kept, reach, later⟩ :=
        ih (c.shelve i job name entry) next
      refine ⟨c', store', fault, (name, blob) :: taken, rest, entry :: entries, ?_,
        by rw [split, List.cons_append], .cons put kept, reach, ⟨later.setup, later.opened, later.ready,
          later.inFlight, later.deadlines, later.requests, later.tokens, ?_, ?_⟩⟩
      · rw [commit, put]
        exact done
      · rw [later.manifest, rank]
        exact List.append_assoc c.manifest [(c.rank i, entry)] _
      · apply (records.trans later.records).congr
        intro j q _
        by_cases here : j = i <;> simp [here]

/-- What the return of a worker comes to whose job was still running. -/
structure Returned (c c' : Coordinator) (before after : σ) (now : Double) (i : Nat) (r : JobRecord)
    (outcome : Outcome) (taken rest : List (String × Blob)) (entries : List Entry)
    (fault : Option StoreFault) : Prop where
  offered : outcome.offered = taken ++ rest
  stored : Stored r.job.producer before taken entries after
  reach : Reach r.job.producer after rest fault
  setup : c'.setup = c.setup
  opened : c'.opened = c.opened
  ready : c'.ready = c.ready
  inFlight : c'.inFlight = c.inFlight.filter (· ≠ i)
  deadlines : c'.deadlines = c.deadlines.erase i
  manifest : c'.manifest = c.manifest ++ entries.map fun entry => (c.rank i, entry)
  records : Rewritten c c' fun j q =>
    c.aftermath now i r (outcome.ending fault).1 (outcome.ending fault).2 j
      (if j = i then { q with steps := outcome.steps, artifacts := q.artifacts ++ taken.map Prod.fst } else q)
  asked : StopsAsked c c' fun j => (outcome.ending fault).1 = .failed ∧ c.Reached i r j

variable {c' c : Coordinator} {i : Nat} {now : Double}

/-- All ends of a job are taken in alike: steps, artifacts, and the change of state. -/
private theorem conclude_eq (c : Coordinator) (store : σ) (now : Double) (i : Nat) (job : Job) (outcome : Outcome)
    {store' : σ} {fault : Option StoreFault}
    (stored : commit i job outcome.offered (c.update i fun r => { r with steps := outcome.steps }) store =
      (c', store', fault)) :
    c.conclude store now i job outcome =
      c'.settled store' now i (outcome.ending fault).1 (outcome.ending fault).2 := by
  cases outcome with
  | succeeded steps artifacts =>
    simp only [Outcome.offered, Outcome.steps] at stored
    simp only [conclude, stored]
    cases fault <;> rfl
  | cancelled message steps =>
    cases stored
    rfl
  | failed cause message steps =>
    cases stored
    rfl

def landed (c : Coordinator) (i : Nat) : Coordinator :=
  { c with inFlight := c.inFlight.filter (· ≠ i), deadlines := c.deadlines.erase i }

private def dismiss (c : Coordinator) (i : Nat) (outcome : Outcome) : Coordinator :=
  (c.landed i).update i fun r => { r with steps := outcome.steps }

/-- The return of a worker whose job still runs is always taken in. -/
theorem conclude_running {r : JobRecord} (found : c.record? i = some r) (running : r.status = .running) (store : σ)
    (now : Double) (outcome : Outcome) :
    ∃ c' store' taken rest entries fault,
      (c.landed i).conclude store now i r.job outcome = .ok (c', store') ∧
      Returned c c' store store' now i r outcome taken rest entries fault := by
  have records : Rewritten c (c.dismiss i outcome) fun j q => if j = i then { q with steps := outcome.steps } else q :=
    fun j => record?_update (c.landed i) i j _
  obtain ⟨kept, store', fault, taken, rest, entries, done, split, stored, reach, committed⟩ :=
    commit_spec i r.job outcome.offered (c.dismiss i outcome) store
  have changed : Rewritten c kept fun j q =>
      if j = i then { q with steps := outcome.steps, artifacts := q.artifacts ++ taken.map Prod.fst } else q := by
    apply (records.trans committed.records).congr
    intro j q _
    by_cases here : j = i <;> simp [here]
  have present : kept.record? i =
      some { r with steps := outcome.steps, artifacts := r.artifacts ++ taken.map Prod.fst } := by
    simp [changed i, found]
  have jobs : SameJobs c (c.dismiss i outcome) := records.sameJobs (by intro j q; split <;> rfl)
  have jobs' : SameJobs c kept := changed.sameJobs (by intro j q; split <;> rfl)
  have graph : kept.setup = c.setup := committed.setup
  obtain ⟨last, moved, quiet, aftermath, asked⟩ := transition_legal present now (outcome.ending fault).1
    (outcome.ending fault).2 (by simpa [running] using outcome.ending_follows_running fault)
  refine ⟨last, store', taken, rest, entries, fault, ?_, ⟨split, stored, reach, quiet.setup.trans graph,
    quiet.opened.trans committed.opened, quiet.ready.trans committed.ready, quiet.inFlight.trans committed.inFlight,
    quiet.deadlines.trans committed.deadlines, ?_, ?_, ?_⟩⟩
  · rw [conclude_eq _ store now i r.job outcome done]
    simp only [settled, moved]
  · rw [quiet.manifest, committed.manifest, jobs.rank]
    rfl
  · apply (changed.trans aftermath).congr
    intro j q _
    simp only [Coordinator.aftermath, contagious, stage?, graph]
    rfl
  · have unasked : StopsAsked c kept fun _ => False := .none committed.requests committed.tokens (by simp)
    have apart (j : Nat) (reached : (outcome.ending fault).1 = .failed ∧ kept.Reached i
        { r with steps := outcome.steps, artifacts := r.artifacts ++ taken.map Prod.fst } j) :
        kept.record? j = c.record? j := by
      simpa [reached.2.2.1] using changed j
    apply (unasked.trans asked jobs' apart).congr
    intro j q _
    rw [false_or, Reached, Reached]
    simp only [contagious, stage?, graph]
    refine and_congr_right fun _ => and_congr_right fun _ => and_congr_right fun other => ?_
    rw [show kept.record? j = c.record? j by simpa [other] using changed j]

inductive Collected (c : Coordinator) (store : σ) (now : Double) : Nat × Completion → Coordinator → σ → Prop
  | dropped {i : Nat} {outcome : Outcome} (idle : ∀ r, c.record? i = some r → r.status ≠ .running) :
      Collected c store now (i, .returned outcome) (c.landed i) store
  | taken {i : Nat} {outcome : Outcome} {r : JobRecord} {c' : Coordinator} {store' : σ}
      {taken rest : List (String × Blob)} {entries : List Entry} {fault : Option StoreFault}
      (found : c.record? i = some r) (running : r.status = .running)
      (returned : Returned c c' store store' now i r outcome taken rest entries fault) :
      Collected c store now (i, .returned outcome) c' store'

private theorem collect_returned (c : Coordinator) (store : σ) (now : Double) (i : Nat) (outcome : Outcome) :
    collect now (c, store) (i, .returned outcome) =
      match c.record? i with
      | none => .ok (c.landed i, store)
      | some r =>
        if r.status = .running then (c.landed i).conclude store now i r.job outcome
        else .ok (c.landed i, store) := rfl

theorem collect_ok {store store' : σ} {finished : Nat × Completion}
    (done : collect now (c, store) finished = .ok (c', store')) : Collected c store now finished c' store' := by
  obtain ⟨i, completion⟩ := finished
  cases completion with
  | interrupted => cases done
  | returned outcome =>
    rw [collect_returned] at done
    split at done
    next absent =>
      cases done
      exact .dropped (by simp [absent])
    next r found =>
      split at done
      next running =>
        obtain ⟨last, kept, taken, rest, entries, fault, again, returned⟩ :=
          conclude_running found running store now outcome
        cases done.symm.trans again
        exact .taken found running returned
      next idle =>
        cases done
        exact .dropped (by simp [found, idle])

theorem collect_total (c : Coordinator) (store : σ) (now : Double) (i : Nat) (outcome : Outcome) :
    ∃ c' store', collect now (c, store) (i, .returned outcome) = .ok (c', store') := by
  rw [collect_returned]
  cases found : c.record? i with
  | none => exact ⟨c.landed i, store, rfl⟩
  | some r =>
    by_cases running : r.status = .running
    · obtain ⟨last, kept, _, _, _, _, taken, _⟩ := conclude_running found running store now outcome
      exact ⟨last, kept, (if_pos running).trans taken⟩
    · exact ⟨c.landed i, store, if_neg running⟩

def overdue (r : JobRecord) (deadline : Deadline) : Remark :=
  { cause := some .timeout, message := timeoutMessage r.job.id deadline.limit }

structure TimedOut (c c' : Coordinator) (now : Double) (i : Nat) (r : JobRecord) (deadline : Deadline) : Prop where
  setup : c'.setup = c.setup
  opened : c'.opened = c.opened
  ready : c'.ready = c.ready
  inFlight : c'.inFlight = c.inFlight
  deadlines : c'.deadlines = c.deadlines.erase i
  manifest : c'.manifest = c.manifest
  records : Rewritten c c' (c.aftermath now i r .failed (overdue r deadline))
  asked : StopsAsked ({ c with tokens := c.tokens.insert i true }.request (.cancel i)) c' (c.Reached i r)

inductive Expired (c : Coordinator) (now : Double) : Nat × Deadline → Coordinator → Prop
  | early {entry : Nat × Deadline} : Expired c now entry c
  | ended {i : Nat} {deadline : Deadline} (idle : ∀ r, c.record? i = some r → r.status ≠ .running) :
      Expired c now (i, deadline) { c with deadlines := c.deadlines.erase i }
  | stopped {i : Nat} {deadline : Deadline} {r : JobRecord} {c' : Coordinator} (found : c.record? i = some r)
      (running : r.status = .running) (late : TimedOut c c' now i r deadline) : Expired c now (i, deadline) c'

private def overtaken (c : Coordinator) (i : Nat) : Coordinator :=
  { c with deadlines := c.deadlines.erase i, tokens := c.tokens.insert i true }.request (.cancel i)

private theorem overtaken_transition {r : JobRecord} (found : c.record? i = some r) (running : r.status = .running)
    (now : Double) (deadline : Deadline) :
    ∃ c', (c.overtaken i).transition now i .failed (overdue r deadline) = .ok c' ∧ TimedOut c c' now i r deadline := by
  obtain ⟨c', moved, quiet, records, asked⟩ := transition_legal
    (show (c.overtaken i).record? i = some r from found) now .failed (overdue r deadline) (by simp [running]; decide)
  have reached : StopsAsked (c.overtaken i) c' (c.Reached i r) := asked.congr fun j q _ => and_iff_right rfl
  exact ⟨c', moved, quiet.setup, quiet.opened, quiet.ready, quiet.inFlight, quiet.deadlines, quiet.manifest,
    records, reached.requests, reached.set, reached.others⟩

private theorem expire_late {deadline : Deadline} (late : ¬ now.lt deadline.time = true) :
    expire now c (i, deadline) =
      match c.record? i with
      | none => .ok { c with deadlines := c.deadlines.erase i }
      | some r =>
        if r.status = .running then (c.overtaken i).transition now i .failed (overdue r deadline)
        else .ok { c with deadlines := c.deadlines.erase i } :=
  if_neg late

theorem expire_ok {entry : Nat × Deadline} (done : expire now c entry = .ok c') : Expired c now entry c' := by
  obtain ⟨i, deadline⟩ := entry
  by_cases early : now.lt deadline.time = true
  · simp only [expire, early, if_true] at done
    cases done
    exact .early
  · rw [expire_late early] at done
    split at done
    next absent =>
      cases done
      exact .ended (by simp [absent])
    next r found =>
      split at done
      next running =>
        obtain ⟨last, again, late⟩ := overtaken_transition found running now deadline
        cases done.symm.trans again
        exact .stopped found running late
      next idle =>
        cases done
        exact .ended (by simp [found, idle])

theorem expire_total (c : Coordinator) (now : Double) (entry : Nat × Deadline) :
    ∃ c', expire now c entry = .ok c' := by
  obtain ⟨i, deadline⟩ := entry
  by_cases early : now.lt deadline.time = true
  · exact ⟨c, if_pos early⟩
  · rw [expire_late early]
    cases found : c.record? i with
    | none => exact ⟨_, rfl⟩
    | some r =>
      by_cases running : r.status = .running
      · obtain ⟨last, stopped, _⟩ := overtaken_transition found running now deadline
        exact ⟨last, (if_pos running).trans stopped⟩
      · exact ⟨_, if_neg running⟩

end Coordinator
end Conveyor

import Conveyor.Proofs.ArtifactLedger
import Conveyor.Proofs.RunCompletion

/-! How jobs leave their artifacts behind. A job gets its artifacts stored only by succeeding, all of them at once, with
one exception: a store that holds a name already refuses it, and then the artifacts before it in the order of names have
been stored although the job fails. -/

namespace Conveyor

/-- Of the artifacts that a job offers some are taken, and then comes one whose name is in use. -/
structure Refuses (initial : String → Option Blob) (offered taken : List (String × Blob)) (name : String) : Prop where
  split : ∃ blob rest, offered = taken ++ (name, blob) :: rest
  fresh : ∀ other ∈ taken.map Prod.fst, initial other = none
  distinct : (taken.map Prod.fst).Nodup
  used : initial name ≠ none ∨ name ∈ taken.map Prod.fst

theorem Refuses.unique {initial : String → Option Blob} {offered taken taken' : List (String × Blob)}
    {name name' : String} (refuses : Refuses initial offered taken name) (again : Refuses initial offered taken' name') :
    taken = taken' := by
  obtain ⟨⟨blob, rest, rfl⟩, fresh, distinct, used⟩ := refuses
  obtain ⟨⟨blob', rest', same⟩, fresh', distinct', used'⟩ := again
  -- If one of the two went further, it would have taken the name that the other found in use.
  rcases List.append_eq_append_iff.1 same with ⟨more, rfl, tail⟩ | ⟨more, rfl, tail⟩
  · cases more with
    | nil => exact (List.append_nil taken).symm
    | cons artifact more =>
      cases tail
      rw [List.map_append, List.map_cons] at fresh' distinct'
      rcases used with held | member
      · exact (held (fresh' name (by simp))).elim
      · exact (List.disjoint_of_nodup_append distinct' member (by simp)).elim
  · cases more with
    | nil => exact List.append_nil taken'
    | cons artifact more =>
      cases tail
      rw [List.map_append, List.map_cons] at fresh distinct
      rcases used' with held | member
      · exact (held (fresh name' (by simp))).elim
      · exact (List.disjoint_of_nodup_append distinct member (by simp)).elim

/-- A store that keeps what it holds takes all artifacts, or refuses the first whose name is in use. -/
theorem World.Keeps.stored_or_refused {ω : Type} [World ω] (keeps : World.Keeps ω) {producer : Producer} {s s' : ω}
    {taken rest : List (String × Blob)} {entries : List Entry} {fault : Option StoreFault}
    (stored : Stored producer s taken entries s') (reach : Reach producer s' rest fault) :
    rest = [] ∧ fault = none ∨ ∃ name other,
      Refuses (fun name => ArtifactStore.get? s ⟨producer, name⟩) (taken ++ rest) taken name ∧ fault = some other := by
  obtain ⟨_, contents, distinct, fresh⟩ := keeps.stored_contents stored
  cases reach with
  | all => exact Or.inl ⟨rfl, rfl⟩
  | @refused name blob later fault refusal =>
    refine Or.inr ⟨name, fault, ⟨⟨blob, later, rfl⟩, fresh, distinct, ?_⟩, rfl⟩
    have present := (keeps.put_error refusal).1
    rw [contents] at present
    by_cases held : ArtifactStore.get? s ⟨producer, name⟩ = none
    · rw [held, Option.none_or] at present
      exact Or.inr ((Table.has_iff (Key.exact _)).1 (Option.isSome_iff_ne_none.2 present))
    · exact Or.inl held

theorem Coordinator.mem_entries {c : Coordinator} {entry : Entry} :
    entry ∈ c.entries ↔ ∃ k, (k, entry) ∈ c.manifest := by
  simp [Coordinator.entries, (List.mergeSort_perm _ _).mem_iff]

namespace Moment

open Coordinator

variable {ω : Type} [World ω] {m m' : Moment ω} {g : RunGraph}

/-- How the ledger of a job stands, given what the store held before the run and which workers have been taken in. -/
inductive Booked (origin : ω) (came : Nat → Outcome → Prop) (m : Moment ω) (j : Nat) (r : JobRecord) : Prop
  | empty (status : r.status ≠ .succeeded) (names : r.artifacts = [])
      (stocked : m.Stocked (fun name => ArtifactStore.get? origin ⟨r.job.producer, name⟩) j r.job.producer [])
  | stored {steps : List StepResult} {artifacts : Table String Blob} (came : came j (.succeeded steps artifacts))
      (status : r.status = .succeeded) (names : r.artifacts = (inNameOrder artifacts).map Prod.fst)
      (fresh : ∀ name ∈ r.artifacts, ArtifactStore.get? origin ⟨r.job.producer, name⟩ = none)
      (distinct : r.artifacts.Nodup)
      (stocked : m.Stocked (fun name => ArtifactStore.get? origin ⟨r.job.producer, name⟩) j r.job.producer
        (inNameOrder artifacts))
  | refused {steps : List StepResult} {artifacts : Table String Blob} {taken : List (String × Blob)} {name : String}
      (came : came j (.succeeded steps artifacts))
      (refuses : Refuses (fun name => ArtifactStore.get? origin ⟨r.job.producer, name⟩) (inNameOrder artifacts) taken name)
      (status : r.status = .failed) (cause : r.cause = some .executorError) (names : r.artifacts = taken.map Prod.fst)
      (stocked : m.Stocked (fun name => ArtifactStore.get? origin ⟨r.job.producer, name⟩) j r.job.producer taken)

theorem booked_start (setup : Setup) (g : RunGraph) (w : ω) (came : Nat → Outcome → Prop) :
    ∀ j r, (Operation.start setup g w).moment.coord.record? j = some r →
      Booked w came (Operation.start setup g w).moment j r := by
  intro j r found
  obtain ⟨job, _, rfl⟩ := Operation.start_record found
  refine .empty (by simp) rfl ⟨fun name => ?_, rfl⟩
  simp [Table.get?, Operation.moment, Operation.start]

theorem Step.arrived_of_due (step : Step m m') (due : m.due ≠ []) : m.arrived = [] := by
  cases step with
  | expires => rfl
  | opens | takes | delivers | awaits | collects | looks => exact (due rfl).elim

variable {came : Nat → Outcome → Prop} {j : Nat} {r : JobRecord}

/-- A job whose worker is taken in had an empty ledger, and all or part of what the worker offers is stored. -/
private theorem booked_returned (keeps : World.Keeps ω) {origin : ω} (runs : Runs g m) (distinct : g.DistinctKeys)
    {now : Double} {outcome : Outcome} {taken rest : List (String × Blob)} {entries : List Entry}
    {fault : Option StoreFault} (found : m.coord.record? j = some r) (noted : came j outcome)
    (returned : m.coord.Returned m'.coord m.world m'.world now j r outcome taken rest entries fault)
    (names : r.artifacts = [])
    (empty : m.Stocked (fun name => ArtifactStore.get? origin ⟨r.job.producer, name⟩) j r.job.producer []) :
    Booked origin came m' j
      ({ r with steps := outcome.steps, artifacts := r.artifacts ++ taken.map Prod.fst }.moved now
        (outcome.ending fault).1 (outcome.ending fault).2) := by
  have initially (name : String) : ArtifactStore.get? m.world ⟨r.job.producer, name⟩ =
      ArtifactStore.get? origin ⟨r.job.producer, name⟩ := by
    rw [empty.contents]
    simp [Table.get?]
  have stocked := empty.returned keeps runs distinct found returned
  have offered := returned.offered
  obtain ⟨_, _, single, fresh⟩ := keeps.stored_contents returned.stored
  have reach := keeps.stored_or_refused returned.stored returned.reach
  simp only [initially] at fresh reach
  have nothing (idle : outcome.offered = []) : taken = [] := by
    rw [idle] at offered
    exact (List.append_eq_nil_iff.1 offered.symm).1
  cases outcome with
  | succeeded steps artifacts =>
    rw [← offered] at reach
    rcases reach with ⟨rfl, rfl⟩ | ⟨name, other, refuses, rfl⟩
    · rw [List.append_nil] at offered
      subst offered
      refine .stored noted rfl ?_ ?_ ?_ stocked
      · exact (congrArg (· ++ _) names).trans (List.nil_append _)
      · simpa [JobRecord.moved, names] using fresh
      · simpa [JobRecord.moved, names] using single
    · refine .refused noted refuses rfl rfl ?_ stocked
      exact (congrArg (· ++ _) names).trans (List.nil_append _)
  | cancelled message steps =>
    cases nothing rfl
    exact .empty (by simp [Outcome.ending]) (by simp [JobRecord.moved, names]) stocked
  | failed cause message steps =>
    cases nothing rfl
    exact .empty (by simp [Outcome.ending]) (by simp [JobRecord.moved, names]) stocked

/-- In every step the ledger of a job stays as it is, or its worker is taken in. -/
theorem Step.booked (keeps : World.Keeps ω) (step : Step m m') (runs : Runs g m) (distinct : g.DistinctKeys)
    (producers : (g.allJobs.map Job.producer).Nodup) {origin : ω} {r' : JobRecord}
    (found : m.coord.record? j = some r) (found' : m'.coord.record? j = some r')
    (noted : ∀ outcome later, m.arrived = (j, .returned outcome) :: later → r.status = .running → came j outcome)
    (booked : Booked origin came m j r) : Booked origin came m' j r' := by
  have keep := step.stocked keeps runs distinct producers found found'
  have fate := step.fate_of found found'
  -- A job that has not ended has an empty ledger, and keeps it unless its worker is taken in.
  have idle (active : r.status.isTerminal = false) : r.artifacts = [] ∧
      m.Stocked (fun name => ArtifactStore.get? origin ⟨r.job.producer, name⟩) j r.job.producer [] := by
    cases booked with
    | empty _ names stocked => exact ⟨names, stocked⟩
    | stored _ status => simp [status, Status.isTerminal] at active
    | refused _ _ status => simp [status, Status.isTerminal] at active
  have waits (status : r.status ≠ .running) :
      ∀ outcome later, m.arrived = (j, .returned outcome) :: later → r.status = .running → r'.status = .running :=
    fun _ _ _ running => (status running).elim
  cases fate with
  | kept =>
    have stays : ∀ outcome later, m.arrived = (j, .returned outcome) :: later → r.status = .running →
        r.status = .running := fun _ _ _ => id
    cases booked with
    | empty status names stocked => exact .empty status names (keep stays stocked)
    | stored noted status names fresh single stocked => exact .stored noted status names fresh single (keep stays stocked)
    | refused noted refuses status cause names stocked =>
      exact .refused noted refuses status cause names (keep stays stocked)
  | @opened now i s outcomes _ _ _ _ _ legal =>
    have active : r.status.isTerminal = false := by
      by_contra ended
      rw [JobRecord.mayBecome_of_terminal (by simpa using ended)] at legal
      cases legal
    have status : r.status ≠ .running := by
      intro running
      rw [running] at legal
      rcases m.coord.opening_cases s outcomes with change | change
      all_goals
        rw [change] at legal
        cases legal
    obtain ⟨names, stocked⟩ := idle active
    refine .empty ?_ names (keep (waits status) stocked)
    rcases m.coord.opening_cases s outcomes with change | change <;> simp [change]
  | lacked ready =>
    obtain ⟨names, stocked⟩ := idle (by rw [ready]; rfl)
    exact .empty (by simp) names (keep (waits (by simp [ready])) stocked)
  | launched ready =>
    obtain ⟨names, stocked⟩ := idle (by rw [ready]; rfl)
    exact .empty (by simp) names (keep (waits (by simp [ready])) stocked)
  | returned running arrived returned =>
    obtain ⟨names, stocked⟩ := idle (by rw [running]; rfl)
    exact booked_returned keeps runs distinct found (noted _ _ arrived running) returned names stocked
  | expired running due =>
    obtain ⟨names, stocked⟩ := idle (by rw [running]; rfl)
    refine .empty (by simp) names (keep ?_ stocked)
    intro outcome later arrived
    rw [step.arrived_of_due (by simp [due])] at arrived
    cases arrived
  | stopped waiting =>
    have status : r.status ≠ .running := by
      intro running
      rcases waiting with status | status <;> cases running.symm.trans status
    have active : r.status.isTerminal = false := by
      rcases waiting with status | status <;> simp [status, Status.isTerminal]
    obtain ⟨names, stocked⟩ := idle active
    exact .empty (by simp) names (keep (waits status) stocked)

theorem Booked.mono {origin : ω} {came' : Nat → Outcome → Prop} (wider : ∀ outcome, came j outcome → came' j outcome)
    (booked : Booked origin came m j r) :
    Booked origin came' m j r := by
  cases booked with
  | empty status names stocked => exact .empty status names stocked
  | stored noted status names fresh distinct stocked =>
    exact .stored (wider _ noted) status names fresh distinct stocked
  | refused noted refuses status cause names stocked => exact .refused (wider _ noted) refuses status cause names stocked

/-- On the way from one moment to another the worker of a running job was taken in with an outcome. -/
def TakenIn (start m : Moment ω) (j : Nat) (outcome : Outcome) : Prop :=
  ∃ before after later r, Path start before ∧ Step before after ∧ Path after m ∧
    before.arrived = (j, .returned outcome) :: later ∧ before.coord.record? j = some r ∧ r.status = .running

theorem Path.booked (keeps : World.Keeps ω) (distinct : g.DistinctKeys) (producers : (g.allJobs.map Job.producer).Nodup)
    {setup : Setup} (graph : setup.graph = g.graph) {w : ω} (path : Path (Operation.start setup g w).moment m) :
    Runs g m ∧ Lined m ∧ ∀ j r, m.coord.record? j = some r →
      Booked w (TakenIn (Operation.start setup g w).moment m) m j r := by
  induction path with
  | refl =>
    refine ⟨.start graph w, ?_, booked_start setup g w _⟩
    intro line member
    cases member
  | @tail m m' path step ih =>
    obtain ⟨runs, lined, booked⟩ := ih
    refine ⟨runs.step step, step.lined keeps runs distinct lined, ?_⟩
    intro j r' found'
    obtain ⟨r, found, _⟩ := step.evolved.source found'
    apply step.booked keeps runs distinct producers found found'
    · intro outcome later arrived running
      exact ⟨m, m', later, r, path, step, .refl, arrived, found, running⟩
    · apply (booked j r found).mono
      rintro outcome ⟨before, after, later, q, first, taken, rest, arrived, held, running⟩
      exact ⟨before, after, later, q, first, taken, rest.tail step, arrived, held, running⟩

/-- What a job has left behind: in its record, in the manifest, and in the store besides what was there before. -/
structure Left (m : Moment ω) (origin : ω) (r : JobRecord) (stock : List (String × Blob)) : Prop where
  names : r.artifacts = stock.map Prod.fst
  listed : ∀ entry, entry ∈ m.coord.entries ∧ entry.producer = r.job.producer ↔
    ∃ artifact ∈ stock, entry = .of ⟨r.job.producer, artifact.1⟩ artifact.2
  contents : ∀ name, ArtifactStore.get? m.world ⟨r.job.producer, name⟩ =
    (ArtifactStore.get? origin ⟨r.job.producer, name⟩).or (Table.get? stock name)

theorem Booked.stocked {origin : ω} (booked : Booked origin came m j r) : ∃ stock, r.artifacts = stock.map Prod.fst ∧
      m.Stocked (fun name => ArtifactStore.get? origin ⟨r.job.producer, name⟩) j r.job.producer stock := by
  cases booked with
  | empty _ names stocked => exact ⟨[], names, stocked⟩
  | stored _ _ names _ _ stocked => exact ⟨_, names, stocked⟩
  | refused _ _ _ _ names stocked => exact ⟨_, names, stocked⟩

theorem left_of_stocked {origin : ω} (runs : Runs g m) (producers : (g.allJobs.map Job.producer).Nodup)
    (lined : Lined m) (booked : ∀ j r, m.coord.record? j = some r → Booked origin came m j r)
    (found : m.coord.record? j = some r) {stock : List (String × Blob)}
    (names : r.artifacts = stock.map Prod.fst)
    (stocked : m.Stocked (fun name => ArtifactStore.get? origin ⟨r.job.producer, name⟩) j r.job.producer stock) :
    m.Left origin r stock := by
  have line {k : Nat} {q : JobRecord} {stock : List (String × Blob)} {entry : Entry}
      (stocked : m.Stocked (fun name => ArtifactStore.get? origin ⟨q.job.producer, name⟩) k q.job.producer stock) :
      (k, entry) ∈ m.coord.manifest ↔ ∃ artifact ∈ stock, entry = .of ⟨q.job.producer, artifact.1⟩ artifact.2 := by
    have member : (k, entry) ∈ m.coord.manifest ↔ (k, entry) ∈ m.coord.manifest.filter (·.1 = k) := by simp
    rw [member, stocked.manifest, List.mem_map]
    simp only [Prod.mk.injEq, true_and, eq_comm]
  refine ⟨names, fun entry => ⟨?_, ?_⟩, stocked.contents⟩
  · rintro ⟨listed, producer⟩
    obtain ⟨k, member⟩ := mem_entries.1 listed
    obtain ⟨q, held⟩ := lined _ member
    obtain ⟨others, _, kept⟩ := (booked k q held).stocked
    obtain ⟨artifact, _, rfl⟩ := (line kept).1 member
    cases runs.same_producer producers found held producer.symm
    exact (line stocked).1 member
  · intro listed
    refine ⟨mem_entries.2 ⟨j, (line stocked).2 listed⟩, ?_⟩
    obtain ⟨artifact, _, rfl⟩ := listed
    rfl

theorem Step.returned (step : Step m m') {j : Nat} {r : JobRecord} {outcome : Outcome} {later : List (Nat × Completion)}
    (arrived : m.arrived = (j, .returned outcome) :: later) (found : m.coord.record? j = some r)
    (running : r.status = .running) : ∃ now taken rest entries fault,
      m.coord.Returned m'.coord m.world m'.world now j r outcome taken rest entries fault := by
  cases step with
  | collects collected =>
    cases arrived
    cases collect_ok collected with
    | dropped idle => exact (idle r found running).elim
    | taken held _ returned =>
      cases held.symm.trans found
      exact ⟨_, _, _, _, _, returned⟩
  | opens | takes | delivers | awaits | looks | expires => cases arrived

/-- A job whose worker offered artifacts of which one was refused after others has failed, and has kept the others. -/
theorem TakenIn.broken (keeps : World.Keeps ω) (distinct : g.DistinctKeys)
    (producers : (g.allJobs.map Job.producer).Nodup) {setup : Setup} (graph : setup.graph = g.graph) {w : ω}
    {outcome : Outcome} (came : TakenIn (Operation.start setup g w).moment m j outcome)
    (found : m.coord.record? j = some r) {taken : List (String × Blob)} {name : String}
    (refuses : Refuses (fun name => ArtifactStore.get? w ⟨r.job.producer, name⟩) outcome.offered taken name) :
    r.status = .failed ∧ r.artifacts = taken.map Prod.fst := by
  obtain ⟨before, after, later, q, path, step, onward, arrived, held, running⟩ := came
  obtain ⟨q', held', evolves⟩ := step.evolved.record held
  obtain ⟨now, accepted, rest, entries, fault, returned⟩ := step.returned arrived held running
  obtain ⟨_, _, booked⟩ := path.booked keeps distinct producers graph
  -- Nothing was booked for the job before, so the store held for it what it held at the start.
  obtain ⟨names, empty⟩ : q.artifacts = [] ∧ before.Stocked
      (fun name => ArtifactStore.get? w ⟨q.job.producer, name⟩) j q.job.producer [] := by
    cases booked j q held with
    | empty _ names stocked => exact ⟨names, stocked⟩
    | stored _ status => cases running.symm.trans status
    | refused _ _ status => cases running.symm.trans status
  have initially (name : String) : ArtifactStore.get? before.world ⟨q.job.producer, name⟩ =
      ArtifactStore.get? w ⟨q.job.producer, name⟩ := by
    rw [empty.contents]
    simp [Table.get?]
  have record := returned.records.found held
  simp only [aftermath, if_true] at record
  have kept := onward.evolved.frozen record (outcome.ending_terminal fault)
  cases found.symm.trans kept
  have reach := keeps.stored_or_refused returned.stored returned.reach
  obtain ⟨_, _, single, fresh⟩ := keeps.stored_contents returned.stored
  simp only [initially, ← returned.offered] at reach fresh
  rcases reach with ⟨rfl, _⟩ | ⟨other, problem, again, rfl⟩
  · -- The store has taken everything, also the name that is in use.
    obtain ⟨⟨blob, tail, split⟩, _, _, used⟩ := refuses
    rw [← (returned.offered.trans (List.append_nil _)), split, List.map_append, List.map_cons] at single fresh
    rcases used with present | member
    · exact (present (fresh name (by simp))).elim
    · exact (List.disjoint_of_nodup_append single member (by simp)).elim
  · have same : accepted = taken := again.unique refuses
    subst same
    have done : ∃ steps artifacts, outcome = .succeeded steps artifacts := by
      obtain ⟨⟨blob, tail, split⟩, _⟩ := refuses
      cases outcome with
      | succeeded steps artifacts => exact ⟨steps, artifacts, rfl⟩
      | cancelled | failed => simp [Outcome.offered] at split
    obtain ⟨steps, artifacts, rfl⟩ := done
    exact ⟨rfl, by simp [JobRecord.moved, names]⟩

/-- Whatever the store held before the run, at every moment a job has left nothing behind, or it has succeeded and left
all that it published, or a name that it published was in use: then it has failed, and what comes before this name has
been left. So a job that has not succeeded has left nothing if and only if no name was refused after others had been
taken. -/
theorem left_nothing_iff (keeps : World.Keeps ω) (distinct : g.DistinctKeys)
    (producers : (g.allJobs.map Job.producer).Nodup) {setup : Setup} (graph : setup.graph = g.graph) {w : ω}
    (reached : Path (Operation.start setup g w).moment m) {j : Nat} {r : JobRecord}
    (found : m.coord.record? j = some r) :
    (∃ stock, m.Left w r stock ∧
      (stock = [] ∨
        (r.status = .succeeded ∧
          ∃ outcome, TakenIn (Operation.start setup g w).moment m j outcome ∧ outcome.offered = stock) ∨
        r.status = .failed ∧ r.cause = some .executorError ∧
          ∃ outcome name, TakenIn (Operation.start setup g w).moment m j outcome ∧
            Refuses (fun name => ArtifactStore.get? w ⟨r.job.producer, name⟩) outcome.offered stock name)) ∧
    (r.status = .succeeded ∨ m.Left w r [] ↔
      ¬ ∃ outcome taken name, TakenIn (Operation.start setup g w).moment m j outcome ∧
        Refuses (fun name => ArtifactStore.get? w ⟨r.job.producer, name⟩) outcome.offered taken name ∧ taken ≠ []) := by
  obtain ⟨runs, lined, booked⟩ := reached.booked keeps distinct producers graph
  constructor
  · cases booked j r found with
    | empty _ names stocked => exact ⟨[], left_of_stocked runs producers lined booked found names stocked, Or.inl rfl⟩
    | stored came status names _ _ stocked =>
      refine ⟨_, left_of_stocked runs producers lined booked found names stocked, Or.inr (Or.inl ⟨status, ?_⟩)⟩
      exact ⟨_, came, rfl⟩
    | refused came refuses status cause names stocked =>
      refine ⟨_, left_of_stocked runs producers lined booked found names stocked, Or.inr (Or.inr ⟨status, cause, ?_⟩)⟩
      exact ⟨_, _, came, refuses⟩
  · constructor
    · rintro atomic ⟨outcome, taken, name, came, refuses, some⟩
      obtain ⟨failed, names⟩ := came.broken keeps distinct producers graph found refuses
      rcases atomic with succeeded | nothing
      · cases failed.symm.trans succeeded
      · apply some
        simpa using names.symm.trans nothing.names
    · intro unbroken
      cases booked j r found with
      | empty _ names stocked => exact Or.inr (left_of_stocked runs producers lined booked found names stocked)
      | stored _ status => exact Or.inl status
      | @refused _ _ taken name came refuses _ _ names stocked =>
        by_cases none : taken = []
        · subst none
          exact Or.inr (left_of_stocked runs producers lined booked found names stocked)
        · exact (unbroken ⟨_, taken, name, came, refuses, none⟩).elim

/-- A turn with workers out takes in the first of those that have come back by then. -/
theorem turn_via {o started o' : Operation ω} {busy more : Bool} (done : o.turn = .ok (o', more))
    (advanced : o.advance = .ok (started, busy)) (working : started.coord.inFlight ≠ [])
    {first : Nat × Completion} {rest : List (Nat × Completion)} (arrived : started.rested.arrived = first :: rest) :
    more = true ∧ ∃ after, Path o.moment started.rested ∧ Step started.rested after ∧ Path after o'.moment := by
  obtain ⟨same, flag, again, ending⟩ := Operation.turn_ok done
  cases advanced.symm.trans again
  rcases ending with ⟨resting, _⟩ | ⟨_, gathered, rfl⟩
  · exact (working resting).elim
  · obtain ⟨path, delivered⟩ := Operation.advance_path advanced
    obtain ⟨_, collected, settled, world, arrivals, stopped, rfl⟩ := Operation.gather_ok.1 gathered
    rw [arrived] at arrivals
    obtain ⟨⟨c, w⟩, taken, others⟩ := Fallible.foldlM_cons_ok.1 arrivals
    have step : Step started.rested ⟨c, w, rest, []⟩ := by
      have collects : Step ⟨started.rested.coord, started.rested.world, first :: rest, []⟩ ⟨c, w, rest, []⟩ :=
        .collects taken
      rwa [← arrived] at collects
    have looked : Path (⟨collected, world, [], []⟩ : Moment ω) ⟨settled, world, [], []⟩ :=
      .head .looks (expire_path _ stopped)
    refine ⟨rfl, _, path.tail (.awaits delivered working), step, (collect_path _ others).trans (looked.trans ?_)⟩
    exact Operation.deliver_path ⟨settled, world⟩

def packing : Pipeline :=
  { name := "packing"
    stages := [{ name := "pack", steps := [{ uses := "shell" }], produces := ["app", "manual"] }] }

def packingGraph : RunGraph :=
  { graph := { stages := packing.stages, needs := [[]], dependents := [[]], order := [0] }
    jobs := [[{ stage := "pack", steps := [{ uses := "shell" }], produces := ["app", "manual"] }]]
    context := some pushed }

def packer : Craft := fun _ => ([("app", [0]), ("manual", [1])], { exitStatus := 0 })

def archive : Workshop packer := { store := ⟨[(⟨{ stage := "pack" }, "manual"⟩, [])]⟩ }

theorem packing_built : RunGraph.build packing (some pushed) = .ok packingGraph := by decide +kernel

theorem packing_distinct : packingGraph.DistinctKeys := by decide +kernel

theorem packing_producers : (packingGraph.allJobs.map Job.producer).Nodup := by decide +kernel

/-- The run comes to its end, and on the way the job offers a program, which is free, and a manual, which is not. -/
theorem packing_offers :
    let start := Operation.start { graph := packingGraph.graph, context := pushed, workers := 1 } packingGraph archive
    ∃ final r outcome, start.run = .ok final ∧ Path start.moment final.moment ∧
      final.coord.record? 0 = some r ∧ r.job.producer = { stage := "pack" } ∧
      TakenIn start.moment final.moment 0 outcome ∧
      Refuses (fun name => ArtifactStore.get? archive ⟨r.job.producer, name⟩) outcome.offered [("app", [0])] "manual" := by
  intro start
  have populated := RunGraph.build_populated packing_built
  have orderly : Orderly packingGraph Workshop.roster start.moment := orderly_start rfl Workshop.roster rfl
  obtain ⟨started, busy, steps, artifacts, q, advanced, flying, arrived, offered, held, running⟩ :
      ∃ (started : Operation (Workshop packer)) (busy : Bool) (steps : List StepResult) (artifacts : Table String Blob)
        (q : JobRecord), start.advance = .ok (started, busy) ∧ started.coord.inFlight = [0] ∧
        started.rested.arrived = [(0, .returned (.succeeded steps artifacts))] ∧
        inNameOrder artifacts = [("app", [0]), ("manual", [1])] ∧
        started.rested.coord.record? 0 = some q ∧ q.status = .running := by
    refine ⟨_, _, _, _, _, by cbv, by cbv, by cbv, by cbv, by cbv, by cbv⟩
  have unlimited : ∀ job ∈ packingGraph.allJobs, start.coord.effectiveTimeout job = none := by decide +kernel
  have calm : Operation.Calm packingGraph start :=
    Workshop.calm (by decide +kernel) fun job listed => not_immeasurable (unlimited job listed)
  obtain ⟨n, last, final, turns, ended, completed⟩ := calm.ends populated packing_distinct
    (RunGraph.build_written packing_built) (Nat.le_refl 1) orderly (Workshop.swift.fair populated packing_distinct orderly)
  obtain ⟨r, only, job⟩ : ∃ r, final.coord.records = [r] ∧ r.job.producer = { stage := "pack" } := by
    obtain ⟨r, only, same⟩ := List.map_eq_singleton_iff.1 completed.jobs
    exact ⟨r, only, by rw [same]; decide +kernel⟩
  refine ⟨final, r, .succeeded steps artifacts, completed.done, completed.path, ?_, job, ?_, ?_⟩
  · rw [record?, only, List.getElem?_cons_zero]
  · -- The worker is taken in during the first turn, after which there is more to do.
    have working : started.coord.inFlight ≠ [] := by simp [flying]
    cases turns with
    | none => cases (turn_via ended advanced working arrived).1
    | more first rest =>
      obtain ⟨_, after, path, step, onward⟩ := turn_via first advanced working arrived
      have rest := (onward.trans rest.path).trans (Operation.turn_path ended).1
      exact ⟨_, after, [], q, path, step, rest, arrived, held, running⟩
  · rw [Outcome.offered, offered, job]
    exact ⟨⟨[1], [], rfl⟩, by decide, by decide, Or.inl (by decide)⟩

/-- The job of packing has left something behind without having succeeded. -/
theorem packing_left :
    let start := Operation.start { graph := packingGraph.graph, context := pushed, workers := 1 } packingGraph archive
    ∃ final r stock, start.run = .ok final ∧ final.coord.record? 0 = some r ∧
      final.moment.Left archive r stock ∧ stock ≠ [] ∧ ¬ (r.status = .succeeded ∨ final.moment.Left archive r []) := by
  intro start
  obtain ⟨final, r, outcome, done, path, found, _, came, refuses⟩ := packing_offers
  obtain ⟨⟨stock, left, _⟩, atomic⟩ :=
    left_nothing_iff Workshop.keeps packing_distinct packing_producers rfl path found
  have broken : ¬ (r.status = .succeeded ∨ final.moment.Left archive r []) := by
    rw [atomic, not_not]
    exact ⟨outcome, _, _, came, refuses, by simp⟩
  refine ⟨final, r, stock, done, found, left, ?_, broken⟩
  rintro rfl
  exact broken (Or.inr left)

/-- The job of packing fails because there is a manual already, and the program stays behind: in the record, in the
manifest and in the store. -/
theorem packing_leaves_app :
    let start := Operation.start { graph := packingGraph.graph, context := pushed, workers := 1 } packingGraph archive
    packingGraph.DistinctKeys ∧ (packingGraph.allJobs.map Job.producer).Nodup ∧
      ArtifactStore.get? archive ⟨{ stage := "pack" }, "app"⟩ = none ∧
      ∃ final r, start.run = .ok final ∧ final.coord.record? 0 = some r ∧ r.status = .failed ∧
        r.artifacts = ["app"] ∧
        (∃ entry ∈ final.coord.entries, entry.producer = { stage := "pack" } ∧ entry.name = "app") ∧
        ∃ blob, ArtifactStore.get? final.world ⟨{ stage := "pack" }, "app"⟩ = some blob := by
  intro start
  obtain ⟨final, r, outcome, done, path, found, job, came, refuses⟩ := packing_offers
  obtain ⟨failed, names⟩ := came.broken Workshop.keeps packing_distinct packing_producers rfl found refuses
  obtain ⟨runs, lined, booked⟩ := path.booked Workshop.keeps packing_distinct packing_producers rfl
  obtain ⟨stock, same, stocked⟩ := (booked 0 r found).stocked
  obtain ⟨⟨name, blob⟩, rfl, rfl⟩ := List.map_eq_singleton_iff.1 (same.symm.trans names)
  obtain ⟨_, listed, contents⟩ := left_of_stocked runs packing_producers lined booked found same stocked
  rw [job] at listed contents
  refine ⟨packing_distinct, packing_producers, by decide, final, r, done, found, failed, names, ?_, blob, contents "app"⟩
  obtain ⟨member, producer⟩ := (listed _).2 ⟨_, List.mem_singleton_self _, rfl⟩
  exact ⟨_, member, producer, rfl⟩

end Moment
end Conveyor

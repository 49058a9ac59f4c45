import Conveyor.Proofs.NeedsOrder
import Conveyor.Proofs.StoreIndependence

/-! States of runs of akin pipelines. The order in which a stage lists its needs is read at one point only: when the stage
is skipped, its jobs are told which need was the first to fail or to be skipped, and for what reason. Nothing that the
coordinator does depends on what a skipped job was told. So it takes akin states to akin states: these differ at most in
the reasons and messages of skipped jobs and in the notices. -/

namespace Conveyor

open Fallible

/-- The same record, but for what a skipped job was told. -/
inductive JobRecord.Akin (r : JobRecord) : JobRecord → Prop
  | same : Akin r r
  | skipped (skipReason : Option SkipReason) (message : String) (status : r.status = .skipped) :
      Akin r { r with skipReason, message }

/-- The same remark, but for what a job is told that is skipped with it. -/
inductive Remark.Akin (next : Status) (remark : Remark) : Remark → Prop
  | same : Akin next remark remark
  | skipped (skipReason : Option SkipReason) (message : String) (status : next = .skipped) :
      Akin next remark { remark with skipReason, message }

/-- The same report, but for what skipped jobs and stages were told. -/
structure RunReport.Akin (report report' : RunReport) : Prop where
  status : report'.status = report.status
  stages : report'.stages.map (fun s => (s.name, s.status)) = report.stages.map fun s => (s.name, s.status)
  jobs : List.Forall₂ JobRecord.Akin report.jobs report'.jobs
  manifest : report'.manifest = report.manifest

namespace JobRecord.Akin

variable {r r' : JobRecord} (akin : r.Akin r')

include akin

theorem job : r'.job = r.job := by
  cases akin <;> rfl

theorem status : r'.status = r.status := by
  cases akin <;> rfl

theorem cause : r'.cause = r.cause := by
  cases akin <;> rfl

theorem eq_of_unskipped (unskipped : r.status ≠ .skipped) : r' = r := by
  cases akin with
  | same => rfl
  | skipped _ _ status => exact (unskipped status).elim

theorem changed {f : JobRecord → JobRecord} (status : ∀ r, (f r).status = r.status)
    (apart : ∀ (r : JobRecord) skipReason message, f { r with skipReason, message } = { f r with skipReason, message }) :
    (f r).Akin (f r') := by
  cases akin with
  | same => exact .same
  | skipped skipReason message skipped =>
    rw [apart r skipReason message]
    exact .skipped skipReason message ((status r).trans skipped)

theorem moved {next : Status} (legal : r.status.mayBecome next = true) (now : Double)
    {remark remark' : Remark} (remarks : remark.Akin next remark') :
    (r.moved now next remark).Akin (r'.moved now next remark') := by
  have unskipped : r.status ≠ .skipped := by
    intro skipped
    simp [skipped, Status.mayBecome, Status.successors] at legal
  rw [akin.eq_of_unskipped unskipped]
  cases remarks with
  | same => exact .same
  | skipped _ _ status => exact .skipped _ _ status

end JobRecord.Akin

private theorem rel_of_isSome {α β : Type} {related : α → β → Prop} {x : Option α} {y : Option β}
    (together : y.isSome = x.isSome) (present : ∀ a b, x = some a → y = some b → related a b) :
    Option.Rel related x y := by
  cases x with
  | none =>
    cases y with
    | none => exact .none
    | some => cases together
  | some =>
    cases y with
    | none => cases together
    | some => exact .some (present _ _ rfl rfl)

namespace Coordinator

def stageStatus (c : Coordinator) (n : Nat) : Option Status := (c.stageOutcome n).map (·.1)

theorem stageStatus_eq {c : Coordinator} {n : Nat} {outcome : Status × Option SkipReason}
    (settled : c.stageOutcome n = some outcome) : c.stageStatus n = some outcome.1 := by
  rw [stageStatus, settled]
  rfl

theorem prerequisites?_isSome_iff {c : Coordinator} {i : Nat} :
    (c.prerequisites? i).isSome = true ↔ ∀ n, c.setup.graph.Needs i n → (c.stageStatus n).isSome = true := by
  simp only [stageStatus, Option.isSome_map]
  constructor
  · intro settled n need
    obtain ⟨outcomes, settled⟩ := Option.isSome_iff_exists.1 settled
    obtain ⟨_, _, known⟩ := mapM_some_member settled need
    obtain ⟨outcome, ended, _⟩ := Option.map_eq_some_iff.1 known
    rw [ended]
    rfl
  · intro ended
    exact Option.isSome_iff_exists.2 (prerequisites?_isSome ended)

theorem mem_prerequisites {c : Coordinator} {i : Nat} {outcomes : List (String × Status × Option SkipReason)}
    (settled : c.prerequisites? i = some outcomes) {outcome : String × Status × Option SkipReason} :
    outcome ∈ outcomes ↔
      ∃ n, c.setup.graph.Needs i n ∧ c.stageName n = outcome.1 ∧ c.stageOutcome n = some outcome.2 := by
  rw [prerequisites?_eq settled, List.mem_map]
  constructor
  · rintro ⟨n, need, rfl⟩
    obtain ⟨_, _, known⟩ := mapM_some_member settled need
    obtain ⟨outcome, ended, _⟩ := Option.map_eq_some_iff.1 known
    refine ⟨n, need, rfl, ?_⟩
    rw [ended]
    rfl
  · rintro ⟨n, need, name, ended⟩
    refine ⟨n, need, ?_⟩
    rw [ended]
    exact Prod.ext name rfl

theorem exists_prerequisite {c : Coordinator} {i : Nat} {outcomes : List (String × Status × Option SkipReason)}
    (settled : c.prerequisites? i = some outcomes) (status : Status) :
    (∃ outcome ∈ outcomes, outcome.2.1 = status) ↔
      ∃ n, c.setup.graph.Needs i n ∧ c.stageStatus n = some status := by
  constructor
  · rintro ⟨outcome, member, rfl⟩
    obtain ⟨n, need, _, ended⟩ := (mem_prerequisites settled).1 member
    exact ⟨n, need, stageStatus_eq ended⟩
  · rintro ⟨n, need, state⟩
    obtain ⟨outcome, ended, rfl⟩ := Option.map_eq_some_iff.1 state
    exact ⟨(c.stageName n, outcome), (mem_prerequisites settled).2 ⟨n, need, rfl, ended⟩, rfl⟩

theorem stageReports_standings (c : Coordinator) : c.stageReports.map (fun s => (s.name, s.status)) =
    c.setup.graph.order.map fun i => (c.stageName i, (c.stageStatus i).getD .failed) := by
  simp only [stageReports, List.map_map, Function.comp_def]
  apply List.map_congr_left
  intro i _
  rw [stageName, stageStatus]
  cases c.stageOutcome i <;> rfl

/-- The same state of two runs with akin graphs, but for what skipped jobs were told, and for the notices. -/
structure Akin (c c' : Coordinator) : Prop where
  graph : c.setup.graph.Akin c'.setup.graph
  setup : c'.setup = { c.setup with graph := c'.setup.graph }
  records : ∀ j, Option.Rel JobRecord.Akin (c.record? j) (c'.record? j)
  opened : c'.opened = c.opened
  ready : c'.ready = c.ready
  inFlight : c'.inFlight = c.inFlight
  tokens : c'.tokens = c.tokens
  deadlines : c'.deadlines = c.deadlines
  manifest : c'.manifest = c.manifest
  requests : c'.requests = c.requests

/-- Both runs go on in akin states, or both break off in such states with one fault. -/
abbrev Together : Except (Halt Coordinator) Coordinator → Except (Halt Coordinator) Coordinator → Prop :=
  Paired (Halt.Alike Akin) Akin

inductive Beside {τ : Type} : Coordinator × τ → Coordinator × τ → Prop
  | intro {c c' : Coordinator} (beside : τ) (akin : c.Akin c') : Beside (c, beside) (c', beside)

namespace Akin

variable {c c' : Coordinator} (akin : c.Akin c')

include akin

theorem context : c'.setup.context = c.setup.context := by rw [akin.setup]

theorem workers : c'.setup.workers = c.setup.workers := by rw [akin.setup]

theorem timeout : c'.setup.timeout = c.setup.timeout := by rw [akin.setup]

theorem found {j : Nat} {r : JobRecord} (found : c.record? j = some r) :
    ∃ r', c'.record? j = some r' ∧ r.Akin r' := by
  have places := akin.records j
  rw [found] at places
  generalize c'.record? j = other at places
  cases places with
  | some alike => exact ⟨_, rfl, alike⟩

theorem absent {j : Nat} (absent : c.record? j = none) : c'.record? j = none := by
  have places := akin.records j
  rw [absent] at places
  generalize c'.record? j = other at places
  cases places
  rfl

theorem sameJobs : SameJobs c c' := by
  apply List.ext_getElem?
  intro j
  rw [List.getElem?_map, List.getElem?_map]
  change (c'.record? j).map _ = (c.record? j).map _
  cases found : c.record? j with
  | none => rw [akin.absent found]
  | some r =>
    obtain ⟨r', found', alike⟩ := akin.found found
    rw [found', Option.map_some, Option.map_some, alike.job]

theorem update (i : Nat) {f f' : JobRecord → JobRecord}
    (kept : ∀ r r', c.record? i = some r → r.Akin r' → (f r).Akin (f' r')) : (c.update i f).Akin (c'.update i f') := by
  refine { akin with records := fun j => ?_ }
  rw [record?_update, record?_update]
  cases found : c.record? j with
  | none =>
    rw [akin.absent found]
    exact .none
  | some r =>
    obtain ⟨r', found', alike⟩ := akin.found found
    rw [found']
    by_cases here : j = i
    · subst here
      simpa using Option.Rel.some (kept r r' found alike)
    · simpa [here] using Option.Rel.some alike

/-- A change of both records that has nothing to do with what the job was told. -/
theorem edit (i : Nat) {f : JobRecord → JobRecord} (status : ∀ r, (f r).status = r.status)
    (apart : ∀ (r : JobRecord) skipReason message, f { r with skipReason, message } = { f r with skipReason, message }) :
    (c.update i f).Akin (c'.update i f) :=
  akin.update i fun _ _ _ alike => alike.changed status apart

theorem logged (log log' : List Notice) : Akin { c with log } { c' with log := log' } :=
  { akin with }

variable {next : Status} {remark remark' : Remark} {σ : Type}

theorem move (now : Double) (i : Nat) (remarks : remark.Akin next remark') :
    Together (c.move now i next remark) (c'.move now i next remark') := by
  unfold Coordinator.move
  cases found : c.record? i with
  | none =>
    rw [akin.absent found]
    exact .ok akin
  | some r =>
    obtain ⟨r', found', alike⟩ := akin.found found
    simp only [found', alike.status, alike.job]
    split
    next legal =>
      refine .ok (logged (akin.update i fun q q' held still => ?_) _ _)
      cases found.symm.trans held
      exact still.moved legal now remarks
    next => exact .error (.intro _ akin)

theorem askToStop (i : Nat) (job : String) : (c.askToStop i job).Akin (c'.askToStop i job) := by
  unfold Coordinator.askToStop
  simp only [akin.sameJobs.slot, akin.tokens]
  split
  next =>
    have requests : c'.requests ++ [Request.cancel (c.slot i)] = c.requests ++ [Request.cancel (c.slot i)] := by
      rw [akin.requests]
    exact { akin with tokens := rfl, requests }
  next => exact akin

theorem stopSibling (now : Double) {failed failed' : JobRecord} (same : failed'.job = failed.job)
    (i : Nat) : Together (stopSibling now failed c i) (Coordinator.stopSibling now failed' c' i) := by
  unfold Coordinator.stopSibling
  cases found : c.record? i with
  | none =>
    rw [akin.absent found]
    exact .ok akin
  | some r =>
    obtain ⟨r', found', alike⟩ := akin.found found
    simp only [found', alike.status, alike.job, same]
    split
    next => exact akin.move now i .same
    next => exact akin.move now i .same
    next => exact .ok (akin.askToStop i _)
    next => exact .ok akin

theorem failFast (now : Double) (i : Nat) : Together (c.failFast now i) (c'.failFast now i) := by
  unfold Coordinator.failFast
  cases found : c.record? i with
  | none =>
    rw [akin.absent found]
    exact .ok akin
  | some failed =>
    obtain ⟨failed', found', alike⟩ := akin.found found
    have asks : (c'.stage? failed.job.stage).any (·.failFast) = (c.stage? failed.job.stage).any (·.failFast) := by
      have stages := akin.graph.stages
      unfold stage?
      generalize c.setup.graph.stages = stages, c'.setup.graph.stages = stages' at stages
      induction stages with
      | nil => rfl
      | cons first _ ih =>
        rw [List.find?_cons, List.find?_cons, first.name]
        split
        next => simp [first.failFast]
        next => exact ih
    simp only [found', alike.job, asks, akin.sameJobs.members]
    split
    next =>
      apply Paired.foldlM (fun _ => True) _ trivial akin (fun _ _ _ _ _ => trivial)
      intro d d' j _ between
      exact between.stopSibling now alike.job j
    next => exact .ok akin

theorem transition (now : Double) (i : Nat) (remarks : remark.Akin next remark') :
    Together (c.transition now i next remark) (c'.transition now i next remark') := by
  unfold Coordinator.transition
  apply (akin.move now i remarks).bind
  intro d d' _ moved
  split
  next => exact moved.failFast now i
  next => exact .ok moved

/-! ### Stages -/

theorem stageName (n : Nat) : c'.stageName n = c.stageName n := by
  have places := Graph.place_akin akin.graph.stages n
  unfold Coordinator.stageName
  generalize c.setup.graph.stages[n]? = stage, c'.setup.graph.stages[n]? = stage' at places
  cases places with
  | none => rfl
  | some alike => exact alike.name

theorem standings (stage : String) :
    (c'.recordsOf stage).map JobRecord.standing = (c.recordsOf stage).map JobRecord.standing := by
  apply recordsOf_congr akin.sameJobs
  intro j r r' found found' _
  obtain ⟨_, again, alike⟩ := akin.found found
  cases found'.symm.trans again
  rw [JobRecord.standing, JobRecord.standing, alike.job, alike.status]

theorem stageStatus (n : Nat) : c'.stageStatus n = c.stageStatus n := by
  have statuses : (c'.recordsOf (c.stageName n)).map (·.status) = (c.recordsOf (c.stageName n)).map (·.status) := by
    simpa [JobRecord.standing, Function.comp_def] using congrArg (List.map Prod.snd) (akin.standings (c.stageName n))
  have unended := congrArg (List.any · fun status => !status.isTerminal) statuses
  have every (status : Status) := congrArg (List.all · fun other => decide (other = status)) statuses
  have name := akin.stageName n
  simp only [List.any_map, List.all_map, Function.comp_def] at unended every
  unfold Coordinator.stageName at unended every name
  simp only [Coordinator.stageStatus, stageOutcome, akin.opened, name, unended, every]
  split
  next => rfl
  next =>
    split
    next => rfl
    next =>
      split
      next => rfl
      next => split <;> rfl

theorem moveAll (now : Double) (stage : String) (remarks : remark.Akin next remark') :
    Together (c.moveAll now stage next remark) (c'.moveAll now stage next remark') := by
  unfold Coordinator.moveAll
  rw [akin.sameJobs.members]
  apply Paired.foldlM (fun _ => True) _ trivial akin (fun _ _ _ _ _ => trivial)
  intro d d' i _ between
  exact between.transition now i remarks

theorem release (now : Double) (stage : String) :
    Together (c.release now stage) (c'.release now stage) := by
  unfold Coordinator.release
  apply (akin.moveAll now stage .same).bind
  intro d d' _ moved
  have slots : d'.slot = d.slot := funext moved.sameJobs.slot
  exact .ok { moved with ready := by rw [moved.ready, moved.sameJobs.members, slots] }

theorem gate {s s' : Stage} (stages : s.Akin s') :
    Paired (fun closed closed' => closed.1.Akin closed'.1) Akin (c.gate s) (c'.gate s') := by
  unfold Coordinator.gate
  rw [stages.condition, akin.context]
  split
  next => exact .ok akin
  next =>
    split
    next => exact .ok akin
    next =>
      split
      next => exact .ok akin
      next => exact .error akin
      next => exact .error (akin.logged _ _)

/-- The needs of a stage have ended in the same states, though they may be listed in another order. -/
theorem prerequisites (i : Nat) :
    Option.Rel (fun outcomes outcomes' => ∀ status, (∃ outcome ∈ outcomes', outcome.2.1 = status) ↔
      ∃ outcome ∈ outcomes, outcome.2.1 = status) (c.prerequisites? i) (c'.prerequisites? i) := by
  have together : (c'.prerequisites? i).isSome = (c.prerequisites? i).isSome := by
    rw [Bool.eq_iff_iff, prerequisites?_isSome_iff, prerequisites?_isSome_iff]
    simp only [akin.graph.needs, akin.stageStatus]
  apply rel_of_isSome together
  intro outcomes outcomes' settled settled' status
  rw [exists_prerequisite settled', exists_prerequisite settled]
  simp only [akin.graph.needs, akin.stageStatus]

theorem openStage (now : Double) (i : Nat) {s s' : Stage} (stages : s.Akin s')
    {outcomes outcomes' : List (String × Status × Option SkipReason)}
    (ended : ∀ status, (∃ outcome ∈ outcomes', outcome.2.1 = status) ↔ ∃ outcome ∈ outcomes, outcome.2.1 = status) :
    Together (c.openStage now i s outcomes) (c'.openStage now i s' outcomes') := by
  have opened : Akin { c with opened := c.opened ++ [i] } { c' with opened := c'.opened ++ [i] } :=
    { akin with opened := by rw [akin.opened] }
  have first (status : Status) : Option.Rel (fun _ _ => True) (outcomes.find? (·.2.1 = status))
      (outcomes'.find? (·.2.1 = status)) := by
    refine rel_of_isSome ?_ fun _ _ _ _ => trivial
    rw [Bool.eq_iff_iff, List.find?_isSome, List.find?_isSome]
    simpa using ended status
  have failed := first .failed
  have skipped := first .skipped
  unfold Coordinator.openStage
  rw [stages.name]
  generalize outcomes.find? (·.2.1 = .failed) = left, outcomes'.find? (·.2.1 = .failed) = left' at failed
  generalize outcomes.find? (·.2.1 = .skipped) = right, outcomes'.find? (·.2.1 = .skipped) = right' at skipped
  cases failed with
  | some => exact opened.moveAll now s.name (.skipped _ _ rfl)
  | none =>
    cases skipped with
    | some => exact opened.moveAll now s.name (.skipped _ _ rfl)
    | none =>
      have gates := opened.gate stages
      simp only
      generalize Coordinator.gate { c with opened := c.opened ++ [i] } s = passage at gates
      generalize Coordinator.gate { c' with opened := c'.opened ++ [i] } s' = passage' at gates
      cases gates with
      | ok passed => exact passed.release now s.name
      | error shut => exact shut.moveAll now s.name (.skipped _ _ rfl)

theorem resolveStage (now : Double) (changed : Bool) (i : Nat) :
    Paired (Halt.Alike Akin) Beside (resolveStage now (c, changed) i) (Coordinator.resolveStage now (c', changed) i) := by
  unfold Coordinator.resolveStage
  simp only [akin.opened]
  split
  next => exact .ok (.intro changed akin)
  next =>
    have places := Graph.place_akin akin.graph.stages i
    have ended := akin.prerequisites i
    generalize c.setup.graph.stages[i]? = stage, c'.setup.graph.stages[i]? = stage' at places
    generalize c.prerequisites? i = settled, c'.prerequisites? i = settled' at ended
    cases places with
    | none => exact .ok (.intro changed akin)
    | some stages =>
      cases ended with
      | none => exact .ok (.intro changed akin)
      | some outcomes =>
        apply (akin.openStage now i stages outcomes).bind
        intro d d' _ opened
        exact .ok (.intro true opened)

theorem resolveStages (now : Double) :
    Paired (Halt.Alike Akin) Beside (c.resolveStages now) (c'.resolveStages now) := by
  unfold Coordinator.resolveStages
  rw [akin.graph.order]
  apply Paired.foldlM (fun _ => True) _ trivial (.intro false akin) (fun _ _ _ _ _ => trivial)
  rintro _ _ i _ ⟨changed, between⟩
  exact between.resolveStage now changed i

/-! ### Jobs -/

theorem effectiveTimeout (job : Job) : c'.effectiveTimeout job = c.effectiveTimeout job := by
  unfold Coordinator.effectiveTimeout
  rw [akin.timeout]

theorem schedule (now : Double) (i : Nat) (job : Job) : Together (c.schedule now i job) (c'.schedule now i job) := by
  unfold Coordinator.schedule
  rw [akin.effectiveTimeout]
  split
  next => exact .ok akin
  next =>
    split
    next => exact .error (.intro _ akin)
    next => exact .ok { akin with deadlines := by rw [akin.deadlines] }

theorem launched (i : Nat) (job : Job) (inputs : Inputs) :
    Akin ({ c with inFlight := c.inFlight ++ [i] }.request (.launch i (Worker.start job c.setup.context inputs)))
      ({ c' with inFlight := c'.inFlight ++ [i] }.request (.launch i (Worker.start job c'.setup.context inputs))) := by
  refine { akin with inFlight := congrArg (· ++ [i]) akin.inFlight, requests := ?_ }
  simp only [request]
  rw [akin.requests, akin.context]

theorem launch (now : Double) (i : Nat) (job : Job) (inputs : Inputs) :
    Together (c.launch now i job inputs) (c'.launch now i job inputs) := by
  unfold Coordinator.launch
  have begun : Akin { c with tokens := c.tokens.insert i false } { c' with tokens := c'.tokens.insert i false } :=
    { akin with tokens := by rw [akin.tokens] }
  have timed := begun.edit i (f := fun r => { r with startedAt := some (.float now) }) (fun _ => rfl) fun _ _ _ => rfl
  apply (timed.transition now i .same).bind
  intro d d' _ running
  apply (running.schedule now i job).bind
  intro e e' _ limited
  exact .ok (limited.launched i job inputs)

theorem takeUp [ArtifactStore σ] (store : σ) (now : Double) (i : Nat) :
    Paired (Halt.Alike Akin) Beside (c.takeUp store now i) (c'.takeUp store now i) := by
  unfold Coordinator.takeUp
  cases found : c.record? i with
  | none =>
    rw [akin.absent found]
    exact .ok (.intro 0 akin)
  | some r =>
    obtain ⟨r', found', alike⟩ := akin.found found
    have read : Inputs.resolve store c'.recordsOf r.job.consumes = Inputs.resolve store c.recordsOf r.job.consumes :=
      Inputs.resolve_congr (fun ref _ => akin.standings ref.stage) fun _ _ _ _ => rfl
    simp only [found', alike.status, alike.job, read]
    split
    next => exact .ok (.intro 0 akin)
    next =>
      split
      next =>
        split
        next => exact .error (.intro _ akin)
        next =>
          apply (akin.transition now i .same).bind
          intro d d' _ failed
          exact .ok (.intro 1 failed)
      next inputs _ =>
        apply (akin.launch now i r.job inputs).bind
        intro d d' _ launched
        exact .ok (.intro 1 launched)

theorem dispatchFrom [ArtifactStore σ] (store : σ) (now : Double) (queue : List Nat) (taken : Nat) :
    Paired (Halt.Alike Akin) Beside (dispatchFrom store now queue c taken)
      (Coordinator.dispatchFrom store now queue c' taken) := by
  induction queue generalizing c c' taken with
  | nil => exact .ok (.intro taken akin)
  | cons i queue ih =>
    have full : (c'.inFlight.length ≥ c'.setup.workers) = (c.inFlight.length ≥ c.setup.workers) := by
      rw [akin.inFlight, akin.workers]
    simp only [Coordinator.dispatchFrom, full]
    split
    next => exact .ok (.intro taken akin)
    next =>
      have shortened : Akin { c with ready := queue } { c' with ready := queue } := { akin with ready := rfl }
      apply (shortened.takeUp store now i).bind
      rintro _ _ _ ⟨count, after⟩
      exact ih after (taken + count)

theorem dispatch [ArtifactStore σ] (store : σ) (now : Double) :
    Paired (Halt.Alike Akin) Beside (c.dispatch store now) (c'.dispatch store now) := by
  unfold Coordinator.dispatch
  rw [akin.ready]
  exact akin.dispatchFrom store now c.ready 0

theorem patience (now : Double) : c'.patience now = c.patience now := by
  unfold Coordinator.patience
  rw [akin.deadlines]

theorem byRank {α : Type} (items : List (Nat × α)) : c'.byRank items = c.byRank items := by
  unfold Coordinator.byRank
  simp only [akin.sameJobs.rank]

/-- Both runs store the same artifacts, up to the first that the store does not take. -/
theorem commit [ArtifactStore σ] (i : Nat) (job : Job) (artifacts : List (String × Blob)) (store : σ) :
    Beside (commit i job artifacts c store) (Coordinator.commit i job artifacts c' store) := by
  induction artifacts generalizing c c' store with
  | nil => exact .intro (store, none) akin
  | cons artifact rest ih =>
    obtain ⟨name, blob⟩ := artifact
    unfold Coordinator.commit
    cases ArtifactStore.put store ⟨job.producer, name⟩ blob with
    | error fault => exact .intro (store, some fault) akin
    | ok stored =>
      obtain ⟨entry, after⟩ := stored
      have listed : Akin { c with manifest := c.manifest ++ [(c.rank i, entry)] }
          { c' with manifest := c'.manifest ++ [(c'.rank i, entry)] } :=
        { akin with manifest := by rw [akin.manifest, akin.sameJobs.rank] }
      have published := listed.edit i (f := fun r => { r with artifacts := r.artifacts ++ [name] }) (fun _ => rfl)
        fun _ _ _ => rfl
      exact ih (published.logged _ _) after

theorem settled (store : σ) (now : Double) (i : Nat) (next : Status) (remark : Remark) :
    Paired (Halt.Alike Beside) Beside (c.settled store now i next remark) (c'.settled store now i next remark) := by
  have moved := akin.transition now i (.same : remark.Akin next remark)
  unfold Coordinator.settled
  generalize c.transition now i next remark = result, c'.transition now i next remark = result' at moved
  cases moved with
  | ok after => exact .ok (.intro store after)
  | error halted =>
    obtain ⟨fault, after⟩ := halted
    exact .error (.intro fault (.intro store after))

theorem conclude [ArtifactStore σ] (store : σ) (now : Double) (i : Nat) (job : Job)
    (outcome : Outcome) :
    Paired (Halt.Alike Beside) Beside (c.conclude store now i job outcome) (c'.conclude store now i job outcome) := by
  have worked (steps : List StepResult) := akin.edit i (f := fun r => { r with steps }) (fun _ => rfl) fun _ _ _ => rfl
  cases outcome with
  | cancelled message steps => exact (worked steps).settled store now i _ _
  | failed cause message steps => exact (worked steps).settled store now i _ _
  | succeeded steps artifacts =>
    have stored := (worked steps).commit i job (inNameOrder artifacts) store
    unfold Coordinator.conclude
    simp only
    generalize Coordinator.commit i job (inNameOrder artifacts) (c.update i ({ · with steps })) store = first at stored
    generalize Coordinator.commit i job (inNameOrder artifacts) (c'.update i ({ · with steps })) store = second at stored
    obtain ⟨⟨after, fault⟩, held⟩ := stored
    cases fault with
    | none => exact held.settled after now i _ _
    | some fault => exact held.settled after now i _ _

theorem collect [ArtifactStore σ] (store : σ) (now : Double) (finished : Nat × Completion) :
    Paired (Halt.Alike Beside) Beside (collect now (c, store) finished)
      (Coordinator.collect now (c', store) finished) := by
  obtain ⟨i, completion⟩ := finished
  have landed : Akin { c with inFlight := c.inFlight.filter (· ≠ i), deadlines := c.deadlines.erase i }
      { c' with inFlight := c'.inFlight.filter (· ≠ i), deadlines := c'.deadlines.erase i } :=
    { akin with inFlight := by rw [akin.inFlight], deadlines := by rw [akin.deadlines] }
  unfold Coordinator.collect
  cases completion with
  | interrupted => exact .error (.intro _ (.intro store landed))
  | returned outcome =>
    simp only
    cases found : record? { c with inFlight := c.inFlight.filter (· ≠ i), deadlines := c.deadlines.erase i } i with
    | none =>
      rw [landed.absent found]
      exact .ok (.intro store landed)
    | some r =>
      obtain ⟨r', found', alike⟩ := landed.found found
      simp only [found', alike.status, alike.job]
      split
      next => exact landed.conclude store now i r.job outcome
      next => exact .ok (.intro store landed)

theorem expire (now : Double) (entry : Nat × Deadline) :
    Together (expire now c entry) (Coordinator.expire now c' entry) := by
  obtain ⟨i, deadline⟩ := entry
  unfold Coordinator.expire
  simp only
  split
  next => exact .ok akin
  next =>
    have lapsed : Akin { c with deadlines := c.deadlines.erase i } { c' with deadlines := c'.deadlines.erase i } :=
      { akin with deadlines := by rw [akin.deadlines] }
    cases found : record? { c with deadlines := c.deadlines.erase i } i with
    | none =>
      rw [lapsed.absent found]
      exact .ok lapsed
    | some r =>
      obtain ⟨r', found', alike⟩ := lapsed.found found
      simp only [found', alike.status, alike.job]
      split
      next =>
        apply transition _ now i .same
        exact { lapsed with tokens := congrArg (·.insert i true) lapsed.tokens
                            requests := congrArg (· ++ [Request.cancel i]) lapsed.requests }
      next => exact .ok lapsed

theorem settle [ArtifactStore σ] (store : σ) (now : Double) (finished : List (Nat × Completion)) :
    Paired (Halt.Alike Beside) Beside (c.settle store now finished) (c'.settle store now finished) := by
  unfold Coordinator.settle
  rw [akin.byRank]
  have arrivals : Paired (Halt.Alike Beside) Beside ((c.byRank finished).foldlM (Coordinator.collect now) (c, store))
      ((c.byRank finished).foldlM (Coordinator.collect now) (c', store)) := by
    apply Paired.foldlM (fun _ => True) _ trivial (.intro store akin) (fun _ _ _ _ _ => trivial)
    rintro _ _ item _ ⟨between, held⟩
    exact held.collect between now item
  apply arrivals.bind
  rintro _ _ _ @⟨d, d', after, held⟩
  have lapses : Together ((d.byRank d.deadlines).foldlM (Coordinator.expire now) d)
      ((d'.byRank d'.deadlines).foldlM (Coordinator.expire now) d') := by
    rw [held.byRank, held.deadlines]
    apply Paired.foldlM (fun _ => True) _ trivial held (fun _ _ _ _ _ => trivial)
    intro e e' entry _ between
    exact between.expire now entry
  simp only
  generalize (d.byRank d.deadlines).foldlM (Coordinator.expire now) d = result at lapses
  generalize (d'.byRank d'.deadlines).foldlM (Coordinator.expire now) d' = result' at lapses
  cases lapses with
  | ok final => exact .ok (.intro after final)
  | error halted =>
    obtain ⟨fault, final⟩ := halted
    exact .error (.intro fault (.intro after final))

/-! ### The report -/

theorem reported : List.Forall₂ JobRecord.Akin c.reported c'.reported := by
  unfold Coordinator.reported
  rw [akin.sameJobs.firsts]
  apply List.rel_filterMap (R := (· = ·)) _ (List.forall₂_refl c.firsts)
  rintro i _ rfl
  simp only [akin.sameJobs.slot]
  exact akin.records (c.slot i)

theorem unfinished : c'.unfinished = c.unfinished := by
  have reported := akin.reported
  unfold Coordinator.unfinished
  generalize c.reported = jobs, c'.reported = jobs' at reported
  induction reported with
  | nil => rfl
  | cons first _ ih =>
    rw [List.filter_cons, List.filter_cons, first.status]
    split
    next => rw [List.map_cons, List.map_cons, ih, first.job]
    next => exact ih

theorem report : c.report.Akin c'.report := by
  have stages : c'.stageReports.map (fun s => (s.name, s.status)) = c.stageReports.map fun s => (s.name, s.status) := by
    rw [stageReports_standings, stageReports_standings, akin.graph.order]
    simp only [akin.stageName, akin.stageStatus]
  have ok := congrArg (List.all · fun x => decide (x.2 = .succeeded ∨ x.2 = .skipped)) stages
  simp only [List.all_map, Function.comp_def] at ok
  refine ⟨?_, stages, akin.reported, ?_⟩
  · simp only [Coordinator.report, ok]
  · simp only [Coordinator.report, entries, akin.manifest]

end Akin

theorem start_akin {setup : Setup} {g g' : RunGraph} (graph : setup.graph.Akin g'.graph) (jobs : g'.allJobs = g.allJobs) :
    (start setup g).Akin (start { setup with graph := g'.graph } g') := by
  refine ⟨graph, rfl, fun j => ?_, rfl, rfl, rfl, rfl, rfl, rfl, rfl⟩
  simp only [record?, start, jobs]
  cases (g.allJobs.map fun job => ({ job } : JobRecord))[j]? with
  | none => exact .none
  | some r => exact .some .same

end Coordinator

end Conveyor

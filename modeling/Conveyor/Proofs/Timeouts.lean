import Conveyor.Proofs.OverdueJobs

/-! Limits on the time of jobs. A job that has been stopped for its time stays as it is: its worker is in flight until it
returns, and what it returns is dropped. -/

namespace Conveyor

namespace Moment

open Coordinator

variable {ω : Type} [World ω] {m m' : Moment ω} {j : Nat}

/-- What the worker of a job returns that does not run any more is dropped. -/
theorem Step.dropped (step : Step m m') {j : Nat} {r : JobRecord} {completion : Completion}
    {rest : List (Nat × Completion)} (found : m.coord.record? j = some r) (idle : r.status ≠ .running)
    (arrived : m.arrived = (j, completion) :: rest) :
    m'.coord = m.coord.landed j ∧ m'.world = m.world := by
  cases step with
  | opens => cases arrived
  | takes => cases arrived
  | delivers => cases arrived
  | awaits => cases arrived
  | looks => cases arrived
  | expires => cases arrived
  | collects collected =>
    cases arrived
    cases collect_ok collected with
    | dropped => exact ⟨rfl, rfl⟩
    | taken held running =>
      cases held.symm.trans found
      exact (idle running).elim

theorem Step.airborne (step : Step m m') (flying : j ∈ m.coord.inFlight) :
    j ∈ m'.coord.inFlight ∨ ∃ completion rest, m.arrived = (j, completion) :: rest := by
  cases step with
  | opens _ _ _ _ opened => exact Or.inl (by rw [(openStage_ok opened).inFlight]; exact flying)
  | takes _ _ taken =>
    left
    cases takeUp_ok taken with
    | passed => exact flying
    | lacked held _ _ failed => rw [(transition_ok failed held).2.1.inFlight]; exact flying
    | launched _ _ _ started =>
      rw [started.inFlight]
      exact List.mem_append_left _ flying
  | delivers => exact Or.inl flying
  | awaits => exact Or.inl flying
  | collects collected =>
    cases collect_ok collected with
    | @dropped i _ _ =>
      by_cases here : j = i
      · exact Or.inr ⟨_, _, by rw [here]⟩
      · exact Or.inl (List.mem_filter.2 ⟨flying, by simpa using here⟩)
    | @taken i _ _ _ _ _ _ _ _ _ _ returned =>
      by_cases here : j = i
      · exact Or.inr ⟨_, _, by rw [here]⟩
      · left
        rw [returned.inFlight]
        exact List.mem_filter.2 ⟨flying, by simpa using here⟩
  | looks => exact Or.inl flying
  | expires expired =>
    left
    cases expire_ok expired with
    | early => exact flying
    | ended => exact flying
    | stopped _ _ late => rw [late.inFlight]; exact flying

abbrev Unreturned (j : Nat) : Moment ω → Moment ω → Prop :=
  Relation.ReflTransGen fun m m' => Step m m' ∧ ∀ completion rest, m.arrived ≠ (j, completion) :: rest

theorem Unreturned.airborne (unreturned : Unreturned j m m') (flying : j ∈ m.coord.inFlight) :
    j ∈ m'.coord.inFlight := by
  induction unreturned with
  | refl => exact flying
  | tail _ next ih =>
    obtain ⟨step, absent⟩ := next
    refine (step.airborne ih).resolve_right ?_
    rintro ⟨completion, rest, arrived⟩
    exact absent completion rest arrived

/-- In every run whose jobs have different keys a job has failed for its time only if it has a limit, was running, and
was stopped when the clock had come to its start and the limit together, or the limit was no number. At every moment the
deadlines are exactly those of the running jobs that have a limit. The token of a job that has failed for its time is
set, and whatever its worker returns later changes neither its record nor the manifest nor the store. Until then the
worker counts among those of whom there are only so many. -/
theorem timeouts_kept {g : RunGraph} (distinct : g.DistinctKeys) (working : World.Working ω) {setup : Setup} {w : ω}
    {m : Moment ω} (reached : Path (Operation.start setup g w).moment m) :
    (∀ j r, m.coord.record? j = some r → r.cause = some .timeout →
      ∃ limit started ended, m.coord.Overran r limit started ended) ∧
    (m.coord.deadlines.keys.Nodup ∧ ∀ j deadline, m.coord.deadlines.get? j = some deadline ↔
      ∃ r, m.coord.record? j = some r ∧ m.coord.Due r deadline) ∧
    (∀ j r, m.coord.record? j = some r → r.status = .running → ∃ time, r.startedAt = some (.float time)) ∧
    (∀ j r, m.coord.record? j = some r → r.cause = some .timeout → ∀ later, Path m later →
      later.coord.record? j = some r ∧ later.coord.tokens.get? j = some true ∧
      ∀ completion rest next, later.arrived = (j, completion) :: rest → Step later next →
        next.coord = later.coord.landed j ∧ next.world = later.world) ∧
    (∀ next j r r', Step m next → m.coord.record? j = some r → next.coord.record? j = some r' →
      r.cause ≠ some .timeout → r'.cause = some .timeout →
        r.status = .running ∧ ∀ later, Unreturned j next later → j ∈ later.coord.inFlight) ∧
    m.coord.inFlight.length ≤ setup.workers ∧
    ∀ next, Step m next → submitted m next ≠ [] → m.coord.inFlight.length < setup.workers := by
  have timely {m : Moment ω} (reached : Path (Operation.start setup g w).moment m) : Clocked m ∧ Punctual m :=
    reached.punctual working start_lived (clocked_start setup g w) (punctual_start setup g w)
  obtain ⟨clocked, punctual⟩ := timely reached
  obtain ⟨workers, consistent⟩ :=
    reached.consistent (start_apart distinct setup w) start_lived (consistent_start setup g w)
  have same : m.coord.setup.workers = setup.workers := by rw [workers]; rfl
  refine ⟨punctual.overran, ⟨clocked.distinct, clocked.exact⟩, clocked.started, ?_, ?_, same ▸ consistent.bounded, ?_⟩
  · intro j r found timeout later onward
    obtain ⟨_, _, _, overran⟩ := punctual.overran j r found timeout
    have frozen := onward.evolved.frozen found (by rw [overran.failed]; rfl)
    refine ⟨frozen, (timely (reached.trans onward)).2.asked j r frozen timeout, ?_⟩
    intro completion rest next arrived step
    exact step.dropped frozen (by simp [overran.failed]) arrived
  · intro next j r r' step found found' before after
    obtain ⟨running, stopped, deadline, rest, due⟩ := step.expiring punctual found found' before after
    refine ⟨running, fun later unreturned => unreturned.airborne ?_⟩
    rw [(step.overdue found running due found' stopped).2.2]
    exact consistent.flying j r found running
  · intro next step submission
    obtain ⟨landed, flights⟩ := step.flights
    obtain ⟨j, member⟩ := List.exists_mem_of_ne_nil _ submission
    exact same ▸ (flights.begun j member).1

end Moment

/-- A world in which time passes up to every limit, and workers that go by a craft return only when they are waited for
without one. -/
structure Lagging (craft : Craft) where
  time : Double := .zero
  store : MemoryStore := {}
  staff : List Posting := []

namespace Lagging

variable {craft : Craft}

def wait (w : Lagging craft) : Option Double → Shift (Lagging craft)
  | some limit => { world := { w with time := limit } }
  | none =>
    { world := { w with staff := [] }
      finished := w.staff.map fun posting =>
        (posting.slot, .returned (posting.worker.carried craft posting.worker.remaining)) }

instance : World (Lagging craft) where
  put w key blob := (w.store.put key blob).map fun (entry, store) => (entry, { w with store })
  get? w := w.store.get?
  discard w producer := { w with store := w.store.discard producer }
  entries w := w.store.entries
  now w := w.time
  accept w
    | .launch slot worker => { w with staff := w.staff ++ [⟨slot, worker, false⟩] }
    | .cancel slot => { w with staff := w.staff.map (Posting.ask slot) }
  await := wait

theorem working : World.Working (Lagging craft) := by
  intro w limit slot outcome member
  cases limit with
  | some limit => cases member
  | none =>
    obtain ⟨posting, _, same⟩ := List.mem_map.1 member
    cases same
    have ends : posting.worker.Ends (fun _ _ _ _ => True) (fun _ => True)
        (posting.worker.carried craft posting.worker.remaining) :=
      Worker.carried_ends (fun _ => trivial) trivial _ rfl
    exact ends.ofWorker

end Lagging

def hasty (limit : Number) : Pipeline :=
  { name := "hasty"
    stages := [
      { name := "build", steps := [{ uses := "shell" }], produces := ["app"], timeout := some limit }] }

def hastyGraph (limit : Number) : RunGraph :=
  { graph := { stages := (hasty limit).stages, needs := [[]], dependents := [[]], order := [0] }
    jobs := [[{ stage := "build", steps := [{ uses := "shell" }], produces := ["app"], timeout := some limit }]]
    context := some pushed }

def hastySetup (limit : Number) : Setup :=
  { graph := (hastyGraph limit).graph, context := pushed, workers := 1 }

namespace Outcome

def bringsArtifacts : Outcome → Bool
  | .succeeded _ artifacts => !artifacts.isEmpty
  | _ => false

end Outcome

/-- Whether somebody returns for the first job with a success and its artifacts. -/
def bringsFirst (arrived : List (Nat × Completion)) : Bool :=
  match arrived with
  | [(0, .returned outcome)] => outcome.bringsArtifacts
  | _ => false

theorem exists_of_bringsFirst {arrived : List (Nat × Completion)} (brings : bringsFirst arrived = true) :
    ∃ outcome, arrived = [(0, .returned outcome)] ∧ outcome.bringsArtifacts = true := by
  unfold bringsFirst at brings
  split at brings
  next outcome => exact ⟨outcome, rfl, brings⟩
  next => cases brings

namespace Moment

/-- The build takes longer than it has: after five seconds it fails, and its worker is still out. When the worker returns
at last with the program, nothing is stored. -/
theorem timeouts_kept_hasty :
    let g := hastyGraph (.int 5)
    let start := Operation.start (hastySetup (.int 5)) g ({} : Lagging assembling)
    g.DistinctKeys ∧ World.Working (Lagging assembling) ∧
      ∃ (m later next : Moment (Lagging assembling)) (r : JobRecord) (outcome : Outcome),
        Path start.moment m ∧ m.coord.record? 0 = some r ∧
        r.cause = some .timeout ∧ m.coord.Overran r (.int 5) .zero (.finite false 5629499534213120 (-50)) ∧
        m.coord.inFlight = [0] ∧ m.coord.tokens.get? 0 = some true ∧
        Path m later ∧ later.arrived = [(0, .returned outcome)] ∧ outcome.bringsArtifacts = true ∧ Step later next ∧
        next.coord = later.coord.landed 0 ∧ next.world = later.world := by
  intro g start
  have distinct : g.DistinctKeys := by decide +kernel
  have run : start.turn.toOption.any (fun first =>
      decide (first.1.coord.inFlight = [0]) &&
      (first.1.coord.record? 0).any (fun r => decide (r.cause = some .timeout ∧
        r.startedAt = some (.float .zero) ∧ r.finishedAt = some (.float (.finite false 5629499534213120 (-50))) ∧
        r.job.timeout = some (.int 5))) &&
      first.1.advance.toOption.any fun second =>
        decide (second.1.coord.inFlight = [0]) && bringsFirst second.1.rested.arrived) = true := by
    decide +kernel
  obtain ⟨⟨o, more⟩, turned, facts⟩ := Fallible.ok_of_any run
  rw [Bool.and_eq_true, Bool.and_eq_true, decide_eq_true_eq, Option.any_eq_true] at facts
  obtain ⟨⟨flying, r, found, record⟩, rest⟩ := facts
  obtain ⟨timeout, started, ended, limit⟩ := of_decide_eq_true record
  obtain ⟨⟨o', busy⟩, advanced, facts⟩ := Fallible.ok_of_any rest
  rw [Bool.and_eq_true, decide_eq_true_eq] at facts
  obtain ⟨outcome, arrived, brings⟩ := exists_of_bringsFirst facts.2
  have flying' : o'.coord.inFlight = [0] := facts.1
  -- The worker is waited for once more, without a limit.
  have reached : Path start.moment o.moment := (Operation.turn_path turned).1
  obtain ⟨path, delivered⟩ := Operation.advance_path advanced
  have onward : Path o.moment o'.rested := path.tail (.awaits delivered (by simp [flying']))
  obtain ⟨c, w, collected⟩ := Coordinator.collect_total o'.rested.coord o'.rested.world .zero 0 outcome
  have step : Step o'.rested ⟨c, w, [], []⟩ := by
    have collects : Step ⟨o'.rested.coord, o'.rested.world, [(0, .returned outcome)], []⟩ ⟨c, w, [], []⟩ :=
      .collects collected
    rwa [← arrived] at collects
  obtain ⟨overran, _, _, late, _⟩ := timeouts_kept distinct Lagging.working reached
  obtain ⟨limit', started', ended', passed⟩ := overran 0 r found timeout
  cases passed.startedAt.symm.trans started
  cases passed.finishedAt.symm.trans ended
  have limited : o.moment.coord.effectiveTimeout r.job = some (.int 5) := by
    simp [Coordinator.effectiveTimeout, limit, Number.isZero]
  cases passed.limited.symm.trans limited
  have token := (late 0 r found timeout o.moment .refl).2.1
  have dropped := (late 0 r found timeout o'.rested onward).2.2 _ _ _ arrived step
  exact ⟨distinct, Lagging.working, o.moment, o'.rested, _, r, outcome, reached, found, timeout, passed, flying, token,
    onward, arrived, brings, step, dropped⟩

/-- With a limit that is no number the build is failed for its time at the moment when it starts; yet the clock does not
show its start and the limit together, or more. -/
theorem undefined_limit_expires :
    let limit : Number := .float (.nan 0)
    RunGraph.build (hasty limit) (some pushed) = .ok (hastyGraph limit) ∧ (hastyGraph limit).DistinctKeys ∧
      ∃ (m : Moment (Lagging assembling)) (r : JobRecord),
        Path (Operation.start (hastySetup limit) (hastyGraph limit) {}).moment m ∧ m.coord.record? 0 = some r ∧
        r.cause = some .timeout ∧ m.coord.effectiveTimeout r.job = some limit ∧
        r.startedAt = some (.float .zero) ∧ r.finishedAt = some (.float .zero) ∧
        (Double.zero.add limit.toDouble).le .zero = false := by
  intro limit
  have turned : (Operation.start (hastySetup limit) (hastyGraph limit) ({} : Lagging assembling)).turn.toOption.any
      (fun first => (first.1.coord.record? 0).any fun r => decide (r.cause = some .timeout ∧
        first.1.coord.effectiveTimeout r.job = some limit ∧ r.startedAt = some (.float .zero) ∧
        r.finishedAt = some (.float .zero))) = true := by
    decide +kernel
  obtain ⟨⟨o, more⟩, turned, facts⟩ := Fallible.ok_of_any turned
  obtain ⟨r, found, facts⟩ := (Option.any_eq_true ..).1 facts
  obtain ⟨timeout, limited, started, ended⟩ := of_decide_eq_true facts
  exact ⟨by decide +kernel, by decide +kernel, o.moment, r, (Operation.turn_path turned).1, found, timeout, limited,
    started, ended, by decide⟩

end Moment
end Conveyor

import Conveyor.Proofs.SchedulerTermination

/-! What a turn achieves. In a run whose jobs have different keys no turn is refused, and few things can break one off;
a turn that starts something lightens what is left to do, and one that starts nothing finds no stage that can be
opened. -/

namespace Conveyor

open Fallible Coordinator

variable {ω : Type} [World ω]

namespace Coordinator

/-- A stage that is closed although the stages that it needs have ended. -/
def Openable (c : Coordinator) (i : Nat) : Prop :=
  i ∉ c.opened ∧ (∃ s, c.setup.graph.stages[i]? = some s) ∧ ∃ outcomes, c.prerequisites? i = some outcomes

theorem Openable.congr {c c' : Coordinator} (setup : c'.setup = c.setup) (opened : c'.opened = c.opened)
    (records : c'.records = c.records) {i : Nat} (openable : c'.Openable i) : c.Openable i := by
  obtain ⟨closed, stage, settled⟩ := openable
  have same (n : Nat) : c'.stageOutcome n = c.stageOutcome n :=
    stageOutcome_congr (congrArg Setup.graph setup) (by rw [opened]) (by rw [recordsOf, recordsOf, records])
  refine ⟨by rw [← opened]; exact closed, by rw [← setup]; exact stage, ?_⟩
  rw [← prerequisites?_congr (congrArg Setup.graph setup) fun n _ => same n]
  exact settled

/-- A look at the stages opens one of them and lightens what is left to do, or there was none to open. -/
theorem resolveStages_weight (w : ω) {now : Double} (places : List Nat) {c c' : Coordinator} {before after : Bool}
    (listed : ∀ i ∈ places, i ∈ c.setup.graph.order)
    (done : places.foldlM (resolveStage now) (c, before) = .ok (c', after)) :
    c' = c ∧ after = before ∧ (∀ i ∈ places, ¬ c.Openable i) ∨ after = true ∧ c'.weight < c.weight := by
  induction places generalizing c before with
  | nil =>
    cases done
    exact Or.inl ⟨rfl, rfl, by simp⟩
  | cons i places ih =>
    obtain ⟨⟨middle, changed⟩, first, rest⟩ := foldlM_cons_ok.1 done
    rcases Moment.resolveStage_ok first with ⟨rfl, rfl, shut⟩ | ⟨s, outcomes, closed, stage, settled, opened, rfl⟩
    · rcases ih (fun j member => listed j (by simp [member])) rest with ⟨same, unchanged, none⟩ | lighter
      · refine Or.inl ⟨same, unchanged, List.forall_mem_cons.2 ⟨?_, none⟩⟩
        rintro ⟨closed, ⟨s, stage⟩, outcomes, settled⟩
        simp [closed, stage, settled] at shut
      · exact Or.inr lighter
    · have step : Moment.Step (⟨c, w, [], []⟩ : Moment ω) ⟨middle, w, [], []⟩ :=
        .opens (listed i (by simp)) closed stage settled opened
      have opened := openStage_ok opened
      have lighter : middle.weight < c.weight := opened.weight step.evolved (listed i (by simp)) closed
      refine Or.inr ?_
      rcases ih (fun j member => by rw [opened.setup]; exact listed j (by simp [member])) rest with
        ⟨rfl, unchanged, _⟩ | ⟨changed, further⟩
      · exact ⟨unchanged, lighter⟩
      · exact ⟨changed, further.trans lighter⟩

/-- Every job that is taken up lightens what is left to do, and the queue is left only when workers are busy. -/
theorem dispatchFrom_weight (w : ω) {now : Double} (queue : List Nat) {c c' : Coordinator} {before after : Nat}
    (ready : c.ready = queue) (done : dispatchFrom w now queue c before = .ok (c', after)) :
    before ≤ after ∧ c'.weight + after ≤ c.weight + before ∧
      (after = before → c'.records = c.records ∧ c'.opened = c.opened) ∧
      (1 ≤ c.setup.workers → c'.inFlight = [] → c'.ready = []) := by
  induction queue generalizing c before with
  | nil =>
    cases done
    exact ⟨Nat.le_refl _, Nat.le_refl _, fun _ => ⟨rfl, rfl⟩, fun _ _ => ready⟩
  | cons i queue ih =>
    unfold dispatchFrom at done
    split at done
    next full =>
      cases done
      refine ⟨Nat.le_refl _, Nat.le_refl _, fun _ => ⟨rfl, rfl⟩, fun workers empty => ?_⟩
      simp only [empty, List.length_nil] at full
      omega
    next free =>
      obtain ⟨⟨middle, count⟩, taken, rest⟩ := bind_ok.1 done
      have step : Moment.Step (⟨c, w, [], []⟩ : Moment ω) ⟨middle, w, [], []⟩ := .takes ready (by omega) taken
      have evolved := step.evolved
      have taken := takeUp_ok taken
      obtain ⟨setup, opened, left⟩ := taken.frame
      have lighter : middle.weight + count ≤ c.weight := TakenUp.weight (c := { c with ready := queue }) evolved taken
      obtain ⟨grown, further, still, drained⟩ := ih left rest
      refine ⟨by omega, by omega, fun same => ?_, fun workers => drained (by rw [setup]; exact workers)⟩
      have idle : count = 0 := by omega
      obtain ⟨records, stages⟩ := still (by omega)
      cases taken with
      | passed => exact ⟨records, stages⟩
      | lacked => cases idle
      | launched => cases idle

/-- The jobs of a queue are taken up, unless the coordinator breaks off at one of them. -/
theorem dispatchFrom_cases (w : ω) (now : Double) (queue : List Nat) {c : Coordinator} (ready : c.ready = queue)
    (before : Nat) :
    (∃ c' after, dispatchFrom w now queue c before = .ok (c', after)) ∨
      ∃ fault state, dispatchFrom w now queue c before = .error ⟨fault, state⟩ ∧
        ∃ c', Relation.ReflTransGen (Takes w now) c c' ∧
          ∃ r ∈ c'.records, r.status = .ready ∧ c'.Refused w r fault := by
  induction queue generalizing c before with
  | nil => exact Or.inl ⟨c, before, rfl⟩
  | cons i queue ih =>
    unfold dispatchFrom
    split
    next => exact Or.inl ⟨c, before, rfl⟩
    next free =>
      rcases takeUp_cases { c with ready := queue } w now i with
        ⟨middle, count, taken⟩ | ⟨fault, state, broken, r, found, waits, refused⟩
      · have first : Takes w now c middle := ⟨i, queue, count, ready, by omega, taken⟩
        refine (ih (takeUp_ok taken).frame.2.2 (before + count)).imp ?_ ?_
        · rintro ⟨last, after, rest⟩
          exact ⟨last, after, bind_ok.2 ⟨(middle, count), taken, rest⟩⟩
        · rintro ⟨fault, state, broken, last, onward, refused⟩
          exact ⟨fault, state, bind_error.2 (Or.inr ⟨(middle, count), taken, broken⟩), last, .head first onward, refused⟩
      · exact Or.inr ⟨fault, state, bind_error.2 (Or.inl broken), c, .refl, r, List.mem_of_getElem? found, waits, by
          cases refused with
          | untold resolved untold => exact .untold resolved untold
          | immeasurable limit => exact .immeasurable limit⟩

end Coordinator

namespace Moment

variable {g : RunGraph} {roster : Roster ω}

/-- Every stage that is looked at can be opened if its time has come. -/
theorem resolveStage_total (populated : g.Populated) (distinct : g.DistinctKeys) {c : Coordinator} {w : ω}
    (orderly : Orderly g roster ⟨c, w, [], []⟩) (now : Double) (before : Bool) {i : Nat}
    (listed : i ∈ g.graph.order) :
    ∃ c' after, resolveStage now (c, before) i = .ok (c', after) ∧ Orderly g roster ⟨c', w, [], []⟩ := by
  by_cases openable : c.Openable i
  · obtain ⟨closed, ⟨s, stage⟩, outcomes, settled⟩ := openable
    obtain ⟨c', opened⟩ := openStage_total now i outcomes fun j r found member =>
      (orderly.sound.pending i s j r stage found member).2 closed
    have step : Step (⟨c, w, [], []⟩ : Moment ω) ⟨c', w, [], []⟩ :=
      .opens (by rw [orderly.runs.graph]; exact listed) closed stage settled opened
    refine ⟨c', true, ?_, Path.orderly (.single step) populated distinct orderly⟩
    simp [resolveStage, closed, stage, settled, opened, bind, Except.bind, pure, Except.pure]
  · refine ⟨c, before, ?_, orderly⟩
    simp only [resolveStage]
    split
    next => rfl
    next closed =>
      split
      next s outcomes stage settled =>
        exact (openable ⟨by simpa using closed, ⟨s, stage⟩, outcomes, settled⟩).elim
      next => rfl

theorem resolveStages_total (populated : g.Populated) (distinct : g.DistinctKeys) {c : Coordinator} {w : ω}
    (orderly : Orderly g roster ⟨c, w, [], []⟩) (now : Double) :
    ∃ c' changed, c.resolveStages now = .ok (c', changed) := by
  have graph : c.setup.graph = g.graph := orderly.runs.graph
  have step (acc : Coordinator × Bool) (held : Orderly g roster ⟨acc.1, w, [], []⟩) (i : Nat)
      (listed : i ∈ c.setup.graph.order) :
      ∃ acc', resolveStage now acc i = .ok acc' ∧ Orderly g roster ⟨acc'.1, w, [], []⟩ := by
    obtain ⟨c', after, opened, kept⟩ := resolveStage_total populated distinct held now acc.2 (graph ▸ listed)
    exact ⟨(c', after), opened, kept⟩
  obtain ⟨⟨last, changed⟩, done, _⟩ := foldlM_total (resolveStage now)
    (fun acc => Orderly g roster ⟨acc.1, w, [], []⟩) c.setup.graph.order (c, false) orderly step
  exact ⟨last, changed, done⟩

theorem collect_cases (arrived : List (Nat × Completion)) (now : Double) (c : Coordinator) (w : ω) :
    (∃ c' w', arrived.foldlM (collect now) (c, w) = .ok (c', w')) ∨
      ∃ state slot, arrived.foldlM (collect now) (c, w) = .error ⟨.interrupted, state⟩ ∧
        (slot, .interrupted) ∈ arrived := by
  induction arrived generalizing c w with
  | nil => exact Or.inl ⟨c, w, rfl⟩
  | cons arrival rest ih =>
    obtain ⟨slot, completion⟩ := arrival
    rw [List.foldlM_cons]
    cases completion with
    | interrupted => exact Or.inr ⟨_, slot, rfl, List.mem_cons_self⟩
    | returned outcome =>
      obtain ⟨c', w', done⟩ := collect_total c w now slot outcome
      rw [done]
      refine (ih c' w').imp_right ?_
      rintro ⟨state, slot, broken, member⟩
      exact ⟨state, slot, broken, List.mem_cons_of_mem _ member⟩

theorem expire_all (due : List (Nat × Deadline)) (now : Double) (c : Coordinator) :
    ∃ c', due.foldlM (expire now) c = .ok c' := by
  obtain ⟨c', done, _⟩ := foldlM_total (expire now) (fun _ => True) due c trivial
    fun c _ entry _ => (expire_total c now entry).imp fun _ done => ⟨done, trivial⟩
  exact ⟨c', done⟩

end Moment

namespace Operation

open Moment

variable {g : RunGraph} {roster : Roster ω} {o o' : Operation ω}

/-- What can break off a run: a job is ready that consumes by a filter which cannot be written, or that may take longer
than can be measured; the world is to be waited for longer than it can be; or a worker is interrupted. -/
inductive Strained (start : Operation ω) : SchedulerFault → Prop
  | filter {m : Moment ω} (reached : Moment.Path start.moment m) {r : JobRecord} (listed : r ∈ m.coord.records)
      (ready : r.status = .ready) {ref : ArtifactRef} (consumed : ref ∈ r.job.consumes)
      (unwritable : Value.anyEntryUnwritable ref.filter = true) : Strained start (.unusable .unwritable)
  | limit {m : Moment ω} (reached : Moment.Path start.moment m) {r : JobRecord} (listed : r ∈ m.coord.records)
      (ready : r.status = .ready) (immeasurable : m.coord.Immeasurable r.job) : Strained start .limitTooLarge
  | wait {o : Operation ω} (reached : Moment.Path start.moment o.moment) (far : o.overlong = true) :
      Strained start .waitTooLong
  | interruption {m : Moment ω} (reached : Moment.Path start.moment m) {slot : Nat}
      (arrived : (slot, .interrupted) ∈ m.arrived) : Strained start .interrupted

theorem Strained.of_path {fault : SchedulerFault} (path : Moment.Path o.moment o'.moment)
    (strained : o'.Strained fault) : o.Strained fault := by
  cases strained with
  | filter reached listed ready consumed unwritable => exact .filter (path.trans reached) listed ready consumed unwritable
  | limit reached listed ready immeasurable => exact .limit (path.trans reached) listed ready immeasurable
  | wait reached far => exact .wait (path.trans reached) far
  | interruption reached arrived => exact .interruption (path.trans reached) arrived

/-- The names of the jobs can be written, so what cannot be said about missing inputs is the filter. -/
theorem Strained.of_refused (written : g.Written) {m : Moment ω} (runs : Runs g m)
    (reached : Moment.Path o.moment m) {r : JobRecord} (listed : r ∈ m.coord.records) (ready : r.status = .ready)
    {fault : SchedulerFault} (refused : m.coord.Refused m.world r fault) : o.Strained fault := by
  cases refused with
  | immeasurable limit => exact .limit reached listed ready limit
  | untold resolved untold =>
    obtain ⟨rfl, ref, consumed, unwritable | ⟨q, produced, unnamed⟩⟩ := Inputs.resolve_untold resolved untold
    · exact .filter reached listed ready consumed unwritable
    · obtain ⟨j, found, _⟩ := mem_recordsOf.1 produced
      rw [written _ (runs.job found)] at unnamed
      cases unnamed

/-- All filters can be written and all limits measured, and the world lets itself be waited for and interrupts no
worker. -/
structure Calm (g : RunGraph) (o : Operation ω) : Prop where
  filters : ∀ job ∈ g.allJobs, ∀ ref ∈ job.consumes, Value.anyEntryUnwritable ref.filter = false
  limits : ∀ job ∈ g.allJobs, ¬ o.coord.Immeasurable job
  patient : ∀ (w : ω) seconds, World.refuses w seconds = false
  uninterrupted : ∀ (w : ω) limit slot, (slot, .interrupted) ∉ (World.await w limit).finished

theorem Calm.unstrained (calm : Calm g o) (orderly : Orderly g roster o.moment) (populated : g.Populated)
    (distinct : g.DistinctKeys) (fault : SchedulerFault) : ¬ o.Strained fault := by
  intro strained
  cases strained with
  | filter reached listed _ consumed unwritable =>
    obtain ⟨j, found⟩ := List.mem_iff_getElem?.1 listed
    have known := (Path.orderly reached populated distinct orderly).runs.job found
    simp [calm.filters _ known _ consumed] at unwritable
  | limit reached listed _ immeasurable =>
    obtain ⟨j, found⟩ := List.mem_iff_getElem?.1 listed
    refine calm.limits _ ((Path.orderly reached populated distinct orderly).runs.job found) ?_
    obtain ⟨limit, limited, large⟩ := immeasurable
    refine ⟨limit, ?_, large⟩
    rwa [effectiveTimeout, ← show _ = o.coord.setup from Path.setup reached]
  | wait reached far =>
    rw [overlong, Option.any_eq_true] at far
    obtain ⟨seconds, _, refused⟩ := far
    simp [calm.patient] at refused
  | interruption reached arrived =>
    have none : ∀ m : Moment ω, Path o.moment m → ∀ slot, (slot, .interrupted) ∉ m.arrived := by
      intro m path
      refine path.preserves (fun m => ∀ slot, (slot, .interrupted) ∉ m.arrived) ?_ (by simp [moment])
      intro m m' step before slot
      cases step with
      | opens | takes | delivers | looks | expires => exact List.not_mem_nil
      | awaits => exact fun member => calm.uninterrupted _ _ slot ((byRank_perm _ _).mem_iff.1 member)
      | collects => exact fun member => before slot (List.mem_cons_of_mem _ member)
    exact none _ reached _ arrived

theorem advance_cases (populated : g.Populated) (distinct : g.DistinctKeys) (written : g.Written)
    (orderly : Orderly g roster o.moment) :
    (∃ o' busy, o.advance = .ok (o', busy)) ∨ ∃ halt, o.advance = .error halt ∧ o.Strained halt.fault := by
  obtain ⟨c, changed, resolved⟩ := resolveStages_total populated distinct orderly (World.now o.world)
  have opened : Moment.Path o.moment ⟨c, o.world, [], []⟩ := resolveStages_path _ (fun _ member => member) resolved
  refine (dispatchFrom_cases o.world (World.now o.world) c.ready rfl 0).imp ?_ ?_
  · rintro ⟨c', taken, dispatched⟩
    exact ⟨_, _, bind_ok.2 ⟨(c, changed), mapError_ok.2 resolved,
      bind_ok.2 ⟨(c', taken), mapError_ok.2 dispatched, rfl⟩⟩⟩
  · rintro ⟨fault, state, broken, c', takes, r, listed, ready, refused⟩
    have taken : Moment.Path (⟨c, o.world, [], []⟩ : Moment ω) ⟨c', o.world, [], []⟩ := takes_path takes
    have reached : Moment.Path o.moment ⟨c', o.world, [], []⟩ := opened.trans taken
    refine ⟨⟨fault, ⟨state, o.world⟩⟩, bind_error.2 (Or.inr ⟨(c, changed), mapError_ok.2 resolved,
      bind_error.2 (Or.inl ?_)⟩), .of_refused written (reached.orderly populated distinct orderly).runs reached listed
        ready refused⟩
    rw [dispatch, broken]
    rfl

theorem gather_cases (delivered : o.coord.requests = []) (busy : o.coord.inFlight ≠ []) :
    (∃ o', o.gather = .ok o') ∨ ∃ halt, o.gather = .error halt ∧ o.Strained halt.fault := by
  cases far : o.overlong with
  | true => exact Or.inr ⟨_, gather_overlong far, .wait .refl far⟩
  | false =>
    rcases Moment.collect_cases o.rested.arrived (World.now o.awaited.world) o.rested.coord o.rested.world with
      ⟨c, w, collected⟩ | ⟨state, slot, broken, arrived⟩
    · obtain ⟨c', expired⟩ := expire_all (c.byRank c.deadlines) (World.now o.awaited.world) c
      exact Or.inl ⟨_, gather_ok.2 ⟨far, c, c', w, collected, expired, rfl⟩⟩
    · have waited : Moment.Step o.moment o.rested := .awaits delivered busy
      exact Or.inr ⟨_, gather_broken far broken, .interruption (.single waited) arrived⟩

/-- A turn is never refused, and a turn that breaks off has one of few causes. -/
theorem turn_cases (populated : g.Populated) (distinct : g.DistinctKeys) (written : g.Written)
    (orderly : Orderly g roster o.moment) :
    (∃ o' more, o.turn = .ok (o', more)) ∨ ∃ halt, o.turn = .error halt ∧ o.Strained halt.fault := by
  rcases advance_cases populated distinct written orderly with ⟨started, busy, advanced⟩ | ⟨halt, broken, strained⟩
  · obtain ⟨path, delivered⟩ := advance_path advanced
    by_cases idle : started.coord.inFlight = []
    · exact Or.inl ⟨_, _, bind_ok.2 ⟨(started, busy), advanced, by simp [idle]; rfl⟩⟩
    · have waits : o.turn = started.gather.map fun o' => (o', true) := by
        rw [turn, advanced]
        simp [idle, bind, Except.bind, pure, Except.pure, Except.map]
      rw [waits]
      rcases gather_cases delivered idle with ⟨o', gathered⟩ | ⟨halt, broken, strained⟩
      · exact Or.inl ⟨o', true, by rw [gathered]; rfl⟩
      · exact Or.inr ⟨halt, by rw [broken]; rfl, strained.of_path path⟩
  · exact Or.inr ⟨halt, bind_error.2 (Or.inl broken), strained⟩

/-- What is known after stages have been opened and jobs started. -/
structure Advanced (o o' : Operation ω) (busy : Bool) : Prop where
  path : Moment.Path o.moment o'.moment
  delivered : o'.coord.requests = []
  lighter : busy = true → o'.coord.weight < o.coord.weight
  idle : busy = false → ∀ i ∈ o.coord.setup.graph.order, ¬ o'.coord.Openable i
  drained : 1 ≤ o.coord.setup.workers → o'.coord.inFlight = [] → o'.coord.ready = []

theorem advance_ok {busy : Bool} (done : o.advance = .ok (o', busy)) : Advanced o o' busy := by
  obtain ⟨path, delivered⟩ := advance_path done
  obtain ⟨⟨opened, changed⟩, resolved, rest⟩ := bind_ok.1 done
  obtain ⟨⟨taken, count⟩, dispatched, final⟩ := bind_ok.1 rest
  cases final
  have resolved := mapError_ok.1 resolved
  have dispatched := mapError_ok.1 dispatched
  obtain ⟨_, lighter, still, drained⟩ := dispatchFrom_weight o.world opened.ready rfl dispatched
  have setup : opened.setup = o.coord.setup :=
    (resolveStages_path (w := o.world) _ (fun _ member => member) resolved).setup
  have same : taken.setup = opened.setup := (dispatchFrom_path (w := o.world) _ rfl dispatched).setup
  refine ⟨path, delivered, ?_, ?_, by rw [← setup]; exact drained⟩
  · intro busy
    change taken.weight < o.coord.weight
    rcases resolveStages_weight o.world _ (fun _ member => member) resolved with ⟨rfl, rfl, _⟩ | ⟨_, sooner⟩
    · have some : count ≠ 0 := by simpa using busy
      omega
    · omega
  · intro quiet i listed
    simp only [Bool.or_eq_false_iff, bne_eq_false_iff_eq] at quiet
    obtain ⟨unchanged, none⟩ := quiet
    obtain ⟨records, stages⟩ := still none
    rcases resolveStages_weight o.world _ (fun _ member => member) resolved with ⟨rfl, _, shut⟩ | ⟨changed, _⟩
    · exact fun openable => shut i listed (openable.congr same stages records)
    · simp [unchanged] at changed

end Operation
end Conveyor

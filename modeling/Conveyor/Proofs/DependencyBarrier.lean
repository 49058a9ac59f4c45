import Conveyor.Proofs.ConsumedStages
import Conveyor.Proofs.Workshop

/-! The barrier between stages. A job leaves the pending state other than by being skipped only once every
stage that its own one needs has succeeded, and what has succeeded stays so. -/

namespace Conveyor

def JobRecord.Released (r : JobRecord) : Prop := r.status ≠ .pending ∧ r.status ≠ .skipped

namespace Coordinator

def Cleared (c : Coordinator) (stage : String) : Prop :=
  ∀ i s n, c.setup.graph.stages[i]? = some s → s.name = stage → c.setup.graph.Needs i n →
    c.stageOutcome n = some (.succeeded, none)

/-- Every job that has been let in has a stage whose needs have succeeded. -/
def Barred (c : Coordinator) : Prop := ∀ j r, c.record? j = some r → r.Released → c.Cleared r.job.stage

/-- A stage is released only if none of its needs has failed or been skipped. -/
theorem opening_ready {c : Coordinator} {s : Stage} {outcomes : List (String × Status × Option SkipReason)}
    (ready : (c.opening s outcomes).1 = .ready) :
    ∀ outcome ∈ outcomes, outcome.2.1 ≠ .failed ∧ outcome.2.1 ≠ .skipped := by
  unfold opening at ready
  split at ready
  · simp at ready
  · simp at ready
  next unfailed unskipped =>
    intro outcome member
    have first := List.find?_eq_none.1 unfailed outcome member
    have second := List.find?_eq_none.1 unskipped outcome member
    exact ⟨by simpa using first, by simpa using second⟩

theorem succeeded_of_released {c : Coordinator} {i n : Nat} {s : Stage}
    {outcomes : List (String × Status × Option SkipReason)} (settled : c.prerequisites? i = some outcomes)
    (ready : (c.opening s outcomes).1 = .ready) (need : c.setup.graph.Needs i n) :
    c.stageOutcome n = some (.succeeded, none) := by
  obtain ⟨outcome, member, known⟩ := Fallible.mapM_some_member settled need
  obtain ⟨result, settled, rfl⟩ := Option.map_eq_some_iff.1 known
  obtain ⟨unfailed, unskipped⟩ := opening_ready ready _ member
  rcases stageOutcome_cases settled with ⟨rfl, _⟩ | ⟨⟨_, rfl⟩, _⟩ | rfl
  · exact settled
  · exact (unskipped rfl).elim
  · exact (unfailed rfl).elim

end Coordinator

namespace Moment

variable {ω : Type} [World ω]

/-- After any step a job that has been let in has a stage whose needs had succeeded before the step. -/
theorem Step.cleared {m m' : Moment ω} (step : Step m m') (ordered : m.coord.setup.graph.Ordered)
    (barred : m.coord.Barred) {j : Nat} {r' : JobRecord} (found' : m'.coord.record? j = some r')
    (released : r'.Released) : m.coord.Cleared r'.job.stage := by
  obtain ⟨r, found, evolves⟩ := step.evolved.source found'
  rw [evolves.job]
  by_cases early : r.Released
  · exact barred j r found early
  · have unskipped : r.status ≠ .skipped := by
      intro skipped
      rw [evolves.frozen (by rw [skipped]; rfl)] at released
      exact released.2 skipped
    have pending : r.status = .pending := by
      by_contra begun
      exact early ⟨begun, unskipped⟩
    have fate := step.fate_of found found'
    -- A pending job is let in by the opening of its stage, or stopped along with a job that was let in before.
    cases fate with
    | kept => exact (early released).elim
    | @opened _ i s outcomes stage _ _ settled member _ =>
      have ready : (m.coord.opening s outcomes).1 = .ready :=
        (m.coord.opening_cases s outcomes).resolve_right released.2
      intro k t n place named need
      cases ordered.unique place stage (named.trans member)
      exact Coordinator.succeeded_of_released settled ready need
    | lacked ready => simp [pending] at ready
    | launched ready => simp [pending] at ready
    | returned running => simp [pending] at running
    | expired running => simp [pending] at running
    | stopped _ held active _ _ _ same =>
      rw [same]
      refine barred _ _ held ?_
      rcases active with status | status <;> simp [JobRecord.Released, status]

omit [World ω] in
theorem barred_start (setup : Setup) (g : RunGraph) (w : ω) : (Operation.start setup g w).moment.coord.Barred := by
  intro j r found released
  obtain ⟨job, _, rfl⟩ := Operation.start_record found
  exact (released.1 rfl).elim

theorem Step.barred {m m' : Moment ω} (step : Step m m') (ordered : m.coord.setup.graph.Ordered)
    (barred : m.coord.Barred) : m'.coord.Barred := by
  intro j r' found' released i s n stage named need
  rw [step.frame.1] at stage need
  exact step.stageOutcome (step.cleared ordered barred found' released i s n stage named need)

theorem Path.barred {setup : Setup} {g : RunGraph} (populated : g.Populated) (graph : setup.graph = g.graph) {w : ω}
    {m : Moment ω} (path : Path (Operation.start setup g w).moment m) : Runs g m ∧ m.coord.Barred := by
  refine Path.preserves (fun m => Runs g m ∧ m.coord.Barred) ?_ path
    ⟨.start graph w, barred_start setup g w⟩
  rintro m m' step ⟨runs, barred⟩
  exact ⟨runs.step step, step.barred (runs.graph ▸ populated.ordered) barred⟩

omit [World ω] in
/-- If the direct needs of a stage have succeeded, so have all stages behind them. -/
theorem Runs.cleared_through {g : RunGraph} {m : Moment ω} (runs : Runs g m) (populated : g.Populated)
    (barred : m.coord.Barred) {i n : Nat} {s : Stage} (stage : g.graph.stages[i]? = some s)
    (cleared : m.coord.Cleared s.name) (below : Relation.TransGen g.graph.Needs i n) :
    m.coord.stageOutcome n = some (.succeeded, none) := by
  induction below with
  | single need => exact cleared i s _ (by rw [runs.graph]; exact stage) rfl (by rw [runs.graph]; exact need)
  | @tail n k _ need ih =>
    have inside := (populated.ordered.needs n k need).1
    have place : g.graph.stages[n]? = some g.graph.stages[n] := by simp [inside]
    obtain ⟨job, listed, named⟩ := populated.resident place
    rw [← runs.jobs] at listed
    obtain ⟨q, member, rfl⟩ := List.mem_map.1 listed
    obtain ⟨j, found⟩ := List.mem_iff_getElem?.1 member
    have own : q ∈ m.coord.recordsOf (m.coord.stageName n) := by
      refine Coordinator.mem_recordsOf.2 ⟨j, found, ?_⟩
      rw [named, Coordinator.stageName, runs.graph, place]
      rfl
    have succeeded : q.status = .succeeded := by
      rcases Coordinator.stageOutcome_cases ih with ⟨_, all⟩ | ⟨⟨_, other⟩, _⟩ | other
      · exact all q own
      · cases other
      · cases other
    have released : q.Released := by simp [JobRecord.Released, succeeded]
    exact barred j q found released n _ k (by rw [runs.graph]; exact place) named.symm (by rw [runs.graph]; exact need)

omit [World ω] in
theorem Runs.succeeded {g : RunGraph} {m : Moment ω} (runs : Runs g m) {n : Nat} {t : Stage}
    (stage : g.graph.stages[n]? = some t) (outcome : m.coord.stageOutcome n = some (.succeeded, none))
    {q : JobRecord} (member : q ∈ m.coord.recordsOf t.name) : q.status = .succeeded := by
  have name : m.coord.stageName n = t.name := by
    rw [Coordinator.stageName, runs.graph, stage]
    rfl
  rcases Coordinator.stageOutcome_cases outcome with ⟨_, all⟩ | ⟨⟨_, other⟩, _⟩ | other
  · exact all q (name ▸ member)
  · cases other
  · cases other

omit [World ω] in
/-- What a job consumes comes from stages that have succeeded once the needs of its stage have. -/
theorem Runs.source {g : RunGraph} {m : Moment ω} (runs : Runs g m) (populated : g.Populated)
    (provisioned : g.Provisioned) (barred : m.coord.Barred) {j : Nat} {r : JobRecord}
    (found : m.coord.record? j = some r) (cleared : m.coord.Cleared r.job.stage) {ref : ArtifactRef}
    (consumed : ref ∈ r.job.consumes) :
    ∃ i s n t, g.graph.stages[i]? = some s ∧ s.name = r.job.stage ∧ Relation.TransGen g.graph.Needs i n ∧
      g.graph.stages[n]? = some t ∧ t.name = ref.stage ∧ m.coord.stageOutcome n = some (.succeeded, none) := by
  obtain ⟨i, s, _, stage, inside, named⟩ := populated.home (runs.job found)
  obtain ⟨n, t, below, place, source⟩ := provisioned i s stage _ inside ref consumed
  rw [named] at cleared
  exact ⟨i, s, n, t, stage, named.symm, below, place, source, runs.cleared_through populated barred stage cleared below⟩

omit [World ω] in
/-- All jobs that may produce inputs of a job have succeeded once the needs of its stage have. -/
theorem Runs.producers_succeeded {g : RunGraph} {m : Moment ω} (runs : Runs g m) (populated : g.Populated)
    (provisioned : g.Provisioned) (barred : m.coord.Barred) {j : Nat} {r : JobRecord}
    (found : m.coord.record? j = some r) (cleared : m.coord.Cleared r.job.stage) :
    ∀ ref ∈ r.job.consumes, ∀ q ∈ m.coord.recordsOf ref.stage, q.status = .succeeded := by
  intro ref consumed q member
  obtain ⟨_, _, n, t, _, _, _, place, source, outcome⟩ :=
    runs.source populated provisioned barred found cleared consumed
  exact runs.succeeded place outcome (by rw [source]; exact member)

/-- When a job is let in, every job of every stage that its stage needs, directly or through others, has already
succeeded, and stays as it is for the rest of the run. If the pipeline is valid, the search for the inputs of a
ready job therefore never meets a producer in another state, and fails only for want of an artifact, or at a filter that
cannot be written. -/
theorem dependency_barrier {p : Pipeline} {context : Option Context} {g : RunGraph}
    (built : RunGraph.build p context = .ok g) {setup : Setup} (graph : setup.graph = g.graph) {world : ω}
    {m : Moment ω} (reached : Path (Operation.start setup g world).moment m) :
    (∀ (m' : Moment ω) (j k i n : Nat) (r q : JobRecord) (s t : Stage), Step m m' →
      m'.coord.record? j = some r → r.Released →
      g.graph.stages[i]? = some s → r.job.stage = s.name → Relation.TransGen g.graph.Needs i n →
      g.graph.stages[n]? = some t → m.coord.record? k = some q → q.job.stage = t.name →
        q.status = .succeeded ∧ ∀ later, Path m later → later.coord.record? k = some q) ∧
    (∀ (α : Type) (executors : Registry α), Validation.check executors p = .ok () →
      ∀ (j : Nat) (r : JobRecord), m.coord.record? j = some r → r.status = .ready →
        (∀ ref ∈ r.job.consumes, ∀ q ∈ m.coord.recordsOf ref.stage, q.status = .succeeded) ∧
        ∀ fault, Inputs.resolve m.world m.coord.recordsOf r.job.consumes = .error fault →
          ∃ ref ∈ r.job.consumes,
            (∃ missing, fault = .missing missing ∧ ref.Unpublished (m.coord.recordsOf ref.stage) missing) ∨
              fault = .unusable .unwritable ∧ Value.anyEntryUnwritable ref.filter = true) := by
  have populated := RunGraph.build_populated built
  obtain ⟨runs, barred⟩ := reached.barred populated graph
  have ordered : m.coord.setup.graph.Ordered := runs.graph ▸ populated.ordered
  constructor
  · intro m' j k i n r q s t step found released stage named below place held member
    have cleared := step.cleared ordered barred found released
    rw [named] at cleared
    have outcome := runs.cleared_through populated barred stage cleared below
    have succeeded := runs.succeeded place outcome (Coordinator.mem_recordsOf.2 ⟨k, held, member⟩)
    exact ⟨succeeded, fun later path => path.evolved.frozen held (by rw [succeeded]; rfl)⟩
  · intro α executors valid j r found ready
    have cleared := barred j r found (by simp [JobRecord.Released, ready])
    have succeeded :=
      runs.producers_succeeded populated (RunGraph.build_provisioned valid built) barred found cleared
    refine ⟨succeeded, fun fault failed => ?_⟩
    cases fault with
    | missing missing =>
      obtain ⟨ref, consumed, unpublished⟩ := Inputs.resolve_error succeeded failed
      exact ⟨ref, consumed, Or.inl ⟨missing, rfl, unpublished⟩⟩
    | unusable fault =>
      obtain ⟨rfl, ref, consumed, unwritable | ⟨q, produced, unnamed⟩⟩ := Inputs.resolve_untold failed rfl
      · exact ⟨ref, consumed, Or.inr ⟨rfl, unwritable⟩⟩
      · obtain ⟨k, held, _⟩ := Coordinator.mem_recordsOf.1 produced
        rw [RunGraph.build_written built _ (runs.job held)] at unnamed
        cases unnamed

end Moment

/-- A world that stores nothing, in which every worker returns at the next wait and says that its job has succeeded. -/
structure Idle where
  staff : List Nat := []

instance : World Idle where
  put w key blob := .ok (.of key blob, w)
  get? _ _ := none
  discard w _ := w
  entries _ := []
  now _ := .zero
  accept w
    | .launch slot _ => ⟨w.staff ++ [slot]⟩
    | .cancel _ => w
  await w _ := { world := {}, finished := w.staff.map fun slot => (slot, .returned (.succeeded [] [])) }

/-- Two builds succeed and publish nothing. When the tests are let in both builds have succeeded, and the tests lack
an input because nothing was published. -/
theorem Moment.dependency_barrier_crossBuild :
    let setup : Setup := { graph := crossBuildGraph.graph, context := pushed, workers := 2 }
    Validation.check shells crossBuild = .ok () ∧
      ∃ m m' : Moment Idle, Path (Operation.start setup crossBuildGraph {}).moment m ∧ Step m m' ∧
        (∃ q, m.coord.record? 0 = some q ∧ q.status = .succeeded) ∧
        ∃ r missing, m'.coord.record? 2 = some r ∧ r.status = .ready ∧
          Inputs.resolve m'.world m'.coord.recordsOf r.job.consumes = .error (.missing missing) ∧
          ∃ ref ∈ r.job.consumes, ref.Unpublished (m'.coord.recordsOf ref.stage) missing := by
  intro setup
  have valid : Validation.check shells crossBuild = .ok () := by cbv
  -- One turn runs the builds; then the stage of the tests is opened.
  obtain ⟨o, c, s, t, q, r, missing, turn, order, before, graph, stage, place, settled, opened, held, member, found,
      ready, named, lacking⟩ :
      ∃ (o : Operation Idle) (c : Coordinator) (s t : Stage) (q r : JobRecord) (missing : MissingArtifact),
        (Operation.start setup crossBuildGraph {}).turn = .ok (o, true) ∧
        o.coord.setup.graph.order = [0, 1] ∧ o.coord.opened = [0] ∧
        o.coord.setup.graph.stages[1]? = some s ∧ crossBuildGraph.graph.stages[1]? = some s ∧
        crossBuildGraph.graph.stages[0]? = some t ∧
        o.coord.prerequisites? 1 = some [("build", .succeeded, none)] ∧
        o.coord.openStage .zero 1 s [("build", .succeeded, none)] = .ok c ∧
        o.coord.record? 0 = some q ∧ q.job.stage = t.name ∧ c.record? 2 = some r ∧ r.status = .ready ∧
        r.job.stage = s.name ∧ Inputs.resolve o.world c.recordsOf r.job.consumes = .error (.missing missing) := by
    refine ⟨_, _, _, _, _, _, _, by cbv, by cbv, by cbv, by cbv, by cbv, by cbv, by cbv, by cbv, by cbv, by cbv,
      by cbv, by cbv, by cbv, by cbv⟩
  have path := (Operation.turn_path turn).1
  have step : Step o.moment ⟨c, o.world, [], []⟩ :=
    .opens (by simp [order]) (by simp [before]) graph settled opened
  have need : Relation.TransGen crossBuildGraph.graph.Needs 1 0 := .single (List.mem_singleton.2 rfl)
  have barrier := (dependency_barrier crossBuild_built rfl path).1 _ 2 0 1 0 r q s t step found
    (by simp [JobRecord.Released, ready]) stage named need place held member
  rcases ((dependency_barrier crossBuild_built rfl (path.tail step)).2 Unit shells valid 2 r found ready).2 _ lacking
    with ⟨ref, consumed, ⟨_, same, unpublished⟩ | ⟨other, _⟩⟩
  · cases same
    exact ⟨valid, o.moment, _, path, step, ⟨q, held, barrier.1⟩, r, missing, found, ready, lacking, ref, consumed,
      unpublished⟩
  · cases other

end Conveyor

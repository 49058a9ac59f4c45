import Conveyor.Proofs.QueueOrder
import Conveyor.Proofs.RunCompletion

/-! Runs with a single worker. A turn opens no stage before another one that stands earlier and can be opened, and it
starts jobs only when no stage is left to open. With one worker jobs then come to their end in their order: when a job is
started, every earlier one has ended or can never be let in, because a stage behind its own has not succeeded. So the
stages that are let in are opened in their order, and the queue is in the order of the jobs. -/

namespace Conveyor
namespace Coordinator

def NeedsStage (c : Coordinator) (stage need : String) : Prop :=
  ∃ i n, c.setup.graph.Needs i n ∧ c.stageName i = stage ∧ c.stageName n = need

/-- A stage needs another one, perhaps through others, of which a job has ended without success. -/
def Lost (c : Coordinator) (stage : String) : Prop :=
  ∃ k q, Relation.TransGen c.NeedsStage stage q.job.stage ∧ c.record? k = some q ∧ q.status.isTerminal = true ∧
    q.status ≠ .succeeded

/-- Every pending job waits for one that has not succeeded. -/
def Stalled (c : Coordinator) : Prop :=
  ∀ j r, c.record? j = some r → r.status = .pending →
    ∃ k q, c.NeedsStage r.job.stage q.job.stage ∧ c.record? k = some q ∧ q.status ≠ .succeeded

/-- The jobs go in their order: the queue does, every job before one that has been started has ended or is lost, and so
is every pending job before one that has been let in. -/
structure InTurn (c : Coordinator) : Prop where
  sorted : c.ready.Pairwise (· < ·)
  ended : ∀ i j r q, j < i → c.record? i = some r → c.record? j = some q →
    r.status = .running ∨ r.status = .succeeded → q.status.isTerminal = true ∨ c.Lost q.job.stage
  passed : ∀ i j r q, j < i → c.record? i = some r → c.record? j = some q → r.Released → q.status = .pending →
    c.Lost q.job.stage

theorem needsStage_congr {c c' : Coordinator} (setup : c'.setup = c.setup) : c'.NeedsStage = c.NeedsStage := by
  funext stage need
  simp only [NeedsStage, stageName, setup]

theorem Evolved.lost {c c' : Coordinator} (evolved : Evolved c c') (setup : c'.setup = c.setup) {stage : String}
    (lost : c.Lost stage) : c'.Lost stage := by
  obtain ⟨k, q, below, found, terminal, unsuccessful⟩ := lost
  exact ⟨k, q, by rwa [needsStage_congr setup], evolved.frozen found terminal, terminal, unsuccessful⟩

theorem Lost.through {c : Coordinator} {stage need : String} (needs : c.NeedsStage stage need) (lost : c.Lost need) :
    c.Lost stage := by
  obtain ⟨k, q, below, rest⟩ := lost
  exact ⟨k, q, .head needs below, rest⟩

/-- The opening of a stage makes no other one ready to be opened, unless it needs that stage. -/
theorem Opened.openable {c c' : Coordinator} {now : Double} {i k : Nat} {s : Stage} {change : Status × Remark}
    (opened : Opened c c' now i s change) (ordered : c.setup.graph.Ordered) (stage : c.setup.graph.stages[i]? = some s)
    (unneeded : ¬ c.setup.graph.Needs k i) (openable : c'.Openable k) : c.Openable k := by
  obtain ⟨closed, known, outcomes, settled⟩ := openable
  have jobs : SameJobs c c' := opened.records.sameJobs fun _ r => by split <;> simp
  refine ⟨fun member => closed (by simp [opened.opened, member]), by rwa [opened.setup] at known, outcomes, ?_⟩
  rw [← settled]
  refine (prerequisites?_congr (congrArg Setup.graph opened.setup) fun n need => ?_).symm
  have other : n ≠ i := by
    rintro rfl
    exact unneeded need
  refine stageOutcome_congr (congrArg Setup.graph opened.setup) (by simp [opened.opened, other]) ?_
  refine recordsOf_congr jobs fun j r r' found found' named => ?_
  cases found'.symm.trans (opened.records.found found)
  have elsewhere : r.job.stage ≠ s.name := by
    intro same
    obtain ⟨t, place⟩ := ordered.stage ((ordered.complete n).2 (ordered.needs k n need).2)
    rw [named, stageName, place] at same
    exact other (ordered.unique place stage same)
  rw [if_neg elsewhere]

end Coordinator

namespace Moment

open Fallible Coordinator

variable {ω : Type} {g : RunGraph} {m m' : Moment ω}

section

variable (tidy : Tidy g m)

include tidy

theorem Tidy.stageName {i : Nat} {s : Stage} (stage : g.graph.stages[i]? = some s) :
    m.coord.stageName i = s.name := by
  rw [Coordinator.stageName, tidy.runs.graph, stage]
  rfl

theorem Tidy.resident (populated : g.Populated) {i : Nat} {s : Stage} (stage : g.graph.stages[i]? = some s) :
    ∃ j r, m.coord.record? j = some r ∧ r.job.stage = s.name := by
  obtain ⟨job, listed, named⟩ := populated.resident stage
  rw [← tidy.runs.jobs] at listed
  obtain ⟨r, member, rfl⟩ := List.mem_map.1 listed
  obtain ⟨j, found⟩ := List.mem_iff_getElem?.1 member
  exact ⟨j, r, found, named⟩

theorem Tidy.lt_of_idxOf (arranged : g.Arranged) {i j k l : Nat} {s t : Stage} {r q : JobRecord}
    (stage : g.graph.stages[k]? = some s) (stage' : g.graph.stages[l]? = some t)
    (earlier : g.graph.order.idxOf k < g.graph.order.idxOf l) (found : m.coord.record? i = some r)
    (named : r.job.stage = s.name) (held : m.coord.record? j = some q) (named' : q.job.stage = t.name) :
    i < j := by
  apply tidy.runs.lt_of_precedes arranged found held
  left
  rw [named, named', arranged.populated.ordered.position_eq stage, arranged.populated.ordered.position_eq stage']
  exact earlier

theorem Tidy.needed (populated : g.Populated) {stage need : String} (needs : m.coord.NeedsStage stage need)
    (cleared : m.coord.Cleared stage) :
    (∀ k q, m.coord.record? k = some q → q.job.stage = need → q.status = .succeeded) ∧
      m.coord.Cleared need := by
  obtain ⟨i, n, direct, rfl, rfl⟩ := needs
  rw [tidy.runs.graph] at direct
  obtain ⟨inside, inside'⟩ := populated.ordered.needs i n direct
  have place : g.graph.stages[i]? = some g.graph.stages[i] := List.getElem?_eq_getElem inside
  have place' : g.graph.stages[n]? = some g.graph.stages[n] := List.getElem?_eq_getElem inside'
  rw [tidy.stageName place] at cleared
  rw [tidy.stageName place']
  have outcome := cleared i _ n (by rw [tidy.runs.graph]; exact place) rfl (by rw [tidy.runs.graph]; exact direct)
  have succeeded {k : Nat} {q : JobRecord} (found : m.coord.record? k = some q)
      (named : q.job.stage = g.graph.stages[n].name) : q.status = .succeeded :=
    tidy.runs.succeeded place' outcome (mem_recordsOf.2 ⟨k, found, named⟩)
  refine ⟨fun k q found named => succeeded found named, ?_⟩
  obtain ⟨k, q, found, named⟩ := tidy.resident populated place'
  rw [← named]
  exact tidy.barred k q found (by simp [JobRecord.Released, succeeded found named])

theorem Tidy.unlost (populated : g.Populated) {stage : String} (cleared : m.coord.Cleared stage) :
    ¬ m.coord.Lost stage := by
  intro lost
  obtain ⟨k, q, below, found, _, unsuccessful⟩ := lost
  suffices all : ∀ k q', m.coord.record? k = some q' → q'.job.stage = q.job.stage → q'.status = .succeeded from
    unsuccessful (all k q found rfl)
  clear found unsuccessful
  induction below using Relation.TransGen.head_induction_on with
  | single needs => exact (tidy.needed populated needs cleared).1
  | head needs _ ih => exact ih (tidy.needed populated needs cleared).2

/-- A closed stage that cannot be opened needs one of which a job has not ended. -/
theorem Tidy.blocked (populated : g.Populated) {i : Nat} {s : Stage} (stage : g.graph.stages[i]? = some s)
    (closed : i ∉ m.coord.opened) (shut : ¬ m.coord.Openable i) :
    ∃ n t k q, g.graph.Needs i n ∧ g.graph.stages[n]? = some t ∧ m.coord.record? k = some q ∧
      q.job.stage = t.name ∧ q.status.isTerminal = false := by
  by_contra none
  apply shut
  have place : m.coord.setup.graph.stages[i]? = some s := by rw [tidy.runs.graph]; exact stage
  refine ⟨closed, ⟨s, place⟩, prerequisites?_isSome fun n need => ?_⟩
  rw [tidy.runs.graph] at need
  obtain ⟨t, known⟩ := populated.ordered.stage ((populated.ordered.complete n).2 (populated.ordered.needs i n need).2)
  have ended {k : Nat} {q : JobRecord} (found : m.coord.record? k = some q) (named : q.job.stage = t.name) :
      q.status.isTerminal = true := by
    by_contra unended
    exact none ⟨n, t, k, q, need, known, found, named, by simpa using unended⟩
  obtain ⟨k, q, found, named⟩ := tidy.resident populated known
  refine stageOutcome_isSome ?_ fun r member => ?_
  · by_contra unopened
    have pending := (tidy.sound.pending n t k q (by rw [tidy.runs.graph]; exact known) found named).2 unopened
    have terminal := ended found named
    rw [pending] at terminal
    cases terminal
  · rw [tidy.stageName known] at member
    obtain ⟨k, found, named⟩ := mem_recordsOf.1 member
    exact ended found named

theorem Tidy.stalled (populated : g.Populated) (shut : ∀ i ∈ g.graph.order, ¬ m.coord.Openable i) :
    m.coord.Stalled := by
  intro j r found pending
  obtain ⟨i, s, stage, named⟩ := tidy.runs.home populated found
  have closed := (tidy.sound.pending i s j r stage found named).1 pending
  rw [tidy.runs.graph] at stage
  have listed := (populated.ordered.complete i).2 (List.getElem?_eq_some_iff.1 stage).1
  obtain ⟨n, t, k, q, need, known, held, named', unended⟩ := tidy.blocked populated stage closed (shut i listed)
  refine ⟨k, q, ⟨i, n, by rw [tidy.runs.graph]; exact need, ?_, ?_⟩, held, ?_⟩
  · rw [named, tidy.stageName stage]
  · rw [named', tidy.stageName known]
  · intro succeeded
    rw [succeeded] at unended
    cases unended

theorem Tidy.lt_of_needsStage (arranged : g.Arranged) {i j : Nat} {r q : JobRecord}
    (found : m.coord.record? i = some r) (held : m.coord.record? j = some q)
    (needs : m.coord.NeedsStage r.job.stage q.job.stage) : j < i := by
  obtain ⟨k, n, need, named, named'⟩ := needs
  rw [tidy.runs.graph] at need
  have ordered := arranged.populated.ordered
  obtain ⟨inside, inside'⟩ := ordered.needs k n need
  have place : g.graph.stages[k]? = some g.graph.stages[k] := List.getElem?_eq_getElem inside
  have place' : g.graph.stages[n]? = some g.graph.stages[n] := List.getElem?_eq_getElem inside'
  rw [tidy.stageName place] at named
  rw [tidy.stageName place'] at named'
  exact tidy.lt_of_idxOf arranged place' place (ordered.idxOf_lt need) held named'.symm found named.symm

/-- When nobody is at work and no stage is left to open, all jobs before the first one in the queue have ended or are
lost. -/
theorem Tidy.before_head (arranged : g.Arranged) (stalled : m.coord.Stalled) (idle : m.coord.inFlight = [])
    {i : Nat} {queue : List Nat} (head : m.coord.ready = i :: queue)
    (sorted : m.coord.ready.Pairwise (· < ·)) {j : Nat} {q : JobRecord} (before : j < i)
    (held : m.coord.record? j = some q) : q.status.isTerminal = true ∨ m.coord.Lost q.job.stage := by
  induction j using Nat.strongRecOn generalizing q with
  | ind j ih =>
    cases status : q.status with
    | pending =>
      obtain ⟨k, q', needs, held', unsuccessful⟩ := stalled j q held status
      have sooner := tidy.lt_of_needsStage arranged held held' needs
      right
      by_cases terminal : q'.status.isTerminal = true
      · exact ⟨k, q', .single needs, held', terminal, unsuccessful⟩
      · exact .through needs ((ih k sooner (by omega) held').resolve_left terminal)
    | ready =>
      have member := tidy.consistent.waiting j q held status
      rw [head] at member sorted
      rcases List.mem_cons.1 member with rfl | later
      · omega
      · have after := (List.pairwise_cons.1 sorted).1 j later
        omega
    | running =>
      have member := tidy.consistent.flying j q held status
      rw [idle] at member
      cases member
    | succeeded => exact Or.inl rfl
    | failed => exact Or.inl rfl
    | skipped => exact Or.inl rfl
    | cancelled => exact Or.inl rfl

end

variable [World ω]

/-- A step as a turn takes it: a stage is opened only if none before it can be, and a job is started only if every
pending one waits for another. -/
structure Diligent (m m' : Moment ω) : Prop where
  step : Step m m'
  opens : ∀ i, m'.coord.opened = m.coord.opened ++ [i] → ∀ k,
    m.coord.setup.graph.order.idxOf k < m.coord.setup.graph.order.idxOf i → ¬ m.coord.Openable k
  starts : m.coord.inFlight.length < m'.coord.inFlight.length → m.coord.Stalled

variable {j i : Nat} {r r' : JobRecord} {now : Double} {c c' : Coordinator}

theorem Step.pending (step : Step m m') (found : m.coord.record? j = some r)
    (found' : m'.coord.record? j = some r') (pending : r'.status = .pending) : r.status = .pending := by
  have fate := step.fate_of found found'
  cases fate with
  | kept => exact pending
  | opened =>
    rcases opening_cases _ _ _ with change | change
    all_goals
      rw [JobRecord.moved_status, change] at pending
      cases pending
  | lacked => cases pending
  | launched => cases pending
  | @returned _ outcome _ _ _ _ fault =>
    have terminal := outcome.ending_terminal fault
    rw [JobRecord.moved_status] at pending
    rw [pending] at terminal
    cases terminal
  | expired => cases pending
  | stopped => cases pending

theorem Step.released (step : Step m m') (tidy : Tidy g m) (populated : g.Populated)
    (found : m.coord.record? j = some r) (found' : m'.coord.record? j = some r') (released : r'.Released)
    (unreleased : ¬ r.Released) :
    ∃ i s, m'.coord.opened = m.coord.opened ++ [i] ∧ g.graph.stages[i]? = some s ∧ r.job.stage = s.name ∧
      m.coord.Cleared s.name := by
  have cleared := step.cleared (tidy.runs.graph ▸ populated.ordered) tidy.barred found' released
  obtain ⟨_, same, evolves⟩ := step.evolved.record found
  cases found'.symm.trans same
  rw [evolves.job] at cleared
  have unskipped : r.status ≠ .skipped := by
    intro skipped
    cases found'.symm.trans (step.evolved.frozen found (by rw [skipped]; rfl))
    exact unreleased released
  have pending : r.status = .pending := by
    by_contra awake
    exact unreleased ⟨awake, unskipped⟩
  have fate := step.fate_of found found'
  cases fate with
  | kept => exact (unreleased released).elim
  | @opened _ i s _ stage _ opens _ member =>
    rw [tidy.runs.graph] at stage
    exact ⟨i, s, opens, stage, member, member ▸ cleared⟩
  | lacked ready => cases pending.symm.trans ready
  | launched ready => cases pending.symm.trans ready
  | returned running => cases pending.symm.trans running
  | expired running => cases pending.symm.trans running
  | stopped _ held active _ _ _ sibling =>
    exact (tidy.runs.awake populated tidy.sound held active found sibling pending).elim

theorem Diligent.passed (diligent : Diligent m m') (tidy : Tidy g m) (tidy' : Tidy g m') (arranged : g.Arranged)
    (inTurn : m.coord.InTurn) {q' : JobRecord} (before : j < i) (found' : m'.coord.record? i = some r')
    (held' : m'.coord.record? j = some q') (released : r'.Released) (pending : q'.status = .pending) :
    m'.coord.Lost q'.job.stage := by
  have step := diligent.step
  have populated := arranged.populated
  obtain ⟨r, found, evolves⟩ := step.evolved.source found'
  obtain ⟨q, held, evolves'⟩ := step.evolved.source held'
  have early := step.pending held held' pending
  rw [evolves'.job]
  apply step.evolved.lost step.frame.1
  by_cases known : r.Released
  · exact inTurn.passed i j r q before found held known early
  obtain ⟨k, s, opens, stage, named, cleared⟩ := step.released tidy populated found found' released known
  obtain ⟨l, t, stage', named'⟩ := tidy.runs.home populated held
  have closed := (tidy.sound.pending l t j q stage' held named').1 early
  have closed' : l ∉ m'.coord.opened := by
    rw [← step.frame.1] at stage'
    rw [← evolves'.job] at named'
    exact (tidy'.sound.pending l t j q' stage' held' named').1 pending
  rw [tidy.runs.graph] at stage'
  have listed := (populated.ordered.complete l).2 (List.getElem?_eq_some_iff.1 stage').1
  have listed' := (populated.ordered.complete k).2 (List.getElem?_eq_some_iff.1 stage).1
  -- The stage of the pending job comes before the one that is opened, and it is closed for want of another one.
  have earlier : g.graph.order.idxOf l < g.graph.order.idxOf k := by
    rcases Nat.lt_trichotomy (g.graph.order.idxOf l) (g.graph.order.idxOf k) with less | same | more
    · exact less
    · rw [(List.idxOf_inj listed).1 same, opens] at closed'
      exact (closed' (by simp)).elim
    · have backwards := tidy.lt_of_idxOf arranged stage stage' more found named held named'
      omega
  have shut := diligent.opens k opens l (by rw [tidy.runs.graph]; exact earlier)
  obtain ⟨n, v, y, x, need, place, waits, home, unended⟩ := tidy.blocked populated stage' closed shut
  have direct : m.coord.NeedsStage q.job.stage x.job.stage := by
    refine ⟨l, n, by rw [tidy.runs.graph]; exact need, ?_, ?_⟩
    · rw [tidy.stageName stage', named']
    · rw [tidy.stageName place, home]
  -- The stage that is opened needs one that stands behind the missing one or is the same, and that one has succeeded.
  obtain ⟨u, need', behind⟩ := arranged.timely l k n listed listed' earlier need
  obtain ⟨d, place'⟩ := populated.ordered.stage ((populated.ordered.complete u).2 (populated.ordered.needs k u need').2)
  have succeeded := (tidy.needed populated ⟨k, u, by rw [tidy.runs.graph]; exact need', tidy.stageName stage,
    tidy.stageName place'⟩ cleared).1
  obtain ⟨z, e, found'', home'⟩ := tidy.resident populated place'
  have other : g.graph.order.idxOf n ≠ g.graph.order.idxOf u := by
    intro same
    cases (List.idxOf_inj ((populated.ordered.complete n).2 (populated.ordered.needs l n need).2)).1 same
    cases place.symm.trans place'
    rw [succeeded y x waits home] at unended
    cases unended
  have sooner := tidy.lt_of_idxOf arranged place place' (by omega) waits home found'' home'
  have fate := inTurn.ended z y e x sooner found'' waits (Or.inr (succeeded z e found'' home'))
  exact .through direct (fate.resolve_left (by simp [unended]))

theorem Diligent.sorted (diligent : Diligent m m') (tidy : Tidy g m) (populated : g.Populated)
    (distinct : g.DistinctKeys) (inTurn : m.coord.InTurn) : m'.coord.ready.Pairwise (· < ·) := by
  have sorted := inTurn.sorted
  have ordered : m.coord.setup.graph.Ordered := tidy.runs.graph ▸ populated.ordered
  rcases diligent.step.queue (tidy.runs.apart distinct) with
    ⟨k, s, outcomes, _, closed, stage, settled, _, ready⟩ | ⟨_, same | ⟨i, head⟩⟩
  · rw [ready, List.pairwise_append]
    refine ⟨sorted, ?_, fun i waiting j enters => ?_⟩
    · split
      · exact m.coord.members_sorted s.name
      · exact .nil
    · split at enters
      next change =>
        obtain ⟨r, found, released⟩ := tidy.queued waiting
        obtain ⟨q, held, named⟩ := mem_members.1 enters
        have pending := (tidy.sound.pending k s j q stage held named).2 closed
        by_contra late
        have other : j ≠ i := by
          intro same
          subst same
          cases found.symm.trans held
          exact released.1 pending
        have lost := inTurn.passed i j r q (by omega) found held released pending
        -- But a stage that lets its jobs in is not lost.
        refine tidy.unlost populated ?_ (named ▸ lost)
        intro l t n place same need
        cases ordered.unique place stage same
        exact succeeded_of_released settled change need
      next => cases enters
  · rw [same]
    exact sorted
  · rw [head] at sorted
    exact sorted.of_cons

/-- A single worker starts the first job of the queue, and nobody else is at work. -/
theorem Step.launched_first (step : Step m m') (tidy : Tidy g m) (tidy' : Tidy g m') (distinct : g.DistinctKeys)
    (single : m.coord.setup.workers = 1) (found : m.coord.record? i = some r) (ready : r.status = .ready)
    (found' : m'.coord.record? i = some r') (running : r'.status = .running)
    (flight : m'.coord.inFlight = m.coord.inFlight ++ [i]) :
    m.coord.inFlight = [] ∧ ∃ queue, m.coord.ready = i :: queue := by
  have gone : i ∉ m'.coord.ready := by
    intro member
    obtain ⟨_, again, waits | swept⟩ := tidy'.consistent.queued i member
    · cases found'.symm.trans again
      cases running.symm.trans waits
    · cases found'.symm.trans again
      cases running.symm.trans swept.status
  have waiting := tidy.consistent.waiting i r found ready
  constructor
  · have bounded := tidy'.consistent.bounded
    rw [flight, step.frame.1, single, List.length_append, List.length_singleton] at bounded
    exact List.eq_nil_of_length_eq_zero (by omega)
  · rcases step.queue (tidy.runs.apart distinct) with ⟨_, _, _, _, _, _, _, _, entered⟩ | ⟨_, same | ⟨k, head⟩⟩
    · exact (gone (by simp [entered, waiting])).elim
    · exact (gone (same ▸ waiting)).elim
    · rw [head] at waiting
      cases (List.mem_cons.1 waiting).resolve_right gone
      exact ⟨_, head⟩

theorem Diligent.ended (diligent : Diligent m m') (tidy : Tidy g m) (tidy' : Tidy g m') (arranged : g.Arranged)
    (distinct : g.DistinctKeys) (single : m.coord.setup.workers = 1) (inTurn : m.coord.InTurn)
    {q' : JobRecord} (before : j < i) (found' : m'.coord.record? i = some r')
    (held' : m'.coord.record? j = some q') (started : r'.status = .running ∨ r'.status = .succeeded) :
    q'.status.isTerminal = true ∨ m'.coord.Lost q'.job.stage := by
  have step := diligent.step
  obtain ⟨r, found, evolves⟩ := step.evolved.source found'
  obtain ⟨q, held, evolves'⟩ := step.evolved.source held'
  suffices earlier : q.status.isTerminal = true ∨ m.coord.Lost q.job.stage by
    rw [evolves'.job]
    rcases earlier with terminal | lost
    · rw [evolves'.frozen terminal]
      exact Or.inl terminal
    · exact Or.inr (step.evolved.lost step.frame.1 lost)
  have again : r.status = .running ∨ r.status = .succeeded →
      q.status.isTerminal = true ∨ m.coord.Lost q.job.stage := inTurn.ended i j r q before found held
  obtain ⟨_, same, fate⟩ := step.fate found
  cases found'.symm.trans same
  cases fate with
  | kept => exact again started
  | @opened _ _ s outcomes =>
    rcases m.coord.opening_cases s outcomes with change | change
    all_goals simp [change] at started
  | lacked => simp at started
  | launched ready _ flight =>
    obtain ⟨idle, queue, head⟩ := step.launched_first tidy tidy' distinct single found ready found' rfl flight
    exact tidy.before_head arranged (diligent.starts (by simp [flight])) idle head inTurn.sorted before held
  | returned running => exact again (Or.inl running)
  | expired => simp at started
  | stopped => simp at started

abbrev DiligentPath : Moment ω → Moment ω → Prop := Relation.ReflTransGen Diligent

theorem DiligentPath.path (path : DiligentPath m m') : Path m m' := by
  induction path with
  | refl => exact .refl
  | tail _ diligent ih => exact ih.tail diligent.step

theorem DiligentPath.inTurn (arranged : g.Arranged) (distinct : g.DistinctKeys) {setup : Setup}
    (graph : setup.graph = g.graph) (single : setup.workers = 1) {w : ω}
    (path : DiligentPath (Operation.start setup g w).moment m) : m.coord.InTurn := by
  induction path with
  | refl =>
    refine ⟨.nil, ?_, ?_⟩
    · intro i j r q _ found _ started
      simp [Operation.start_pending found] at started
    · intro i j r q _ found _ released
      exact (released.1 (Operation.start_pending found)).elim
  | tail earlier diligent ih =>
    have path := DiligentPath.path earlier
    have workers : _ = 1 := (congrArg Setup.workers path.setup).trans single
    have tidy := Path.tidy arranged.populated distinct graph path
    have tidy' := Path.tidy arranged.populated distinct graph (path.tail diligent.step)
    constructor
    · exact diligent.sorted tidy arranged.populated distinct ih
    · intro i j r q before found held started
      exact diligent.ended tidy tidy' arranged distinct workers ih before found held started
    · intro i j r q before found held released pending
      exact diligent.passed tidy tidy' arranged ih before found held released pending

theorem Diligent.of_quiet (step : Step m m') (opened : m'.coord.opened = m.coord.opened)
    (fewer : m'.coord.inFlight.length ≤ m.coord.inFlight.length) : Diligent m m' := by
  refine ⟨step, fun i opens => ?_, fun more => by omega⟩
  rw [opened] at opens
  simp at opens

theorem Step.stalled (step : Step m m') (nobody : m.arrived = []) (stalled : m.coord.Stalled) :
    m'.coord.Stalled := by
  intro j r' found' pending
  obtain ⟨r, found, evolves⟩ := step.evolved.source found'
  obtain ⟨k, q, needs, held, unsuccessful⟩ := stalled j r found (step.pending found found' pending)
  obtain ⟨q', held', fate⟩ := step.fate held
  refine ⟨k, q', ?_, held', ?_⟩
  · rw [needsStage_congr step.frame.1, evolves.job, fate.evolves.job]
    exact needs
  · cases fate with
    | kept => exact unsuccessful
    | @opened _ _ s outcomes => rcases m.coord.opening_cases s outcomes with change | change <;> simp [change]
    | lacked => simp
    | launched => simp
    | returned _ arrived => cases nobody.symm.trans arrived
    | expired => simp
    | stopped => simp

/-- A look at the stages is a path of such steps, and leaves no stage that can be opened. -/
theorem resolveStages_diligent {before : List Nat} (places : List Nat) {w : ω} {some all : Bool}
    (ordered : c.setup.graph.Ordered) (split : c.setup.graph.order = before ++ places)
    (shut : ∀ k ∈ before, ¬ c.Openable k) (done : places.foldlM (resolveStage now) (c, some) = .ok (c', all)) :
    DiligentPath (⟨c, w, [], []⟩ : Moment ω) ⟨c', w, [], []⟩ ∧ ∀ k ∈ c.setup.graph.order, ¬ c'.Openable k := by
  induction places generalizing c before some with
  | nil =>
    cases done
    rw [split, List.append_nil]
    exact ⟨.refl, shut⟩
  | cons i places ih =>
    obtain ⟨⟨middle, changed⟩, first, rest⟩ := foldlM_cons_ok.1 done
    have next : c.setup.graph.order = before ++ [i] ++ places := by rw [split, List.append_assoc, List.singleton_append]
    rcases resolveStage_ok first with ⟨rfl, rfl, closed⟩ | ⟨s, outcomes, closed, stage, settled, opened, rfl⟩
    · refine ih ordered next ?_ rest
      rw [List.forall_mem_append, List.forall_mem_singleton]
      refine ⟨shut, fun openable => ?_⟩
      obtain ⟨unopened, ⟨s, stage⟩, outcomes, settled⟩ := openable
      simp [unopened, stage, settled] at closed
    · have listed : i ∈ c.setup.graph.order := by simp [split]
      have step : Step (⟨c, w, [], []⟩ : Moment ω) ⟨middle, w, [], []⟩ := .opens listed closed stage settled opened
      have opened := openStage_ok opened
      have place := ordered.idxOf_eq split
      have diligent : Diligent (⟨c, w, [], []⟩ : Moment ω) ⟨middle, w, [], []⟩ := by
        refine ⟨step, fun j opens k earlier => shut k ?_, fun more => ?_⟩
        · have same : j = i := by
            rw [opened.opened] at opens
            simpa using opens.symm
          rw [same, place, split] at earlier
          by_contra late
          rw [List.idxOf_append_of_notMem late] at earlier
          omega
        · simp [opened.inFlight] at more
      have kept (k : Nat) (member : k ∈ before) : ¬ middle.Openable k := by
        intro openable
        refine shut k member (opened.openable ordered stage (fun need => ?_) openable)
        have earlier := ordered.idxOf_lt need
        have bound := List.idxOf_lt_length_iff.2 member
        rw [place, split, List.idxOf_append_of_mem member] at earlier
        omega
      have others := ih (by rw [opened.setup]; exact ordered) (by rw [opened.setup]; exact next) (by
        rw [List.forall_mem_append, List.forall_mem_singleton]
        exact ⟨kept, fun openable => openable.1 (by simp [opened.opened])⟩) rest
      rw [opened.setup] at others
      exact ⟨.head diligent others.1, others.2⟩

theorem collect_diligent (arrived : List (Nat × Completion)) {w w' : ω}
    (done : arrived.foldlM (collect now) (c, w) = .ok (c', w')) :
    DiligentPath (⟨c, w, arrived, []⟩ : Moment ω) ⟨c', w', [], []⟩ := by
  induction arrived generalizing c w with
  | nil =>
    cases done
    exact .refl
  | cons finished rest ih =>
    obtain ⟨⟨middle, between⟩, first, later⟩ := foldlM_cons_ok.1 done
    have quiet : middle.opened = c.opened ∧ middle.inFlight.length ≤ c.inFlight.length := by
      cases collect_ok first with
      | dropped => exact ⟨rfl, List.length_filter_le _ _⟩
      | taken _ _ returned => exact ⟨returned.opened, by rw [returned.inFlight]; exact List.length_filter_le _ _⟩
    exact .head (.of_quiet (.collects first) quiet.1 quiet.2) (ih later)

theorem expire_diligent (due : List (Nat × Deadline)) {w : ω} (done : due.foldlM (expire now) c = .ok c') :
    DiligentPath (⟨c, w, [], due⟩ : Moment ω) ⟨c', w, [], []⟩ := by
  induction due generalizing c with
  | nil =>
    cases done
    exact .refl
  | cons entry rest ih =>
    obtain ⟨middle, first, later⟩ := foldlM_cons_ok.1 done
    have quiet : middle.opened = c.opened ∧ middle.inFlight = c.inFlight := by
      cases expire_ok first with
      | early => exact ⟨rfl, rfl⟩
      | ended => exact ⟨rfl, rfl⟩
      | stopped _ _ late => exact ⟨late.opened, late.inFlight⟩
    exact .head (.of_quiet (.expires first) quiet.1 (by simp [quiet.2])) (ih later)

end Moment
end Conveyor

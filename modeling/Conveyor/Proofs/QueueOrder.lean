import Conveyor.Proofs.QueueConsistency

/-! The order of the queue. Jobs enter it together with the other jobs of their stage, when the stage is opened, and only
the first one ever leaves. So at every moment of a run they stand there in the order in which their stages were opened,
whatever the positions of the stages are, and within a stage in the order of the matrix. -/

namespace Conveyor
namespace Coordinator

def openedBefore (c : Coordinator) (stage : String) : Nat := (c.opened.map c.stageName).idxOf stage

/-- The first of two places of the queue is that of a job whose stage was opened sooner, or that comes first in the
stage of both. -/
def Sooner (c : Coordinator) (i j : Nat) : Prop :=
  ∀ r q, c.record? i = some r → c.record? j = some q →
    c.openedBefore r.job.stage < c.openedBefore q.job.stage ∨ r.job.stage = q.job.stage ∧ i < j

theorem members_sorted (c : Coordinator) (stage : String) : (c.members stage).Pairwise (· < ·) :=
  List.pairwise_lt_range.filter _

theorem openedBefore_lt {c : Coordinator} {i : Nat} (opened : i ∈ c.opened) :
    c.openedBefore (c.stageName i) < c.opened.length := by
  rw [← List.length_map c.stageName]
  exact List.idxOf_lt_length_iff.2 (List.mem_map_of_mem opened)

theorem openedBefore_append {c c' : Coordinator} (setup : c'.setup = c.setup) {later : List Nat}
    (opened : c'.opened = c.opened ++ later) {i : Nat} (known : i ∈ c.opened) :
    c'.openedBefore (c.stageName i) = c.openedBefore (c.stageName i) := by
  have names : c'.stageName = c.stageName := by
    funext k
    rw [stageName, stageName, setup]
  rw [openedBefore, opened, names, List.map_append, List.idxOf_append_of_mem (List.mem_map_of_mem known)]
  rfl

theorem openedBefore_last {c c' : Coordinator} (ordered : c.setup.graph.Ordered) (setup : c'.setup = c.setup) {i : Nat}
    {s : Stage} (stage : c.setup.graph.stages[i]? = some s) (closed : i ∉ c.opened)
    (known : ∀ k ∈ c.opened, ∃ t, c.setup.graph.stages[k]? = some t) (opened : c'.opened = c.opened ++ [i]) :
    c'.openedBefore s.name = c.opened.length := by
  have name {k : Nat} {t : Stage} (place : c.setup.graph.stages[k]? = some t) : c'.stageName k = t.name := by
    rw [stageName, setup, place]
    rfl
  have fresh : s.name ∉ c.opened.map c'.stageName := by
    intro member
    obtain ⟨k, before, same⟩ := List.mem_map.1 member
    obtain ⟨t, place⟩ := known k before
    rw [name place] at same
    rw [← ordered.unique place stage same] at closed
    exact closed before
  rw [openedBefore, opened, List.map_append, List.idxOf_append_of_notMem fresh, List.map_singleton, name stage,
    List.idxOf_cons_self, List.length_map, Nat.add_zero]

end Coordinator

namespace Moment

open Coordinator

variable {ω : Type} {g : RunGraph} {m m' : Moment ω}

theorem Runs.lt_of_precedes (runs : Runs g m) (arranged : g.Arranged) {i j : Nat} {r q : JobRecord}
    (found : m.coord.record? i = some r) (held : m.coord.record? j = some q)
    (precedes : g.Precedes r.job q.job) : i < j := by
  have place {k : Nat} {x : JobRecord} (at_k : m.coord.record? k = some x) : g.allJobs[k]? = some x.job := by
    rw [← runs.jobs, List.getElem?_map]
    exact congrArg (Option.map JobRecord.job) at_k
  obtain ⟨inside, first⟩ := List.getElem?_eq_some_iff.1 (place found)
  obtain ⟨inside', second⟩ := List.getElem?_eq_some_iff.1 (place held)
  by_contra late
  rcases Nat.lt_or_eq_of_le (Nat.le_of_not_lt late) with before | same
  · have backwards := List.pairwise_iff_getElem.1 arranged.jobs j i inside' inside before
    rw [first, second] at backwards
    exact backwards.asymm precedes
  · subst same
    cases found.symm.trans held
    exact precedes.asymm precedes

theorem Runs.precedes_of_lt (runs : Runs g m) (arranged : g.Arranged) {i j : Nat} {r q : JobRecord}
    (found : m.coord.record? i = some r) (held : m.coord.record? j = some q) (before : i < j) :
    g.Precedes r.job q.job := by
  have jobs : (m.coord.records.map (·.job)).Pairwise g.Precedes := runs.jobs ▸ arranged.jobs
  rw [List.pairwise_map, List.pairwise_iff_getElem] at jobs
  obtain ⟨inside, rfl⟩ := List.getElem?_eq_some_iff.1 found
  obtain ⟨inside', rfl⟩ := List.getElem?_eq_some_iff.1 held
  exact jobs i j inside inside' before

variable [World ω]

/-- What a step does to the open stages and the queue: a stage is opened, and its jobs may enter at the end; or no stage
is opened, and at most the first job leaves. -/
theorem Step.queue (step : Step m m') (apart : (m.coord.records.map (·.job)).Pairwise Job.Apart) :
    (∃ i s outcomes, i ∈ m.coord.setup.graph.order ∧ i ∉ m.coord.opened ∧
      m.coord.setup.graph.stages[i]? = some s ∧ m.coord.prerequisites? i = some outcomes ∧
      m'.coord.opened = m.coord.opened ++ [i] ∧
      m'.coord.ready = m.coord.ready ++
        if (m.coord.opening s outcomes).1 = .ready then m.coord.members s.name else []) ∨
    m'.coord.opened = m.coord.opened ∧
      (m'.coord.ready = m.coord.ready ∨ ∃ i, m.coord.ready = i :: m'.coord.ready) := by
  cases step with
  | @opens c c' _ _ i s outcomes listed closed stage settled opened =>
    have opened := openStage_ok opened
    have slots : (c.members s.name).map c.slot = c.members s.name := by
      rw [List.map_congr_left fun j _ => slot_eq apart j, List.map_id']
    refine Or.inl ⟨i, s, outcomes, listed, closed, stage, settled, opened.opened, ?_⟩
    rw [← slots]
    exact opened.ready
  | takes head _ taken =>
    obtain ⟨_, opened, ready⟩ := (takeUp_ok taken).frame
    exact Or.inr ⟨opened, Or.inr ⟨_, head.trans (congrArg _ ready.symm)⟩⟩
  | delivers => exact Or.inr ⟨rfl, Or.inl rfl⟩
  | awaits => exact Or.inr ⟨rfl, Or.inl rfl⟩
  | collects collected =>
    cases collect_ok collected with
    | dropped => exact Or.inr ⟨rfl, Or.inl rfl⟩
    | taken _ _ returned => exact Or.inr ⟨returned.opened, Or.inl returned.ready⟩
  | looks => exact Or.inr ⟨rfl, Or.inl rfl⟩
  | expires expired =>
    cases expire_ok expired with
    | early => exact Or.inr ⟨rfl, Or.inl rfl⟩
    | ended => exact Or.inr ⟨rfl, Or.inl rfl⟩
    | stopped _ _ late => exact Or.inr ⟨late.opened, Or.inl late.ready⟩

/-- What holds at every moment of a run of a graph whose jobs have different keys. -/
structure Tidy (g : RunGraph) (m : Moment ω) : Prop where
  runs : Runs g m
  sound : m.coord.Sound
  consistent : Consistent m
  barred : m.coord.Barred
  listed : ∀ i ∈ m.coord.opened, i ∈ g.graph.order

theorem Path.tidy (populated : g.Populated) (distinct : g.DistinctKeys) {setup : Setup} (graph : setup.graph = g.graph)
    {w : ω} (path : Path (Operation.start setup g w).moment m) : Tidy g m := by
  have kept := path.preserves
    (fun m => Runs g m ∧ m.coord.Sound ∧ ∀ i ∈ m.coord.opened, i ∈ g.graph.order) ?_
    ⟨.start graph w, sound_start setup g w, fun i member => (List.not_mem_nil member).elim⟩
  · exact ⟨kept.1, kept.2.1, (path.consistent (start_apart distinct setup w) start_lived (consistent_start setup g w)).2,
      (path.barred populated graph).2, kept.2.2⟩
  · intro m m' step kept
    obtain ⟨runs, sound, listed⟩ := kept
    refine ⟨runs.step step, step.sound runs populated distinct sound, ?_⟩
    rcases step.queue (runs.apart distinct) with ⟨i, _, _, known, _, _, _, opened, _⟩ | ⟨opened, _⟩
    · rw [opened, List.forall_mem_append, List.forall_mem_singleton, ← runs.graph]
      exact ⟨by rw [runs.graph]; exact listed, known⟩
    · rw [opened]
      exact listed

omit [World ω] in
theorem Tidy.home (tidy : Tidy g m) (populated : g.Populated) {j : Nat} {r : JobRecord}
    (found : m.coord.record? j = some r) (awake : r.status ≠ .pending) :
    ∃ i ∈ m.coord.opened, m.coord.stageName i = r.job.stage := by
  obtain ⟨i, s, stage, named⟩ := tidy.runs.home populated found
  refine ⟨i, ?_, by rw [stageName, stage, named]; rfl⟩
  by_contra closed
  exact awake ((tidy.sound.pending i s j r stage found named).2 closed)

omit [World ω] in
theorem Tidy.queued (tidy : Tidy g m) {j : Nat} (member : j ∈ m.coord.ready) :
    ∃ r, m.coord.record? j = some r ∧ r.Released := by
  obtain ⟨r, found, ready | swept⟩ := tidy.consistent.queued j member
  · exact ⟨r, found, by simp [JobRecord.Released, ready]⟩
  · exact ⟨r, found, by simp [JobRecord.Released, swept.status]⟩

theorem Step.sooner (step : Step m m') (tidy : Tidy g m) (populated : g.Populated) (distinct : g.DistinctKeys)
    (sorted : m.coord.ready.Pairwise m.coord.Sooner) :
    m'.coord.ready.Pairwise m'.coord.Sooner := by
  have setup := step.frame.1
  have jobs := step.evolved.sameJobs
  -- The jobs in the queue have open stages, and those were opened when they were.
  have still {later : List Nat} (opened : m'.coord.opened = m.coord.opened ++ later) {j : Nat}
      {r : JobRecord} (member : j ∈ m.coord.ready) (found : m.coord.record? j = some r) :
      m'.coord.openedBefore r.job.stage = m.coord.openedBefore r.job.stage ∧
        m.coord.openedBefore r.job.stage < m.coord.opened.length := by
    obtain ⟨_, again, released⟩ := tidy.queued member
    cases found.symm.trans again
    obtain ⟨k, known, named⟩ := tidy.home populated found released.1
    rw [← named]
    exact ⟨openedBefore_append setup opened known, openedBefore_lt known⟩
  have kept {later : List Nat} (opened : m'.coord.opened = m.coord.opened ++ later) :
      m.coord.ready.Pairwise m'.coord.Sooner := by
    refine sorted.imp_of_mem fun {i j} first second sooner r' q' found' held' => ?_
    obtain ⟨r, found, same⟩ := jobs.symm.record found'
    obtain ⟨q, held, same'⟩ := jobs.symm.record held'
    rw [← same, ← same', (still opened first found).1, (still opened second held).1]
    exact sooner r q found held
  have ordered : m.coord.setup.graph.Ordered := tidy.runs.graph ▸ populated.ordered
  have known (k : Nat) (member : k ∈ m.coord.opened) : ∃ t, m.coord.setup.graph.stages[k]? = some t :=
    ordered.stage (by rw [tidy.runs.graph]; exact tidy.listed k member)
  rcases step.queue (tidy.runs.apart distinct) with
    ⟨i, s, outcomes, _, closed, stage, _, opened, ready⟩ | ⟨opened, ready⟩
  · rw [ready, List.pairwise_append]
    have inside {j : Nat} {q' : JobRecord} (held' : m'.coord.record? j = some q')
        (member : j ∈ if (m.coord.opening s outcomes).1 = .ready then m.coord.members s.name else []) :
        q'.job.stage = s.name := by
      split at member
      · rw [← jobs.members] at member
        obtain ⟨_, again, named⟩ := mem_members.1 member
        cases held'.symm.trans again
        exact named
      · cases member
    refine ⟨kept opened, ?_, ?_⟩
    · split
      next change =>
        rw [if_pos change] at inside
        refine (m.coord.members_sorted s.name).imp_of_mem fun first second before r' q' found' held' => ?_
        exact Or.inr ⟨(inside found' first).trans (inside held' second).symm, before⟩
      next => exact .nil
    · intro j waiting k enters r' q' found' held'
      obtain ⟨r, found, same⟩ := jobs.symm.record found'
      have last := openedBefore_last ordered setup stage closed known opened
      obtain ⟨unchanged, early⟩ := still opened waiting found
      left
      rw [inside held' enters, ← same, unchanged, last]
      exact early
  · have all := kept (opened.trans (List.append_nil _).symm)
    rcases ready with same | ⟨i, head⟩
    · rw [same]
      exact all
    · rw [head] at all
      exact all.of_cons

theorem Path.sooner (populated : g.Populated) (distinct : g.DistinctKeys) {setup : Setup}
    (graph : setup.graph = g.graph) {w : ω} (path : Path (Operation.start setup g w).moment m) :
    m.coord.ready.Pairwise m.coord.Sooner := by
  induction path with
  | refl => exact .nil
  | tail earlier step ih => exact step.sooner (Path.tidy populated distinct graph earlier) populated distinct ih

end Moment
end Conveyor

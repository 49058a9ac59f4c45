import Conveyor.Proofs.SingleWorker

/-! The order in which jobs are taken from the queue. The one that is taken was queued first: its stage was opened before
those of all other ready jobs, or it comes first in the matrix of its stage. It is the first one in the order of the run
as long as stages are opened in their order; with one worker they are, with two they need not be. -/

namespace Conveyor

open Fallible

namespace Operation

open Coordinator Moment

variable {ω : Type} [World ω] {g : RunGraph} {o o' : Operation ω}

/-- In the turn that now begins, the job at a place is the next one to be taken from the queue when the coordinator has
come to this state: it has opened stages, it has taken up other jobs, and a worker is free. -/
def TakesUp (o : Operation ω) (c : Coordinator) (i : Nat) : Prop :=
  ∃ opened changed, o.coord.resolveStages (World.now o.world) = .ok (opened, changed) ∧
    Relation.ReflTransGen (Takes o.world (World.now o.world)) opened c ∧ c.ready.head? = some i ∧
    c.inFlight.length < c.setup.workers

theorem takes_diligent {store : ω} {now : Double} {c c' : Coordinator}
    (path : Relation.ReflTransGen (Takes store now) c c') (stalled : c.Stalled) :
    DiligentPath (⟨c, store, [], []⟩ : Moment ω) ⟨c', store, [], []⟩ ∧ c'.Stalled := by
  induction path with
  | refl => exact ⟨.refl, stalled⟩
  | @tail middle last _ takes ih =>
    obtain ⟨earlier, waits⟩ := ih
    obtain ⟨i, queue, count, head, free, taken⟩ := takes
    have step : Moment.Step (⟨middle, store, [], []⟩ : Moment ω) ⟨last, store, [], []⟩ := .takes head free taken
    refine ⟨earlier.tail ⟨step, fun k opens => ?_, fun _ => waits⟩, step.stalled rfl waits⟩
    rw [(takeUp_ok taken).frame.2.1] at opens
    simp at opens

section

variable {setup : Setup} {w : ω}

theorem resolved_diligent (arranged : g.Arranged) (distinct : g.DistinctKeys) (graph : setup.graph = g.graph)
    (reached : Moment.Path (start setup g w).moment o.moment) {opened c : Coordinator} {changed : Bool}
    (resolved : o.coord.resolveStages (World.now o.world) = .ok (opened, changed))
    (taken : Relation.ReflTransGen (Takes o.world (World.now o.world)) opened c) :
    DiligentPath o.moment ⟨c, o.world, [], []⟩ := by
  have same : o.coord.setup.graph = g.graph := (Path.tidy arranged.populated distinct graph reached).runs.graph
  obtain ⟨first, shut⟩ := resolveStages_diligent (w := o.world) o.coord.setup.graph.order
    (same ▸ arranged.populated.ordered) (List.nil_append _).symm (by simp) resolved
  have tidy := Path.tidy arranged.populated distinct graph (reached.trans (DiligentPath.path first))
  have stalled : opened.Stalled := tidy.stalled arranged.populated fun i listed => shut i (same ▸ listed)
  exact first.trans (takes_diligent taken stalled).1

theorem turn_diligent (arranged : g.Arranged) (distinct : g.DistinctKeys) (graph : setup.graph = g.graph)
    (reached : Moment.Path (start setup g w).moment o.moment) {more : Bool} (done : o.turn = .ok (o', more)) :
    DiligentPath o.moment o'.moment := by
  obtain ⟨started, busy, advanced, rest⟩ := turn_ok done
  have delivered := (advance_path advanced).2
  have delivers (o : Operation ω) : Diligent o.moment o.deliver.moment := .of_quiet .delivers rfl (Nat.le_refl _)
  have first : DiligentPath o.moment started.moment := by
    obtain ⟨⟨opened, changed⟩, resolved, later⟩ := bind_ok.1 advanced
    obtain ⟨⟨taken, count⟩, dispatched, final⟩ := bind_ok.1 later
    cases final
    have takes := dispatchFrom_takes opened.ready rfl (mapError_ok.1 dispatched)
    exact (resolved_diligent arranged distinct graph reached (mapError_ok.1 resolved) takes).tail
      (delivers { o with coord := taken })
  rcases rest with ⟨_, rfl, _⟩ | ⟨working, gathered, _⟩
  · exact first
  · obtain ⟨_, collected, settled, world, arrivals, stopped, rfl⟩ := gather_ok.1 gathered
    have waits : Diligent started.moment started.rested := .of_quiet (.awaits delivered working) rfl (Nat.le_refl _)
    have looks : Diligent (⟨collected, world, [], []⟩ : Moment ω)
        ⟨collected, world, [], collected.byRank collected.deadlines⟩ :=
      .of_quiet .looks rfl (Nat.le_refl _)
    exact (((first.tail waits).trans (collect_diligent _ arrivals)).tail looks).trans
      ((expire_diligent _ stopped).tail (delivers ⟨settled, world⟩))

theorem Turns.diligent (arranged : g.Arranged) (distinct : g.DistinctKeys) (graph : setup.graph = g.graph)
    (reached : Moment.Path (start setup g w).moment o.moment) {n : Nat} (turns : Turns o n o') :
    DiligentPath o.moment o'.moment := by
  induction turns with
  | none => exact .refl
  | more first _ ih =>
    have path := turn_diligent arranged distinct graph reached first
    exact path.trans (ih (reached.trans (DiligentPath.path path)))

end

/-- Whenever a job is taken from the queue, every other ready job is of a stage that was opened later, or of the same
stage and has a greater index. No ready job then comes before it in the order of the stages and the matrix if and only if no
ready job is of a stage that was opened later but stands earlier. With a single worker that is always so. -/
theorem dispatch_order {p : Pipeline} {context : Option Context} (built : RunGraph.build p context = .ok g)
    (distinct : g.DistinctKeys) {setup : Setup} (graph : setup.graph = g.graph) {w : ω} {n : Nat}
    (turns : Turns (start setup g w) n o) {c : Coordinator} {i : Nat} {r : JobRecord} (takes : o.TakesUp c i)
    (found : c.record? i = some r) :
    (∀ j q, j ≠ i → c.record? j = some q → q.status = .ready →
      c.openedBefore r.job.stage < c.openedBefore q.job.stage ∨
        r.job.stage = q.job.stage ∧ r.job.index < q.job.index) ∧
    ((∀ j q, c.record? j = some q → q.status = .ready → ¬ g.Precedes q.job r.job) ↔
      ∀ j q, c.record? j = some q → q.status = .ready → c.openedBefore r.job.stage < c.openedBefore q.job.stage →
        g.graph.position r.job.stage < g.graph.position q.job.stage) ∧
    (setup.workers = 1 → ∀ j q, c.record? j = some q → q.status = .ready → ¬ g.Precedes q.job r.job) := by
  have arranged := RunGraph.build_arranged built
  have populated := arranged.populated
  obtain ⟨opened, changed, resolved, taken, head, free⟩ := takes
  obtain ⟨queue, head⟩ := List.head?_eq_some_iff.1 head
  have path : DiligentPath (start setup g w).moment ⟨c, o.world, [], []⟩ :=
    (Turns.diligent arranged distinct graph .refl turns).trans
      (resolved_diligent arranged distinct graph turns.path resolved taken)
  have tidy := Path.tidy populated distinct graph (DiligentPath.path path)
  have queued {j : Nat} {q : JobRecord} (held : c.record? j = some q) (waits : q.status = .ready) :
      j ∈ i :: queue := head ▸ tidy.consistent.waiting j q held waits
  have first {j : Nat} {q : JobRecord} (other : j ≠ i) (held : c.record? j = some q) (waits : q.status = .ready) :
      c.openedBefore r.job.stage < c.openedBefore q.job.stage ∨ r.job.stage = q.job.stage ∧ i < j := by
    have sorted : c.ready.Pairwise c.Sooner := Path.sooner populated distinct graph (DiligentPath.path path)
    rw [head] at sorted
    have behind := (List.mem_cons.1 (queued held waits)).resolve_left other
    exact (List.pairwise_cons.1 sorted).1 j behind r q found held
  have place {j : Nat} {q : JobRecord} (held : c.record? j = some q) (precedes : g.Precedes q.job r.job) : j < i :=
    tidy.runs.lt_of_precedes arranged held found precedes
  have later {j : Nat} {q : JobRecord} (held : c.record? j = some q) (behind : i < j) : g.Precedes r.job q.job :=
    tidy.runs.precedes_of_lt arranged found held behind
  refine ⟨?_, ⟨?_, ?_⟩, ?_⟩
  · intro j q other held waits
    refine (first other held waits).imp_right fun within => ?_
    have precedes := later held within.2
    rw [RunGraph.Precedes, within.1] at precedes
    exact ⟨within.1, by omega⟩
  · intro least j q held waits behind
    have other : j ≠ i := by
      rintro rfl
      cases found.symm.trans held
      omega
    have after : i < j := by
      by_contra before
      exact least j q held waits (tidy.runs.precedes_of_lt arranged held found (by omega))
    refine (later held after).resolve_right fun within => ?_
    rw [populated.same_stage (tidy.runs.job found) (tidy.runs.job held) within.1] at behind
    omega
  · intro orderly j q held waits precedes
    have before := place held precedes
    rcases first (by omega) held waits with behind | ⟨_, after⟩
    · have earlier := orderly j q held waits behind
      unfold RunGraph.Precedes at precedes
      omega
    · omega
  · intro single j q held waits precedes
    have before := place held precedes
    have sorted : c.ready.Pairwise (· < ·) := (DiligentPath.inTurn arranged distinct graph single path).sorted
    rw [head] at sorted
    rcases List.mem_cons.1 (queued held waits) with rfl | behind
    · omega
    · have after := (List.pairwise_cons.1 sorted).1 j behind
      omega

end Operation

/-- A world in which workers go by a craft and return at given waits; after those all return at once. -/
structure Timetable (craft : Craft) where
  returns : List (List Nat)
  store : MemoryStore := {}
  staff : List Posting := []

namespace Timetable

variable {craft : Craft}

def due (w : Timetable craft) : List Nat := w.returns.headD (w.staff.map (·.slot))

instance : World (Timetable craft) where
  put w key blob := (w.store.put key blob).map fun (entry, store) => (entry, { w with store })
  get? w := w.store.get?
  discard w producer := { w with store := w.store.discard producer }
  entries w := w.store.entries
  now _ := .zero
  accept w
    | .launch slot worker => { w with staff := w.staff ++ [⟨slot, worker, false⟩] }
    | .cancel slot => { w with staff := w.staff.map (Posting.ask slot) }
  await w _ :=
    { world := { w with staff := w.staff.filter (·.slot ∉ w.due), returns := w.returns.tail }
      finished := (w.staff.filter (·.slot ∈ w.due)).map fun posting =>
        (posting.slot, .returned (posting.worker.carried craft posting.worker.remaining)) }

end Timetable

/-- A program that is compiled and tested, and next to it texts that are checked and then printed in two languages. -/
def manual : Pipeline :=
  { name := "manual"
    stages := [
      { name := "compile", steps := [{ uses := "shell" }] },
      { name := "spell", steps := [{ uses := "shell" }] },
      { name := "test", needs := ["compile"], steps := [{ uses := "shell" }] },
      { name := "print", needs := ["spell"], steps := [{ uses := "shell" }]
        matrix := some { axes := [("language", [.str "de", .str "en"])] } }] }

def manualGraph : RunGraph :=
  { graph :=
      { stages := manual.stages, needs := [[], [], [0], [1]], dependents := [[2], [3], [], []], order := [0, 1, 2, 3] }
    jobs := [
      [{ stage := "compile", steps := [{ uses := "shell" }] }],
      [{ stage := "spell", steps := [{ uses := "shell" }] }],
      [{ stage := "test", steps := [{ uses := "shell" }] }],
      [{ stage := "print", index := 0, assignment := [(.str "language", .str "de")], steps := [{ uses := "shell" }] },
       { stage := "print", index := 1, assignment := [(.str "language", .str "en")], steps := [{ uses := "shell" }] }]]
    context := some pushed }

theorem manual_built : RunGraph.build manual (some pushed) = .ok manualGraph := by decide +kernel

theorem manual_distinct : manualGraph.DistinctKeys := by decide +kernel

namespace Operation

/-- The manual, with two workers of whom the one that compiles takes longer than the one that spells. -/
def manualRun : Operation (Timetable willing) :=
  start { graph := manualGraph.graph, context := pushed, workers := 2 } manualGraph { returns := [[1], [0]] }

/-- In the third turn the print in the second language is taken, and the test is ready. -/
theorem manualRun_third : ∃ (o : Operation (Timetable willing)) (c : Coordinator) (print test : JobRecord),
    Turns manualRun 2 o ∧ o.TakesUp c 4 ∧ c.record? 4 = some print ∧ print.status = .ready ∧
      print.job.stage = "print" ∧ c.record? 2 = some test ∧ test.status = .ready ∧ test.job.stage = "test" := by
  obtain ⟨first, second, c, changed, print, test, one, two, resolved, head, free, found, ready, named, found', ready',
      named'⟩ :
      ∃ (first second : Operation (Timetable willing)) (c : Coordinator) (changed : Bool) (print test : JobRecord),
        manualRun.turn = .ok (first, true) ∧ first.turn = .ok (second, true) ∧
        second.coord.resolveStages (World.now second.world) = .ok (c, changed) ∧ c.ready.head? = some 4 ∧
        c.inFlight.length < c.setup.workers ∧ c.record? 4 = some print ∧ print.status = .ready ∧
        print.job.stage = "print" ∧ c.record? 2 = some test ∧ test.status = .ready ∧ test.job.stage = "test" := by
    refine ⟨_, _, _, _, _, _, by cbv, by cbv, by cbv, by cbv, by cbv, by cbv, by cbv, by cbv, by cbv, by cbv, by cbv⟩
  exact ⟨second, c, print, test, .more one (.more two (.none _)), ⟨c, changed, resolved, .refl, head, free⟩, found,
    ready, named, found', ready', named'⟩

/-- The print stage was opened before the test stage. -/
theorem manual_dispatch :
    manualGraph.DistinctKeys ∧ ∃ (o : Operation (Timetable willing)) (c : Coordinator) (print : JobRecord),
      Turns manualRun 2 o ∧ o.TakesUp c 4 ∧ c.record? 4 = some print ∧
        c.openedBefore "print" < c.openedBefore "test" := by
  obtain ⟨o, c, print, test, turns, takes, found, _, named, held, waits, named'⟩ := manualRun_third
  have sooner := (dispatch_order manual_built manual_distinct rfl turns takes found).1 2 test (by decide) held waits
  rw [named, named'] at sooner
  exact ⟨manual_distinct, o, c, print, turns, takes, found, sooner.resolve_right (by simp)⟩

/-- With two workers a job can be taken although one of an earlier stage is ready. -/
theorem later_stage_taken_first :
    RunGraph.build manual (some pushed) = .ok manualGraph ∧ manualGraph.DistinctKeys ∧
      ∃ (o : Operation (Timetable willing)) (c : Coordinator) (print test : JobRecord),
        Turns manualRun 2 o ∧ o.TakesUp c 4 ∧ c.record? 4 = some print ∧ print.status = .ready ∧
          c.record? 2 = some test ∧ test.status = .ready ∧ manualGraph.Precedes test.job print.job := by
  obtain ⟨o, c, print, test, turns, takes, found, ready, named, held, waits, named'⟩ := manualRun_third
  refine ⟨manual_built, manual_distinct, o, c, print, test, turns, takes, found, ready, held, waits, Or.inl ?_⟩
  rw [named, named']
  decide

end Operation
end Conveyor

import Mathlib.Logic.Relation
import Conveyor.Scheduler.Operation
import Conveyor.Proofs.JobDispatch
import Conveyor.Proofs.StageOpening

/-! A run in single steps. Between two turns the coordinator opens stages, takes up jobs, and takes in
workers and deadlines one at a time; a moment is the state between two such steps. Every turn is a path of
steps, whatever the world does. -/

namespace Conveyor

/-- A moment of a run: the coordinator, the world, the workers that have ended and are not yet taken in, and the
deadlines that are still to be looked at. -/
structure Moment (ω : Type) where
  coord : Coordinator
  world : ω
  arrived : List (Nat × Completion) := []
  due : List (Nat × Deadline) := []

def Operation.moment {ω : Type} (o : Operation ω) : Moment ω :=
  { coord := o.coord, world := o.world }

namespace Coordinator

open Fallible

def Takes {σ : Type} [ArtifactStore σ] (store : σ) (now : Double) (c c' : Coordinator) : Prop :=
  ∃ i queue count, c.ready = i :: queue ∧ c.inFlight.length < c.setup.workers ∧
    Coordinator.takeUp { c with ready := queue } store now i = .ok (c', count)

theorem dispatchFrom_takes {σ : Type} [ArtifactStore σ] {store : σ} {now : Double} (queue : List Nat)
    {c c' : Coordinator} {before after : Nat} (ready : c.ready = queue)
    (done : dispatchFrom store now queue c before = .ok (c', after)) : Relation.ReflTransGen (Takes store now) c c' := by
  induction queue generalizing c before with
  | nil =>
    cases done
    exact .refl
  | cons i queue ih =>
    unfold dispatchFrom at done
    split at done
    next =>
      cases done
      exact .refl
    next free =>
      obtain ⟨⟨middle, count⟩, taken, rest⟩ := bind_ok.1 done
      exact .head ⟨i, queue, count, ready, by omega, taken⟩ (ih (takeUp_ok taken).frame.2.2 rest)

end Coordinator

theorem Operation.start_record {ω : Type} {setup : Setup} {g : RunGraph} {w : ω} {j : Nat} {r : JobRecord}
    (found : (Operation.start setup g w).moment.coord.record? j = some r) : ∃ job ∈ g.allJobs, r = { job } := by
  have member : r ∈ g.allJobs.map fun job => ({ job } : JobRecord) := List.mem_of_getElem? found
  obtain ⟨job, listed, rfl⟩ := List.mem_map.1 member
  exact ⟨job, listed, rfl⟩

theorem Operation.start_pending {ω : Type} {setup : Setup} {g : RunGraph} {w : ω} {j : Nat} {r : JobRecord}
    (found : (Operation.start setup g w).moment.coord.record? j = some r) : r.status = .pending := by
  obtain ⟨job, _, rfl⟩ := start_record found
  rfl

namespace Moment

open Fallible

variable {ω : Type} [World ω]

inductive Step : Moment ω → Moment ω → Prop
  | opens {c c' : Coordinator} {w : ω} {now : Double} {i : Nat} {s : Stage}
      {outcomes : List (String × Status × Option SkipReason)} (listed : i ∈ c.setup.graph.order)
      (closed : i ∉ c.opened) (stage : c.setup.graph.stages[i]? = some s)
      (settled : c.prerequisites? i = some outcomes) (opened : c.openStage now i s outcomes = .ok c') :
      Step ⟨c, w, [], []⟩ ⟨c', w, [], []⟩
  | takes {c c' : Coordinator} {w : ω} {now : Double} {i count : Nat} {queue : List Nat}
      (head : c.ready = i :: queue) (free : c.inFlight.length < c.setup.workers)
      (taken : Coordinator.takeUp { c with ready := queue } w now i = .ok (c', count)) :
      Step ⟨c, w, [], []⟩ ⟨c', w, [], []⟩
  | delivers {c : Coordinator} {w : ω} :
      Step ⟨c, w, [], []⟩ ⟨{ c with requests := [] }, c.requests.foldl World.accept w, [], []⟩
  | awaits {c : Coordinator} {w : ω} {limit : Option Double} (delivered : c.requests = [])
      (busy : c.inFlight ≠ []) :
      Step ⟨c, w, [], []⟩
        ⟨{ c with log := c.log ++ (World.await w limit).told }, (World.await w limit).world,
          c.byRank (World.await w limit).finished, []⟩
  | collects {c c' : Coordinator} {w w' : ω} {now : Double} {finished : Nat × Completion}
      {rest : List (Nat × Completion)} (collected : Coordinator.collect now (c, w) finished = .ok (c', w')) :
      Step ⟨c, w, finished :: rest, []⟩ ⟨c', w', rest, []⟩
  | looks {c : Coordinator} {w : ω} : Step ⟨c, w, [], []⟩ ⟨c, w, [], c.byRank c.deadlines⟩
  | expires {c c' : Coordinator} {w : ω} {now : Double} {entry : Nat × Deadline} {rest : List (Nat × Deadline)}
      (expired : Coordinator.expire now c entry = .ok c') : Step ⟨c, w, [], entry :: rest⟩ ⟨c', w, [], rest⟩

abbrev Path : Moment ω → Moment ω → Prop := Relation.ReflTransGen Step

theorem Path.preserves (holds : Moment ω → Prop) (kept : ∀ m m', Step m m' → holds m → holds m')
    {m m' : Moment ω} (path : Path m m') (initial : holds m) : holds m' := by
  induction path with
  | refl => exact initial
  | tail _ step ih => exact kept _ _ step ih

variable {now : Double} {c c' : Coordinator}

theorem resolveStage_ok {before after : Bool} {i : Nat}
    (done : Coordinator.resolveStage now (c, before) i = .ok (c', after)) :
    (c' = c ∧ after = before ∧ (i ∈ c.opened ∨ c.setup.graph.stages[i]? = none ∨ c.prerequisites? i = none)) ∨
      ∃ s outcomes, i ∉ c.opened ∧ c.setup.graph.stages[i]? = some s ∧ c.prerequisites? i = some outcomes ∧
        c.openStage now i s outcomes = .ok c' ∧ after = true := by
  simp only [Coordinator.resolveStage] at done
  split at done
  next opened =>
    cases done
    exact Or.inl ⟨rfl, rfl, Or.inl (by simpa using opened)⟩
  next closed =>
    split at done
    next s outcomes stage settled =>
      obtain ⟨_, opened, same⟩ := bind_ok.1 done
      cases same
      exact Or.inr ⟨s, outcomes, by simpa using closed, stage, settled, opened, rfl⟩
    next blocked =>
      cases done
      refine Or.inl ⟨rfl, rfl, Or.inr ?_⟩
      cases stage : c.setup.graph.stages[i]? with
      | none => exact Or.inl rfl
      | some s =>
        cases settled : c.prerequisites? i with
        | none => exact Or.inr rfl
        | some outcomes => exact (blocked s outcomes stage settled).elim

theorem resolveStages_path (places : List Nat) {w : ω} {before after : Bool}
    (listed : ∀ i ∈ places, i ∈ c.setup.graph.order)
    (done : places.foldlM (Coordinator.resolveStage now) (c, before) = .ok (c', after)) :
    Path (⟨c, w, [], []⟩ : Moment ω) ⟨c', w, [], []⟩ := by
  induction places generalizing c before with
  | nil =>
    cases done
    exact .refl
  | cons i places ih =>
    obtain ⟨⟨middle, changed⟩, first, rest⟩ := foldlM_cons_ok.1 done
    rcases resolveStage_ok first with ⟨rfl, rfl, _⟩ | ⟨s, outcomes, closed, stage, settled, opened, rfl⟩
    · exact ih (fun j member => listed j (by simp [member])) rest
    · have step : Step (⟨c, w, [], []⟩ : Moment ω) ⟨middle, w, [], []⟩ :=
        .opens (listed i (by simp)) closed stage settled opened
      refine .head step (ih (fun j member => ?_) rest)
      rw [(Coordinator.openStage_ok opened).setup]
      exact listed j (by simp [member])

theorem takes_path {w : ω} (takes : Relation.ReflTransGen (Coordinator.Takes w now) c c') :
    Path (⟨c, w, [], []⟩ : Moment ω) ⟨c', w, [], []⟩ := by
  refine takes.lift (fun c => (⟨c, w, [], []⟩ : Moment ω)) ?_
  rintro c c' ⟨i, queue, count, head, free, taken⟩
  exact .takes head free taken

theorem dispatchFrom_path (queue : List Nat) {w : ω} {before after : Nat} (ready : c.ready = queue)
    (done : Coordinator.dispatchFrom w now queue c before = .ok (c', after)) :
    Path (⟨c, w, [], []⟩ : Moment ω) ⟨c', w, [], []⟩ :=
  takes_path (Coordinator.dispatchFrom_takes queue ready done)

theorem collect_path (arrived : List (Nat × Completion)) {w w' : ω}
    (done : arrived.foldlM (Coordinator.collect now) (c, w) = .ok (c', w')) :
    Path (⟨c, w, arrived, []⟩ : Moment ω) ⟨c', w', [], []⟩ := by
  induction arrived generalizing c w with
  | nil =>
    cases done
    exact .refl
  | cons finished rest ih =>
    obtain ⟨⟨middle, between⟩, first, later⟩ := foldlM_cons_ok.1 done
    exact .head (.collects first) (ih later)

theorem expire_path (due : List (Nat × Deadline)) {w : ω} (done : due.foldlM (Coordinator.expire now) c = .ok c') :
    Path (⟨c, w, [], due⟩ : Moment ω) ⟨c', w, [], []⟩ := by
  induction due generalizing c with
  | nil =>
    cases done
    exact .refl
  | cons entry rest ih =>
    obtain ⟨middle, first, later⟩ := foldlM_cons_ok.1 done
    exact .head (.expires first) (ih later)

end Moment

namespace Operation

open Fallible Moment

variable {ω : Type} [World ω]

theorem deliver_path (o : Operation ω) : Moment.Path o.moment o.deliver.moment := .single .delivers

theorem advance_path {o o' : Operation ω} {busy : Bool} (done : o.advance = .ok (o', busy)) :
    Moment.Path o.moment o'.moment ∧ o'.coord.requests = [] := by
  obtain ⟨⟨opened, changed⟩, resolved, rest⟩ := bind_ok.1 done
  obtain ⟨⟨taken, count⟩, dispatched, final⟩ := bind_ok.1 rest
  cases final
  have first : Moment.Path o.moment ⟨opened, o.world, [], []⟩ :=
    resolveStages_path o.coord.setup.graph.order (fun _ member => member) (mapError_ok.1 resolved)
  have second : Moment.Path ⟨opened, o.world, [], []⟩ ⟨taken, o.world, [], []⟩ :=
    dispatchFrom_path opened.ready rfl (mapError_ok.1 dispatched)
  exact ⟨(first.trans second).trans (deliver_path { o with coord := taken }), rfl⟩

/-- What comes of waiting for the workers as long as the first deadline allows. -/
def awaited (o : Operation ω) : Shift ω :=
  World.await o.world ((o.coord.patience (World.now o.world)).map (World.now o.world).add)

def rested (o : Operation ω) : Moment ω :=
  { coord := { o.coord with log := o.coord.log ++ o.awaited.told }
    world := o.awaited.world
    arrived := o.coord.byRank o.awaited.finished }

/-- The first deadline is further off than the world can be waited for. -/
def overlong (o : Operation ω) : Bool :=
  (o.coord.patience (World.now o.world)).any (World.refuses o.world)

theorem gather_overlong {o : Operation ω} (far : o.overlong = true) : o.gather = .error ⟨.waitTooLong, o⟩ :=
  if_pos far

theorem gather_ok {o o' : Operation ω} :
    o.gather = .ok o' ↔ o.overlong = false ∧ ∃ collected settled : Coordinator, ∃ world : ω,
      o.rested.arrived.foldlM (Coordinator.collect (World.now o.awaited.world))
        (o.rested.coord, o.rested.world) = .ok (collected, world) ∧
      (collected.byRank collected.deadlines).foldlM (Coordinator.expire (World.now o.awaited.world)) collected =
        .ok settled ∧
      o' = (⟨settled, world⟩ : Operation ω).deliver := by
  cases far : o.overlong with
  | true => simp [gather_overlong far]
  | false =>
  have near : o.gather = _ := if_neg (Bool.eq_false_iff.1 far)
  rw [near]
  constructor
  · intro done
    obtain ⟨⟨settled, world⟩, taken, final⟩ := bind_ok.1 done
    obtain ⟨⟨collected, between⟩, arrivals, rest⟩ := bind_ok.1 (mapError_ok.1 taken)
    simp only at rest
    split at rest
    next expired stopped =>
      cases rest
      cases final
      exact ⟨rfl, collected, settled, world, arrivals, stopped, rfl⟩
    next => cases rest
  · rintro ⟨_, collected, settled, world, arrivals, stopped, rfl⟩
    refine bind_ok.2 ⟨(settled, world), mapError_ok.2 (bind_ok.2 ⟨(collected, world), arrivals, ?_⟩), rfl⟩
    simp only [awaited] at stopped
    simp only [stopped]
    rfl

theorem gather_broken {o : Operation ω} (near : o.overlong = false) {fault : SchedulerFault} {state : Coordinator × ω}
    (broken : o.rested.arrived.foldlM (Coordinator.collect (World.now o.awaited.world))
      (o.rested.coord, o.rested.world) = .error ⟨fault, state⟩) :
    o.gather = .error ⟨fault, ⟨state.1, state.2⟩⟩ := by
  have waits : o.gather = _ := if_neg (Bool.eq_false_iff.1 near)
  rw [waits]
  refine bind_error.2 (Or.inl ?_)
  have settled : o.rested.coord.settle o.awaited.world (World.now o.awaited.world) o.awaited.finished =
      .error ⟨fault, state⟩ := bind_error.2 (Or.inl broken)
  exact congrArg (Except.mapError _) settled

theorem gather_path {o o' : Operation ω} (delivered : o.coord.requests = [])
    (busy : o.coord.inFlight ≠ []) (done : o.gather = .ok o') :
    Moment.Path o.moment o'.moment ∧ o'.coord.requests = [] := by
  obtain ⟨_, collected, settled, world, arrivals, stopped, rfl⟩ := gather_ok.1 done
  have waited : Moment.Step o.moment o.rested := .awaits delivered busy
  have looked : Moment.Path (⟨collected, world, [], []⟩ : Moment ω) ⟨settled, world, [], []⟩ :=
    .head .looks (expire_path _ stopped)
  exact ⟨.head waited ((collect_path _ arrivals).trans (looked.trans (deliver_path ⟨settled, world⟩))), rfl⟩

/-- A turn starts what can be started, and then it waits if workers are out. -/
theorem turn_ok {o o' : Operation ω} {more : Bool} (done : o.turn = .ok (o', more)) :
    ∃ started busy, o.advance = .ok (started, busy) ∧
      (started.coord.inFlight = [] ∧ o' = started ∧ more = (busy || !started.coord.ready.isEmpty) ∨
        started.coord.inFlight ≠ [] ∧ started.gather = .ok o' ∧ more = true) := by
  obtain ⟨⟨started, busy⟩, advanced, rest⟩ := bind_ok.1 done
  refine ⟨started, busy, advanced, ?_⟩
  simp only at rest
  split at rest
  next resting =>
    cases rest
    exact Or.inl ⟨by simpa using resting, rfl, rfl⟩
  next working =>
    obtain ⟨last, gathered, final⟩ := bind_ok.1 rest
    cases final
    exact Or.inr ⟨by simpa using working, gathered, rfl⟩

theorem turn_path {o o' : Operation ω} {more : Bool} (done : o.turn = .ok (o', more)) :
    Moment.Path o.moment o'.moment ∧ o'.coord.requests = [] := by
  obtain ⟨started, busy, advanced, rest⟩ := turn_ok done
  obtain ⟨first, delivered⟩ := advance_path advanced
  rcases rest with ⟨_, rfl, _⟩ | ⟨working, gathered, _⟩
  · exact ⟨first, delivered⟩
  · obtain ⟨second, empty⟩ := gather_path delivered working gathered
    exact ⟨first.trans second, empty⟩

/-- Turns one after the other, after each of which there is more to do. -/
inductive Turns : Operation ω → Nat → Operation ω → Prop
  | none (o : Operation ω) : Turns o 0 o
  | more {o o' o'' : Operation ω} {n : Nat} (first : o.turn = .ok (o', true)) (rest : Turns o' n o'') :
      Turns o (n + 1) o''

theorem Turns.path {o o' : Operation ω} {n : Nat} (turns : Turns o n o') : Moment.Path o.moment o'.moment := by
  induction turns with
  | none => exact .refl
  | more first _ ih => exact (turn_path first).1.trans ih

theorem Turns.snoc {o o' o'' : Operation ω} {n : Nat} (turns : Turns o n o') (last : o'.turn = .ok (o'', true)) :
    Turns o (n + 1) o'' := by
  induction turns with
  | none => exact .more last (.none _)
  | more first _ ih => exact .more first (ih last)

theorem perform_eq [Nonempty (Operation ω)] {o o' : Operation ω} {more : Bool} (done : o.turn = .ok (o', more)) :
    o.perform = if more then o'.perform else .ok o' := by
  rw [perform, repeatM_eq_of_monadTail]
  cases more <;> simp [repeatM.body, done, perform, bind, Except.bind, pure, Except.pure]

theorem Turns.perform [Nonempty (Operation ω)] {o last final : Operation ω} {n : Nat} (turns : Turns o n last)
    (ended : last.turn = .ok (final, false)) : o.perform = .ok final := by
  induction turns with
  | none => exact perform_eq ended
  | more first _ ih => exact (perform_eq first).trans (ih ended)

/-- A run comes to its end: after some turns there is nothing more to do, or a turn breaks it off. -/
inductive Finishes : Operation ω → Except (Halt (Operation ω)) (Operation ω) → Prop
  | last {o final : Operation ω} (ended : o.turn = .ok (final, false)) : Finishes o (.ok final)
  | breaks {o : Operation ω} {halt : Halt (Operation ω)} (broken : o.turn = .error halt) : Finishes o (.error halt)
  | goesOn {o o' : Operation ω} {result : Except (Halt (Operation ω)) (Operation ω)} (first : o.turn = .ok (o', true))
      (rest : Finishes o' result) : Finishes o result

theorem Finishes.perform [Nonempty (Operation ω)] {o : Operation ω} {result : Except (Halt (Operation ω)) (Operation ω)}
    (finishes : Finishes o result) : o.perform = result := by
  induction finishes with
  | last ended => exact perform_eq ended
  | breaks broken =>
    rw [Operation.perform, repeatM_eq_of_monadTail]
    simp [repeatM.body, broken, bind, Except.bind]
  | goesOn first _ ih => exact (perform_eq first).trans ih

end Operation
end Conveyor

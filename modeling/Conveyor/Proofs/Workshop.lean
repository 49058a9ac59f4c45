import Mathlib
import Conveyor.Pipeline.Validate
import Conveyor.Proofs.TurnProgress
import Conveyor.Proofs.WorkerConduct

/-! Workshops: worlds with a store in memory, in which workers go by a craft that never raises an error and have ended
by the next wait. They are fair, they keep what is stored, and their workers are of settled conduct. -/

namespace Conveyor

/-! ### Worlds that are fair because no wait leaves a worker -/

open Fallible

theorem Coordinator.collect_landed {ω : Type} [World ω] {now : Double} (arrived : List (Nat × Completion))
    {c c' : Coordinator} {w w' : ω} (done : arrived.foldlM (collect now) (c, w) = .ok (c', w')) :
    c'.inFlight = c.inFlight.filter fun j => j ∉ arrived.map Prod.fst := by
  induction arrived generalizing c w with
  | nil =>
    cases done
    simp
  | cons arrival rest ih =>
    obtain ⟨⟨middle, between⟩, first, later⟩ := foldlM_cons_ok.1 done
    have landed : middle.inFlight = c.inFlight.filter (· ≠ arrival.1) := by
      cases collect_ok first with
      | dropped => rfl
      | taken _ _ returned => exact returned.inFlight
    rw [ih later, landed, List.filter_filter]
    apply List.filter_congr
    intro j _
    by_cases same : j = arrival.1 <;> simp [same]

theorem Coordinator.expire_landed {now : Double} (due : List (Nat × Deadline)) {c c' : Coordinator}
    (done : due.foldlM (expire now) c = .ok c') : c'.inFlight = c.inFlight := by
  induction due generalizing c with
  | nil =>
    cases done
    rfl
  | cons entry rest ih =>
    obtain ⟨middle, first, later⟩ := foldlM_cons_ok.1 done
    rw [ih later]
    cases expire_ok first with
    | early => rfl
    | ended => rfl
    | stopped _ _ late => exact late.inFlight

/-- After a wait the jobs in flight are those whose workers have not ended. -/
theorem Operation.gather_landed {ω : Type} [World ω] {o o' : Operation ω} (done : o.gather = .ok o') :
    o'.coord.inFlight = o.coord.inFlight.filter fun j => j ∉ o.awaited.finished.map Prod.fst := by
  obtain ⟨_, collected, settled, world, arrivals, stopped, rfl⟩ := gather_ok.1 done
  change settled.inFlight = _
  rw [Coordinator.expire_landed _ stopped, Coordinator.collect_landed _ arrivals]
  apply List.filter_congr
  intro j _
  have same := ((Coordinator.byRank_perm o.coord o.awaited.finished).map Prod.fst).mem_iff (a := j)
  exact decide_eq_decide.2 (not_congr same)

namespace Roster

open Moment

variable {ω : Type} [World ω] {g : RunGraph} {roster : Roster ω} {o o' : Operation ω}

def Swift (roster : Roster ω) : Prop :=
  ∀ w limit, ∀ posting ∈ roster.postings w, posting.slot ∈ (World.await w limit).finished.map Prod.fst

theorem Swift.turn_rests (swift : roster.Swift) (populated : g.Populated) (distinct : g.DistinctKeys)
    (orderly : Orderly g roster o.moment) {more : Bool} (done : o.turn = .ok (o', more)) :
    o'.coord.inFlight = [] := by
  obtain ⟨started, busy, advanced, rest⟩ := Operation.turn_ok done
  rcases rest with ⟨resting, rfl, _⟩ | ⟨_, gathered, _⟩
  · exact resting
  · have advanced := Operation.advance_ok advanced
    have staffed := (advanced.path.orderly populated distinct orderly).staffed
    rw [Operation.gather_landed gathered, List.filter_eq_nil_iff]
    intro i flying
    obtain ⟨posting, posted, same⟩ := (Operation.flying_iff_posted staffed advanced.delivered).1 flying
    have ended : posting.slot ∈ started.awaited.finished.map Prod.fst := swift _ _ posting posted
    simpa [← same] using ended

theorem Swift.fair (swift : roster.Swift) (populated : g.Populated) (distinct : g.DistinctKeys)
    (orderly : Orderly g roster o.moment) : roster.Fair o := by
  intro run first turn k posting _
  have path (n : Nat) : Moment.Path o.moment (run n).moment := by
    induction n with
    | zero => rw [first]
    | succ n ih => exact ih.trans (Operation.turn_path (turn n)).1
  refine ⟨k + 1, Nat.le_succ k, fun other present _ => ?_⟩
  have flying := (Operation.flying_iff_posted ((path (k + 1)).orderly populated distinct orderly).staffed
    (Operation.turn_path (turn k)).2).2 ⟨other, present, rfl⟩
  simp [swift.turn_rests populated distinct ((path k).orderly populated distinct orderly) (turn k)] at flying

end Roster

/-! ### Workers that go by a craft -/

/-- What an attempt at the next step publishes, and how it ends. -/
abbrev Craft := Worker → Table String Blob × StepOutcome

def Craft.conduct (craft : Craft) : Conduct := fun w => ((craft w).1, .outcome (craft w).2)

namespace Worker

/-- The end of a worker that goes by a craft, with these steps left. -/
def carried (craft : Craft) : List Step → Worker → Outcome
  | [], w => w.conclude
  | step :: steps, w =>
    if Value.anyEntryUnwritable w.context.job.assignment then .unwritable
    else
      match w.receive step (craft w).1 (.outcome (craft w).2) false with
      | .ok w' => carried craft steps w'
      | .error (.returned outcome) => outcome
      | .error .interrupted => w.conclude

theorem receive_outcome_ok {w w' : Worker} {step : Step} {staged : Table String Blob} {o : StepOutcome} {token : Bool}
    (done : w.receive step staged (.outcome o) token = .ok w') : w'.remaining = w.remaining.tail := by
  simp only [receive] at done
  split at done
  · cases done
  · split at done <;> cases done
    rfl

/-- A worker that goes by a craft comes to its end in every manner that allows what the craft does. -/
theorem carried_ends {craft : Craft} {manner : Manner} {finds : Bool → Prop}
    (allowed : ∀ w, manner w false (craft w).1 (.outcome (craft w).2)) (unset : finds false) (steps : List Step)
    {w : Worker} (left : w.remaining = steps) : w.Ends manner finds (w.carried craft steps) := by
  induction steps generalizing w with
  | nil => exact .finishes unset (by simp only [turn, left, carried])
  | cons step steps ih =>
    rw [carried]
    by_cases unwritable : Value.anyEntryUnwritable w.context.job.assignment = true
    · rw [if_pos unwritable]
      exact .finishes unset (by simp [turn, left, unwritable])
    rw [if_neg unwritable]
    have next : w.turn false = .attempt step := by simp [turn, left, unwritable]
    split
    next w' done =>
      apply Ends.goesOn unset next (allowed w) done
      apply ih
      rw [receive_outcome_ok done, left, List.tail_cons]
    next outcome done => exact .stops unset next (allowed w) done
    next done =>
      simp only [receive] at done
      split at done
      · cases done
      · split at done <;> cases done

end Worker

namespace MemoryStore

theorem get?_put {s : MemoryStore} {key : ArtifactKey} (free : s.get? key = none) (blob : Blob) :
    ∃ s', s.put key blob = .ok (.of key blob, s') ∧
      ∀ other, s'.get? other = if other = key then some blob else s.get? other := by
  have absent : s.blobs.has key = false := by simpa [Table.has, get?] using free
  refine ⟨⟨s.blobs.insert key blob⟩, by simp [put, absent], fun other => ?_⟩
  rw [get?, Table.get?_insert, get?]
  by_cases same : other = key
  · simp [same, Key.same]
  · simp [same, Key.same, Ne.symm same]

theorem put_occupied {s : MemoryStore} {key : ArtifactKey} (taken : s.get? key ≠ none) (blob : Blob) :
    s.put key blob = .error (.occupied key) := by
  have present : s.blobs.has key = true := Option.isSome_iff_ne_none.2 taken
  simp [put, present]

theorem get?_discard (s : MemoryStore) (producer : Producer) (key : ArtifactKey) :
    (s.discard producer).get? key = if key.producer = producer then none else s.get? key := by
  obtain ⟨blobs⟩ := s
  simp only [discard, get?]
  induction blobs with
  | nil => simp [Table.get?]
  | cons entry rest ih =>
    obtain ⟨here, blob⟩ := entry
    by_cases dropped : here.producer = producer
    · rw [List.filter_cons_of_neg (by simp [dropped]), ih]
      by_cases same : here = key
      · simp [← same, dropped]
      · simp [Table.get?, Key.same, same]
    · rw [List.filter_cons_of_pos (by simp [dropped])]
      by_cases same : here = key
      · subst same
        simp [Table.get?, Key.same, dropped]
      · simpa [Table.get?, Key.same, same] using ih

end MemoryStore

/-! ### Pipelines to be run -/

/-- A pipeline that is built on two systems, and then tested with what was built. -/
def crossBuild : Pipeline :=
  { name := "cross-build"
    stages := [
      { name := "build", steps := [{ uses := "shell" }], produces := ["app"], failFast := false
        matrix := some { axes := [("os", [.str "linux", .str "mac"])] } },
      { name := "test", steps := [{ uses := "shell" }], needs := ["build"], failFast := false
        consumes := [{ stage := "build", name := "app" }] }] }

def pushed : Context := { event := .push, refName := "main" }

def crossBuildGraph : RunGraph :=
  { graph := { stages := crossBuild.stages, needs := [[], [0]], dependents := [[1], []], order := [0, 1] }
    jobs := [
      [{ stage := "build", index := 0, assignment := [(.str "os", .str "linux")], steps := [{ uses := "shell" }]
         produces := ["app"] },
       { stage := "build", index := 1, assignment := [(.str "os", .str "mac")], steps := [{ uses := "shell" }]
         produces := ["app"] }],
      [{ stage := "test", steps := [{ uses := "shell" }], consumes := [{ stage := "build", name := "app" }] }]]
    context := some pushed }

theorem crossBuild_built : RunGraph.build crossBuild (some pushed) = .ok crossBuildGraph := by decide +kernel

theorem crossBuild_distinct : crossBuildGraph.DistinctKeys := by decide +kernel

theorem crossBuild_unlimited {setup : Setup} (unlimited : setup.timeout = none) {ω : Type} {world : ω} :
    ∀ job ∈ crossBuildGraph.allJobs,
      ¬ (Operation.start setup crossBuildGraph world).coord.Immeasurable job := by
  have timeouts : ∀ job ∈ crossBuildGraph.allJobs, job.timeout = none := by decide +kernel
  refine fun job listed => Coordinator.not_immeasurable ?_
  simp [Coordinator.effectiveTimeout, Operation.start, Coordinator.start, timeouts job listed, unlimited]

/-! ### Workshops -/

/-- A world in which every worker goes by a craft and has ended by the next wait. -/
structure Workshop (craft : Craft) where
  store : MemoryStore := {}
  staff : List Posting := []

namespace Workshop

variable {craft : Craft}

instance : World (Workshop craft) where
  put w key blob := (w.store.put key blob).map fun (entry, store) => (entry, { w with store })
  get? w := w.store.get?
  discard w producer := { w with store := w.store.discard producer }
  entries w := w.store.entries
  now _ := .zero
  accept w
    | .launch slot worker => { w with staff := w.staff ++ [⟨slot, worker, false⟩] }
    | .cancel slot => { w with staff := w.staff.map (Posting.ask slot) }
  await w _ :=
    { world := { w with staff := [] }
      finished := w.staff.map fun posting =>
        (posting.slot, .returned (posting.worker.carried craft posting.worker.remaining)) }

theorem finished_slots (w : Workshop craft) (limit : Option Double) :
    (World.await w limit).finished.map Prod.fst = w.staff.map (·.slot) := List.map_map

theorem put_eq (w : Workshop craft) (key : ArtifactKey) (blob : Blob) :
    ArtifactStore.put w key blob = (w.store.put key blob).map fun (entry, store) => (entry, { w with store }) := rfl

def roster : Roster (Workshop craft) where
  postings := staff
  launched _ _ _ := rfl
  cancelled _ _ := rfl
  stored := by
    intro w key blob entry w' put
    rw [put_eq] at put
    cases stored : w.store.put key blob with
    | error fault =>
      rw [stored] at put
      cases put
    | ok result =>
      rw [stored] at put
      cases put
      rfl
  discarded _ _ := rfl
  ended := by
    intro w limit slot completion member
    obtain ⟨posting, posted, same⟩ := List.mem_map.1 member
    cases same
    exact ⟨posting, posted, rfl⟩
  once := by
    intro w limit distinct
    rwa [finished_slots]
  remaining := by
    intro w limit
    have ended : (w.staff.filter fun posting => posting.slot ∉ (World.await w limit).finished.map Prod.fst) = [] := by
      rw [List.filter_eq_nil_iff, finished_slots]
      intro posting posted
      simpa using ⟨posting, posted, rfl⟩
    exact ended.symm

theorem swift : (roster : Roster (Workshop craft)).Swift := by
  intro w limit posting posted
  rw [finished_slots]
  exact List.mem_map_of_mem posted

theorem calm {g : RunGraph} {o : Operation (Workshop craft)}
    (filters : ∀ job ∈ g.allJobs, ∀ ref ∈ job.consumes, Value.anyEntryUnwritable ref.filter = false)
    (limits : ∀ job ∈ g.allJobs, ¬ o.coord.Immeasurable job) : Operation.Calm g o := by
  refine ⟨filters, limits, fun _ _ => rfl, fun w limit slot member => ?_⟩
  obtain ⟨posting, _, same⟩ := List.mem_map.1 member
  cases same

theorem crossBuild_calm {setup : Setup} (unlimited : setup.timeout = none) {world : Workshop craft} :
    Operation.Calm crossBuildGraph (Operation.start setup crossBuildGraph world) :=
  calm (by decide +kernel) (crossBuild_unlimited unlimited)

theorem keeps : World.Keeps (Workshop craft) where
  free w key blob free := by
    obtain ⟨store, put, contents⟩ := MemoryStore.get?_put (s := w.store) free blob
    exact ⟨{ w with store }, by rw [put_eq, put]; rfl, contents⟩
  occupied w key blob taken := by
    rw [put_eq, MemoryStore.put_occupied taken]
    rfl
  discarded w := w.store.get?_discard
  accepted w request key := by cases request <;> rfl
  awaited _ _ _ := rfl

theorem performs_of {manner : Manner} (allowed : ∀ w, manner w false (craft w).1 (.outcome (craft w).2)) :
    (roster : Roster (Workshop craft)).Performs manner Untouched := by
  intro w limit slot outcome member
  obtain ⟨posting, posted, same⟩ := List.mem_map.1 member
  cases same
  exact ⟨posting, posted, rfl, posting.worker.carried_ends allowed (untouched_unset _) _ rfl⟩

theorem performs : (roster : Roster (Workshop craft)).Performs craft.conduct.Allows Untouched :=
  performs_of fun _ => Or.inl rfl

end Workshop

def shells : Registry Unit := { entries := [("shell", ())] }

def release : Pipeline := { crossBuild with triggers := [{ event := "push" }] }

theorem release_built : RunGraph.build release (some pushed) = .ok crossBuildGraph := by decide +kernel

theorem release_valid : Validation.check shells release = .ok () := by cbv

/-- The craft of those who only claim to have done their work. -/
def willing : Craft := fun _ => ([], { exitStatus := 0 })

/-- The craft of building: the program is published, but only the first system has a compiler that works. -/
def building : Craft := fun w =>
  ( match w.context.publish "app" [1] with
    | .ok c => c.staged
    | .error _ => w.context.staged,
    { exitStatus := if w.context.job.index = 0 then 0 else 1 })

/-- The craft of building for every system: each program is different. -/
def assembling : Craft := fun w =>
  ( match w.context.publish "app" [UInt8.ofNat w.context.job.index] with
    | .ok c => c.staged
    | .error _ => w.context.staged,
    { exitStatus := 0 })

end Conveyor

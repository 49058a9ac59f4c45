import Conveyor.Proofs.Workshop

/-! Every run comes to its end. Jobs with different keys, at least one worker and workers that come back are
enough: no turn is refused, and after finitely many turns nothing is left to do, unless one of them breaks off for one of
few causes. When nothing is left to do, every stage has been opened and every job has ended. -/

namespace Conveyor

open Fallible Coordinator

namespace Coordinator

theorem prerequisites?_isSome {c : Coordinator} {i : Nat}
    (settled : ∀ n, c.setup.graph.Needs i n → (c.stageOutcome n).isSome) :
    ∃ outcomes, c.prerequisites? i = some outcomes := by
  unfold prerequisites?
  unfold StageGraph.Needs at settled
  generalize Graph.entry c.setup.graph.needs i = needs at settled
  induction needs with
  | nil => exact ⟨[], rfl⟩
  | cons n needs ih =>
    obtain ⟨outcome, known⟩ := Option.isSome_iff_exists.1 (settled n (by simp))
    obtain ⟨outcomes, rest⟩ := ih fun m member => settled m (by simp [member])
    exact ⟨_, by rw [List.mapM_cons, known, rest]; rfl⟩

/-- When no job is queued and no worker is out, the jobs of the open stages have ended. -/
theorem Sound.ended {c : Coordinator} (sound : c.Sound) (idle : c.inFlight = []) (drained : c.ready = []) {i j : Nat}
    {s : Stage} {r : JobRecord} (opened : i ∈ c.opened) (stage : c.setup.graph.stages[i]? = some s)
    (found : c.record? j = some r) (member : r.job.stage = s.name) : r.status.isTerminal = true := by
  cases status : r.status with
  | pending => exact ((sound.pending i s j r stage found member).1 status opened).elim
  | ready => simpa [drained] using sound.queued j r found status
  | running => simpa [idle] using sound.flying j r found status
  | succeeded => rfl
  | failed => rfl
  | skipped => rfl
  | cancelled => rfl

theorem Sound.settled {c : Coordinator} (sound : c.Sound) (ordered : c.setup.graph.Ordered) (idle : c.inFlight = [])
    (drained : c.ready = []) (shut : ∀ i ∈ c.setup.graph.order, ¬ c.Openable i) :
    ∀ i ∈ c.setup.graph.order, i ∈ c.opened ∧ (c.stageOutcome i).isSome := by
  refine ordered.induction (fun i => i ∈ c.opened ∧ (c.stageOutcome i).isSome) fun i listed needs => ?_
  obtain ⟨s, stage⟩ := ordered.stage listed
  have opened : i ∈ c.opened := by
    by_contra closed
    exact shut i listed ⟨closed, ⟨_, stage⟩, prerequisites?_isSome fun n need => (needs n need).2⟩
  refine ⟨opened, stageOutcome_isSome opened fun r member => ?_⟩
  obtain ⟨j, found, named⟩ := mem_recordsOf.1 member
  exact sound.ended idle drained opened stage found (by simpa [stageName, stage] using named)

end Coordinator

/-- When nothing is left to do, every stage has its outcome and every job has ended. -/
theorem Moment.Orderly.exhausted {ω : Type} [World ω] {g : RunGraph} {roster : Roster ω} {m : Moment ω}
    (orderly : m.Orderly g roster) (populated : g.Populated) (distinct : g.DistinctKeys)
    (idle : m.coord.inFlight = []) (drained : m.coord.ready = [])
    (shut : ∀ i ∈ m.coord.setup.graph.order, ¬ m.coord.Openable i) :
    (∀ i ∈ g.graph.order, i ∈ m.coord.opened ∧ (m.coord.stageOutcome i).isSome) ∧
      (∀ r ∈ m.coord.records, r.status.isTerminal = true) ∧ m.coord.unfinished = [] := by
  obtain ⟨runs, sound, _⟩ := orderly
  have settled := sound.settled (runs.graph ▸ populated.ordered) idle drained shut
  rw [runs.graph] at settled
  have terminal : ∀ r ∈ m.coord.records, r.status.isTerminal = true := by
    intro r member
    obtain ⟨j, found⟩ := List.mem_iff_getElem?.1 member
    obtain ⟨i, s, listed, stage, _, named⟩ := populated.home (runs.job found)
    exact sound.ended idle drained (settled i listed).1 (by rw [runs.graph]; exact stage) found named
  refine ⟨settled, terminal, ?_⟩
  rw [unfinished, reported_eq (runs.apart distinct), List.filter_eq_nil_iff.2 (by simpa using terminal)]
  rfl

namespace Operation

open Moment

variable {ω : Type} [World ω] {g : RunGraph} {roster : Roster ω} {o o' : Operation ω}

/-- A turn after which there is more to do, and no less than before, leaves workers out. -/
theorem turn_stalled (done : o.turn = .ok (o', true)) (workers : 1 ≤ o.coord.setup.workers)
    (same : o'.coord.weight = o.coord.weight) : o'.coord.inFlight ≠ [] := by
  obtain ⟨started, busy, advanced, rest⟩ := turn_ok done
  have advanced := advance_ok advanced
  rcases rest with ⟨resting, rfl, more⟩ | ⟨working, gathered, _⟩
  · have drained := advanced.drained workers resting
    have lighter := advanced.lighter (by simpa [drained] using more.symm)
    omega
  · have early := advanced.path.weight.1
    have late := (gather_path advanced.delivered working gathered).1.weight
    rcases late.2 with kept | lighter
    · obtain ⟨i, flying⟩ := List.exists_mem_of_ne_nil _ working
      exact List.ne_nil_of_mem (kept i flying)
    · have same : o'.coord.weight = o.coord.weight := same
      have early : started.coord.weight ≤ o.coord.weight := early
      have lighter : o'.coord.weight < started.coord.weight := lighter
      omega

/-- After the last turn no worker is out, no job is queued and no stage can be opened. -/
theorem turn_final (done : o.turn = .ok (o', false)) : o'.coord.inFlight = [] ∧ o'.coord.ready = [] ∧
    ∀ i ∈ o.coord.setup.graph.order, ¬ o'.coord.Openable i := by
  obtain ⟨started, busy, advanced, ⟨resting, rfl, more⟩ | ⟨_, _, more⟩⟩ := turn_ok done
  · simp only [Bool.false_eq, Bool.or_eq_false_iff, Bool.not_eq_false', List.isEmpty_iff] at more
    exact ⟨resting, more.2, (advance_ok advanced).idle more.1⟩
  · cases more

def after (o : Operation ω) : Nat → Operation ω
  | 0 => o
  | n + 1 =>
    match (o.after n).turn with
    | .ok (next, _) => next
    | .error _ => o.after n

theorem after_turn (endless : ∀ n last, Turns o n last → ∃ next, last.turn = .ok (next, true)) (n : Nat) :
    Turns o n (o.after n) ∧ (o.after n).turn = .ok (o.after (n + 1), true) := by
  have turns : Turns o n (o.after n) := by
    induction n with
    | zero => exact .none o
    | succ n ih =>
      obtain ⟨next, done⟩ := endless n _ ih
      have same : o.after (n + 1) = next := by simp [after, done]
      rw [same]
      exact ih.snoc done
  obtain ⟨next, done⟩ := endless n _ turns
  exact ⟨turns, by simp [after, done]⟩

theorem turns_end (populated : g.Populated) (distinct : g.DistinctKeys) (workers : 1 ≤ o.coord.setup.workers)
    (orderly : Orderly g roster o.moment) (fair : roster.Fair o) :
    ∃ n last, Turns o n last ∧ ((∃ final, last.turn = .ok (final, false)) ∨ ∃ halt, last.turn = .error halt) := by
  by_contra forever
  have endless (n : Nat) (last : Operation ω) (turns : Turns o n last) : ∃ next, last.turn = .ok (next, true) := by
    cases done : last.turn with
    | error halt => exact (forever ⟨n, last, turns, Or.inr ⟨halt, done⟩⟩).elim
    | ok result =>
      obtain ⟨next, more⟩ := result
      cases more with
      | true => exact ⟨next, rfl⟩
      | false => exact (forever ⟨n, last, turns, Or.inl ⟨next, done⟩⟩).elim
  have turn (n : Nat) := (after_turn endless n).2
  have path (n k : Nat) : Moment.Path (o.after n).moment (o.after (n + k)).moment := by
    induction k with
    | zero => exact .refl
    | succ k ih => exact ih.trans (turn_path (turn (n + k))).1
  -- From the turn at which least is left to do, every turn leaves the same, so no worker comes back.
  obtain ⟨least, minimal⟩ : ∃ least, ∀ n, (o.after least).coord.weight ≤ (o.after n).coord.weight :=
    ⟨Function.argmin fun n => (o.after n).coord.weight, fun n => Function.argmin_le (fun n => (o.after n).coord.weight) n⟩
  have level (k : Nat) : (o.after (least + k)).coord.weight = (o.after least).coord.weight :=
    Nat.le_antisymm (path least k).weight.1 (minimal _)
  have staffed (n : Nat) : Staffed roster (o.after n).moment :=
    ((after_turn endless n).1.path.orderly populated distinct orderly).staffed
  have working : (o.after (least + 1)).coord.inFlight ≠ [] := by
    refine turn_stalled (turn least) ?_ (level 1)
    rw [show (o.after least).coord.setup = o.coord.setup from (after_turn endless least).1.path.setup]
    exact workers
  obtain ⟨i, flying⟩ := List.exists_mem_of_ne_nil _ working
  obtain ⟨posting, posted, rfl⟩ := (flying_iff_posted (staffed _) (turn_path (turn least)).2).1 flying
  obtain ⟨later, beyond, gone⟩ := fair o.after rfl turn (least + 1) posting posted
  obtain ⟨k, rfl⟩ := Nat.exists_eq_add_of_le beyond
  have still : posting.slot ∈ (o.after (least + 1 + k)).coord.inFlight := by
    rcases (path (least + 1) k).weight.2 with kept | lighter
    · exact kept _ flying
    · have first := level 1
      have last := level (1 + k)
      rw [← Nat.add_assoc] at last
      change (o.after (least + 1 + k)).coord.weight < (o.after (least + 1)).coord.weight at lighter
      omega
  have delivered : (o.after (least + 1 + k)).coord.requests = [] := by
    rw [Nat.add_right_comm]
    exact (turn_path (turn (least + k))).2
  obtain ⟨other, present, same⟩ := (flying_iff_posted (staffed _) delivered).1 still
  exact gone other present same

/-- The run has ended with this operation, and everything has been done. -/
structure Completed (g : RunGraph) (o final : Operation ω) : Prop where
  done : o.run = .ok final
  path : Moment.Path o.moment final.moment
  jobs : final.coord.records.map (·.job) = g.allJobs
  settled : ∀ i ∈ g.graph.order, i ∈ final.coord.opened ∧ (final.coord.stageOutcome i).isSome
  ended : ∀ r ∈ final.coord.records, r.status.isTerminal = true
  unfinished : final.coord.unfinished = []

theorem Completed.reported {final : Operation ω} (completed : Completed g o final) (distinct : g.DistinctKeys) :
    final.coord.reported = final.coord.records := by
  apply reported_eq
  rw [completed.jobs]
  exact distinct

/-- A run that has come to a turn after which there is nothing to do has done everything. -/
theorem Turns.completed (populated : g.Populated) (distinct : g.DistinctKeys) (orderly : Orderly g roster o.moment)
    {last final : Operation ω} {n : Nat} (turns : Turns o n last) (ended : last.turn = .ok (final, false)) :
    Completed g o final := by
  have path : Moment.Path o.moment final.moment := turns.path.trans (turn_path ended).1
  have orderly := path.orderly populated distinct orderly
  obtain ⟨idle, drained, shut⟩ := turn_final ended
  rw [← show final.coord.setup = last.coord.setup from (turn_path ended).1.setup] at shut
  obtain ⟨settled, terminal, unfinished⟩ := orderly.exhausted populated distinct idle drained shut
  refine ⟨?_, path, orderly.runs.jobs, settled, terminal, unfinished⟩
  have : Nonempty (Operation ω) := ⟨o⟩
  exact bind_ok.2 ⟨final, turns.perform ended, if_pos (List.isEmpty_iff.2 unfinished)⟩

theorem Turns.broken {last : Operation ω} {n : Nat} (turns : Turns o n last) {halt : Halt (Operation ω)}
    (broken : last.turn = .error halt) : Finishes o (.error halt) := by
  induction turns with
  | none => exact .breaks broken
  | more first _ ih => exact .goesOn first (ih broken)

theorem Finishes.run_error {halt : Halt (Operation ω)} (finishes : Finishes o (.error halt)) : o.run = .error halt := by
  have : Nonempty (Operation ω) := ⟨o⟩
  exact bind_error.2 (Or.inl finishes.perform)

/-- A fair run completes, or one of its turns breaks off. -/
theorem run_ends (populated : g.Populated) (distinct : g.DistinctKeys) (written : g.Written)
    (workers : 1 ≤ o.coord.setup.workers) (orderly : Orderly g roster o.moment) (fair : roster.Fair o) :
    ∃ n last, Turns o n last ∧ ((∃ final, last.turn = .ok (final, false) ∧ Completed g o final) ∨
      ∃ halt, last.turn = .error halt ∧ o.run = .error halt ∧ o.Strained halt.fault) := by
  obtain ⟨n, last, turns, end_⟩ := turns_end populated distinct workers orderly fair
  refine ⟨n, last, turns, end_.imp ?_ ?_⟩
  · rintro ⟨final, ended⟩
    exact ⟨final, ended, turns.completed populated distinct orderly ended⟩
  · rintro ⟨halt, broken⟩
    refine ⟨halt, broken, (turns.broken broken).run_error, ?_⟩
    rcases turn_cases populated distinct written (turns.path.orderly populated distinct orderly) with
      ⟨next, more, done⟩ | ⟨halt', broken', strained⟩
    · cases broken.symm.trans done
    · cases broken.symm.trans broken'
      exact strained.of_path turns.path

theorem Calm.ends (calm : Calm g o) (populated : g.Populated) (distinct : g.DistinctKeys) (written : g.Written)
    (workers : 1 ≤ o.coord.setup.workers) (orderly : Orderly g roster o.moment) (fair : roster.Fair o) :
    ∃ n last final, Turns o n last ∧ last.turn = .ok (final, false) ∧ Completed g o final := by
  obtain ⟨n, last, turns, ⟨final, ended, completed⟩ | ⟨halt, _, _, strained⟩⟩ :=
    run_ends populated distinct written workers orderly fair
  · exact ⟨n, last, final, turns, ended, completed⟩
  · exact (calm.unstrained orderly populated distinct _ strained).elim

/-- If the jobs of a run have different keys, there is a worker, and the workers of the world come back, then no turn
is refused and the run comes to its end after finitely many turns. By then every stage has been opened and has an
outcome, and every job has ended, unless a turn has broken off: at a filter that cannot be written, at a limit or a wait
that is too long, or at an interruption. At every moment before, the history of each job is a walk through the states
that begins at the first one and ends at the present one, and a job that has ended never changes again. -/
theorem run_completes {p : Pipeline} {context : Option Context} {g : RunGraph}
    (built : RunGraph.build p context = .ok g) (distinct : g.DistinctKeys) {setup : Setup}
    (graph : setup.graph = g.graph) (workers : 1 ≤ setup.workers) (roster : Roster ω) {w : ω}
    (vacant : roster.postings w = []) (fair : roster.Fair (start setup g w)) :
    (∃ n last, Turns (start setup g w) n last ∧
      ((∃ final, last.turn = .ok (final, false) ∧
        (start setup g w).run = .ok final ∧ final.coord.unfinished = [] ∧
        (∀ i ∈ g.graph.order, i ∈ final.coord.opened ∧ (final.coord.stageOutcome i).isSome) ∧
        final.coord.records.map (·.job) = g.allJobs ∧
        ∀ r ∈ final.coord.records, r.status.isTerminal = true) ∨
      ∃ halt, last.turn = .error halt ∧ (start setup g w).run = .error halt ∧
        (start setup g w).Strained halt.fault)) ∧
    (∀ o : Operation ω, Moment.Path (start setup g w).moment o.moment →
      (∃ o' more, o.turn = .ok (o', more)) ∨ ∃ halt, o.turn = .error halt ∧ o.Strained halt.fault) ∧
    ∀ m : Moment ω, Moment.Path (start setup g w).moment m →
      (∀ r ∈ m.coord.records, r.history.head? = some .pending ∧
        (r.history.IsChain fun s next => s.mayBecome next = true) ∧ r.history.getLast? = some r.status) ∧
      ∀ later, Moment.Path m later → ∀ j r, m.coord.record? j = some r → r.status.isTerminal = true →
        later.coord.record? j = some r := by
  have populated := RunGraph.build_populated built
  have orderly := orderly_start graph roster vacant
  have written := RunGraph.build_written built
  refine ⟨?_, fun o path => turn_cases populated distinct written (path.orderly populated distinct orderly), ?_⟩
  · obtain ⟨n, last, turns, end_⟩ := run_ends populated distinct written workers orderly fair
    refine ⟨n, last, turns, end_.imp_left ?_⟩
    rintro ⟨final, ended, completed⟩
    exact ⟨final, ended, completed.done, completed.unfinished, completed.settled, completed.jobs, completed.ended⟩
  · intro m path
    refine ⟨fun r member => ?_, fun later onward j r found terminal => onward.evolved.frozen found terminal⟩
    obtain ⟨j, found⟩ := List.mem_iff_getElem?.1 member
    obtain ⟨fresh, first, evolves⟩ := path.evolved.source found
    have begun : fresh ∈ g.allJobs.map fun job => ({ job } : JobRecord) := List.mem_of_getElem? first
    obtain ⟨job, _, rfl⟩ := List.mem_map.1 begun
    obtain ⟨begins, walks, ends⟩ := evolves.lived (JobRecord.lived_fresh job)
    exact ⟨begins, walks, ends⟩

/-- Of two builds one fails: the run ends, and the tests are skipped. -/
theorem crossBuild_completes :
    let world : Workshop building := {}
    let setup : Setup := { graph := crossBuildGraph.graph, context := pushed, workers := 1 }
    crossBuildGraph.DistinctKeys ∧ Workshop.roster.Fair (start setup crossBuildGraph world) ∧
      Calm crossBuildGraph (start setup crossBuildGraph world) ∧
      ∃ final, (start setup crossBuildGraph world).run = .ok final ∧
        final.coord.records.map (·.job) = crossBuildGraph.allJobs ∧
        ∀ r ∈ final.coord.records, r.status.isTerminal = true := by
  intro world setup
  have populated := RunGraph.build_populated crossBuild_built
  have orderly : Orderly crossBuildGraph Workshop.roster (start setup crossBuildGraph world).moment :=
    orderly_start rfl _ rfl
  have fair := Workshop.swift.fair populated crossBuild_distinct orderly
  have calm : Calm crossBuildGraph (start setup crossBuildGraph world) := Workshop.crossBuild_calm rfl
  obtain ⟨⟨_, _, _, ⟨final, _, done, _, _, jobs, ended⟩ | ⟨halt, _, _, strained⟩⟩, _⟩ :=
    run_completes crossBuild_built crossBuild_distinct rfl (by decide) Workshop.roster rfl fair
  · exact ⟨crossBuild_distinct, fair, calm, final, done, jobs, ended⟩
  · exact (calm.unstrained orderly populated crossBuild_distinct _ strained).elim

/-- The fault with which a run breaks off in the turn after some others. -/
def faultAfter : Nat → Operation ω → Option SchedulerFault
  | 0, o =>
    match o.turn with
    | .error halt => some halt.fault
    | .ok _ => none
  | n + 1, o =>
    match o.turn with
    | .ok (o', true) => faultAfter n o'
    | _ => none

theorem faultAfter_breaks {n : Nat} {fault : SchedulerFault} (broken : o.faultAfter n = some fault) :
    ∃ halt, o.run = .error halt ∧ halt.fault = fault := by
  have finishes : ∃ halt, Finishes o (.error halt) ∧ halt.fault = fault := by
    induction n generalizing o with
    | zero =>
      rw [faultAfter] at broken
      split at broken
      next halt stopped => exact ⟨halt, .breaks stopped, Option.some.inj broken⟩
      next => cases broken
    | succ n ih =>
      rw [faultAfter] at broken
      split at broken
      next o' first =>
        obtain ⟨halt, rest, same⟩ := ih broken
        exact ⟨halt, .goesOn first rest, same⟩
      next => cases broken
  obtain ⟨halt, finishes, same⟩ := finishes
  exact ⟨halt, finishes.run_error, same⟩

def immenseRef : ArtifactRef :=
  { stage := "build", name := "app", matrix := some [(.str "version", .int (.ofNat (Nat.pow 10 5000)))] }

/-- A program is built, and tested if its version is a number with five thousand digits. -/
def immenseVersion : Pipeline :=
  { name := "immense-version"
    stages := [
      { name := "build", steps := [{ uses := "shell" }], produces := ["app"]
        matrix := some { axes := [("version", [.int 1])] } },
      { name := "test", steps := [{ uses := "shell" }], needs := ["build"]
        consumes := [immenseRef] }] }

def immenseVersionGraph : RunGraph :=
  { graph := { stages := immenseVersion.stages, needs := [[], [0]], dependents := [[1], []], order := [0, 1] }
    jobs := [
      [{ stage := "build", assignment := [(.str "version", .int 1)], steps := [{ uses := "shell" }]
         produces := ["app"] }],
      [{ stage := "test", steps := [{ uses := "shell" }]
         consumes := [immenseRef] }]]
    context := some pushed }

/-- The test should fail for want of its input; but the whole run breaks off, and nothing is said of the test. -/
theorem immense_version_breaks_off :
    let g := immenseVersionGraph
    let run := start { graph := g.graph, context := pushed, workers := 1 } g ({} : Workshop assembling)
    RunGraph.build immenseVersion (some pushed) = .ok g ∧ g.DistinctKeys ∧ Workshop.roster.Fair run ∧
      ∃ halt, run.run = .error halt ∧ halt.fault = .unusable .unwritable := by
  intro g run
  have built : RunGraph.build immenseVersion (some pushed) = .ok g := by decide +kernel
  have distinct : g.DistinctKeys := by decide +kernel
  refine ⟨built, distinct, ?_, @faultAfter_breaks _ _ _ 1 _ (by decide +kernel)⟩
  exact Workshop.swift.fair (RunGraph.build_populated built) distinct (orderly_start rfl _ rfl)

end Operation
end Conveyor

import Conveyor.Engine
import Conveyor.Proofs.ConcludedRuns
import Conveyor.Proofs.RunCompletion

/-! The outcome of a run does not depend on its schedule. However many workers there are and in whatever order they come
back, stages end alike; and where no stage stops at its first failure, so do jobs, down to the lines of the manifest. -/

namespace Conveyor

theorem RunGraph.build_regular {α : Type} {executors : Registry α} {p : Pipeline} {context : Option Context}
    {g : RunGraph} (valid : Validation.check executors p = .ok ()) (built : build p context = .ok g)
    (distinct : g.DistinctKeys) (producers : (g.allJobs.map Job.producer).Nodup)
    (untimed : ∀ s ∈ p.stages, s.timeout = none) : g.Regular where
  populated := build_populated built
  provisioned := build_provisioned valid built
  written := build_written built
  keys := distinct
  producers := producers
  untimed := by
    intro job member
    obtain ⟨i, s, _, stage, own, _⟩ := (build_populated built).home member
    obtain ⟨_, _, _, made⟩ := (build_populated built).made i s stage job own
    rw [(StageGraph.build_ordered (build_graph built)).1] at stage
    obtain ⟨t, found, rfl⟩ := layered_stage stage
    obtain ⟨_, _, _, timeout, _⟩ := Stage.job_ok made
    exact timeout.trans (untimed t (List.mem_of_getElem? found))

/-- A place where the jobs of a graph can be run: a store that holds nothing for them, workers of settled conduct of
whom none is at work yet, and no limit on their time. -/
structure Venue {ω : Type} [World ω] (conduct : Conduct) (g : RunGraph) (context : Context) (setup : Setup)
    (roster : Roster ω) (w : ω) : Prop where
  context : setup.context = context
  graph : setup.graph = g.graph
  unlimited : setup.timeout = none
  workers : 1 ≤ setup.workers
  keeps : World.Keeps ω
  empty : ∀ job ∈ g.allJobs, ∀ name, ArtifactStore.get? w ⟨job.producer, name⟩ = none
  vacant : roster.postings w = []
  performs : roster.Performs conduct.Allows Untouched
  fair : roster.Fair (Operation.start setup g w)

namespace Moment

open Coordinator

variable {ω ω' : Type} [World ω] [World ω'] {conduct : Conduct} {g : RunGraph} {context : Context} {m : Moment ω}
  {m' : Moment ω'}

section

variable {setup : Setup} {roster : Roster ω} {w : ω} (regular : g.Regular)
  (venue : Venue conduct g context setup roster w)

include regular venue

theorem accounted_of_venue (path : Path (Operation.start setup g w).moment m) : Accounted conduct g roster m :=
  path.accounted venue.keeps venue.performs regular
    (accounted_start venue.graph venue.unlimited venue.vacant venue.empty)

/-- Without limits on time there is nothing to measure and no deadline to wait for. -/
theorem strained_of_venue {fault : SchedulerFault} (strained : (Operation.start setup g w).Strained fault) :
    fault = .unusable .unwritable ∨ fault = .interrupted := by
  cases strained with
  | filter => exact Or.inl rfl
  | interruption => exact Or.inr rfl
  | @limit m reached r listed _ immeasurable =>
    obtain ⟨j, found⟩ := List.mem_iff_getElem?.1 listed
    have accounted := accounted_of_venue regular venue reached
    have own := regular.untimed r.job (accounted.orderly.runs.job found)
    refine (not_immeasurable ?_ immeasurable).elim
    simp [effectiveTimeout, own, accounted.unlimited]
  | @wait o reached far =>
    have untimed : o.coord.deadlines = [] := (accounted_of_venue regular venue reached).untimed
    rw [Operation.overlong, patience, untimed] at far
    cases far

theorem concluded_of_venue :
    (∃ final, (Operation.start setup g w).run = .ok final ∧ Concluded conduct g context final.moment) ∨
      ∃ halt, (Operation.start setup g w).run = .error halt ∧ (Operation.start setup g w).Strained halt.fault := by
  obtain ⟨_, _, _, ⟨final, _, completed⟩ | ⟨halt, _, broken, strained⟩⟩ := Operation.run_ends regular.populated
    regular.keys regular.written venue.workers (orderly_start venue.graph roster venue.vacant) venue.fair
  · have accounted := accounted_of_venue regular venue completed.path
    refine Or.inl ⟨final, completed.done, accounted.orderly.runs, ?_, accounted.barred, accounted.accounts,
      accounted.lined, ?_, ?_⟩
    · exact (congrArg Setup.context completed.path.setup).trans venue.context
    · intro i listed
      exact (completed.settled i listed).1
    · intro j r found
      exact completed.ended r (List.mem_of_getElem? found)
  · exact Or.inr ⟨halt, broken, strained⟩

end

theorem Concluded.stageReports (concluded : Concluded conduct g context m) (concluded' : Concluded conduct g context m')
    (regular : g.Regular) : m'.coord.stageReports = m.coord.stageReports := by
  unfold Coordinator.stageReports
  rw [concluded.runs.graph, concluded'.runs.graph]
  apply List.map_congr_left
  intro i listed
  rw [(concluded.agree concluded' regular i listed).outcome]

/-- Where no stage stops at a failure, two runs have done the same for every job. -/
theorem Concluded.same (concluded : Concluded conduct g context m) (concluded' : Concluded conduct g context m')
    (regular : g.Regular) (patient : ∀ s ∈ g.graph.stages, s.failFast = false) {j : Nat} {r r' : JobRecord}
    (found : m.coord.record? j = some r) (found' : m'.coord.record? j = some r') :
    ∃ stock, r'.verdict = r.verdict ∧ (stock.map Prod.fst).Nodup ∧
      (stock.Pairwise fun a b => Text.le a.1 b.1 = true) ∧ m.Holds j r.job.producer stock ∧
      m'.Holds j r'.job.producer stock := by
  have calm {c : Coordinator} (graph : c.setup.graph = g.graph) (stage : String) : ¬ c.Tripped stage := by
    rintro ⟨asks, _⟩
    obtain ⟨s, place, stops⟩ := (Option.any_eq_true _ _).1 asks
    rw [stage?, graph] at place
    rw [patient s (List.mem_of_find?_eq_some place)] at stops
    cases stops
  obtain ⟨i, s, listed, stage, _, named⟩ := regular.populated.home (concluded.runs.job found)
  have agree (n : Nat) (below : Relation.TransGen g.graph.Needs i n) : Agree m m' n := by
    obtain ⟨k, _, need⟩ := Relation.TransGen.tail'_iff.1 below
    apply concluded.agree concluded' regular
    rw [regular.populated.ordered.complete]
    exact (regular.populated.ordered.needs k n need).2
  have alike := concluded.alike concluded' regular stage agree
  cases alike j r r' found found' named with
  | cut _ tripped => exact (calm concluded.runs.graph _ tripped).elim
  | cut' _ tripped => exact (calm concluded'.runs.graph _ tripped).elim
  | @same stock verdict fresh sorted holds holds' => exact ⟨stock, verdict, fresh, sorted, holds, holds'⟩

/-- Where no stage stops at a failure, two runs report the same about jobs and artifacts. -/
theorem Concluded.details (concluded : Concluded conduct g context m) (concluded' : Concluded conduct g context m')
    (regular : g.Regular) (patient : ∀ s ∈ g.graph.stages, s.failFast = false) :
    m'.coord.records.map JobRecord.verdict = m.coord.records.map JobRecord.verdict ∧
      m'.coord.entries = m.coord.entries := by
  have jobs := concluded.sameJobs concluded'
  have each (j : Nat) : ∃ stock : List (String × Blob), ∀ r r', m.coord.record? j = some r →
      m'.coord.record? j = some r' → r'.verdict = r.verdict ∧ (stock.map Prod.fst).Nodup ∧
        (stock.Pairwise fun a b => Text.le a.1 b.1 = true) ∧ m.Holds j r.job.producer stock ∧
        m'.Holds j r'.job.producer stock := by
    cases found : m.coord.record? j with
    | none => exact ⟨[], by simp⟩
    | some r =>
      obtain ⟨r', found', _⟩ := jobs.record found
      obtain ⟨stock, same⟩ := concluded.same concluded' regular patient found found'
      refine ⟨stock, fun q q' held held' => ?_⟩
      cases held
      cases held'.symm.trans found'
      exact same
  choose stock same using each
  constructor
  · apply List.ext_getElem?
    intro j
    rw [List.getElem?_map, List.getElem?_map]
    change (m'.coord.record? j).map _ = (m.coord.record? j).map _
    cases found : m.coord.record? j with
    | none =>
      have missing := jobs.job j
      rw [found, Option.map_none, Option.map_eq_none_iff] at missing
      rw [missing]
    | some r =>
      obtain ⟨r', found', _⟩ := jobs.record found
      rw [found', Option.map_some, Option.map_some, (same j r r' found found').1]
  · have entries : m.coord.entries = g.allJobs.zipIdx.flatMap fun item => (stock item.2).map (line item.1) := by
      apply concluded.runs.entries concluded.lined
      all_goals
        intro j r found
        obtain ⟨r', found', _⟩ := jobs.record found
        obtain ⟨_, fresh, sorted, holds, _⟩ := same j r r' found found'
        assumption
    have entries' : m'.coord.entries = g.allJobs.zipIdx.flatMap fun item => (stock item.2).map (line item.1) := by
      apply concluded'.runs.entries concluded'.lined
      all_goals
        intro j r' found'
        obtain ⟨r, found, _⟩ := jobs.symm.record found'
        obtain ⟨_, fresh, sorted, _, holds⟩ := same j r r' found found'
        assumption
    rw [entries, entries']

end Moment

namespace Engine

open Moment

/-- A run gives a report, unless a ready job consumes by a filter that cannot be written, or a worker is interrupted. -/
def Reports {ω : Type} [World ω] (setup : Setup) (g : RunGraph) (w : ω) : Prop :=
  (∃ report, (schedule setup g w).result = .ok report) ∨
    ∃ fault, (schedule setup g w).result = .error fault ∧ (Operation.start setup g w).Strained fault ∧
      (fault = .unusable .unwritable ∨ fault = .interrupted)

theorem reports_of_venue {ω : Type} [World ω] {conduct : Conduct} {g : RunGraph} {context : Context} {setup : Setup}
    {roster : Roster ω} {w : ω} (regular : g.Regular) (venue : Venue conduct g context setup roster w) :
    Reports setup g w := by
  rcases concluded_of_venue regular venue with ⟨final, done, _⟩ | ⟨halt, broken, strained⟩
  · exact Or.inl ⟨final.coord.report, by simp only [schedule, done]⟩
  · exact Or.inr ⟨halt.fault, by simp only [schedule, broken], strained, strained_of_venue regular venue strained⟩

/-- The state of a run that has given a report. -/
theorem concluded_of_report {ω : Type} [World ω] {conduct : Conduct} {g : RunGraph} {context : Context} {setup : Setup}
    {roster : Roster ω} {w : ω} (regular : g.Regular) (venue : Venue conduct g context setup roster w) {report : RunReport}
    (reported : (schedule setup g w).result = .ok report) :
    ∃ final : Operation ω, report = final.coord.report ∧ Concluded conduct g context final.moment := by
  rcases concluded_of_venue regular venue with ⟨final, done, concluded⟩ | ⟨halt, broken, _⟩
  · simp only [schedule, done] at reported
    exact ⟨final, (Except.ok.inj reported).symm, concluded⟩
  · simp only [schedule, broken] at reported
    cases reported

/-- Runs of a valid pipeline without limits on time, in which executors respond to a job and its inputs in one way, give
reports unless they break off. Two such reports have the same state of every stage and of the run, whatever the worlds,
the number of workers and the order in which they come back. If no stage stops at its first failure, they have the same
verdict about every job and the same manifest. -/
theorem schedule_independent {α : Type} {executors : Registry α} {p : Pipeline} {context : Context} {g : RunGraph}
    (valid : Validation.check executors p = .ok ()) (built : RunGraph.build p (some context) = .ok g)
    (distinct : g.DistinctKeys) (producers : (g.allJobs.map Job.producer).Nodup)
    (untimed : ∀ s ∈ p.stages, s.timeout = none) {conduct : Conduct} {ω ω' : Type} [World ω] [World ω']
    {setup setup' : Setup} {roster : Roster ω} {roster' : Roster ω'} {w : ω} {w' : ω'}
    (venue : Venue conduct g context setup roster w) (venue' : Venue conduct g context setup' roster' w') :
    Reports setup g w ∧ Reports setup' g w' ∧
    ∀ report report', (schedule setup g w).result = .ok report → (schedule setup' g w').result = .ok report' →
      report.jobs.map (·.job) = g.allJobs ∧ report'.jobs.map (·.job) = g.allJobs ∧
      report'.stages = report.stages ∧ report'.status = report.status ∧
      ((∀ s ∈ p.stages, s.failFast = false) →
        report'.jobs.map JobRecord.verdict = report.jobs.map JobRecord.verdict ∧ report'.manifest = report.manifest) := by
  have regular := RunGraph.build_regular valid built distinct producers untimed
  refine ⟨reports_of_venue regular venue, reports_of_venue regular venue', fun report report' given given' => ?_⟩
  obtain ⟨final, rfl, concluded⟩ := concluded_of_report regular venue given
  obtain ⟨final', rfl, concluded'⟩ := concluded_of_report regular venue' given'
  have stages : final'.coord.stageReports = final.coord.stageReports :=
    concluded.stageReports concluded' regular
  have reported : final.coord.reported = final.coord.records :=
    Coordinator.reported_eq (concluded.runs.apart distinct)
  have reported' : final'.coord.reported = final'.coord.records :=
    Coordinator.reported_eq (concluded'.runs.apart distinct)
  refine ⟨?_, ?_, stages, ?_, ?_⟩
  · exact (congrArg _ reported).trans concluded.runs.jobs
  · exact (congrArg _ reported').trans concluded'.runs.jobs
  · simp only [Coordinator.report, stages]
  · intro patient
    have calm : ∀ s ∈ g.graph.stages, s.failFast = false := by
      intro s member
      rw [(StageGraph.build_ordered (RunGraph.build_graph built)).1] at member
      obtain ⟨i, place⟩ := List.mem_iff_getElem?.1 member
      obtain ⟨t, found, rfl⟩ := RunGraph.layered_stage place
      exact patient t (List.mem_of_getElem? found)
    obtain ⟨verdicts, manifest⟩ := concluded.details concluded' regular calm
    simp only [Coordinator.report, reported, reported']
    exact ⟨verdicts, manifest⟩

theorem crossBuild_reports {workers : Nat} (enough : 1 ≤ workers) {shop : Workshop building} (vacant : shop.staff = []) :
    let setup : Setup := { graph := crossBuildGraph.graph, context := pushed, workers }
    ∃ report, (schedule setup crossBuildGraph shop).result = .ok report := by
  intro setup
  have populated := RunGraph.build_populated crossBuild_built
  have orderly : Orderly crossBuildGraph Workshop.roster (Operation.start setup crossBuildGraph shop).moment :=
    orderly_start rfl Workshop.roster vacant
  have calm : (Operation.start setup crossBuildGraph shop).Calm crossBuildGraph := Workshop.crossBuild_calm rfl
  obtain ⟨_, _, final, _, _, completed⟩ := calm.ends populated crossBuild_distinct
    (RunGraph.build_written crossBuild_built) enough orderly (Workshop.swift.fair populated crossBuild_distinct orderly)
  exact ⟨final.coord.report, by simp only [schedule, completed.done]⟩

theorem crossBuild_venue {workers : Nat} (enough : 1 ≤ workers) {shop : Workshop building} (vacant : shop.staff = [])
    (empty : ∀ job ∈ crossBuildGraph.allJobs, ∀ name, ArtifactStore.get? shop ⟨job.producer, name⟩ = none) :
    Venue building.conduct crossBuildGraph pushed { graph := crossBuildGraph.graph, context := pushed, workers }
      Workshop.roster shop where
  context := rfl
  graph := rfl
  unlimited := rfl
  workers := enough
  keeps := Workshop.keeps
  empty := empty
  vacant := vacant
  performs := Workshop.performs
  fair := Workshop.swift.fair (RunGraph.build_populated crossBuild_built) crossBuild_distinct
    (orderly_start rfl Workshop.roster vacant)

/-- Whether there is one worker or three, and whatever else is in the store, the builds end alike. -/
theorem crossBuild_independent :
    let setup (workers : Nat) : Setup := { graph := crossBuildGraph.graph, context := pushed, workers }
    let shop : Workshop building := {}
    let other : Workshop building := { store := ⟨[(⟨{ stage := "lint" }, "notes"⟩, [7])]⟩ }
    ∃ report report', (schedule (setup 1) crossBuildGraph shop).result = .ok report ∧
      (schedule (setup 3) crossBuildGraph other).result = .ok report' ∧ report'.stages = report.stages ∧
      report'.status = report.status ∧
      report'.jobs.map JobRecord.verdict = report.jobs.map JobRecord.verdict ∧ report'.manifest = report.manifest := by
  intro setup shop other
  have elsewhere : ∀ job ∈ crossBuildGraph.allJobs, ∀ name, ArtifactStore.get? other ⟨job.producer, name⟩ = none := by
    intro job member name
    have stranger : job.producer ≠ { stage := "lint" } := by
      revert job
      decide +kernel
    simp [other, ArtifactStore.get?, MemoryStore.get?, Table.get?, Key.same, Ne.symm stranger]
  have venue : Venue building.conduct crossBuildGraph pushed (setup 1) Workshop.roster shop :=
    crossBuild_venue (by decide) rfl fun _ _ _ => rfl
  have venue' : Venue building.conduct crossBuildGraph pushed (setup 3) Workshop.roster other :=
    crossBuild_venue (by decide) rfl elsewhere
  obtain ⟨report, done⟩ : ∃ report, (schedule (setup 1) crossBuildGraph shop).result = .ok report :=
    crossBuild_reports (by decide) rfl
  obtain ⟨report', done'⟩ : ∃ report, (schedule (setup 3) crossBuildGraph other).result = .ok report :=
    crossBuild_reports (by decide) rfl
  obtain ⟨_, _, same⟩ := schedule_independent release_valid release_built crossBuild_distinct (by decide +kernel)
    (by decide +kernel) venue venue'
  obtain ⟨_, _, stages, status, details⟩ := same report report' done done'
  obtain ⟨verdicts, manifest⟩ := details (by decide +kernel)
  exact ⟨report, report', done, done', stages, status, verdicts, manifest⟩

end Engine
end Conveyor

import Conveyor.Proofs.EngineRuns
import Conveyor.Proofs.PublishedArtifacts
import Conveyor.Proofs.TriggerClauses

/-! The manifest of a run. If executors publish only what jobs declare, every job that succeeds has exactly the declared
artifacts, every other job has none, and the manifest lists them job after job and name after name. After the run the
store holds these artifacts, or none of them if they are not kept, and nothing of other jobs has been touched. -/

namespace Conveyor

namespace Moment

open Coordinator

variable {ω : Type} [World ω] {m m' : Moment ω} {g : RunGraph} {roster : Roster ω} {finds : Bool → Bool → Prop}

theorem Path.elsewhere (keeps : World.Keeps ω) (runs : Runs g m) (path : Path m m') {key : ArtifactKey}
    (foreign : key.producer ∉ g.allJobs.map Job.producer) :
    ArtifactStore.get? m'.world key = ArtifactStore.get? m.world key := by
  induction path with
  | refl => rfl
  | @tail middle last path step ih =>
    rw [← ih]
    have runs : Runs g middle := Path.preserves (Runs g) (fun _ _ step runs => runs.step step) path runs
    rcases step.stored keeps with ⟨_, same⟩ | ⟨i, q, _, _, _, _, _, _, held, _, _, _, _, stored⟩
    · exact same key
    · apply keeps.stored_elsewhere stored
      intro same
      apply foreign
      rw [same]
      exact List.mem_map_of_mem (runs.job held)

/-- What a job has published: all that it declares, if it has succeeded, and nothing otherwise. -/
structure Yielded (start m : Moment ω) (j : Nat) (r : JobRecord) (published : List (String × Blob)) : Prop where
  names : r.artifacts = published.map Prod.fst
  declared : r.status = .succeeded → r.artifacts = Text.sortedSet r.job.produces ∧
    ∃ inputs c steps, ({ job := r.job, run := start.coord.setup.context, inputs } : JobContext).Publishes c ∧
      TakenIn start m j (.succeeded steps c.staged) ∧ inNameOrder c.staged = published
  nothing : r.status ≠ .succeeded → r.artifacts = []

/-- Names that come once are not refused by a store that holds none of them. -/
theorem not_refuses {offered taken : List (String × Blob)} {name : String} (distinct : (offered.map Prod.fst).Nodup) :
    ¬ Refuses (fun _ => none) offered taken name := by
  rintro ⟨⟨blob, rest, rfl⟩, _, _, used⟩
  rw [List.map_append, List.map_cons] at distinct
  rcases used with present | member
  · exact present rfl
  · exact List.disjoint_of_nodup_append distinct member (by simp)

/-- If the store holds nothing for the jobs of a run, all artifacts of a job are stored or none. -/
theorem Booked.yielded (performs : roster.Performs Manner.publishing finds) (populated : g.Populated)
    (distinct : g.DistinctKeys) {setup : Setup} (graph : setup.graph = g.graph) {w : ω}
    (vacant : roster.postings w = []) {j : Nat} {r : JobRecord} (found : m.coord.record? j = some r)
    (free : ∀ name, ArtifactStore.get? w ⟨r.job.producer, name⟩ = none)
    (booked : Booked w (TakenIn (Operation.start setup g w).moment m) m j r) :
    ∃ published, Yielded (Operation.start setup g w).moment m j r published ∧ r.artifacts.Nodup ∧
      (published.Pairwise fun a b => Text.le a.1 b.1 = true) ∧ m.Stocked (fun _ => none) j r.job.producer published := by
  have initial : (fun name => ArtifactStore.get? w ⟨r.job.producer, name⟩) = fun _ => none := funext free
  cases booked with
  | empty status names stocked =>
    rw [initial] at stocked
    exact ⟨[], ⟨names, fun done => (status done).elim, fun _ => names⟩, by simp [names], .nil, stocked⟩
  | @stored steps artifacts came status names _ single stocked =>
    rw [initial] at stocked
    obtain ⟨inputs, asked, ends⟩ := came.ends performs populated distinct graph vacant found
    obtain ⟨c, publishes, rfl, once, declared⟩ := ends.produces
    have sorted : r.artifacts = Text.sortedSet r.job.produces := names.trans (inNameOrder_names once declared)
    refine ⟨inNameOrder c.staged, ⟨names, fun _ => ⟨sorted, ?_⟩, fun other => (other status).elim⟩, single,
      inNameOrder_sorted c.staged, stocked⟩
    exact ⟨inputs, c, steps, publishes, came, rfl⟩
  | @refused steps artifacts taken name came refuses =>
    rw [initial] at refuses
    obtain ⟨inputs, asked, ends⟩ := came.ends performs populated distinct graph vacant found
    obtain ⟨_, _, _, once, _⟩ := ends.produces
    refine (not_refuses ?_ refuses).elim
    exact ((inNameOrder_perm artifacts).map Prod.fst).nodup_iff.2 once

/-- The artifacts of all jobs: in the records, in the manifest and in the store. -/
structure Exact (g : RunGraph) (start m : Moment ω) (published : Nat → List (String × Blob)) : Prop where
  yielded : ∀ j r, m.coord.record? j = some r → Yielded start m j r (published j)
  manifest : m.coord.entries = g.allJobs.zipIdx.flatMap fun item => (published item.2).map (line item.1)
  contents : ∀ j r, m.coord.record? j = some r → ∀ name,
    ArtifactStore.get? m.world ⟨r.job.producer, name⟩ = Table.get? (published j) name

/-- A run that begins with nothing in the store for its jobs keeps exact books at every moment. -/
theorem Path.exact (keeps : World.Keeps ω) (performs : roster.Performs Manner.publishing finds)
    (populated : g.Populated) (distinct : g.DistinctKeys) (producers : (g.allJobs.map Job.producer).Nodup)
    {setup : Setup} (graph : setup.graph = g.graph) {w : ω} (vacant : roster.postings w = [])
    (free : ∀ key : ArtifactKey, key.producer ∈ g.allJobs.map Job.producer → ArtifactStore.get? w key = none)
    (path : Path (Operation.start setup g w).moment m) :
    ∃ published, Exact g (Operation.start setup g w).moment m published := by
  obtain ⟨runs, lined, booked⟩ := path.booked keeps distinct producers graph
  have each (j : Nat) : ∃ published, ∀ r, m.coord.record? j = some r →
      Yielded (Operation.start setup g w).moment m j r published ∧ r.artifacts.Nodup ∧
        (published.Pairwise fun a b => Text.le a.1 b.1 = true) ∧ m.Stocked (fun _ => none) j r.job.producer published := by
    cases found : m.coord.record? j with
    | none => exact ⟨[], by simp⟩
    | some r =>
      have member : r.job.producer ∈ g.allJobs.map Job.producer := List.mem_map_of_mem (runs.job found)
      obtain ⟨published, yielded⟩ := (booked j r found).yielded performs populated distinct graph vacant found
        fun name => free ⟨r.job.producer, name⟩ member
      refine ⟨published, fun q same => ?_⟩
      cases same
      exact yielded
  choose published yields using each
  refine ⟨published, fun j r found => (yields j r found).1, ?_, ?_⟩
  · apply runs.entries lined
    · intro j r found
      exact (yields j r found).2.2.2
    · intro j r found
      exact (yields j r found).2.2.1
    · intro j r found
      rw [← (yields j r found).1.names]
      exact (yields j r found).2.1
  · intro j r found name
    exact (yields j r found).2.2.2.contents name

end Moment

namespace Engine

open Moment

variable {ω : Type} [World ω] {α : Type} {executors : Registry α} {settings : Settings} {processors : Nat} {p : Pipeline}
  {context : Context} {g : RunGraph} {world : ω}

/-- If executors publish only through the surroundings of their jobs, a run that does not break off reports for every
job that has succeeded the names that it declares, each once and in order, and for every other job none. The manifest has
one line for each of these names, job after job. After the run the store holds for the jobs exactly what they have
published if artifacts are kept, and nothing otherwise; what it holds for others is as before. -/
theorem manifest_exact (valid : Validation.check executors p = .ok ())
    (triggered : Trigger.anyAccepts p.triggers context = true) (built : RunGraph.build p (some context) = .ok g)
    (distinct : g.DistinctKeys) (producers : (g.allJobs.map Job.producer).Nodup)
    (checked : settings.checked = .ok settings) (keeps : World.Keeps ω) (roster : Roster ω)
    (vacant : roster.postings world = []) {finds : Bool → Bool → Prop} (performs : roster.Performs Manner.publishing finds)
    (fair : roster.Fair (opening settings processors g context world)) :
    let start := opening settings processors g context world
    let attempt := run executors settings processors p context world
    (∃ final report, ∃ published : Nat → List (String × Blob),
      start.run = .ok final ∧ attempt.result = .ok report ∧ report.jobs.map (·.job) = g.allJobs ∧
      (∀ j r, report.jobs[j]? = some r → Yielded start.moment final.moment j r (published j)) ∧
      report.manifest = (g.allJobs.zipIdx.flatMap fun item => (published item.2).map (line item.1)) ∧
      (∀ j r, report.jobs[j]? = some r → ∀ name, ArtifactStore.get? attempt.world ⟨r.job.producer, name⟩ =
        if settings.keepArtifacts then Table.get? (published j) name else none) ∧
      ∀ key, key.producer ∉ g.allJobs.map Job.producer →
        ArtifactStore.get? attempt.world key = ArtifactStore.get? world key) ∨
    ∃ fault, attempt.result = .error (.broken fault) ∧ start.Strained fault := by
  intro start attempt
  have unstaffed : roster.postings (discardAll g.allJobs world) = [] :=
    (postings_discardAll roster _ world).trans vacant
  obtain ⟨_, _, _, ⟨final, _, completed⟩ | ⟨halt, _, broken, strained⟩⟩ :=
    opening_ends built distinct checked vacant fair
  swap
  · exact Or.inr ⟨halt.fault, by rw [show attempt.result = _ from run_result valid triggered built, broken], strained⟩
  left
  obtain ⟨result, after⟩ := run_ok valid triggered built completed.done
  have reported := completed.reported distinct
  -- What the store held for the jobs has been removed before the run, so that no name is refused.
  obtain ⟨published, yielded, manifest, contents⟩ := completed.path.exact keeps performs
    (RunGraph.build_populated built) distinct producers rfl unstaffed
    fun key member => by rw [get?_discardAll keeps, if_pos member]
  refine ⟨final, _, published, completed.done, result, ?_, ?_, ?_, ?_, ?_⟩
  · exact (congrArg _ reported).trans completed.jobs
  · intro j r found
    exact yielded j r ((congrArg (·[j]?) reported).symm.trans found)
  · exact manifest
  · intro j r found name
    have found : final.coord.records[j]? = some r := (congrArg (·[j]?) reported).symm.trans found
    have member : r.job.producer ∈ g.allJobs.map Job.producer := by
      rw [← completed.jobs, List.map_map]
      exact List.mem_map_of_mem (List.mem_of_getElem? found)
    rw [show attempt.world = _ from after]
    split
    · exact contents j r found name
    · rw [get?_discardAll keeps, if_pos member]
  · intro key foreign
    have same : ArtifactStore.get? final.world key = ArtifactStore.get? world key := by
      have outside := Path.elsewhere keeps (.start rfl (discardAll g.allJobs world)) completed.path foreign
      have before := get?_discardAll keeps g.allJobs world key
      rw [if_neg foreign] at before
      exact outside.trans before
    rw [show attempt.world = _ from after]
    split
    · exact same
    · rw [get?_discardAll keeps, if_neg foreign, same]

/-- A store with a program from an earlier run, and something else. -/
def warehouse : Workshop building :=
  { store := ⟨[(⟨{ stage := "build", qualifier := "os=linux" }, "app"⟩, [0]), (⟨{ stage := "lint" }, "notes"⟩, [7])]⟩ }

theorem building_publishes : (Workshop.roster : Roster (Workshop building)).Performs Manner.publishing Untouched := by
  apply Workshop.performs_of
  intro w
  cases done : w.context.publish "app" [1] with
  | ok c => exact ⟨c, .single ⟨"app", [1], done⟩, by simp only [building, done]⟩
  | error fault => exact ⟨w.context, .refl, by simp only [building, done]⟩

/-- The program that is built for the first system replaces the one of the earlier run, and the notes stay. -/
theorem release_manifest :
    let settings : Settings := { maxWorkers := some 2, keepArtifacts := true }
    let attempt := run shells settings 1 release pushed warehouse
    ∃ report, attempt.result = .ok report ∧ report.jobs.map (·.job) = crossBuildGraph.allJobs ∧
      (∀ r ∈ report.jobs, r.status = .succeeded → r.artifacts = Text.sortedSet r.job.produces) ∧
      ArtifactStore.get? attempt.world ⟨{ stage := "lint" }, "notes"⟩ = some [7] := by
  intro settings attempt
  have populated := RunGraph.build_populated release_built
  have orderly : Moment.Orderly crossBuildGraph Workshop.roster
    (opening settings 1 crossBuildGraph pushed warehouse).moment := opening_orderly rfl
  have fair := Workshop.swift.fair populated crossBuild_distinct orderly
  have checked : settings.checked = .ok settings := by decide
  have calm : Operation.Calm crossBuildGraph (opening settings 1 crossBuildGraph pushed warehouse) :=
    Workshop.crossBuild_calm rfl
  rcases manifest_exact release_valid (Trigger.anyAccepts_unfiltered (by decide)) release_built crossBuild_distinct
    (by decide +kernel) checked Workshop.keeps Workshop.roster rfl building_publishes fair with
    ⟨final, report, published, _, result, jobs, yielded, _, _, others⟩ | ⟨fault, _, strained⟩
  swap
  · exact (calm.unstrained orderly populated crossBuild_distinct _ strained).elim
  refine ⟨report, result, jobs, ?_, ?_⟩
  · intro r member succeeded
    obtain ⟨j, found⟩ := List.mem_iff_getElem?.1 member
    exact ((yielded j r found).declared succeeded).1
  · rw [others _ (by decide +kernel)]
    rfl

end Engine
end Conveyor

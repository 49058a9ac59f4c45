import Conveyor.Proofs.ArtifactShelving
import Conveyor.Proofs.ManifestOrder
import Conveyor.Proofs.SchedulerInvariant

/-! The ledger of a run: for every job, what has been stored for it, what the manifest lists for it and what its record
names. Only the return of its own worker adds to it, and it adds all artifacts of the job or, if the store refuses one,
those before it. -/

namespace Conveyor
namespace Moment

open Coordinator

variable {ω : Type} [World ω] {m m' : Moment ω} {g : RunGraph}

/-- A step stores nothing, or it takes in the worker of a running job, which has ended then. -/
theorem Step.stored (keeps : World.Keeps ω) (step : Step m m') :
    (m'.coord.manifest = m.coord.manifest ∧
        ∀ key, ArtifactStore.get? m'.world key = ArtifactStore.get? m.world key) ∨
      ∃ i q q' outcome later taken entries, m.arrived = (i, .returned outcome) :: later ∧
        m.coord.record? i = some q ∧ q.status = .running ∧
        m'.coord.record? i = some q' ∧ q'.status.isTerminal = true ∧
        m'.coord.manifest = m.coord.manifest ++ entries.map (fun entry => (m.coord.rank i, entry)) ∧
        Stored q.job.producer m.world taken entries m'.world := by
  cases step with
  | opens _ _ _ _ opened => exact Or.inl ⟨(openStage_ok opened).manifest, fun _ => rfl⟩
  | takes _ _ taken =>
    refine Or.inl ⟨?_, fun _ => rfl⟩
    cases takeUp_ok taken with
    | passed => rfl
    | lacked held _ _ failed => exact (transition_ok failed held).2.1.manifest
    | launched _ _ _ started => exact started.manifest
  | @delivers c w => exact Or.inl ⟨rfl, keeps.delivered c.requests w⟩
  | @awaits _ w limit => exact Or.inl ⟨rfl, keeps.awaited w limit⟩
  | collects collected =>
    cases collect_ok collected with
    | dropped => exact Or.inl ⟨rfl, fun _ => rfl⟩
    | @taken i outcome q _ _ _ _ _ _ held running returned =>
      refine Or.inr ⟨i, q, _, outcome, _, _, _, rfl, held, running, returned.records.found held, ?_, returned.manifest,
        returned.stored⟩
      simp only [aftermath, if_true, JobRecord.moved_status]
      exact outcome.ending_terminal _
  | looks => exact Or.inl ⟨rfl, fun _ => rfl⟩
  | expires expired =>
    refine Or.inl ⟨?_, fun _ => rfl⟩
    cases expire_ok expired with
    | early => rfl
    | ended => rfl
    | stopped _ _ late => exact late.manifest

omit [World ω] in
theorem Runs.same_producer (runs : Runs g m) (producers : (g.allJobs.map Job.producer).Nodup) {j k : Nat}
    {r q : JobRecord} (found : m.coord.record? j = some r) (held : m.coord.record? k = some q)
    (same : r.job.producer = q.job.producer) : j = k := by
  rw [← runs.jobs] at producers
  have inside := (List.getElem?_eq_some_iff.1 found).1
  refine (List.getElem?_inj (by simpa using inside) producers).1 ?_
  simp only [List.getElem?_map]
  change ((m.coord.record? j).map _).map _ = ((m.coord.record? k).map _).map _
  rw [found, held]
  exact congrArg some same

omit [World ω] in
theorem Runs.rank (runs : Runs g m) (distinct : g.DistinctKeys) {j : Nat} {r : JobRecord}
    (found : m.coord.record? j = some r) : m.coord.rank j = j :=
  rank_eq (runs.apart distinct) (List.getElem?_eq_some_iff.1 found).1.le

/-- What is kept for the job at a place: what was stored for it before the run, and its own artifacts, which stand in
the manifest. -/
structure Stocked (m : Moment ω) (initial : String → Option Blob) (j : Nat) (producer : Producer)
    (stock : List (String × Blob)) : Prop where
  contents : ∀ name, ArtifactStore.get? m.world ⟨producer, name⟩ = (initial name).or (Table.get? stock name)
  manifest : m.coord.manifest.filter (·.1 = j) =
    stock.map fun artifact => (j, .of ⟨producer, artifact.1⟩ artifact.2)

section

variable (keeps : World.Keeps ω) (step : Step m m') (runs : Runs g m) (distinct : g.DistinctKeys)
  (producers : (g.allJobs.map Job.producer).Nodup) {j : Nat} {r r' : JobRecord}
  (found : m.coord.record? j = some r) (found' : m'.coord.record? j = some r')
  (stays : ∀ outcome later, m.arrived = (j, .returned outcome) :: later → r.status = .running → r'.status = .running)

include keeps step runs producers found found' stays

/-- A job whose worker is not taken in by a step keeps what is stored for it. -/
theorem Step.contents (name : String) :
    ArtifactStore.get? m'.world ⟨r.job.producer, name⟩ = ArtifactStore.get? m.world ⟨r.job.producer, name⟩ := by
  rcases step.stored keeps with
    ⟨_, same⟩ | ⟨i, q, q', outcome, later, taken, entries, arrived, held, running, held', ended, _, stored⟩
  · exact same _
  · apply keeps.stored_elsewhere stored
    intro same
    cases runs.same_producer producers found held same
    cases found.symm.trans held
    cases found'.symm.trans held'
    rw [stays outcome later arrived running] at ended
    cases ended

include distinct

theorem Step.stocked {initial : String → Option Blob} {stock : List (String × Blob)}
    (stocked : m.Stocked initial j r.job.producer stock) : m'.Stocked initial j r.job.producer stock := by
  refine ⟨fun name => ?_, ?_⟩
  · rw [step.contents keeps runs producers found found' stays, stocked.contents]
  · rw [← stocked.manifest]
    rcases step.stored keeps with
      ⟨same, _⟩ | ⟨i, q, q', outcome, later, _, entries, arrived, held, running, held', ended, grown, _⟩
    · rw [same]
    · have apart : i ≠ j := by
        rintro rfl
        cases found.symm.trans held
        cases found'.symm.trans held'
        rw [stays outcome later arrived running] at ended
        cases ended
      have others : (entries.map fun entry => (i, entry)).filter (·.1 = j) = [] := by simp [apart]
      rw [grown, runs.rank distinct held, List.filter_append, others, List.append_nil]

end

/-- A job whose worker is taken in gets the artifacts that the store has taken. -/
theorem Stocked.returned (keeps : World.Keeps ω) (runs : Runs g m) (distinct : g.DistinctKeys) {now : Double} {j : Nat}
    {r : JobRecord} {outcome : Outcome} {taken rest : List (String × Blob)} {entries : List Entry}
    {fault : Option StoreFault} (found : m.coord.record? j = some r)
    (returned : m.coord.Returned m'.coord m.world m'.world now j r outcome taken rest entries fault)
    {initial : String → Option Blob} (empty : m.Stocked initial j r.job.producer []) :
    m'.Stocked initial j r.job.producer taken := by
  obtain ⟨rfl, contents, _⟩ := keeps.stored_contents returned.stored
  have own : ∀ entries : List Entry,
      (entries.map fun entry => (j, entry)).filter (·.1 = j) = entries.map fun entry => (j, entry) := by
    intro entries
    rw [List.filter_eq_self]
    intro entry member
    obtain ⟨_, _, rfl⟩ := List.mem_map.1 member
    simp
  constructor
  · intro name
    rw [contents, empty.contents]
    simp [Table.get?]
  · rw [returned.manifest, runs.rank distinct found, List.filter_append, empty.manifest, own, List.map_map]
    rfl

def Lined (m : Moment ω) : Prop := ∀ line ∈ m.coord.manifest, ∃ r, m.coord.record? line.1 = some r

theorem Step.lined (keeps : World.Keeps ω) (step : Step m m') (runs : Runs g m) (distinct : g.DistinctKeys)
    (lined : Lined m) : Lined m' := by
  intro line member
  rcases step.stored keeps with ⟨same, _⟩ | ⟨i, q, q', _, _, _, entries, _, held, _, held', _, grown, _⟩
  · rw [same] at member
    obtain ⟨r, found⟩ := lined line member
    obtain ⟨r', found', _⟩ := step.evolved.record found
    exact ⟨r', found'⟩
  · rw [grown, runs.rank distinct held, List.mem_append] at member
    rcases member with member | member
    · obtain ⟨r, found⟩ := lined line member
      obtain ⟨r', found', _⟩ := step.evolved.record found
      exact ⟨r', found'⟩
    · obtain ⟨entry, _, rfl⟩ := List.mem_map.1 member
      exact ⟨q', held'⟩

def line (job : Job) (artifact : String × Blob) : Entry := .of ⟨job.producer, artifact.1⟩ artifact.2

/-- The manifest has the artifacts of all jobs, in the order of the jobs and of the names. -/
theorem Runs.entries (runs : Runs g m) (lined : Lined m) {published : Nat → List (String × Blob)}
    (stocked : ∀ j r, m.coord.record? j = some r → m.Stocked (fun _ => none) j r.job.producer (published j))
    (sorted : ∀ j r, m.coord.record? j = some r → (published j).Pairwise fun a b => Text.le a.1 b.1 = true)
    (single : ∀ j r, m.coord.record? j = some r → ((published j).map Prod.fst).Nodup) :
    m.coord.entries = g.allJobs.zipIdx.flatMap fun item => (published item.2).map (line item.1) := by
  have held {j : Nat} (inside : j < g.allJobs.length) :
      ∃ r, m.coord.record? j = some r ∧ g.allJobs[j]? = some r.job := by
    rw [← runs.jobs, List.length_map] at inside
    refine ⟨_, List.getElem?_eq_getElem inside, ?_⟩
    rw [← runs.jobs, List.getElem?_map, List.getElem?_eq_getElem inside]
    rfl
  rw [flatMap_zipIdx g.allJobs fun job j => (published j).map (line job)]
  apply entries_eq
  · intro line member
    obtain ⟨r, found⟩ := lined line member
    rw [← runs.jobs, List.length_map]
    exact (List.getElem?_eq_some_iff.1 found).1
  · intro j inside
    obtain ⟨r, found, job⟩ := held inside
    rw [(stocked j r found).manifest, job, Option.map_some, Option.getD_some, List.map_map]
    rfl
  · intro j inside
    obtain ⟨r, found, job⟩ := held inside
    rw [job, Option.map_some, Option.getD_some, List.pairwise_map]
    exact sorted j r found
  · intro j inside
    obtain ⟨r, found, job⟩ := held inside
    rw [job, Option.map_some, Option.getD_some, List.map_map]
    exact single j r found

end Moment
end Conveyor

import Conveyor.Executor.JobContext
import Conveyor.Proofs.QualifierText

/-! How steps pick among the inputs of their job. A filter is read against the qualifiers of the inputs, while the search
for inputs reads it against the jobs themselves. The two agree as long as the assignments of the jobs are legible, and no
further; but every value of a filter that is read against a qualifier has to be written, also under a key that the job
does not have. -/

namespace Conveyor

namespace Inputs

/-- The inputs of a stage and name whose qualifiers pass a test, by qualifier. -/
def those (inputs : Inputs) (stage name : String) (passes : String → Bool) : Table String Blob :=
  ((inputs.named stage name).filter fun entry => passes entry.1.producer.qualifier).map fun entry =>
    (entry.1.producer.qualifier, entry.2)

/-- The inputs of a stage and name from jobs that accept a filter. -/
def producedBy (producers : String → List JobRecord) (inputs : Inputs) (stage name : String) (filter : Mapping) :
    Table String Blob :=
  inputs.those stage name fun qualifier =>
    (producers stage).any fun q => q.job.qualifier = qualifier ∧ q.job.accepts filter = .ok true

/-- A filter has a value that cannot be written, and a job behind an input agrees with it on all before. -/
def MeetsUnwritable (producers : String → List JobRecord) (inputs : Inputs) (stage name : String) (filter : Mapping) :
    Prop :=
  ∃ entry ∈ inputs.named stage name, ∃ q ∈ producers stage,
    q.job.qualifier = entry.1.producer.qualifier ∧ q.job.MeetsUnwritable filter

/-- Steps pick what comes from the jobs that accept their filter, and break off exactly at values without text. -/
structure Faithful (producers : String → List JobRecord) (inputs : Inputs) : Prop where
  selects : ∀ stage name (filter : Mapping), filter.TextKeys → ¬ inputs.MeetsUnwritable producers stage name filter →
    inputs.select stage name filter = .ok (inputs.producedBy producers stage name filter)
  breaks : ∀ stage name (filter : Mapping), filter.TextKeys → inputs.MeetsUnwritable producers stage name filter →
    inputs.select stage name filter = .error .unwritable
  fetches : ∀ c : JobContext, c.inputs = inputs → ∀ stage name (filter : Mapping), filter.TextKeys → ∀ found,
    c.fetchAll stage name filter = .ok found ↔ ¬ inputs.MeetsUnwritable producers stage name filter ∧
      found = inputs.producedBy producers stage name filter ∧ found ≠ []

/-- The assignments of the jobs that the inputs come from are legible. -/
def Legible (producers : String → List JobRecord) (inputs : Inputs) : Prop :=
  ∀ entry ∈ inputs, ∀ q ∈ producers entry.1.producer.stage, q.job.qualifier = entry.1.producer.qualifier →
    Assignment.Legible q.job.assignment

section

variable {σ : Type} [ArtifactStore σ] {store : σ} {producers : String → List JobRecord} {refs : List ArtifactRef}
  {inputs : Inputs}

theorem resolve_nodup (resolved : resolve store producers refs = .ok inputs) : inputs.keys.Nodup := by
  obtain ⟨_, rfl⟩ := resolve_ok.1 resolved
  exact Table.nodup_keys_ofPairs (Table.exact _)

/-- Every input comes from a job of its stage whose assignment can be written. -/
theorem resolve_source (resolved : resolve store producers refs = .ok inputs) {entry : ArtifactKey × Blob}
    (member : entry ∈ inputs) :
    ∃ q ∈ producers entry.1.producer.stage, q.job.qualifier = entry.1.producer.qualifier ∧
      Value.anyEntryUnwritable q.job.assignment = false := by
  obtain ⟨met, rfl⟩ := resolve_ok.1 resolved
  obtain ⟨r, listed, supplied⟩ := List.mem_flatMap.1 (Table.mem_ofPairs (Table.exact _) member)
  obtain ⟨q, selected, stored⟩ := List.mem_filterMap.1 supplied
  obtain ⟨blob, _, rfl⟩ := Option.map_eq_some_iff.1 stored
  exact ⟨q, List.mem_of_mem_filter selected, rfl, ((met r listed).serves q selected).named⟩

end

section

variable {inputs : Inputs} {stage name qualifier : String} {blob : Blob} {filter : Mapping}

theorem mem_named {entry : ArtifactKey × Blob} :
    entry ∈ inputs.named stage name ↔ entry ∈ inputs ∧ entry.1.producer.stage = stage ∧ entry.1.name = name := by
  simp [named]

theorem mem_those {passes : String → Bool} (member : (⟨⟨stage, qualifier⟩, name⟩, blob) ∈ inputs) :
    (qualifier, blob) ∈ inputs.those stage name passes ↔ passes qualifier = true := by
  rw [those, List.mem_map]
  constructor
  · rintro ⟨_, kept, same⟩
    cases same
    exact (List.mem_filter.1 kept).2
  · intro passed
    exact ⟨_, List.mem_filter.2 ⟨mem_named.2 ⟨member, rfl, rfl⟩, passed⟩, rfl⟩

theorem nodup_keys_those (distinct : inputs.keys.Nodup) (passes : String → Bool) :
    (inputs.those stage name passes).keys.Nodup := by
  have short : (((inputs.named stage name).filter fun entry => passes entry.1.producer.qualifier).map (·.1)).Nodup :=
    distinct.sublist ((List.filter_sublist.trans List.filter_sublist).map _)
  rw [those, Table.keys, List.map_map]
  have qualified : (fun entry : ArtifactKey × Blob => entry.1.producer.qualifier) =
      (fun key : ArtifactKey => key.producer.qualifier) ∘ (·.1) := rfl
  change (List.map (fun entry : ArtifactKey × Blob => entry.1.producer.qualifier) _).Nodup
  rw [qualified, ← List.map_map]
  refine short.map_on fun key member key' member' same => ?_
  obtain ⟨entry, kept, rfl⟩ := List.mem_map.1 member
  obtain ⟨entry', kept', rfl⟩ := List.mem_map.1 member'
  obtain ⟨_, stage₁, name₁⟩ := mem_named.1 (List.mem_of_mem_filter kept)
  obtain ⟨_, stage₂, name₂⟩ := mem_named.1 (List.mem_of_mem_filter kept')
  obtain ⟨⟨⟨_, _⟩, _⟩, _⟩ := entry
  obtain ⟨⟨⟨_, _⟩, _⟩, _⟩ := entry'
  simp_all

/-- What is picked, if every qualifier answers to the filter or all that do not fail in one way. -/
theorem select_cases (distinct : inputs.keys.Nodup) (bad : ArtifactKey × Blob → Prop) (passes : String → Bool)
    (each : ∀ entry ∈ inputs.named stage name,
      qualifierAccepts (qualifierPairs entry.1.producer.qualifier) filter = .error .unwritable ∧ bad entry ∨
        qualifierAccepts (qualifierPairs entry.1.producer.qualifier) filter = .ok (passes entry.1.producer.qualifier) ∧
          ¬ bad entry) :
    inputs.select stage name filter = .error .unwritable ∧ (∃ entry ∈ inputs.named stage name, bad entry) ∨
      inputs.select stage name filter = .ok (inputs.those stage name passes) ∧
        ∀ entry ∈ inputs.named stage name, ¬ bad entry := by
  unfold select
  rcases chosen_cases each with ⟨failed, is⟩ | ⟨found, none⟩
  · exact Or.inl ⟨by rw [failed]; rfl, is⟩
  · refine Or.inr ⟨?_, none⟩
    rw [found]
    exact congrArg Except.ok (Table.ofPairs_of_nodup (Table.exact _) (nodup_keys_those distinct passes))

theorem select_unfiltered (distinct : inputs.keys.Nodup) :
    inputs.select stage name [] = .ok (inputs.those stage name fun _ => true) := by
  refine ((select_cases distinct (fun _ => False) (fun _ => true) fun _ _ => Or.inr ⟨rfl, id⟩).resolve_left ?_).1
  rintro ⟨_, _, _, bad⟩
  exact bad

end

theorem fetchAll_ok {c : JobContext} {stage name : String} {filter : Mapping} {found : Table String Blob} :
    c.fetchAll stage name filter = .ok found ↔ c.inputs.select stage name filter = .ok found ∧ found ≠ [] := by
  unfold JobContext.fetchAll
  split
  next f failed => simp [failed]
  next empty =>
    rw [empty]
    constructor
    · intro done
      cases done
    · rintro ⟨none, some⟩
      exact (some (Except.ok.inj none).symm).elim
  next picked some selected =>
    rw [selected, Except.ok.injEq, Except.ok.injEq]
    constructor
    · rintro rfl
      exact ⟨rfl, some⟩
    · exact And.left

variable {producers : String → List JobRecord} {inputs : Inputs}

/-- A job whose own values can be written accepts a filter if it fits, unless it meets a value that cannot. -/
theorem accepts_iff_fits {j : Job} {filter : Mapping} (written : Value.anyEntryUnwritable j.assignment = false)
    (fine : ¬ j.MeetsUnwritable filter) : j.accepts filter = .ok true ↔ j.fits filter = true := by
  rcases j.accepts_cases filter with ⟨_, before, k, v, after, w, split, fits, found, unwritable | unwritable⟩ | ⟨done, _⟩
  · obtain ⟨_, member, same⟩ := List.mem_map.1 (Table.values_ofPairs _ _ (Table.value_of_get? found))
    rw [Value.entry_unwritable member (same ▸ unwritable)] at written
    cases written
  · exact (fine ⟨before, k, v, after, split, fits, unwritable⟩).elim
  · rw [done, Except.ok.injEq]

theorem Legible.faithful (legible : inputs.Legible producers)
    (named : ∀ stage, ∀ q ∈ producers stage, Table.TextKeys q.job.assignment) (distinct : inputs.keys.Nodup)
    (source : ∀ entry ∈ inputs, ∃ q ∈ producers entry.1.producer.stage,
      q.job.qualifier = entry.1.producer.qualifier ∧ Value.anyEntryUnwritable q.job.assignment = false)
    (apart : ∀ stage, ((producers stage).map (·.job.qualifier)).Nodup) : inputs.Faithful producers := by
  have cases (stage name : String) (filter : Mapping) (texts : filter.TextKeys) :
      inputs.select stage name filter = .error .unwritable ∧ inputs.MeetsUnwritable producers stage name filter ∨
        inputs.select stage name filter = .ok (inputs.producedBy producers stage name filter) ∧
          ¬ inputs.MeetsUnwritable producers stage name filter := by
    refine (select_cases distinct
      (fun entry => ∃ q ∈ producers stage,
        q.job.qualifier = entry.1.producer.qualifier ∧ q.job.MeetsUnwritable filter)
      (fun qualifier => (producers stage).any fun q => q.job.qualifier = qualifier ∧ q.job.accepts filter = .ok true)
      ?_).imp_right fun ⟨done, fine⟩ => ⟨done, fun ⟨entry, member, meets⟩ => fine entry member meets⟩
    intro entry member
    obtain ⟨present, rfl, rfl⟩ := mem_named.1 member
    obtain ⟨q, listed, same, written⟩ := source entry present
    -- The qualifiers of the jobs differ, so no other job stands behind this input.
    have only : ∀ q' ∈ producers entry.1.producer.stage, q'.job.qualifier = entry.1.producer.qualifier → q' = q :=
      fun q' listed' same' => List.inj_on_of_nodup_map (apart _) listed' listed (same'.trans same.symm)
    have asked := Job.qualifierAccepts_cases ((legible entry present q listed same).spelled (named _ q listed)) texts
    rw [← same]
    rcases asked with ⟨failed, meets⟩ | ⟨done, fine⟩
    · exact Or.inl ⟨failed, q, listed, rfl, meets⟩
    · refine Or.inr ⟨done.trans (congrArg Except.ok ?_), ?_⟩
      · rw [Bool.eq_iff_iff, ← accepts_iff_fits written fine, List.any_eq_true]
        simp only [decide_eq_true_eq]
        constructor
        · exact fun accepted => ⟨q, listed, rfl, accepted⟩
        · rintro ⟨q', listed', same', accepted⟩
          rwa [← only q' listed' (same'.trans same)]
      · rintro ⟨q', listed', same', meets⟩
        exact fine (only q' listed' (same'.trans same) ▸ meets)
  refine ⟨fun stage name filter texts fine => ?_, fun stage name filter texts meets => ?_, ?_⟩
  · exact ((cases stage name filter texts).resolve_left fun failed => fine failed.2).1
  · exact ((cases stage name filter texts).resolve_right fun done => done.2 meets).1
  · rintro c rfl stage name filter texts found
    rw [fetchAll_ok]
    rcases cases stage name filter texts with ⟨failed, meets⟩ | ⟨done, fine⟩
    · simp [failed, meets]
    · simp [done, fine, eq_comm]

theorem Faithful.legible (faithful : inputs.Faithful producers)
    (named : ∀ stage, ∀ q ∈ producers stage, Table.TextKeys q.job.assignment)
    (apart : ∀ stage, ((producers stage).map (·.job.qualifier)).Nodup) (distinct : inputs.keys.Nodup)
    (source : ∀ entry ∈ inputs, ∃ q ∈ producers entry.1.producer.stage,
      q.job.qualifier = entry.1.producer.qualifier ∧ Value.anyEntryUnwritable q.job.assignment = false)
    (keyed : ∀ stage, ∀ q ∈ producers stage, (Table.keys q.job.assignment).Nodup) : inputs.Legible producers := by
  rintro ⟨⟨⟨stage, qualifier⟩, name⟩, blob⟩ member q present same
  apply Assignment.legible_of_spelled (named stage q present) (keyed stage q present)
  apply Job.spelled_of_qualifierAccepts
  intro key text
  obtain ⟨q', present', same', written⟩ := source _ member
  obtain rfl : q = q' := List.inj_on_of_nodup_map (apart stage) present present' (same.trans same'.symm)
  have plain (j : Job) : ¬ j.MeetsUnwritable [(.str key, .str text)] := by
    simp [Job.meetsUnwritable_cons, Job.not_meetsUnwritable_nil, Value.isUnwritable]
  have picked := faithful.selects stage name [(.str key, .str text)] (by simp [Table.TextKeys])
    fun ⟨_, _, q, _, _, meets⟩ => plain q.job meets
  let asked (qualifier : String) : Bool := (qualifierPairs qualifier).get? key = some text
  have chosen : inputs.select stage name [(.str key, .str text)] = .ok (inputs.those stage name asked) := by
    refine ((select_cases distinct (fun _ => False) asked fun _ _ =>
      Or.inr ⟨Job.qualifierAccepts_text, id⟩).resolve_left ?_).1
    rintro ⟨_, _, _, bad⟩
    exact bad
  have here : (qualifier, blob) ∈ inputs.those stage name asked ↔ asked qualifier = true := mem_those member
  rw [← Except.ok.inj (picked.symm.trans chosen), producedBy, mem_those member, List.any_eq_true] at here
  simp only [asked, decide_eq_true_eq] at here
  rw [← accepts_iff_fits written (plain q.job), Job.qualifierAccepts_text, same, Except.ok.injEq, decide_eq_true_eq]
  constructor
  · intro accepted
    obtain ⟨q'', present'', same'', accepted''⟩ := here.2 accepted
    rwa [List.inj_on_of_nodup_map (apart stage) present present'' (same.trans same''.symm)]
  · intro accepted
    exact here.1 ⟨q, present, same, accepted⟩

/-- Steps pick among the inputs of their job by the same filters by which references select jobs if the jobs behind the
inputs have legible assignments. If the keys of each assignment are distinct, they do so only then. -/
theorem faithful_iff {σ : Type} [ArtifactStore σ] {store : σ} {refs : List ArtifactRef}
    (named : ∀ stage, ∀ q ∈ producers stage, Table.TextKeys q.job.assignment)
    (apart : ∀ stage, ((producers stage).map (·.job.qualifier)).Nodup)
    (resolved : resolve store producers refs = .ok inputs) :
    (inputs.Legible producers → inputs.Faithful producers) ∧
      ((∀ stage, ∀ q ∈ producers stage, (Table.keys q.job.assignment).Nodup) →
        inputs.Faithful producers → inputs.Legible producers) := by
  have distinct := resolve_nodup resolved
  constructor
  · intro legible
    exact legible.faithful named distinct (fun entry member => resolve_source resolved member) apart
  · intro keyed faithful
    exact faithful.legible named apart distinct (fun entry member => resolve_source resolved member) keyed

def builtFor (system : String) : JobRecord :=
  { job := { stage := "build", assignment := [(.str "os", .str system)] }, status := .succeeded }

/-- The jobs of the stages, when only programs for some systems are built. -/
def builtForAll (systems : List String) : String → List JobRecord
  | "build" => systems.map builtFor
  | _ => []

def programs (systems : List String) : Inputs :=
  systems.map fun system => (⟨(builtFor system).job.producer, "app"⟩, system.toUTF8.toList)

theorem builtForAll_textKeys (systems : List String) :
    ∀ stage, ∀ q ∈ builtForAll systems stage, Table.TextKeys q.job.assignment := by
  intro stage q member
  unfold builtForAll at member
  split at member
  · obtain ⟨system, _, rfl⟩ := List.mem_map.1 member
    simp [builtFor, Table.TextKeys]
  · cases member

theorem builtForAll_apart {systems : List String} (distinct : (systems.map fun s => (builtFor s).job.qualifier).Nodup) :
    ∀ stage, ((builtForAll systems stage).map (·.job.qualifier)).Nodup := by
  intro stage
  unfold builtForAll
  split
  · rwa [List.map_map]
  · exact List.nodup_nil

theorem builtForAll_legible {systems : List String}
    (legible : ∀ system ∈ systems, Assignment.Legible (builtFor system).job.assignment) (inputs : Inputs) :
    inputs.Legible (builtForAll systems) := by
  intro entry _ q member _
  unfold builtForAll at member
  split at member
  · obtain ⟨system, listed, rfl⟩ := List.mem_map.1 member
    exact legible system listed
  · cases member

theorem programs_faithful :
    resolve (MemoryStore.mk (programs ["linux", "mac os"])) (builtForAll ["linux", "mac os"])
        [{ stage := "build", name := "app" }] = .ok (programs ["linux", "mac os"]) ∧
      (programs ["linux", "mac os"]).Faithful (builtForAll ["linux", "mac os"]) := by
  have resolved : resolve (MemoryStore.mk (programs ["linux", "mac os"])) (builtForAll ["linux", "mac os"])
      [{ stage := "build", name := "app" }] = .ok (programs ["linux", "mac os"]) := by decide +kernel
  have agreement := faithful_iff (builtForAll_textKeys _) (builtForAll_apart (by decide +kernel)) resolved
  exact ⟨resolved, agreement.1 (builtForAll_legible (by decide +kernel) _)⟩

/-- A comma in a value: no step can pick the program by its system. -/
theorem comma_unread :
    (∀ stage, ∀ q ∈ builtForAll ["a,b"] stage, Table.TextKeys q.job.assignment) ∧
      (∀ stage, ((builtForAll ["a,b"] stage).map (·.job.qualifier)).Nodup) ∧
      resolve (MemoryStore.mk (programs ["a,b"])) (builtForAll ["a,b"]) [{ stage := "build", name := "app" }] =
        .ok (programs ["a,b"]) ∧
      (programs ["a,b"]).select "build" "app" [(.str "os", .str "a,b")] = .ok [] ∧
      (programs ["a,b"]).producedBy (builtForAll ["a,b"]) "build" "app" [(.str "os", .str "a,b")] =
        [("os=a\\,b", "a,b".toUTF8.toList)] :=
  ⟨builtForAll_textKeys _, builtForAll_apart (by decide +kernel), by decide +kernel, by decide +kernel,
    by decide +kernel⟩

end Inputs
end Conveyor

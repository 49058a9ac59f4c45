import Conveyor.Proofs.InputResolution
import Conveyor.Proofs.StoreRefinement

/-! Which inputs a job gets. References select jobs by their stage and their filter; what those jobs have stored is found
exactly if each reference selects some job and all that it selects have succeeded and stored enough, unless a number with
too many digits has to be written on the way. The inputs are then what has been stored, address by address. Otherwise the
first reference that lacks something says what. The store is only looked at. -/

namespace Conveyor

open Fallible

variable {σ σ' : Type} [ArtifactStore σ] [ArtifactStore σ']

namespace ArtifactRef

/-- A job of the stage that has, for each entry of the filter, a value with the same text. -/
def Selects (producers : String → List JobRecord) (r : ArtifactRef) (q : JobRecord) : Prop :=
  q ∈ producers r.stage ∧
    ∀ entry ∈ r.filter, ∃ value, q.job.matrix.get? entry.1 = some value ∧ value.text = entry.2.text

def Holds (store : σ) (r : ArtifactRef) (q : JobRecord) : Prop :=
  ∃ blob, ArtifactStore.get? store ⟨q.job.producer, r.name⟩ = some blob

/-- With a filter a reference needs the name from each job that it selects, and without one from some job. -/
structure Available (store : σ) (producers : String → List JobRecord) (r : ArtifactRef) : Prop where
  matched : ∃ q, r.Selects producers q
  succeeded : ∀ q, r.Selects producers q → q.status = .succeeded
  each : r.filter ≠ [] → ∀ q, r.Selects producers q → r.Holds store q
  any : r.filter = [] → ∃ q, r.Selects producers q ∧ r.Holds store q

variable {store : σ} {producers : String → List JobRecord} {r : ArtifactRef} {q : JobRecord}

theorem mem_selected : q ∈ r.selected producers ↔ r.Selects producers q := by
  rw [selected, List.mem_filter, Job.fits, List.all_eq_true]
  simp only [beq_iff_eq, Option.map_eq_some_iff, Selects]

theorem piece_ne_none : r.piece store q ≠ none ↔ r.Holds store q := by
  rw [Holds, ← Option.ne_none_iff_exists', piece, ne_eq, ne_eq, Option.map_eq_none_iff]

theorem supplied_ne_nil : r.supplied store producers ≠ [] ↔ ∃ q, r.Selects producers q ∧ r.Holds store q := by
  simp only [supplied, ne_eq, List.filterMap_eq_nil_iff, not_forall, piece_ne_none, mem_selected, exists_prop]

theorem met_iff : r.Met store producers ↔ r.Available store producers ∧ r.Readable producers := by
  constructor
  · rintro ⟨compared, serves, some⟩
    obtain ⟨q, selected, holds⟩ := supplied_ne_nil.1 some
    refine ⟨⟨⟨q, selected⟩, fun q selected => (serves q (mem_selected.2 selected)).succeeded, ?_,
      fun _ => ⟨q, selected, holds⟩⟩, compared, fun q member => (serves q member).named⟩
    intro filtered q selected
    exact piece_ne_none.1 ((serves q (mem_selected.2 selected)).complete (by simpa using filtered))
  · rintro ⟨⟨⟨q, selected⟩, succeeded, each, any⟩, compared, named⟩
    refine ⟨compared, fun q member => ⟨named q member, succeeded q (mem_selected.1 member), ?_⟩, supplied_ne_nil.2 ?_⟩
    · intro filtered
      exact piece_ne_none.2 (each (by simpa using filtered) q (mem_selected.1 member))
    · by_cases filtered : r.filter = []
      · exact any filtered
      · exact ⟨q, selected, each filtered q selected⟩

theorem Lacking.not_available {missing : MissingArtifact} (lacking : r.Lacking store producers missing) :
    ¬ r.Available store producers := by
  rintro ⟨⟨q, selected⟩, succeeded, each, any⟩
  cases lacking with
  | unmatched none => simpa [none] using mem_selected.2 selected
  | unfinished member status => exact status (succeeded _ (mem_selected.1 member))
  | withheld member filtered absent =>
    exact piece_ne_none.2 (each (by simpa using filtered) _ (mem_selected.1 member)) absent
  | nowhere absent =>
    refine supplied_ne_nil.2 ?_ absent
    by_cases filtered : r.filter = []
    · exact any filtered
    · exact ⟨q, selected, each filtered q selected⟩

theorem mem_keys_supplied {key : ArtifactKey} : key ∈ (r.supplied store producers).keys ↔
    ∃ q, r.Selects producers q ∧ r.Holds store q ∧ key = ⟨⟨r.stage, q.job.qualifier⟩, r.name⟩ := by
  rw [Table.mem_keys_iff]
  constructor
  · rintro ⟨blob, member⟩
    obtain ⟨q, selected, stored⟩ := List.mem_filterMap.1 member
    obtain ⟨blob', held, same⟩ := Option.map_eq_some_iff.1 stored
    cases same
    exact ⟨q, mem_selected.1 selected, ⟨blob, held⟩, rfl⟩
  · rintro ⟨q, selected, ⟨blob, held⟩, rfl⟩
    exact ⟨blob, List.mem_filterMap.2 ⟨q, mem_selected.2 selected, by rw [piece, held]; rfl⟩⟩

end ArtifactRef

/-! ### Looking -/

namespace StoreCall

def performAll (store : σ) (calls : List StoreCall) : σ := calls.foldl (fun store call => (call.perform store).2) store

theorem perform_get (store : σ) (key : ArtifactKey) : ((StoreCall.get key).perform store).2 = store := by
  rw [perform]
  split <;> rfl

theorem performAll_get (store : σ) (keys : List ArtifactKey) : performAll store (keys.map .get) = store := by
  induction keys with
  | nil => rfl
  | cons key keys ih => rwa [List.map_cons, performAll, List.foldl_cons, perform_get]

theorem perform_get_inj {store : σ} {other : σ'} {key : ArtifactKey}
    (same : ((StoreCall.get key).perform other).1 = ((StoreCall.get key).perform store).1) :
    ArtifactStore.get? other key = ArtifactStore.get? store key := by
  rw [perform, perform] at same
  cases first : ArtifactStore.get? other key with
  | none =>
    cases second : ArtifactStore.get? store key with
    | none => rfl
    | some blob =>
      rw [first, second] at same
      cases same
  | some blob =>
    cases second : ArtifactStore.get? store key with
    | none =>
      rw [first, second] at same
      cases same
    | some blob' =>
      rw [first, second] at same
      cases same
      rfl

theorem answers_get {store : σ} {other : σ'} {keys : List ArtifactKey}
    (same : answers other (keys.map .get) = answers store (keys.map .get)) :
    ∀ key ∈ keys, ArtifactStore.get? other key = ArtifactStore.get? store key := by
  induction keys with
  | nil => exact List.forall_mem_nil _
  | cons key keys ih =>
    rw [List.map_cons, answers, answers, perform_get, perform_get] at same
    obtain ⟨here, rest⟩ := List.cons.inj same
    exact List.forall_mem_cons.2 ⟨perform_get_inj here, ih rest⟩

end StoreCall

namespace Inputs

/-- The lookups of a search: each job that a reference selects is asked for the name. -/
def lookups (producers : String → List JobRecord) (refs : List ArtifactRef) : List StoreCall :=
  (refs.flatMap fun r => (r.selected producers).map fun q => ⟨q.job.producer, r.name⟩).map .get

/-- What is offered for the inputs, in the order of the references and of the jobs that they select. -/
def offers (store : σ) (producers : String → List JobRecord) (refs : List ArtifactRef) : Inputs :=
  refs.flatMap fun r => r.supplied store producers

/-- The search for inputs gives what the references ask for, and nothing else. -/
structure Exact (store : σ) (producers : String → List JobRecord) (refs : List ArtifactRef) : Prop where
  found : Succeeds (resolve store producers refs) ↔
    ∀ r ∈ refs, r.Available store producers ∧ r.Readable producers
  keys : ∀ inputs, resolve store producers refs = .ok inputs → inputs.keys.Nodup ∧ ∀ key, key ∈ inputs.keys ↔
    ∃ r ∈ refs, ∃ q, r.Selects producers q ∧ r.Holds store q ∧ key = ⟨⟨r.stage, q.job.qualifier⟩, r.name⟩
  /-- Of several jobs with one address the last one counts. -/
  blobs : ∀ inputs, resolve store producers refs = .ok inputs → ∀ key blob, inputs.get? key = some blob ↔
    ∃ before after, offers store producers refs = before ++ (key, blob) :: after ∧ key ∉ Table.keys after
  /-- If all jobs are filed under their stages, addresses are those of the store. -/
  stored : (∀ r ∈ refs, ∀ q ∈ producers r.stage, q.job.stage = r.stage) → ∀ inputs,
    resolve store producers refs = .ok inputs → ∀ key ∈ inputs.keys, inputs.get? key = ArtifactStore.get? store key
  missing : ∀ missing, resolve store producers refs = .error (.missing missing) → ∃ before r after,
    refs = before ++ r :: after ∧ (∀ other ∈ before, other.Available store producers) ∧
      ¬ r.Available store producers ∧ r.Lacking store producers missing
  /-- The search breaks off only where something has to be written that cannot be, and always there. -/
  garbled : ∀ fault, resolve store producers refs = .error (.unusable fault) ↔ fault = .unwritable ∧
    ∃ before r after, refs = before ++ r :: after ∧
      (∀ other ∈ before, other.Available store producers ∧ other.Readable producers) ∧ r.Garbled store producers
  /-- All that is read of a store is its answers to the lookups. -/
  looked : ∀ {σ' : Type} [ArtifactStore σ'] (other : σ'),
    StoreCall.answers other (lookups producers refs) = StoreCall.answers store (lookups producers refs) →
      resolve other producers refs = resolve store producers refs
  unchanged : StoreCall.performAll store (lookups producers refs) = store

variable {store : σ} {producers : String → List JobRecord} {refs : List ArtifactRef} {inputs : Inputs}

theorem resolve_available : (∀ r ∈ refs, r.Met store producers) ↔
    ∀ r ∈ refs, r.Available store producers ∧ r.Readable producers :=
  forall₂_congr fun _ _ => ArtifactRef.met_iff

theorem resolve_succeeds :
    Succeeds (resolve store producers refs) ↔ ∀ r ∈ refs, r.Available store producers ∧ r.Readable producers := by
  rw [← resolve_available]
  constructor
  · rintro ⟨inputs, resolved⟩
    exact (resolve_ok.1 resolved).1
  · intro met
    exact ⟨_, resolve_ok.2 ⟨met, rfl⟩⟩

theorem mem_keys_offers {key : ArtifactKey} : key ∈ (offers store producers refs).keys ↔
    ∃ r ∈ refs, ∃ q, r.Selects producers q ∧ r.Holds store q ∧ key = ⟨⟨r.stage, q.job.qualifier⟩, r.name⟩ := by
  simp only [offers, Table.keys, List.map_flatMap, List.mem_flatMap, ← ArtifactRef.mem_keys_supplied]

theorem mem_offers (filed : ∀ r ∈ refs, ∀ q ∈ producers r.stage, q.job.stage = r.stage) {key : ArtifactKey}
    {blob : Blob} (member : (key, blob) ∈ offers store producers refs) : ArtifactStore.get? store key = some blob := by
  obtain ⟨r, listed, supplied⟩ := List.mem_flatMap.1 member
  obtain ⟨q, selected, stored⟩ := List.mem_filterMap.1 supplied
  obtain ⟨_, held, same⟩ := Option.map_eq_some_iff.1 stored
  cases same
  rwa [Job.producer, filed r listed q (List.mem_of_mem_filter selected)] at held

/-- The inputs of a job are found if and only if the jobs that its references select have done their part and nothing on
the way has too many digits to be written. They are what those jobs have stored, each under the address of its job; if
something is missing, the first reference that lacks it says what. The store is asked for the names, and is left as it
is. -/
theorem resolve_exact (store : σ) (producers : String → List JobRecord) (refs : List ArtifactRef) :
    Exact store producers refs where
  found := resolve_succeeds
  keys inputs resolved := by
    obtain ⟨_, rfl⟩ := resolve_ok.1 resolved
    refine ⟨Table.nodup_keys_ofPairs (Table.exact _), ?_⟩
    intro key
    rw [Table.mem_keys_ofPairs (Table.exact _)]
    exact mem_keys_offers
  blobs inputs resolved key blob := by
    obtain ⟨_, rfl⟩ := resolve_ok.1 resolved
    exact Table.get?_ofPairs_last (Table.exact _) (Key.exact key)
  stored filed inputs resolved key listed := by
    obtain ⟨_, rfl⟩ := resolve_ok.1 resolved
    obtain ⟨blob, found⟩ := Option.isSome_iff_exists.1 ((Table.has_iff (Key.exact key)).2 listed)
    have offered := Table.mem_ofPairs (Table.exact _) (Table.mem_of_get? (Key.exact key) found)
    rw [found, mem_offers filed offered]
  missing missing failed := by
    obtain ⟨before, r, after, split, met, lacking⟩ := resolve_lacking failed
    exact ⟨before, r, after, split, fun other member => (resolve_available.1 met other member).1,
      lacking.not_available, lacking⟩
  garbled fault := by
    constructor
    · intro failed
      obtain ⟨rfl, before, r, after, split, met, garbled⟩ := resolve_garbled failed
      exact ⟨rfl, before, r, after, split, resolve_available.1 met, garbled⟩
    · rintro ⟨rfl, before, r, after, rfl, met, garbled⟩
      exact resolve_breaks (resolve_available.2 met) garbled after
  looked other same := by
    have agree := StoreCall.answers_get same
    apply resolve_congr
    · intro _ _
      rfl
    · intro r listed q selected
      exact agree _ (List.mem_flatMap.2 ⟨r, listed, List.mem_map_of_mem selected⟩)
  unchanged := StoreCall.performAll_get store _

/-- A reference that asks for a number with too many digits: nothing has been stored at all, and yet it is not said that
anything is missing. -/
theorem immense_filter_breaks_off :
    let built : JobRecord :=
      { job := { stage := "build", assignment := [(.str "version", .int 1)] }, status := .succeeded }
    let asked : ArtifactRef :=
      { stage := "build", name := "app", matrix := some [(.str "version", .int (.ofNat (Nat.pow 10 5000)))] }
    ¬ asked.Available ({} : MemoryStore) (fun _ => [built]) ∧
      resolve ({} : MemoryStore) (fun _ => [built]) [asked] = .error (.unusable .unwritable) := by
  intro built asked
  refine ⟨fun available => ?_, by decide +kernel⟩
  obtain ⟨q, selected⟩ := available.matched
  obtain ⟨blob, held⟩ := available.each (List.cons_ne_nil _ _) q selected
  cases held

end Inputs
end Conveyor

import Conveyor.Proofs.EngineRuns

/-! Plants: sites of work with a store in memory. The site learns nothing of the store but what it is asked: which job to
start, with which inputs, and which to stop. Two plants agree for some jobs if they differ at most in what they have
stored for other producers. -/

namespace Conveyor

/-- What there is to a world beside its store: a clock, and workers that take requests and can be waited for. -/
class Site (ω : Type) where
  now : ω → Double
  accept : ω → Request → ω
  await : ω → Option Double → Shift ω
  refuses : ω → Double → Bool := fun _ _ => false

instance {ω : Type} [World ω] : Site ω := ⟨World.now, World.accept, World.await, World.refuses⟩

/-- A site with a store in memory, and all that has been asked of it. -/
structure Plant (ω : Type) where
  site : ω
  store : MemoryStore := {}
  heard : List Request := []

namespace Plant

variable {ω : Type} [Site ω]

instance : World (Plant ω) where
  put w key blob := (w.store.put key blob).map fun (entry, store) => (entry, { w with store })
  get? w := w.store.get?
  discard w producer := { w with store := w.store.discard producer }
  entries w := w.store.entries
  now w := Site.now w.site
  accept w request := { w with site := Site.accept w.site request, heard := w.heard ++ [request] }
  await w limit :=
    let shift := Site.await w.site limit
    { world := { w with site := shift.world }, told := shift.told, finished := shift.finished }
  refuses w := Site.refuses w.site

theorem put_eq (w : Plant ω) (key : ArtifactKey) (blob : Blob) :
    ArtifactStore.put w key blob = (w.store.put key blob).map fun (entry, store) => (entry, { w with store }) := rfl

theorem put_free {w : Plant ω} {key : ArtifactKey} (free : w.store.get? key = none) (blob : Blob) :
    ∃ store : MemoryStore, ArtifactStore.put w key blob = .ok (.of key blob, { w with store }) ∧
      ∀ other, store.get? other = if other = key then some blob else w.store.get? other := by
  obtain ⟨store, put, contents⟩ := MemoryStore.get?_put free blob
  exact ⟨store, by rw [put_eq, put]; rfl, contents⟩

theorem put_occupied {w : Plant ω} {key : ArtifactKey} (taken : w.store.get? key ≠ none) (blob : Blob) :
    ArtifactStore.put w key blob = .error (.occupied key) := by
  rw [put_eq, MemoryStore.put_occupied taken]
  rfl

theorem keeps : World.Keeps (Plant ω) where
  free w key blob free := by
    obtain ⟨store, put, contents⟩ := put_free free blob
    exact ⟨{ w with store }, put, contents⟩
  occupied _ _ blob taken := put_occupied taken blob
  discarded w := w.store.get?_discard
  accepted _ _ _ := rfl
  awaited _ _ _ := rfl

theorem discardAll_eq (jobs : List Job) (w : Plant ω) : ∃ store, Engine.discardAll jobs w = { w with store } := by
  unfold Engine.discardAll
  induction jobs generalizing w with
  | nil => exact ⟨w.store, rfl⟩
  | cons job jobs ih => exact ih { w with store := w.store.discard job.producer }

/-- Two plants that differ at most in what they have stored for others than some jobs. -/
structure Agrees (jobs : List Job) (w w' : Plant ω) : Prop where
  site : w'.site = w.site
  heard : w'.heard = w.heard
  stored : ∀ job ∈ jobs, ∀ name, w'.store.get? ⟨job.producer, name⟩ = w.store.get? ⟨job.producer, name⟩

namespace Agrees

variable {jobs : List Job} {w w' : Plant ω}

theorem put (agrees : w.Agrees jobs w') {job : Job} (member : job ∈ jobs) (name : String) (blob : Blob) :
    (∃ fault, ArtifactStore.put w ⟨job.producer, name⟩ blob = .error fault ∧
      ArtifactStore.put w' ⟨job.producer, name⟩ blob = .error fault) ∨
    ∃ entry, ∃ v v' : Plant ω, ArtifactStore.put w ⟨job.producer, name⟩ blob = .ok (entry, v) ∧
      ArtifactStore.put w' ⟨job.producer, name⟩ blob = .ok (entry, v') ∧ v.Agrees jobs v' := by
  have same := agrees.stored job member name
  by_cases free : w.store.get? ⟨job.producer, name⟩ = none
  · obtain ⟨store, put, contents⟩ := put_free free blob
    obtain ⟨store', put', contents'⟩ := put_free (same.trans free) blob
    refine Or.inr ⟨_, _, _, put, put', agrees.site, agrees.heard, ?_⟩
    intro other listed title
    rw [contents, contents', agrees.stored other listed title]
  · exact Or.inl ⟨_, put_occupied free blob, put_occupied (same ▸ free) blob⟩

theorem accept (agrees : w.Agrees jobs w') (request : Request) :
    (World.accept w request).Agrees jobs (World.accept w' request) := by
  refine ⟨?_, ?_, agrees.stored⟩
  · exact congrArg (Site.accept · request) agrees.site
  · exact congrArg (· ++ [request]) agrees.heard

theorem acceptAll (agrees : w.Agrees jobs w') (requests : List Request) :
    (requests.foldl World.accept w).Agrees jobs (requests.foldl World.accept w') := by
  induction requests generalizing w w' with
  | nil => exact agrees
  | cons request requests ih => exact ih (agrees.accept request)

theorem now (agrees : w.Agrees jobs w') : World.now w' = World.now w := congrArg Site.now agrees.site

theorem refuses (agrees : w.Agrees jobs w') : World.refuses w' = World.refuses w :=
  congrArg Site.refuses agrees.site

theorem await (agrees : w.Agrees jobs w') (limit : Option Double) :
    (World.await w' limit).told = (World.await w limit).told ∧
      (World.await w' limit).finished = (World.await w limit).finished ∧
      (World.await w limit).world.Agrees jobs (World.await w' limit).world := by
  have same : Site.await w'.site limit = Site.await w.site limit := congrArg (Site.await · limit) agrees.site
  have told := congrArg Shift.told same
  have finished := congrArg Shift.finished same
  exact ⟨told, finished, congrArg Shift.world same, agrees.heard, agrees.stored⟩

/-- Once the artifacts of the jobs have been removed, it does not matter what was stored. -/
theorem discardAll (jobs : List Job) (site : ω) (heard : List Request) (store store' : MemoryStore) :
    Agrees jobs (Engine.discardAll jobs { site, heard, store } : Plant ω)
      (Engine.discardAll jobs { site, heard, store := store' }) := by
  have empty (start : MemoryStore) (job : Job) (member : job ∈ jobs) (name : String) :
      (Engine.discardAll jobs ({ site, heard, store := start } : Plant ω)).store.get? ⟨job.producer, name⟩ = none := by
    have removed := Engine.get?_discardAll keeps jobs ({ site, heard, store := start } : Plant ω) ⟨job.producer, name⟩
    rwa [if_pos (List.mem_map_of_mem member)] at removed
  obtain ⟨last, first⟩ := discardAll_eq jobs ({ site, heard, store } : Plant ω)
  obtain ⟨last', second⟩ := discardAll_eq jobs ({ site, heard, store := store' } : Plant ω)
  refine ⟨by rw [first, second], by rw [first, second], ?_⟩
  intro job member name
  rw [empty store job member name, empty store' job member name]

end Agrees
end Plant
end Conveyor

import Conveyor.Proofs.EngineRuns
import Conveyor.Proofs.InputSelection
import Conveyor.Proofs.PublishedArtifacts
import Conveyor.Proofs.TemplateRendering

/-! Jobs that consume whole stages. If the references of a stage have no filter, and no name on either side has a
template, the check of the pipeline settles what the jobs of the stage get: none of them ever lacks an input, and each
starts with what every job of the producing stages has handed over. -/

namespace Conveyor

open Fallible

theorem Validation.isLiteral_iff {text : String} :
    Validation.isLiteral text = true ↔ Template.textNames text = [] := List.isEmpty_iff

/-- A name that is consumed without templates is produced, if the producing stage has no templates in its names. -/
theorem Validation.consumeProblems_produced {p : Pipeline} {s t : Stage} {ancestors : List String} {r : ArtifactRef}
    (clean : consumeProblems p s ancestors r = .ok []) (found : p.stage? r.stage = some t)
    (literal : isLiteral r.name = true) (names : ∀ name ∈ t.produces, isLiteral name = true) : r.name ∈ t.produces := by
  by_contra unpublished
  have known : ¬ (!ancestors.contains r.stage) = true := by simpa using consumeProblems_nil clean
  have offends : isUnpublished t r = true := by
    simpa [isUnpublished, literal, unpublished] using names
  simp only [consumeProblems, if_neg known, found] at clean
  obtain ⟨_, _, rest⟩ := bind_ok.1 clean
  obtain ⟨_, _, rest⟩ := bind_ok.1 rest
  obtain ⟨problems, written, same⟩ := bind_ok.1 rest
  cases (List.append_eq_nil_iff.1 (Except.ok.inj same)).2
  rw [nameProblems, if_pos offends] at written
  exact consumeProblem_ne_nil _ _ _ written

/-- A stage that consumes whole stages: its references have no filter, and there are no templates in their names and in
those of the stages that they name. -/
def Pipeline.ConsumesWhole (p : Pipeline) (s : Stage) : Prop :=
  ∀ r ∈ s.consumes, r.filter = [] ∧ Validation.isLiteral r.name = true ∧
    ∀ t ∈ p.stages, t.name = r.stage → ∀ name ∈ t.produces, Validation.isLiteral name = true

namespace RunGraph

/-- A job comes from the stage of its name, as the pipeline declares it but for the variables. -/
theorem build_origin {p : Pipeline} {context : Option Context} {g : RunGraph} (built : build p context = .ok g)
    {job : Job} (member : job ∈ g.allJobs) {t : Stage} (declared : t ∈ p.stages) (name : job.stage = t.name) :
    ∃ index combination, ({ t with env := envOf p t } : Stage).job context index combination = .ok job := by
  have ordered := (build_populated built).ordered
  have stages := (StageGraph.build_ordered (build_graph built)).1
  obtain ⟨i, s, _, stage, own, named⟩ := (build_populated built).home member
  obtain ⟨index, combination, made⟩ := (Stage.expand_ok (build_expanded built i s stage)).2 job own
  obtain ⟨u, place, same⟩ := layered_stage (stages ▸ stage)
  obtain ⟨k, place'⟩ := List.mem_iff_getElem?.1 declared
  have names : (g.graph.stages.map (·.name))[k]? = some t.name := by
    rw [stages, layered_map p (·.name) fun _ _ => rfl, List.getElem?_map, place']
    rfl
  obtain ⟨s', stage', name'⟩ := Option.map_eq_some_iff.1 ((List.getElem?_map ..).symm.trans names)
  cases ordered.unique stage stage' (named.symm.trans (name.trans name'.symm))
  cases place.symm.trans place'
  exact ⟨index, combination, same ▸ made⟩

/-- The jobs of a stage that consumes whole stages name the artifacts that the stage names, and all jobs of the stages
that these come from declare them. -/
theorem consumes_whole {α : Type} {executors : Registry α} {p : Pipeline} {context : Option Context} {g : RunGraph}
    (valid : Validation.check executors p = .ok ()) (built : build p context = .ok g) {s : Stage}
    (declared : s ∈ p.stages) (whole : p.ConsumesWhole s) {job : Job} (member : job ∈ g.allJobs)
    (name : job.stage = s.name) :
    (job.consumes = s.consumes.map fun r => { stage := r.stage, name := r.name }) ∧
      ∀ r ∈ s.consumes, ∀ other ∈ g.allJobs, other.stage = r.stage → r.name ∈ other.produces := by
  obtain ⟨own, graph, _, _, clean⟩ := Validation.check_ok valid
  have stages := (StageGraph.build_ordered graph).1
  obtain ⟨i, place⟩ := List.mem_iff_getElem?.1 declared
  have problems := (Validation.allStageProblems_nil (clean i s (stages ▸ place))).2
  obtain ⟨index, combination, made⟩ := build_origin built member declared name
  constructor
  · apply Stage.job_consumes made
    intro r listed
    obtain ⟨unfiltered, literal, _⟩ := whole r listed
    exact ⟨Validation.isLiteral_iff.1 literal, unfiltered⟩
  · intro r listed other inside source
    obtain ⟨_, literal, names⟩ := whole r listed
    obtain ⟨n, u, _, stage, _, named⟩ := (build_populated built).home inside
    have shared : u.name ∈ p.stages.map (·.name) := by
      rw [← layered_map p (·.name) fun _ _ => rfl, ← (StageGraph.build_ordered (build_graph built)).1]
      exact List.mem_map_of_mem (List.mem_of_getElem? stage)
    obtain ⟨v, listed', same⟩ := List.mem_map.1 shared
    have some : (p.stage? r.stage).isSome = true := by
      rw [Pipeline.stage?, List.find?_isSome]
      exact ⟨v, listed', by simp [same, ← named, source]⟩
    obtain ⟨t, found⟩ := Option.isSome_iff_exists.1 some
    have called : t.name = r.stage := by simpa using List.find?_some found
    have offered : ∀ name ∈ t.produces, Validation.isLiteral name = true :=
      names t (List.mem_of_find?_eq_some found) called
    obtain ⟨_, _, made'⟩ := build_origin built inside (List.mem_of_find?_eq_some found) (source.trans called.symm)
    rw [Stage.job_produces made' fun name present => Validation.isLiteral_iff.1 (offered name present)]
    exact Validation.consumeProblems_produced (t := t) (problems r listed) found literal offered

end RunGraph

/-- If all jobs of the stages that references name have succeeded and have stored what is asked for, the search for
inputs finds what each of them has stored, and nothing else. -/
theorem Inputs.resolve_whole {σ : Type} [ArtifactStore σ] {store : σ} {producers : String → List JobRecord}
    {refs : List ArtifactRef} (unfiltered : ∀ r ∈ refs, r.filter = []) (some : ∀ r ∈ refs, producers r.stage ≠ [])
    (named : ∀ r ∈ refs, ∀ q ∈ producers r.stage, Value.anyEntryUnwritable q.job.assignment = false)
    (own : ∀ r ∈ refs, ∀ q ∈ producers r.stage, q.job.stage = r.stage ∧ q.status = .succeeded ∧
      ArtifactStore.get? store ⟨q.job.producer, r.name⟩ ≠ none) :
    ∃ inputs, Inputs.resolve store producers refs = .ok inputs ∧
      (∀ r ∈ refs, ∀ q ∈ producers r.stage, inputs.get? ⟨q.job.producer, r.name⟩ =
        ArtifactStore.get? store ⟨q.job.producer, r.name⟩) ∧
      ∀ entry ∈ inputs, ∃ r ∈ refs, ∃ q ∈ producers r.stage, entry.1 = ⟨q.job.producer, r.name⟩ := by
  have selected {r : ArtifactRef} (member : r ∈ refs) : r.selected producers = producers r.stage := by
    rw [ArtifactRef.selected, List.filter_eq_self]
    intro q _
    rw [unfiltered r member]
    rfl
  have piece {r : ArtifactRef} (member : r ∈ refs) {q : JobRecord} (present : q ∈ producers r.stage) {blob : Blob}
      (stored : ArtifactStore.get? store ⟨q.job.producer, r.name⟩ = Option.some blob) :
      r.piece store q = Option.some (⟨q.job.producer, r.name⟩, blob) := by
    rw [ArtifactRef.piece, stored, Job.producer, (own r member q present).1]
    rfl
  have listed {entry : ArtifactKey × Blob} : entry ∈ (refs.flatMap fun r => r.supplied store producers) ↔
      ∃ r ∈ refs, ∃ q ∈ producers r.stage, entry.1 = ⟨q.job.producer, r.name⟩ ∧
        ArtifactStore.get? store entry.1 = Option.some entry.2 := by
    rw [List.mem_flatMap]
    apply exists_congr
    intro r
    apply and_congr_right
    intro member
    rw [ArtifactRef.supplied, selected member, List.mem_filterMap]
    apply exists_congr
    intro q
    apply and_congr_right
    intro present
    constructor
    · intro found
      obtain ⟨blob, stored⟩ := Option.ne_none_iff_exists'.1 (own r member q present).2.2
      cases (piece member present stored).symm.trans found
      exact ⟨rfl, stored⟩
    · obtain ⟨key, blob⟩ := entry
      rintro ⟨rfl, stored⟩
      exact piece member present stored
  refine ⟨_, Inputs.resolve_ok.2 ⟨?_, rfl⟩, ?_, ?_⟩
  · intro r member
    refine ⟨?_, ?_, ?_⟩
    · rw [unfiltered r member]
      exact fun q _ => Job.not_stumbles_nil
    · rw [selected member]
      refine fun q present => ⟨named r member q present, (own r member q present).2.1, fun filtered => ?_⟩
      rw [unfiltered r member] at filtered
      cases filtered
    · obtain ⟨q, present⟩ := List.exists_mem_of_ne_nil _ (some r member)
      obtain ⟨blob, stored⟩ := Option.ne_none_iff_exists'.1 (own r member q present).2.2
      rw [ArtifactRef.supplied, selected member]
      exact List.ne_nil_of_mem (List.mem_filterMap.2 ⟨q, present, piece member present stored⟩)
  · intro r member q present
    obtain ⟨blob, stored⟩ := Option.ne_none_iff_exists'.1 (own r member q present).2.2
    rw [stored]
    apply Table.get?_ofPairs (Table.exact _) (listed.2 ⟨r, member, q, present, rfl, stored⟩)
    intro other again
    obtain ⟨_, _, _, _, _, stored'⟩ := listed.1 again
    exact Option.some.inj (stored'.symm.trans stored)
  · intro entry member
    obtain ⟨r, inside, q, present, key, _⟩ := listed.1 (Table.mem_ofPairs (Table.exact _) member)
    exact ⟨r, inside, q, present, key⟩

namespace Moment

open Coordinator

variable {ω : Type} [World ω] {m m' : Moment ω} {g : RunGraph} {roster : Roster ω}

theorem TakenIn.later {start : Moment ω} {j : Nat} {outcome : Outcome} (came : TakenIn start m j outcome)
    (step : Step m m') : TakenIn start m' j outcome := by
  obtain ⟨before, after, later, r, first, taken, rest, arrived, held, running⟩ := came
  exact ⟨before, after, later, r, first, taken, rest.tail step, arrived, held, running⟩

/-- What a job that has succeeded has in the store is what its worker handed over: all that it declares. -/
theorem Booked.handed {manner : Manner} {finds : Bool → Bool → Prop} (performs : roster.Performs manner finds)
    (populated : g.Populated) (distinct : g.DistinctKeys) {setup : Setup} (graph : setup.graph = g.graph) {w : ω}
    (vacant : roster.postings w = []) {j : Nat} {r : JobRecord} (found : m.coord.record? j = some r)
    (free : ∀ name, ArtifactStore.get? w ⟨r.job.producer, name⟩ = none)
    (booked : Booked w (TakenIn (Operation.start setup g w).moment m) m j r) (succeeded : r.status = .succeeded) :
    ∃ steps, ∃ artifacts : Table String Blob,
      TakenIn (Operation.start setup g w).moment m j (.succeeded steps artifacts) ∧
      (∀ name, ArtifactStore.get? m.world ⟨r.job.producer, name⟩ = artifacts.get? name) ∧
      ∀ name ∈ r.job.produces, artifacts.get? name ≠ none := by
  cases booked with
  | empty status => exact (status succeeded).elim
  | refused _ _ status => cases succeeded.symm.trans status
  | @stored steps artifacts came _ names _ single stocked =>
    obtain ⟨inputs, asked, ends⟩ := came.ends performs populated distinct graph vacant found
    refine ⟨steps, artifacts, came, ?_, ?_⟩
    · intro name
      rw [stocked.contents, free, Option.none_or]
      rw [names] at single
      exact Table.get?_perm single (inNameOrder_perm artifacts) (Key.exact name)
    · intro name declared
      rw [← Option.isSome_iff_ne_none]
      exact (Table.has_iff (Key.exact name)).2 (ends.declared name declared)

/-- The inputs that references to whole stages stand for: for each of them one blob from every job of its stage, the one
that the worker of this job handed over, and nothing else. -/
structure Served (start m : Moment ω) (refs : List ArtifactRef) (inputs : Inputs) : Prop where
  each : ∀ r ∈ refs, ∀ k q, m.coord.record? k = some q → q.job.stage = r.stage →
    ∃ steps, ∃ artifacts : Table String Blob, ∃ blob, TakenIn start m k (.succeeded steps artifacts) ∧
      artifacts.get? r.name = some blob ∧ inputs.get? ⟨q.job.producer, r.name⟩ = some blob
  only : ∀ entry ∈ inputs, ∃ r ∈ refs, ∃ k q, m.coord.record? k = some q ∧ q.job.stage = r.stage ∧
    entry.1 = ⟨q.job.producer, r.name⟩
  once : inputs.keys.Nodup

theorem Served.step {start : Moment ω} {refs : List ArtifactRef} {inputs : Inputs} (served : Served start m refs inputs)
    (step : Step m m') : Served start m' refs inputs := by
  refine ⟨?_, ?_, served.once⟩
  · intro r member k q found stage
    obtain ⟨q', found', evolves⟩ := step.evolved.source found
    rw [evolves.job] at stage ⊢
    obtain ⟨steps, artifacts, blob, came, handed, given⟩ := served.each r member k q' found' stage
    exact ⟨steps, artifacts, blob, came.later step, handed, given⟩
  · intro entry member
    obtain ⟨r, inside, k, q, found, stage, key⟩ := served.only entry member
    obtain ⟨q', found', evolves⟩ := step.evolved.record found
    exact ⟨r, inside, k, q', found', by rw [evolves.job, stage], by rw [evolves.job, key]⟩

theorem Step.ready_kept (step : Step m m') {j : Nat} {r r' : JobRecord} {inputs : Inputs}
    (found : m.coord.record? j = some r) (ready : r.status = .ready) (resolved : m.inputs r.job = .ok inputs)
    (found' : m'.coord.record? j = some r') : r'.status ≠ .failed := by
  have fate := step.fate_of found found'
  cases fate with
  | kept => simp [ready]
  | opened _ _ _ _ _ legal =>
    intro failed
    rcases m.coord.opening_cases _ _ with other | other
    · rw [JobRecord.moved_status, other] at failed
      cases failed
    · rw [JobRecord.moved_status, other] at failed
      cases failed
  | lacked _ lacking => cases resolved.symm.trans lacking
  | launched => simp
  | returned running => cases ready.symm.trans running
  | expired running => cases ready.symm.trans running
  | stopped => simp

/-- What a run through the store of its own jobs starts from: nothing of them is stored, and no worker is out. -/
structure Fresh (g : RunGraph) (roster : Roster ω) (w : ω) : Prop where
  free : ∀ key : ArtifactKey, key.producer ∈ g.allJobs.map Job.producer → ArtifactStore.get? w key = none
  vacant : roster.postings w = []

section

variable {α : Type} {executors : Registry α} {p : Pipeline} {context : Option Context} {setup : Setup} {w : ω}
  {manner : Manner} {finds : Bool → Bool → Prop} {s : Stage}

variable (valid : Validation.check executors p = .ok ()) (built : RunGraph.build p context = .ok g)
  (distinct : g.DistinctKeys) (producers : (g.allJobs.map Job.producer).Nodup) (keeps : World.Keeps ω)
  (performs : roster.Performs manner finds) (graph : setup.graph = g.graph) (fresh : Fresh g roster w)
  (declared : s ∈ p.stages) (whole : p.ConsumesWhole s)

include valid built distinct producers keeps performs graph fresh declared whole

theorem Path.served (path : Path (Operation.start setup g w).moment m) {j : Nat} {r : JobRecord}
    (found : m.coord.record? j = some r) (ready : r.status = .ready) (stage : r.job.stage = s.name) :
    ∃ inputs, m.inputs r.job = .ok inputs ∧ Served (Operation.start setup g w).moment m s.consumes inputs := by
  have populated := RunGraph.build_populated built
  obtain ⟨runs, barred⟩ := path.barred populated graph
  obtain ⟨_, _, booked⟩ := path.booked keeps distinct producers graph
  obtain ⟨named, publish⟩ := RunGraph.consumes_whole valid built declared whole (runs.job found) stage
  have cleared := barred j r found (by simp [JobRecord.Released, ready])
  have provisioned := RunGraph.build_provisioned valid built
  have referred {ref : ArtifactRef} (member : ref ∈ s.consumes) :
      ({ stage := ref.stage, name := ref.name } : ArtifactRef) ∈ r.job.consumes := by
    rw [named]
    exact List.mem_map_of_mem member
  -- The producing stages have succeeded, so each of their jobs has handed over all that it declares.
  have handed {ref : ArtifactRef} (member : ref ∈ s.consumes) {k : Nat} {q : JobRecord}
      (held : m.coord.record? k = some q) (source : q.job.stage = ref.stage) :
      q.status = .succeeded ∧ ∃ steps, ∃ artifacts : Table String Blob, ∃ blob,
        TakenIn (Operation.start setup g w).moment m k (.succeeded steps artifacts) ∧
        artifacts.get? ref.name = some blob ∧
        ArtifactStore.get? m.world ⟨q.job.producer, ref.name⟩ = some blob := by
    have succeeded := runs.producers_succeeded populated provisioned barred found cleared _ (referred member) q
      (mem_recordsOf.2 ⟨k, held, source⟩)
    obtain ⟨steps, artifacts, came, contents, complete⟩ := (booked k q held).handed performs populated distinct graph
      fresh.vacant held (fun name => fresh.free ⟨_, name⟩ (List.mem_map_of_mem (runs.job held))) succeeded
    obtain ⟨blob, given⟩ := Option.ne_none_iff_exists'.1
      (complete ref.name (publish ref member q.job (runs.job held) source))
    exact ⟨succeeded, steps, artifacts, blob, came, given, by rw [contents, given]⟩
  have unfiltered : ∀ ref ∈ r.job.consumes, ref.filter = [] := by
    rw [named, List.forall_mem_map]
    intro ref _
    rfl
  have some : ∀ ref ∈ r.job.consumes, m.coord.recordsOf ref.stage ≠ [] := by
    intro ref member
    obtain ⟨_, _, n, t, _, _, _, place, source, _⟩ := runs.source populated provisioned barred found cleared member
    obtain ⟨job, listed, home⟩ := populated.resident place
    rw [← runs.jobs] at listed
    obtain ⟨q, present, rfl⟩ := List.mem_map.1 listed
    obtain ⟨k, held⟩ := List.mem_iff_getElem?.1 present
    exact List.ne_nil_of_mem (mem_recordsOf.2 ⟨k, held, home.trans source⟩)
  have own : ∀ ref ∈ r.job.consumes, ∀ q ∈ m.coord.recordsOf ref.stage, q.job.stage = ref.stage ∧
      q.status = .succeeded ∧ ArtifactStore.get? m.world ⟨q.job.producer, ref.name⟩ ≠ none := by
    rw [named, List.forall_mem_map]
    intro ref member q present
    obtain ⟨k, held, source⟩ := mem_recordsOf.1 present
    obtain ⟨succeeded, _, _, _, _, _, stored⟩ := handed member held source
    exact ⟨source, succeeded, by simp [stored]⟩
  have written : ∀ ref ∈ r.job.consumes, ∀ q ∈ m.coord.recordsOf ref.stage,
      Value.anyEntryUnwritable q.job.assignment = false := by
    intro ref _ q present
    obtain ⟨k, held, _⟩ := mem_recordsOf.1 present
    exact RunGraph.build_written built _ (runs.job held)
  obtain ⟨inputs, resolved, each, only⟩ := Inputs.resolve_whole unfiltered some written own
  refine ⟨inputs, resolved, ?_, ?_, Inputs.resolve_nodup resolved⟩
  · intro ref member k q held source
    obtain ⟨_, steps, artifacts, blob, came, given, stored⟩ := handed member held source
    refine ⟨steps, artifacts, blob, came, given, ?_⟩
    rw [← stored]
    exact each _ (referred member) q (mem_recordsOf.2 ⟨k, held, source⟩)
  · intro entry member
    obtain ⟨ref, listed, q, present, key⟩ := only entry member
    rw [named] at listed
    obtain ⟨ref, inside, rfl⟩ := List.mem_map.1 listed
    obtain ⟨k, held, source⟩ := mem_recordsOf.1 present
    exact ⟨ref, inside, k, q, held, source, key⟩

/-- Workers of a stage that consumes whole stages are asked for with the inputs that its references stand for. -/
theorem Path.launch_served (path : Path (Operation.start setup g w).moment m) {slot : Nat} {worker : Worker}
    (asked : .launch slot worker ∈ m.coord.requests) (stage : worker.context.job.stage = s.name) :
    Served (Operation.start setup g w).moment m s.consumes worker.context.inputs := by
  induction path with
  | refl => cases asked
  | tail path step ih =>
    rcases step.launching asked with before | ⟨r, _, inputs, found, ready, resolved, rfl, _, _⟩
    · exact (ih before).step step
    · obtain ⟨_, again, served⟩ := Path.served valid built distinct producers keeps performs graph fresh declared whole
        path found ready stage
      cases again.symm.trans resolved
      exact served.step step

end

end Moment

namespace Engine

open Moment

variable {ω : Type} [World ω] {α : Type} {executors : Registry α} {settings : Settings} {processors : Nat} {p : Pipeline}
  {context : Context} {g : RunGraph} {world : ω}

/-- In every run of a valid pipeline whose jobs can be told apart, a ready job of a stage that consumes whole stages
finds its inputs and never fails for want of them. When it is started, it gets from every job of these stages what that
job has handed over, whatever the workers do. -/
theorem consumed_arrive (valid : Validation.check executors p = .ok ())
    (built : RunGraph.build p (some context) = .ok g) (distinct : g.DistinctKeys)
    (producers : (g.allJobs.map Job.producer).Nodup) (keeps : World.Keeps ω) (roster : Roster ω)
    (vacant : roster.postings world = []) {manner : Manner} {finds : Bool → Bool → Prop}
    (performs : roster.Performs manner finds) {s : Stage} (declared : s ∈ p.stages) (whole : p.ConsumesWhole s)
    {m : Moment ω} (reached : Path (opening settings processors g context world).moment m) :
    (∀ j r, m.coord.record? j = some r → r.job.stage = s.name → r.status = .ready →
      (∃ inputs, m.inputs r.job = .ok inputs) ∧
        ∀ m' r', Moment.Step m m' → m'.coord.record? j = some r' → r'.status ≠ .failed) ∧
    ∀ slot worker, .launch slot worker ∈ m.coord.requests → worker.context.job.stage = s.name →
      Served (opening settings processors g context world).moment m s.consumes worker.context.inputs := by
  -- What the store held for the jobs of the run has been removed before it begins.
  have fresh : Fresh g roster (discardAll g.allJobs world) := by
    refine ⟨fun key member => ?_, (postings_discardAll roster _ world).trans vacant⟩
    rw [get?_discardAll keeps, if_pos member]
  constructor
  · intro j r found stage ready
    obtain ⟨inputs, resolved, _⟩ := reached.served valid built distinct producers keeps performs rfl fresh declared
      whole found ready stage
    exact ⟨⟨inputs, resolved⟩, fun m' r' step found' => step.ready_kept found ready resolved found'⟩
  · intro slot worker asked stage
    exact reached.launch_served valid built distinct producers keeps performs rfl fresh declared whole asked stage

def depot : Workshop assembling :=
  { store := ⟨[(⟨{ stage := "build", qualifier := "os=linux" }, "app"⟩, [7])]⟩ }

/-- Whether a job of a stage is started in the turn after so many. -/
def startsAfter (stage : String) : Nat → Operation ω → Bool
  | 0, o =>
    match o.coord.resolveStages (World.now o.world) with
    | .error _ => false
    | .ok (opened, _) =>
      match opened.dispatch o.world (World.now o.world) with
      | .error _ => false
      | .ok (taken, _) => taken.requests.any fun
        | .launch _ worker => worker.context.job.stage = stage
        | .cancel _ => false
  | n + 1, o =>
    match o.turn with
    | .error _ => false
    | .ok (o, _) => startsAfter stage n o

theorem startsAfter_launches {stage : String} {n : Nat} {o : Operation ω} (starts : startsAfter stage n o = true) :
    ∃ m slot worker, Path o.moment m ∧ .launch slot worker ∈ m.coord.requests ∧
      worker.context.job.stage = stage := by
  fun_induction startsAfter stage n o with
  | case1 | case2 | case4 => cases starts
  | case3 o opened changed resolved taken count dispatched =>
    obtain ⟨request, listed, launch⟩ := List.any_eq_true.1 starts
    cases request with
    | cancel => cases launch
    | launch slot worker =>
      have first : Path o.moment ⟨opened, o.world, [], []⟩ := resolveStages_path _ (fun _ member => member) resolved
      have second : Path (⟨opened, o.world, [], []⟩ : Moment ω) ⟨taken, o.world, [], []⟩ :=
        dispatchFrom_path _ rfl dispatched
      exact ⟨_, slot, worker, first.trans second, listed, by simpa using launch⟩
  | case5 _ _ _ _ turn ih =>
    obtain ⟨m, slot, worker, onward, asked, job⟩ := ih starts
    exact ⟨m, slot, worker, (Operation.turn_path turn).1.trans onward, asked, job⟩

/-- The tests start with the programs that have just been built for both systems. -/
theorem release_arrives :
    let start := opening { maxWorkers := some 1 } 1 crossBuildGraph pushed depot
    ∃ m slot worker, Path start.moment m ∧ .launch slot worker ∈ m.coord.requests ∧
      worker.context.job.stage = "test" ∧
      Served start.moment m [{ stage := "build", name := "app" }] worker.context.inputs := by
  intro start
  have starts : startsAfter "test" 2 start = true := by decide +kernel
  obtain ⟨m, slot, worker, reached, asked, stage⟩ := startsAfter_launches starts
  have declared : release.stages.get ⟨1, by decide⟩ ∈ release.stages := List.get_mem _ _
  have whole : release.ConsumesWhole (release.stages.get ⟨1, by decide⟩) := by
    unfold Pipeline.ConsumesWhole
    decide +kernel
  have arrive := (consumed_arrive release_valid release_built crossBuild_distinct (by decide +kernel) Workshop.keeps
    Workshop.roster rfl Workshop.performs declared whole reached).2
  exact ⟨m, slot, worker, reached, asked, stage, arrive slot worker asked stage⟩

end Engine
end Conveyor

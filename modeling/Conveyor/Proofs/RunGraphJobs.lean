import Conveyor.Graph.Run
import Conveyor.Proofs.InputResolution
import Conveyor.Proofs.StageOrder

/-! The jobs of a run graph: every stage has at least one, all its jobs bear its name, which can be written, and they
consume from the stages that it declares. -/

namespace Conveyor

open Fallible

/-- A matrix that is accepted is empty, and then has the empty combination alone, or has plain values and at least one
combination. -/
theorem Matrix.combinations_ok {m : Matrix} {found : List Mapping} (done : m.combinations = .ok found) :
    (m.axes = [] ∧ m.included = [] ∧ found = [[]]) ∨
      (m.nonScalars = [] ∧ found = m.merged ∧ found ≠ [] ∧ checkDistinct [] found = .ok ()) := by
  unfold Matrix.combinations at done
  split at done
  next empty =>
    split at done
    next =>
      cases done
      exact Or.inl ⟨List.isEmpty_iff.1 empty.1, List.isEmpty_iff.1 empty.2, rfl⟩
    next => cases done
  next =>
    split at done
    next => cases done
    next =>
      split at done
      next => cases done
      next =>
        split at done
        next => cases done
        next scalars =>
          obtain ⟨_, _, rest⟩ := bind_ok.1 done
          simp only at rest
          split at rest
          next => cases rest
          next present =>
            obtain ⟨_, distinct, same⟩ := bind_ok.1 rest
            cases same
            exact Or.inr ⟨by simpa using scalars, rfl, by simpa using present, distinct⟩

/-- To tell combinations apart, their values are written. -/
theorem Matrix.checkDistinct_written {seen : List (List (Value × String))} {found : List Mapping}
    (done : checkDistinct seen found = .ok ()) : ∀ c ∈ found, ∀ field ∈ c, field.2.isUnwritable = false := by
  induction found generalizing seen with
  | nil => exact List.forall_mem_nil _
  | cons c found ih =>
    unfold checkDistinct at done
    split at done
    next => cases done
    next mark marked =>
      have short : (c.any fun field => field.2.isUnwritable) = false := by
        by_contra long
        rw [Bool.not_eq_false] at long
        rw [marker, long] at marked
        cases marked
      split at done
      next => split at done <;> cases done
      next => exact List.forall_mem_cons.2 ⟨by simpa using short, ih done⟩

namespace Stage

theorem combinations_written {s : Stage} {found : List Mapping} (done : s.combinations = .ok found) :
    ∀ c ∈ found, ∀ field ∈ c, field.2.isUnwritable = false := by
  unfold combinations at done
  split at done
  next =>
    cases done
    simp
  next =>
    rcases Matrix.combinations_ok (mapError_ok.1 done) with ⟨_, _, rfl⟩ | ⟨_, _, _, distinct⟩
    · simp
    · exact Matrix.checkDistinct_written distinct

theorem combinations_nonempty {s : Stage} {found : List Mapping} (done : s.combinations = .ok found) : found ≠ [] := by
  unfold combinations at done
  split at done
  next =>
    cases done
    simp
  next =>
    rcases Matrix.combinations_ok (mapError_ok.1 done) with ⟨_, _, rfl⟩ | ⟨_, _, some, _⟩
    · simp
    · exact some

theorem renderRef_stage {scope : Template.Scope} {declared ref : ArtifactRef}
    (done : renderRef scope declared = .ok ref) : ref.stage = declared.stage := by
  obtain ⟨_, _, rest⟩ := bind_ok.1 done
  obtain ⟨_, _, same⟩ := bind_ok.1 rest
  cases same
  rfl

section

variable {s : Stage} {context : Option Context} {index : Nat} {combination : Mapping} {job : Job}

/-- What a stage declares, with its templates replaced. -/
structure Renders (s : Stage) (scope : Template.Scope) (job : Job) : Prop where
  steps : s.steps.mapM (renderStep scope) = .ok job.steps
  consumes : s.consumes.mapM (renderRef scope) = .ok job.consumes
  produces : s.produces.mapM scope.text = .ok job.produces
  env : scope.fields s.env = .ok job.env

theorem job_made (done : s.job context index combination = .ok job) :
    s.Renders (.of combination context) job ∧
      job.stage = s.name ∧ job.index = index ∧ job.assignment = combination ∧ job.timeout = s.timeout := by
  obtain ⟨_, steps, rest⟩ := bind_ok.1 done
  obtain ⟨_, consumes, rest⟩ := bind_ok.1 rest
  obtain ⟨_, produces, rest⟩ := bind_ok.1 rest
  obtain ⟨_, env, rest⟩ := bind_ok.1 rest
  obtain ⟨_, _, same⟩ := bind_ok.1 rest
  cases same
  exact ⟨⟨steps, consumes, produces, env⟩, rfl, rfl, rfl, rfl⟩

/-- A job of a stage bears the stage's name, and its number, combination and limit. -/
theorem job_ok (done : s.job context index combination = .ok job) :
    job.stage = s.name ∧ job.index = index ∧ job.assignment = combination ∧ job.timeout = s.timeout ∧
      ∀ ref ∈ job.consumes, ∃ declared ∈ s.consumes, ref.stage = declared.stage := by
  obtain ⟨rendered, name, place, assignment, timeout⟩ := job_made done
  refine ⟨name, place, assignment, timeout, fun ref member => ?_⟩
  obtain ⟨declared, source, done⟩ := mapM_source rendered.consumes member
  exact ⟨declared, source, renderRef_stage done⟩

end

theorem expand_ok {s : Stage} {context : Option Context} {jobs : List Job} (done : s.expand context = .ok jobs) :
    jobs ≠ [] ∧ ∀ job ∈ jobs, ∃ index combination, s.job context index combination = .ok job := by
  obtain ⟨combinations, found, rest⟩ := bind_ok.1 done
  constructor
  · intro empty
    have sizes := mapM_length rest
    rw [empty, List.length_zipIdx] at sizes
    exact combinations_nonempty found (List.length_eq_zero_iff.1 sizes.symm)
  · intro job member
    obtain ⟨⟨combination, index⟩, _, made⟩ := mapM_source rest member
    simp only at made
    split at made
    next => cases made
    next => exact ⟨index, combination, mapError_ok.1 made⟩

/-- The name of a job can be written: numbers that are too long are found when the jobs are made. -/
theorem expand_written {s : Stage} {context : Option Context} {jobs : List Job} (done : s.expand context = .ok jobs)
    {job : Job} (member : job ∈ jobs) : Value.anyEntryUnwritable job.assignment = false := by
  obtain ⟨combinations, found, rest⟩ := bind_ok.1 done
  obtain ⟨⟨combination, index⟩, place, made⟩ := mapM_source rest member
  dsimp only at made
  split at made
  next => cases made
  next written =>
    obtain ⟨_, _, _, rfl, _⟩ := job_made (mapError_ok.1 made)
    rw [Bool.not_eq_true, List.any_eq_false] at written
    refine Value.anyEntryUnwritable_false.2 fun field present => ⟨?_, ?_⟩
    · exact Bool.eq_false_iff.2 (written _ (List.mem_map_of_mem present))
    · exact combinations_written found _ (List.fst_mem_of_mem_zipIdx place) field present

end Stage

namespace RunGraph

def Written (g : RunGraph) : Prop := ∀ job ∈ g.allJobs, Value.anyEntryUnwritable job.assignment = false

/-- A run graph with a complete order, whose stages all have jobs of their own. -/
structure Populated (g : RunGraph) : Prop where
  ordered : g.graph.Ordered
  peopled : ∀ i s, g.graph.stages[i]? = some s → g.jobsOf i ≠ []
  made : ∀ i s, g.graph.stages[i]? = some s → ∀ job ∈ g.jobsOf i,
    ∃ context index combination, s.job context index combination = .ok job

theorem build_graph {p : Pipeline} {context : Option Context} {g : RunGraph} (built : build p context = .ok g) :
    StageGraph.build (layered p) = .ok g.graph := by
  obtain ⟨graph, made, rest⟩ := bind_ok.1 built
  obtain ⟨jobs, _, same⟩ := bind_ok.1 rest
  cases same
  exact mapError_ok.1 made

theorem build_jobs {p : Pipeline} {context : Option Context} {g : RunGraph} (built : build p context = .ok g) :
    g.graph.stages.mapM (fun s => s.expand context) = .ok g.jobs := by
  obtain ⟨graph, _, rest⟩ := bind_ok.1 built
  obtain ⟨jobs, made, same⟩ := bind_ok.1 rest
  cases same
  exact made

theorem build_expanded {p : Pipeline} {context : Option Context} {g : RunGraph} (built : build p context = .ok g)
    (i : Nat) (s : Stage) (stage : g.graph.stages[i]? = some s) : s.expand context = .ok (g.jobsOf i) := by
  obtain ⟨jobs, place, made⟩ := mapM_place (build_jobs built) stage
  simp [jobsOf, place, made]

theorem build_populated {p : Pipeline} {context : Option Context} {g : RunGraph} (built : build p context = .ok g) :
    g.Populated := by
  have expanded := build_expanded built
  refine ⟨(StageGraph.build_ordered (build_graph built)).2.2, ?_, ?_⟩
  · intro i s stage
    exact (Stage.expand_ok (expanded i s stage)).1
  · intro i s stage job member
    obtain ⟨index, combination, made⟩ := (Stage.expand_ok (expanded i s stage)).2 job member
    exact ⟨context, index, combination, made⟩

theorem build_written {p : Pipeline} {context : Option Context} {g : RunGraph} (built : build p context = .ok g) :
    g.Written := by
  intro job member
  obtain ⟨i, listed, inside⟩ := List.mem_flatMap.1 member
  have bound := ((build_populated built).ordered.complete i).1 listed
  exact Stage.expand_written (build_expanded built i _ (List.getElem?_eq_getElem bound)) inside

variable {g : RunGraph}

theorem Populated.stage (populated : g.Populated) {i : Nat} {s : Stage} (stage : g.graph.stages[i]? = some s)
    {job : Job} (member : job ∈ g.jobsOf i) : job.stage = s.name := by
  obtain ⟨_, _, _, made⟩ := populated.made i s stage job member
  exact (Stage.job_ok made).1

theorem Populated.home (populated : g.Populated) {job : Job} (member : job ∈ g.allJobs) :
    ∃ i s, i ∈ g.graph.order ∧ g.graph.stages[i]? = some s ∧ job ∈ g.jobsOf i ∧ job.stage = s.name := by
  obtain ⟨i, listed, inside⟩ := List.mem_flatMap.1 member
  have bound := (populated.ordered.complete i).1 listed
  have stage : g.graph.stages[i]? = some g.graph.stages[i] := by simp [bound]
  exact ⟨i, _, listed, stage, inside, populated.stage stage inside⟩

theorem Populated.resident (populated : g.Populated) {i : Nat} {s : Stage} (stage : g.graph.stages[i]? = some s) :
    ∃ job ∈ g.allJobs, job.stage = s.name := by
  obtain ⟨job, member⟩ := List.exists_mem_of_ne_nil _ (populated.peopled i s stage)
  have listed := (populated.ordered.complete i).2 (List.getElem?_eq_some_iff.1 stage).1
  exact ⟨job, List.mem_flatMap.2 ⟨i, listed, member⟩, populated.stage stage member⟩

end RunGraph
end Conveyor

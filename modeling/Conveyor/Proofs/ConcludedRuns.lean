import Conveyor.Proofs.AccountedRuns

/-! Two runs of the same jobs after their ends. Stage by stage, in the order of their needs, the jobs have had the same
inputs; so every job has come to the same end in both runs, unless a failure in its stage has cut it short in one of
them. Either way the stages have the same outcomes. -/

namespace Conveyor
namespace Moment

open Coordinator

variable {ω ω' : Type} [World ω] [World ω'] {conduct : Conduct} {g : RunGraph} {context : Context} {m : Moment ω}
  {m' : Moment ω'}

structure Concluded (conduct : Conduct) (g : RunGraph) (context : Context) (m : Moment ω) : Prop where
  runs : Runs g m
  context : m.coord.setup.context = context
  barred : m.coord.Barred
  accounts : ∀ j r, m.coord.record? j = some r → Account conduct m j r
  lined : Lined m
  opened : ∀ i ∈ g.graph.order, i ∈ m.coord.opened
  ended : ∀ j r, m.coord.record? j = some r → r.status.isTerminal = true

inductive Ending (conduct : Conduct) (m : Moment ω) (j : Nat) (r : JobRecord) : Prop
  | skipped {remark : Remark} (decided : m.coord.Decided r.job.stage (.skipped, remark))
      (verdict : r.verdict = remark.verdict .skipped [] []) (empty : m.Holds j r.job.producer [])
  | stopped (decided : m.coord.Decided r.job.stage (.ready, {})) (status : r.status = .cancelled)
      (tripped : m.coord.Tripped r.job.stage)
  | settled {stock : List (String × Blob)} (decided : m.coord.Decided r.job.stage (.ready, {}))
      (yields : r.job.Yields conduct m.coord.setup.context (m.inputs r.job) r.verdict stock)
      (holds : m.Holds j r.job.producer stock)

variable {j i : Nat} {r r' : JobRecord} {s : Stage}

theorem Concluded.ending (concluded : Concluded conduct g context m) (found : m.coord.record? j = some r) :
    Ending conduct m j r := by
  have ended := concluded.ended j r found
  cases concluded.accounts j r found with
  | pending status =>
    rw [status] at ended
    cases ended
  | skipped decided verdict empty => exact .skipped decided verdict empty
  | released decided course =>
    cases course with
    | ready status =>
      rw [status] at ended
      cases ended
    | running status =>
      rw [status] at ended
      cases ended
    | stopped status tripped => exact .stopped decided status tripped
    | settled yields holds => exact .settled decided yields holds

/-- Two runs have done the same for a job, unless one of them has cut it short. -/
inductive Matches (m : Moment ω) (m' : Moment ω') (j : Nat) (r r' : JobRecord) : Prop
  | cut (status : r.status = .cancelled) (tripped : m.coord.Tripped r.job.stage)
  | cut' (status : r'.status = .cancelled) (tripped : m'.coord.Tripped r'.job.stage)
  | same {stock : List (String × Blob)} (verdict : r'.verdict = r.verdict) (fresh : (stock.map Prod.fst).Nodup)
      (sorted : stock.Pairwise fun a b => Text.le a.1 b.1 = true)
      (holds : m.Holds j r.job.producer stock) (holds' : m'.Holds j r'.job.producer stock)

def Alike (m : Moment ω) (m' : Moment ω') (stage : String) : Prop :=
  ∀ j r r', m.coord.record? j = some r → m'.coord.record? j = some r' → r.job.stage = stage →
    Matches m m' j r r'

/-- A job that had the same inputs and whose stage was let in alike has come to the same end. -/
theorem Ending.matches (ending : Ending conduct m j r) (ending' : Ending conduct m' j r')
    (ordered : m'.coord.setup.graph.Ordered) (job : r'.job = r.job)
    (context : m'.coord.setup.context = m.coord.setup.context)
    (decided : ∀ change, m.coord.Decided r.job.stage change → m'.coord.Decided r.job.stage change)
    (inputs : m.coord.Decided r.job.stage (.ready, {}) → m'.inputs r.job = m.inputs r.job) :
    Matches m m' j r r' := by
  have agree {change change' : Status × Remark} (here : m.coord.Decided r.job.stage change)
      (there : m'.coord.Decided r'.job.stage change') : change = change' :=
    (decided change here).unique (job ▸ there) ordered
  cases ending with
  | skipped here verdict empty =>
    cases ending' with
    | skipped there verdict' empty' =>
      cases agree here there
      refine .same (verdict'.trans verdict.symm) ?_ .nil empty empty'
      exact List.nodup_nil
    | stopped there => cases agree here there
    | settled there => cases agree here there
  | stopped _ status tripped => exact .cut status tripped
  | settled here yields holds =>
    cases ending' with
    | skipped there => cases agree here there
    | stopped _ status tripped => exact .cut' status tripped
    | settled there yields' holds' =>
      rw [job, context, inputs here] at yields'
      obtain ⟨verdict, rfl⟩ := yields'.unique yields
      exact .same verdict yields.nodup yields.sorted holds holds'

theorem Concluded.settled (concluded : Concluded conduct g context m) (opened : i ∈ m.coord.opened) :
    (m.coord.stageOutcome i).isSome := by
  refine stageOutcome_isSome opened fun r member => ?_
  obtain ⟨j, found, _⟩ := mem_recordsOf.1 member
  exact concluded.ended j r found

omit [World ω] [World ω'] in
theorem Runs.stageName (runs : Runs g m) (runs' : Runs g m') (n : Nat) :
    m'.coord.stageName n = m.coord.stageName n := by
  rw [Coordinator.stageName, Coordinator.stageName, runs.graph, runs'.graph]

/-- Two runs agree about a stage: it has one outcome, and if it has succeeded, its jobs have stored the same. -/
structure Agree (m : Moment ω) (m' : Moment ω') (n : Nat) : Prop where
  outcome : m'.coord.stageOutcome n = m.coord.stageOutcome n
  contents : m.coord.stageOutcome n = some (.succeeded, none) →
    ∀ r ∈ m.coord.recordsOf (m.coord.stageName n), ∀ name,
      ArtifactStore.get? m'.world ⟨r.job.producer, name⟩ = ArtifactStore.get? m.world ⟨r.job.producer, name⟩

theorem Alike.symm (jobs : SameJobs m.coord m'.coord) {stage : String} (alike : Alike m m' stage) :
    Alike m' m stage := by
  intro j r' r found' found member
  have job := jobs.job_eq found found'
  cases alike j r r' found found' (job ▸ member) with
  | cut status tripped => exact .cut' status tripped
  | cut' status tripped => exact .cut status tripped
  | same verdict fresh sorted holds holds' => exact .same verdict.symm fresh sorted holds' holds

/-- If all jobs of a stage have ended in one state, and it is none that a failure among them brings about, then the
other run has done the same for all of them. -/
theorem Alike.uniform (jobs : SameJobs m.coord m'.coord) {stage : String} (alike : Alike m m' stage)
    {status : Status} (calm : status ≠ .cancelled ∧ status ≠ .failed)
    (all : ∀ r ∈ m.coord.recordsOf stage, r.status = status) (found : m.coord.record? j = some r)
    (found' : m'.coord.record? j = some r') (member : r.job.stage = stage) :
    ∃ stock, r'.verdict = r.verdict ∧ m.Holds j r.job.producer stock ∧ m'.Holds j r'.job.producer stock := by
  have own {k : Nat} {q : JobRecord} (held : m.coord.record? k = some q) (inside : q.job.stage = stage) :
      q.status = status := all q (mem_recordsOf.2 ⟨k, held, inside⟩)
  cases alike j r r' found found' member with
  | cut stopped =>
    rw [own found member] at stopped
    exact (calm.1 stopped).elim
  | cut' _ tripped =>
    -- The job that failed in the other run would have to match one that has ended in the common state.
    obtain ⟨_, k, q', held', failed, inside'⟩ := tripped
    have job := jobs.job_eq found found'
    obtain ⟨q, held, same⟩ := jobs.symm.record held'
    have inside : q.job.stage = stage := by rw [same, inside', job, member]
    cases alike k q q' held held' inside with
    | cut stopped =>
      rw [own held inside] at stopped
      exact (calm.1 stopped).elim
    | cut' stopped => cases failed.symm.trans stopped
    | same verdict =>
      have status := congrArg Verdict.status verdict
      rw [q.verdict_status, q'.verdict_status, failed, own held inside] at status
      exact (calm.2 status.symm).elim
  | @same stock verdict _ _ holds holds' => exact ⟨stock, verdict, holds, holds'⟩

/-- Runs that match in the jobs of a stage agree about it, if all its jobs have ended in one state in one of them. -/
theorem Alike.agree (jobs : SameJobs m.coord m'.coord) (runs : Runs g m) (runs' : Runs g m') {n : Nat}
    (opened : n ∈ m.coord.opened) (opened' : n ∈ m'.coord.opened)
    (alike : Alike m m' (m.coord.stageName n)) {status : Status}
    (calm : status ≠ .cancelled ∧ status ≠ .failed)
    (all : ∀ r ∈ m.coord.recordsOf (m.coord.stageName n), r.status = status) : Agree m m' n := by
  constructor
  · refine stageOutcome_congr (runs'.graph.trans runs.graph.symm) (by simp [opened, opened']) ?_
    refine recordsOf_congr jobs fun j r r' found found' member => ?_
    obtain ⟨_, verdict, _⟩ := alike.uniform jobs calm all found found' member
    have status := congrArg Verdict.status verdict
    have reason := congrArg Verdict.skipReason verdict
    exact Prod.ext status reason
  · intro _ r member name
    obtain ⟨j, found, inside⟩ := mem_recordsOf.1 member
    obtain ⟨r', found', job⟩ := jobs.record found
    obtain ⟨_, _, holds, holds'⟩ := alike.uniform jobs calm all found found' inside
    rw [holds.contents, ← job, holds'.contents]

section

variable (concluded : Concluded conduct g context m) (concluded' : Concluded conduct g context m')

include concluded concluded'

theorem Concluded.sameJobs :
    SameJobs m.coord m'.coord := concluded'.runs.jobs.trans concluded.runs.jobs.symm

/-- What is decided about a stage depends on the outcomes of the stages that it needs. -/
theorem Concluded.decided (ordered : g.graph.Ordered) (stage : g.graph.stages[i]? = some s)
    (agree : ∀ n, g.graph.Needs i n → Agree m m' n) {change : Status × Remark}
    (decided : m.coord.Decided s.name change) : m'.coord.Decided s.name change := by
  obtain ⟨k, t, outcomes, place, named, settled, rfl⟩ := decided
  rw [concluded.runs.graph] at place
  cases ordered.unique place stage named
  cases place.symm.trans stage
  refine ⟨i, s, outcomes, by rw [concluded'.runs.graph]; exact stage, rfl, ?_, ?_⟩
  · rw [← settled]
    refine prerequisites?_congr (concluded'.runs.graph.trans concluded.runs.graph.symm) fun n need => ?_
    rw [concluded.runs.graph] at need
    exact (agree n need).outcome
  · exact opening_congr (concluded'.context.trans concluded.context.symm) s outcomes

/-- The inputs of a job that is let in depend on the stages that its own one needs. -/
theorem Concluded.inputs (regular : g.Regular) (stage : g.graph.stages[i]? = some s)
    (agree : ∀ n, Relation.TransGen g.graph.Needs i n → Agree m m' n) (found : m.coord.record? j = some r)
    (found' : m'.coord.record? j = some r') (job : r'.job = r.job) (member : r.job.stage = s.name)
    (decided : m.coord.Decided r.job.stage (.ready, {})) : m'.inputs r.job = m.inputs r.job := by
  have ordered := regular.populated.ordered
  have decided' : m'.coord.Decided r'.job.stage (.ready, {}) := by
    rw [job, member]
    rw [member] at decided
    exact concluded.decided concluded' ordered stage (fun n need => agree n (.single need)) decided
  have succeeded := concluded.runs.producers_succeeded regular.populated regular.provisioned concluded.barred found
    (decided.cleared (concluded.runs.graph ▸ ordered))
  have succeeded' := concluded'.runs.producers_succeeded regular.populated regular.provisioned concluded'.barred found'
    (decided'.cleared (concluded'.runs.graph ▸ ordered))
  rw [job] at succeeded'
  refine Inputs.resolve_congr (fun ref consumed => ?_) (fun ref consumed q selected => ?_)
  · refine recordsOf_congr (concluded.sameJobs concluded') fun k q q' held held' inside => ?_
    have same := (concluded.sameJobs concluded').job_eq held held'
    have first := succeeded ref consumed q (mem_recordsOf.2 ⟨k, held, inside⟩)
    have second := succeeded' ref consumed q' (mem_recordsOf.2 ⟨k, held', by rw [same]; exact inside⟩)
    rw [JobRecord.standing, JobRecord.standing, same, first, second]
  · obtain ⟨k, t, n, u, place, named, below, source, origin, outcome⟩ := concluded.runs.source regular.populated
      regular.provisioned concluded.barred found (decided.cleared (concluded.runs.graph ▸ ordered)) consumed
    cases ordered.unique place stage (named.trans member)
    refine (agree n below).contents outcome q ?_ ref.name
    rw [Coordinator.stageName, concluded.runs.graph, source]
    simpa [origin] using List.mem_of_mem_filter selected

theorem Concluded.alike (regular : g.Regular) (stage : g.graph.stages[i]? = some s)
    (agree : ∀ n, Relation.TransGen g.graph.Needs i n → Agree m m' n) : Alike m m' s.name := by
  intro j r r' found found' member
  have ordered := regular.populated.ordered
  have job := (concluded.sameJobs concluded').job_eq found found'
  refine (concluded.ending found).matches (concluded'.ending found') (concluded'.runs.graph ▸ ordered) job
    (concluded'.context.trans concluded.context.symm) (fun change decided => ?_) (fun decided => ?_)
  · rw [member] at decided ⊢
    exact concluded.decided concluded' ordered stage (fun n need => agree n (.single need)) decided
  · exact concluded.inputs concluded' regular stage agree found found' job member decided

/-- Runs that agree about all stages that a stage needs agree about the stage. -/
theorem Concluded.agree_step (regular : g.Regular) (listed : i ∈ g.graph.order)
    (agree : ∀ n, Relation.TransGen g.graph.Needs i n → Agree m m' n) : Agree m m' i := by
  have jobs := concluded.sameJobs concluded'
  obtain ⟨s, stage⟩ := regular.populated.ordered.stage listed
  have name : m.coord.stageName i = s.name := by
    rw [Coordinator.stageName, concluded.runs.graph, stage]
    rfl
  have name' : m'.coord.stageName i = s.name := (concluded.runs.stageName concluded'.runs i).trans name
  have alike := concluded.alike concluded' regular stage agree
  have opened := concluded.opened i listed
  have opened' := concluded'.opened i listed
  have settles {status : Status} (calm : status ≠ .cancelled ∧ status ≠ .failed)
      (all : ∀ r ∈ m.coord.recordsOf (m.coord.stageName i), r.status = status) : Agree m m' i :=
    Alike.agree jobs concluded.runs concluded'.runs opened opened' (name ▸ alike) calm all
  have settles' {status : Status} (calm : status ≠ .cancelled ∧ status ≠ .failed)
      (all : ∀ r ∈ m'.coord.recordsOf (m'.coord.stageName i), r.status = status) : Agree m' m i :=
    Alike.agree jobs.symm concluded'.runs concluded.runs opened' opened (name' ▸ alike.symm jobs) calm all
  obtain ⟨outcome, known⟩ := Option.isSome_iff_exists.1 (concluded.settled opened)
  obtain ⟨outcome', known'⟩ := Option.isSome_iff_exists.1 (concluded'.settled opened')
  rcases stageOutcome_cases known with ⟨_, all⟩ | ⟨_, all⟩ | failed
  · exact settles (by decide) all
  · exact settles (by decide) all
  · refine ⟨?_, fun succeeded => ?_⟩
    · rcases stageOutcome_cases known' with ⟨_, all⟩ | ⟨_, all⟩ | failed'
      · exact (settles' (by decide) all).outcome.symm
      · exact (settles' (by decide) all).outcome.symm
      · rw [known, known', failed, failed']
    · rw [known, failed] at succeeded
      cases succeeded

theorem Concluded.agree (regular : g.Regular) : ∀ i ∈ g.graph.order, Agree m m' i := by
  have ordered := regular.populated.ordered
  have all := ordered.induction (fun i => ∀ n, Relation.ReflTransGen g.graph.Needs i n → Agree m m' n) ?_
  · exact fun i listed => all i listed i .refl
  · intro i listed needs n below
    have further : ∀ n, Relation.TransGen g.graph.Needs i n → Agree m m' n := by
      intro n path
      obtain ⟨k, need, rest⟩ := Relation.TransGen.head'_iff.1 path
      exact needs k need n rest
    rcases Relation.reflTransGen_iff_eq_or_transGen.1 below with rfl | path
    · exact concluded.agree_step concluded' regular listed further
    · exact further n path

end

end Moment
end Conveyor

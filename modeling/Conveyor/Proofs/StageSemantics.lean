import Conveyor.Proofs.RunCompletion
import Conveyor.Proofs.StageDecisions

/-! What a report says of the stages, read against their declarations. Whether the jobs of a stage are skipped, and
why, follows from what the same report says of the stages that it needs and from its condition. -/

namespace Conveyor

/-- The stage has a condition, and for the event it is false or has no value. -/
def Stage.Shut (s : Stage) (context : Context) : Prop :=
  ∃ condition, s.condition = some condition ∧ condition ≠ "" ∧
    (Condition.evaluate condition context.bindings = .ok false ∨
      ∃ failure, Condition.evaluate condition context.bindings = .error failure)

namespace StageGraph

open Conveyor.Graph

def Requires (g : StageGraph) (stage need : String) : Prop := ∃ s ∈ g.stages, s.name = stage ∧ need ∈ s.needs

def nameAt (g : StageGraph) (n : Nat) : String := (g.stages[n]?.map (·.name)).getD ""

theorem nameAt_eq {g : StageGraph} {n : Nat} {t : Stage} (stage : g.stages[n]? = some t) : g.nameAt n = t.name := by
  rw [nameAt, stage]
  rfl

private theorem find?_eraseDups (p : Nat → Bool) (l : List Nat) : l.eraseDups.find? p = l.find? p := by
  match l with
  | [] => simp
  | a :: l =>
    rw [List.eraseDups_cons, List.find?_cons, List.find?_cons, find?_eraseDups, List.find?_filter]
    cases found : p a with
    | true => rfl
    | false =>
      apply List.find?_congr
      intro b _
      by_cases same : b = a <;> simp [same, found]
termination_by l.length
decreasing_by exact Nat.lt_succ_of_le (List.length_filter_le _ _)

variable {g : StageGraph}

theorem Named.place (named : g.Named) {s : Stage} (member : s ∈ g.stages) {need : String} (listed : need ∈ s.needs) :
    ∃ n t, (g.stages.map (·.name)).idxOf? need = some n ∧ g.stages[n]? = some t ∧ t.name = need := by
  have known := named.known s member need listed
  cases place : (g.stages.map (·.name)).idxOf? need with
  | none => exact (List.idxOf?_eq_none_iff.1 place known).elim
  | some n =>
    obtain ⟨inside, same, _⟩ := List.idxOf?_eq_some_iff.1 place
    have inside : n < g.stages.length := by simpa using inside
    exact ⟨n, g.stages[n], rfl, by simp [inside], by simpa using same⟩

theorem Named.find (named : g.Named) {i : Nat} {s : Stage} (stage : g.stages[i]? = some s) (p : String → Bool) :
    s.needs.find? p = ((entry g.needs i).find? fun n => p (g.nameAt n)).map g.nameAt := by
  have member := List.mem_of_getElem? stage
  rw [named.needs i s stage, needsOf, find?_eraseDups, List.find?_filterMap]
  have same : s.needs.find? (fun need => ((g.stages.map (·.name)).idxOf? need).any fun n => p (g.nameAt n)) =
      s.needs.find? p := by
    apply List.find?_congr
    intro need listed
    obtain ⟨n, t, place, found, rfl⟩ := named.place member listed
    simp [place, nameAt_eq found]
  rw [same]
  cases first : s.needs.find? p with
  | none => rfl
  | some need =>
    obtain ⟨n, t, place, found, rfl⟩ := named.place member (List.mem_of_find?_eq_some first)
    simp [place, nameAt_eq found]

theorem Named.needs_iff (named : g.Named) {i : Nat} {s : Stage} (stage : g.stages[i]? = some s) {need : String} :
    need ∈ s.needs ↔ ∃ n, g.Needs i n ∧ g.nameAt n = need := by
  have member := List.mem_of_getElem? stage
  simp only [Needs, named.needs i s stage, needsOf, List.mem_eraseDups, List.mem_filterMap]
  constructor
  · intro listed
    obtain ⟨n, t, place, found, rfl⟩ := named.place member listed
    exact ⟨n, ⟨t.name, listed, place⟩, nameAt_eq found⟩
  · rintro ⟨n, ⟨other, listed, place⟩, rfl⟩
    obtain ⟨n', t, place', found, rfl⟩ := named.place member listed
    cases place.symm.trans place'
    rw [nameAt_eq found]
    exact listed

end StageGraph

namespace RunReport

def statusOf (report : RunReport) (stage : String) : Option Status := (report.stage? stage).map (·.status)

def reasonOf (report : RunReport) (stage : String) : Option SkipReason := (report.stage? stage).bind (·.skipReason)

def AllSkipped (report : RunReport) (stage : String) (why : SkipReason) : Prop :=
  ∀ r ∈ report.jobsFor stage, r.status = .skipped ∧ r.skipReason = some why

def Free (report : RunReport) (s : Stage) : Prop :=
  ∀ need ∈ s.needs, report.statusOf need ≠ some .failed ∧ report.statusOf need ≠ some .skipped

/-- A report in which the state of every job, stage and of the run follow from the declarations. -/
structure Declared (report : RunReport) (g : StageGraph) (context : Context) : Prop where
  blocked : ∀ s ∈ g.stages, (∃ need ∈ s.needs, report.statusOf need = some .failed) →
    report.AllSkipped s.name .dependencyFailed
  passedOn : ∀ s ∈ g.stages, (∀ need ∈ s.needs, report.statusOf need ≠ some .failed) →
    ∀ need, s.needs.find? (fun need => report.statusOf need = some .skipped) = some need →
      ∃ why, report.reasonOf need = some why ∧ report.AllSkipped s.name why
  shut : ∀ s ∈ g.stages, report.Free s → s.Shut context → report.AllSkipped s.name .gateClosed
  released : ∀ s ∈ g.stages, report.Free s → ¬ s.Shut context → ∀ r ∈ report.jobsFor s.name, r.status ≠ .skipped
  succeeded : ∀ s ∈ g.stages, report.statusOf s.name = some .succeeded ↔
    ∀ r ∈ report.jobsFor s.name, r.status = .succeeded
  skipped : ∀ s ∈ g.stages, report.statusOf s.name = some .skipped ↔
    ∀ r ∈ report.jobsFor s.name, r.status = .skipped
  failed : ∀ s ∈ g.stages, report.statusOf s.name = some .failed ↔
    ¬ (∀ r ∈ report.jobsFor s.name, r.status = .succeeded) ∧ ¬ ∀ r ∈ report.jobsFor s.name, r.status = .skipped
  run : (report.status = .succeeded ↔ ∀ r ∈ report.jobs, r.status ≠ .failed ∧ r.status ≠ .cancelled) ∧
    (report.status = .failed ↔ ∃ r ∈ report.jobs, r.status = .failed ∨ r.status = .cancelled)
  dependency : ∀ r ∈ report.jobs, r.skipReason = some .dependencyFailed →
    ∃ need, Relation.TransGen g.Requires r.job.stage need ∧ report.statusOf need = some .failed
  gate : ∀ r ∈ report.jobs, r.skipReason = some .gateClosed →
    ∃ s ∈ g.stages, Relation.ReflTransGen g.Requires r.job.stage s.name ∧ s.Shut context

end RunReport

namespace Coordinator

theorem gate_ok {c : Coordinator} {s : Stage} (unshut : ¬ s.Shut c.setup.context) : c.gate s = .ok c := by
  unfold gate
  split
  next => rfl
  next condition given =>
    split
    next => rfl
    next present =>
      split
      next => rfl
      next closed => exact (unshut ⟨condition, given, present, Or.inl closed⟩).elim
      next failure closed => exact (unshut ⟨condition, given, present, Or.inr ⟨failure, closed⟩⟩).elim

theorem gate_shut {c : Coordinator} {s : Stage} (shut : s.Shut c.setup.context) : ∃ closed, c.gate s = .error closed := by
  obtain ⟨condition, given, present, closed⟩ := shut
  unfold gate
  rcases closed with closed | ⟨failure, closed⟩
  · simp [given, present, closed]
  · simp [given, present, closed]

theorem prerequisites?_eq {c : Coordinator} {i : Nat} {outcomes : List (String × Status × Option SkipReason)}
    (settled : c.prerequisites? i = some outcomes) :
    outcomes = (Graph.entry c.setup.graph.needs i).map fun n =>
      (c.setup.graph.nameAt n, (c.stageOutcome n).getD (.failed, none)) := by
  have all := Fallible.mapM_some.1 settled
  clear settled
  generalize Graph.entry c.setup.graph.needs i = needs at all ⊢
  induction all with
  | nil => rfl
  | cons known _ ih =>
    obtain ⟨outcome, ended, rfl⟩ := Option.map_eq_some_iff.1 known
    rw [List.map_cons, ← ih, ended]
    rfl

section opening

variable {c : Coordinator} {s : Stage} {outcomes : List (String × Status × Option SkipReason)}

theorem opening_blocked {outcome : String × Status × Option SkipReason}
    (failed : outcomes.find? (·.2.1 = .failed) = some outcome) :
    (c.opening s outcomes).2.skipReason = some .dependencyFailed := by
  simp only [opening, failed]

theorem opening_passedOn {need : String} {state : Status} {reason : Option SkipReason}
    (unfailed : outcomes.find? (·.2.1 = .failed) = none)
    (skipped : outcomes.find? (·.2.1 = .skipped) = some (need, state, reason)) :
    (c.opening s outcomes).2.skipReason = some (reason.getD .gateClosed) := by
  simp only [opening, unfailed, skipped]

theorem opening_shut (unfailed : outcomes.find? (·.2.1 = .failed) = none)
    (unskipped : outcomes.find? (·.2.1 = .skipped) = none) (shut : s.Shut c.setup.context) :
    (c.opening s outcomes).2.skipReason = some .gateClosed := by
  obtain ⟨closed, gate⟩ := gate_shut shut
  simp only [opening, unfailed, unskipped, gate]

theorem opening_released (unfailed : outcomes.find? (·.2.1 = .failed) = none)
    (unskipped : outcomes.find? (·.2.1 = .skipped) = none) (unshut : ¬ s.Shut c.setup.context) :
    (c.opening s outcomes).1 = .ready := by
  simp only [opening, unfailed, unskipped, gate_ok unshut]

end opening

/-- A run after its end, with different keys for its jobs. -/
structure Closed (c : Coordinator) (g : RunGraph) : Prop where
  populated : g.Populated
  named : g.graph.Named
  graph : c.setup.graph = g.graph
  jobs : c.records.map (·.job) = g.allJobs
  reported : c.reported = c.records
  opened : ∀ i ∈ g.graph.order, i ∈ c.opened
  ended : ∀ r ∈ c.records, r.status.isTerminal = true
  accords : ∀ j r, c.record? j = some r → c.Accords r

namespace Closed

variable {c : Coordinator} {g : RunGraph} (closed : c.Closed g)

include closed

theorem jobsFor (stage : String) : c.report.jobsFor stage = c.recordsOf stage := by
  change c.reported.filter _ = _
  rw [closed.reported, recordsOf]
  apply List.filter_congr
  intro r _
  exact beq_eq_decide r.job.stage stage

variable {i : Nat} {s : Stage} {outcome : Status × Option SkipReason}

theorem stageName (stage : g.graph.stages[i]? = some s) : c.stageName i = s.name := by
  rw [Coordinator.stageName, closed.graph, stage]
  rfl

theorem listed (stage : g.graph.stages[i]? = some s) : i ∈ g.graph.order :=
  (closed.populated.ordered.complete i).2 (List.getElem?_eq_some_iff.1 stage).1

theorem stage (member : s ∈ g.graph.stages) : ∃ i, g.graph.stages[i]? = some s ∧ i ∈ g.graph.order := by
  obtain ⟨i, stage⟩ := List.mem_iff_getElem?.1 member
  exact ⟨i, stage, closed.listed stage⟩

theorem settled (listed : i ∈ g.graph.order) : ∃ outcome, c.stageOutcome i = some outcome := by
  apply Option.isSome_iff_exists.1
  apply stageOutcome_isSome (closed.opened i listed)
  intro r member
  obtain ⟨j, found, _⟩ := mem_recordsOf.1 member
  exact closed.ended r (List.mem_of_getElem? found)

theorem reports (stage : g.graph.stages[i]? = some s) (settled : c.stageOutcome i = some outcome) :
    c.report.stage? s.name = some { name := s.name, status := outcome.1, skipReason := outcome.2 } := by
  have ordered := closed.populated.ordered
  have listed := closed.listed stage
  change c.stageReports.find? _ = _
  rw [stageReports, closed.graph, List.find?_map]
  have first : g.graph.order.find? ((fun report : StageReport => report.name == s.name) ∘ fun k =>
      { name := (g.graph.stages[k]?.map (·.name)).getD ""
        status := ((c.stageOutcome k).getD (.failed, none)).1
        skipReason := ((c.stageOutcome k).getD (.failed, none)).2 }) = some i := by
    cases found : g.graph.order.find? _ with
    | none =>
      have absent := List.find?_eq_none.1 found i listed
      simp [stage] at absent
    | some k =>
      have inside := List.mem_of_find?_eq_some found
      obtain ⟨t, place⟩ := ordered.stage inside
      have same := List.find?_some found
      simp only [Function.comp_apply, place, Option.map_some, Option.getD_some, beq_iff_eq] at same
      rw [ordered.unique place stage same]
  rw [first, Option.map_some]
  simp [stage, settled]

theorem statusOf (stage : g.graph.stages[i]? = some s) (settled : c.stageOutcome i = some outcome) :
    c.report.statusOf s.name = some outcome.1 := by
  rw [RunReport.statusOf, closed.reports stage settled]
  rfl

theorem reasonOf (stage : g.graph.stages[i]? = some s) (settled : c.stageOutcome i = some outcome) :
    c.report.reasonOf s.name = outcome.2 := by
  rw [RunReport.reasonOf, closed.reports stage settled]
  rfl

theorem peopled (stage : g.graph.stages[i]? = some s) : ∃ r, r ∈ c.recordsOf s.name := by
  obtain ⟨job, listed, named⟩ := closed.populated.resident stage
  rw [← closed.jobs] at listed
  obtain ⟨r, member, rfl⟩ := List.mem_map.1 listed
  obtain ⟨j, found⟩ := List.mem_iff_getElem?.1 member
  exact ⟨r, mem_recordsOf.2 ⟨j, found, named⟩⟩

theorem outcome_iff (stage : g.graph.stages[i]? = some s) (settled : c.stageOutcome i = some outcome) :
    (outcome.1 = .succeeded ↔ ∀ r ∈ c.recordsOf s.name, r.status = .succeeded) ∧
      (outcome.1 = .skipped ↔ ∀ r ∈ c.recordsOf s.name, r.status = .skipped) ∧
      (outcome.1 = .failed ↔ ¬ (∀ r ∈ c.recordsOf s.name, r.status = .succeeded) ∧
        ¬ ∀ r ∈ c.recordsOf s.name, r.status = .skipped) := by
  obtain ⟨q, inside⟩ := closed.peopled stage
  have name := closed.stageName stage
  rcases stageOutcome_cases settled with ⟨rfl, all⟩ | ⟨⟨why, rfl⟩, all⟩ | rfl
  · rw [name] at all
    have unskipped : ¬ ∀ r ∈ c.recordsOf s.name, r.status = .skipped := by
      intro skipped
      cases (all q inside).symm.trans (skipped q inside)
    simp only [unskipped, reduceCtorEq, not_false_eq_true, and_true, false_iff, true_iff]
    exact ⟨all, trivial, fun mixed => mixed all⟩
  · rw [name] at all
    have unsucceeded : ¬ ∀ r ∈ c.recordsOf s.name, r.status = .succeeded := by
      intro succeeded
      cases (all q inside).symm.trans (succeeded q inside)
    simp only [unsucceeded, reduceCtorEq, false_iff, not_false_eq_true, true_and, true_iff]
    exact ⟨all, fun mixed => mixed all⟩
  · have opened := (stageOutcome_some settled).1
    have unsucceeded : ¬ ∀ r ∈ c.recordsOf s.name, r.status = .succeeded := by
      intro succeeded
      rw [← name] at succeeded
      cases settled.symm.trans (stageOutcome_succeeded opened succeeded)
    have unskipped : ¬ ∀ r ∈ c.recordsOf s.name, r.status = .skipped := by
      intro skipped
      rw [← name] at skipped inside
      cases settled.symm.trans (stageOutcome_skipped opened inside skipped)
    simp only [unsucceeded, unskipped, reduceCtorEq, not_false_eq_true, and_self]

/-- All jobs of a stage have been treated as the outcomes of its needs and its condition ask. -/
theorem decision (stage : g.graph.stages[i]? = some s) :
    ∃ outcomes, c.prerequisites? i = some outcomes ∧ ∀ r ∈ c.recordsOf s.name,
      (∀ why, (c.opening s outcomes).2.skipReason = some why → r.status = .skipped ∧ r.skipReason = some why) ∧
        ((c.opening s outcomes).1 = .ready → r.status ≠ .skipped) := by
  have ordered := closed.populated.ordered
  obtain ⟨outcomes, known⟩ : ∃ outcomes, c.prerequisites? i = some outcomes := by
    apply prerequisites?_isSome
    intro n need
    rw [closed.graph] at need
    apply Option.isSome_iff_exists.2
    exact closed.settled ((ordered.complete n).2 (ordered.needs i n need).2)
  refine ⟨outcomes, known, ?_⟩
  intro r member
  obtain ⟨j, found, home⟩ := mem_recordsOf.1 member
  -- What was decided about the stage of the job is what is known of its needs now.
  have same {change : Status × Remark} (decided : c.Decided r.job.stage change) : c.opening s outcomes = change := by
    apply Decided.unique ⟨i, s, outcomes, by rw [closed.graph]; exact stage, rfl, known, rfl⟩ (home ▸ decided)
    rw [closed.graph]
    exact ordered
  cases closed.accords j r found with
  | pending status =>
    have ended := closed.ended r (List.mem_of_getElem? found)
    simp [status, Status.isTerminal] at ended
  | skipped decided said status reason =>
    rw [same decided]
    refine ⟨?_, by simp⟩
    intro why again
    cases said.symm.trans again
    exact ⟨status, reason⟩
  | released decided released =>
    rw [same decided]
    exact ⟨by simp, fun _ => released.2⟩

/-- The first need of a state is the same in the report and in the outcomes on which the stage was decided. -/
theorem find_outcome (stage : g.graph.stages[i]? = some s) {outcomes : List (String × Status × Option SkipReason)}
    (known : c.prerequisites? i = some outcomes) (status : Status) :
    s.needs.find? (fun need => c.report.statusOf need = some status) = (outcomes.find? (·.2.1 = status)).map (·.1) ∧
      ∀ need state reason, outcomes.find? (·.2.1 = status) = some (need, state, reason) →
        c.report.reasonOf need = reason := by
  have ordered := closed.populated.ordered
  have shown (n : Nat) (need : n ∈ Graph.entry g.graph.needs i) :
      c.report.statusOf (g.graph.nameAt n) = some ((c.stageOutcome n).getD (.failed, none)).1 ∧
        c.report.reasonOf (g.graph.nameAt n) = ((c.stageOutcome n).getD (.failed, none)).2 := by
    have listed := (ordered.complete n).2 (ordered.needs i n need).2
    obtain ⟨t, place⟩ := ordered.stage listed
    obtain ⟨outcome, settled⟩ := closed.settled listed
    rw [StageGraph.nameAt_eq place, closed.statusOf place settled, closed.reasonOf place settled, settled]
    exact ⟨rfl, rfl⟩
  rw [prerequisites?_eq known, closed.graph, closed.named.find stage, List.find?_map, Option.map_map]
  have first : (Graph.entry g.graph.needs i).find? (fun n => c.report.statusOf (g.graph.nameAt n) = some status) =
      (Graph.entry g.graph.needs i).find? fun n => ((c.stageOutcome n).getD (.failed, none)).1 = status := by
    apply List.find?_congr
    intro n need
    simp [(shown n need).1]
  constructor
  · rw [first]
    rfl
  · intro need state reason found
    obtain ⟨n, here, same⟩ := Option.map_eq_some_iff.1 found
    obtain ⟨rfl, pair⟩ := Prod.ext_iff.1 same
    rw [(shown n (List.mem_of_find?_eq_some here)).2]
    exact congrArg Prod.snd pair

theorem allSkipped {stage : String} {why : SkipReason}
    (all : ∀ r ∈ c.recordsOf stage, r.status = .skipped ∧ r.skipReason = some why) :
    c.report.AllSkipped stage why := by
  intro r member
  rw [closed.jobsFor] at member
  exact all r member

theorem blocked (member : s ∈ g.graph.stages) (failed : ∃ need ∈ s.needs, c.report.statusOf need = some .failed) :
    c.report.AllSkipped s.name .dependencyFailed := by
  obtain ⟨i, stage, _⟩ := closed.stage member
  obtain ⟨outcomes, known, treated⟩ := closed.decision stage
  have first := (closed.find_outcome stage known .failed).1
  cases found : outcomes.find? (·.2.1 = .failed) with
  | none =>
    obtain ⟨need, listed, status⟩ := failed
    rw [found, Option.map_none, List.find?_eq_none] at first
    exact (first need listed (decide_eq_true status)).elim
  | some outcome =>
    apply closed.allSkipped
    intro r inside
    exact (treated r inside).1 _ (opening_blocked found)

theorem unfound (stage : g.graph.stages[i]? = some s) {outcomes : List (String × Status × Option SkipReason)}
    (known : c.prerequisites? i = some outcomes) {status : Status}
    (none : ∀ need ∈ s.needs, c.report.statusOf need ≠ some status) :
    outcomes.find? (·.2.1 = status) = Option.none := by
  have first := (closed.find_outcome stage known status).1
  rw [List.find?_eq_none.2 (by simpa using none)] at first
  exact Option.map_eq_none_iff.1 first.symm

theorem shut (member : s ∈ g.graph.stages) (free : c.report.Free s) (shut : s.Shut c.setup.context) :
    c.report.AllSkipped s.name .gateClosed := by
  obtain ⟨i, stage, _⟩ := closed.stage member
  obtain ⟨outcomes, known, treated⟩ := closed.decision stage
  have unfailed := closed.unfound stage known fun need listed => (free need listed).1
  have unskipped := closed.unfound stage known fun need listed => (free need listed).2
  apply closed.allSkipped
  intro r inside
  exact (treated r inside).1 _ (opening_shut unfailed unskipped shut)

theorem released (member : s ∈ g.graph.stages) (free : c.report.Free s) (unshut : ¬ s.Shut c.setup.context) :
    ∀ r ∈ c.report.jobsFor s.name, r.status ≠ .skipped := by
  obtain ⟨i, stage, _⟩ := closed.stage member
  obtain ⟨outcomes, known, treated⟩ := closed.decision stage
  have unfailed := closed.unfound stage known fun need listed => (free need listed).1
  have unskipped := closed.unfound stage known fun need listed => (free need listed).2
  intro r inside
  rw [closed.jobsFor] at inside
  exact (treated r inside).2 (opening_released unfailed unskipped unshut)

/-- The jobs of a stage are all skipped for one reason, or none of them is skipped. -/
theorem uniform (stage : g.graph.stages[i]? = some s) :
    (∃ why, ∀ r ∈ c.recordsOf s.name, r.status = .skipped ∧ r.skipReason = some why) ∨
      ∀ r ∈ c.recordsOf s.name, r.status ≠ .skipped := by
  obtain ⟨outcomes, known, treated⟩ := closed.decision stage
  rcases c.opening_cases s outcomes with ready | skipped
  · exact Or.inr fun r inside => (treated r inside).2 ready
  · obtain ⟨why, said⟩ := opening_skipped skipped
    exact Or.inl ⟨why, fun r inside => (treated r inside).1 why said⟩

theorem reason (stage : g.graph.stages[i]? = some s) (skipped : c.report.statusOf s.name = some .skipped) :
    ∃ why, c.report.reasonOf s.name = some why ∧
      ∀ r ∈ c.recordsOf s.name, r.status = .skipped ∧ r.skipReason = some why := by
  have listed := closed.listed stage
  obtain ⟨outcome, settled⟩ := closed.settled listed
  rw [closed.statusOf stage settled, Option.some.injEq] at skipped
  have all := (closed.outcome_iff stage settled).2.1.1 skipped
  obtain ⟨q, inside⟩ := closed.peopled stage
  rcases closed.uniform stage with ⟨why, same⟩ | none
  · refine ⟨why, ?_, same⟩
    have name := closed.stageName stage
    rw [← name] at all inside
    have shown := stageOutcome_skipped (closed.opened i listed) inside all
    rw [closed.reasonOf stage shown, name]
    rw [name] at inside
    cases records : c.recordsOf s.name with
    | nil => simp [records] at inside
    | cons first rest => exact (same first (by simp [records])).2
  · exact (none q inside (all q inside)).elim

theorem passedOn (member : s ∈ g.graph.stages) (unfailed : ∀ need ∈ s.needs, c.report.statusOf need ≠ some .failed)
    {need : String} (first : s.needs.find? (fun need => c.report.statusOf need = some .skipped) = some need) :
    ∃ why, c.report.reasonOf need = some why ∧ c.report.AllSkipped s.name why := by
  obtain ⟨i, stage, _⟩ := closed.stage member
  obtain ⟨outcomes, known, treated⟩ := closed.decision stage
  obtain ⟨n, t, _, place, rfl⟩ := closed.named.place member (List.mem_of_find?_eq_some first)
  obtain ⟨why, reason, _⟩ := closed.reason place (by simpa using List.find?_some first)
  obtain ⟨same, reasons⟩ := closed.find_outcome stage known .skipped
  rw [first, eq_comm, Option.map_eq_some_iff] at same
  obtain ⟨⟨_, state, given⟩, found, rfl⟩ := same
  cases (reasons _ _ _ found).symm.trans reason
  refine ⟨why, reason, closed.allSkipped fun r inside => ?_⟩
  exact (treated r inside).1 why (opening_passedOn (closed.unfound stage known unfailed) found)

theorem states (stage : g.graph.stages[i]? = some s) :
    (c.report.statusOf s.name = some .succeeded ↔ ∀ r ∈ c.report.jobsFor s.name, r.status = .succeeded) ∧
      (c.report.statusOf s.name = some .skipped ↔ ∀ r ∈ c.report.jobsFor s.name, r.status = .skipped) ∧
      (c.report.statusOf s.name = some .failed ↔ ¬ (∀ r ∈ c.report.jobsFor s.name, r.status = .succeeded) ∧
        ¬ ∀ r ∈ c.report.jobsFor s.name, r.status = .skipped) := by
  obtain ⟨outcome, settled⟩ := closed.settled (closed.listed stage)
  rw [closed.statusOf stage settled, closed.jobsFor]
  simpa only [Option.some.injEq] using closed.outcome_iff stage settled

theorem home {r : JobRecord} (member : r ∈ c.records) :
    ∃ i s, i ∈ g.graph.order ∧ g.graph.stages[i]? = some s ∧ r.job.stage = s.name ∧ r ∈ c.recordsOf s.name := by
  obtain ⟨j, found⟩ := List.mem_iff_getElem?.1 member
  have known : r.job ∈ g.allJobs := by
    rw [← closed.jobs]
    exact List.mem_map_of_mem member
  obtain ⟨i, s, listed, stage, _, home⟩ := closed.populated.home known
  exact ⟨i, s, listed, stage, home, mem_recordsOf.2 ⟨j, found, home⟩⟩

/-- A run succeeds if and only if none of its jobs has failed or been cancelled. -/
theorem run_succeeded :
    c.report.status = .succeeded ↔ ∀ r ∈ c.report.jobs, r.status ≠ .failed ∧ r.status ≠ .cancelled := by
  have ordered := closed.populated.ordered
  have jobs : c.report.jobs = c.records := closed.reported
  have good : c.report.status = .succeeded ↔ ∀ i ∈ g.graph.order, ∀ outcome, c.stageOutcome i = some outcome →
      outcome.1 = .succeeded ∨ outcome.1 = .skipped := by
    simp only [report, stageReports, closed.graph, List.all_map]
    constructor
    · intro passed i listed outcome settled
      split at passed
      next all => simpa [settled] using List.all_eq_true.1 all i listed
      next => cases passed
    · intro all
      rw [if_pos]
      rw [List.all_eq_true]
      intro i listed
      obtain ⟨outcome, settled⟩ := closed.settled listed
      simpa [settled] using all i listed outcome settled
  rw [good, jobs]
  constructor
  · intro all r member
    obtain ⟨i, s, listed, stage, _, inside⟩ := closed.home member
    obtain ⟨outcome, settled⟩ := closed.settled listed
    obtain ⟨succeeded, skipped, _⟩ := closed.outcome_iff stage settled
    rcases all i listed outcome settled with done | left
    · simp [succeeded.1 done r inside]
    · simp [skipped.1 left r inside]
  · intro all i listed outcome settled
    obtain ⟨s, stage⟩ := ordered.stage listed
    obtain ⟨succeeded, skipped, _⟩ := closed.outcome_iff stage settled
    rw [succeeded, skipped]
    rcases closed.uniform stage with ⟨_, same⟩ | none
    · exact Or.inr fun r inside => (same r inside).1
    · refine Or.inl fun r inside => ?_
      obtain ⟨j, found, _⟩ := mem_recordsOf.1 inside
      have member := List.mem_of_getElem? found
      have ended := closed.ended r member
      have sound := all r member
      have unskipped := none r inside
      cases status : r.status <;> simp_all [Status.isTerminal]

theorem run_failed : c.report.status = .failed ↔ ∃ r ∈ c.report.jobs, r.status = .failed ∨ r.status = .cancelled := by
  have either : c.report.status = .failed ↔ ¬ c.report.status = .succeeded := by
    simp only [report]
    split <;> simp
  rw [either, closed.run_succeeded]
  push Not
  refine exists_congr fun r => and_congr_right fun _ => ?_
  tauto

theorem skipped_of_reason {r : JobRecord} (member : r ∈ c.records) {why : SkipReason} (reason : r.skipReason = some why) :
    r.status = .skipped := by
  obtain ⟨j, found⟩ := List.mem_iff_getElem?.1 member
  cases closed.accords j r found with
  | pending _ silent => cases silent.symm.trans reason
  | skipped _ _ status => exact status
  | released _ _ silent => cases silent.symm.trans reason

/-- Where the reasons come from: a failed stage before the stage of the job, or a closed gate there or before. -/
theorem origin : ∀ i ∈ g.graph.order, ∀ s, g.graph.stages[i]? = some s → ∀ r ∈ c.recordsOf s.name,
    (r.skipReason = some .dependencyFailed →
      ∃ need, Relation.TransGen g.graph.Requires s.name need ∧ c.report.statusOf need = some .failed) ∧
    (r.skipReason = some .gateClosed → ∃ t ∈ g.graph.stages,
      Relation.ReflTransGen g.graph.Requires s.name t.name ∧ t.Shut c.setup.context) := by
  apply closed.populated.ordered.induction
  intro i listed needs s stage r inside
  have member := List.mem_of_getElem? stage
  have shown : r ∈ c.report.jobsFor s.name := by
    rw [closed.jobsFor]
    exact inside
  have direct {need : String} (listed : need ∈ s.needs) : g.graph.Requires s.name need := ⟨s, member, rfl, listed⟩
  by_cases failed : ∃ need ∈ s.needs, c.report.statusOf need = some .failed
  · have reason := (closed.blocked member failed r shown).2
    obtain ⟨need, listed, status⟩ := failed
    refine ⟨fun _ => ⟨need, .single (direct listed), status⟩, fun other => ?_⟩
    cases reason.symm.trans other
  · have unfailed : ∀ need ∈ s.needs, c.report.statusOf need ≠ some .failed := by
      intro need listed status
      exact failed ⟨need, listed, status⟩
    cases first : s.needs.find? (fun need => c.report.statusOf need = some .skipped) with
    | some need =>
      -- The reason is that of the skipped stage, whose jobs have it from further back.
      have listed := List.mem_of_find?_eq_some first
      obtain ⟨n, need, rfl⟩ := (closed.named.needs_iff stage).1 listed
      obtain ⟨t, place⟩ := closed.populated.ordered.stage
        ((closed.populated.ordered.complete n).2 (closed.populated.ordered.needs i n need).2)
      rw [StageGraph.nameAt_eq place] at first listed
      obtain ⟨why, reported, all⟩ := closed.passedOn member unfailed first
      obtain ⟨_, again, same⟩ := closed.reason place (by simpa using List.find?_some first)
      cases reported.symm.trans again
      obtain ⟨q, present⟩ := closed.peopled place
      have own := (all r shown).2
      have theirs := (same q present).2
      obtain ⟨dependency, gate⟩ := needs n need t place q present
      constructor
      · intro reason
        cases own.symm.trans reason
        obtain ⟨source, path, status⟩ := dependency theirs
        exact ⟨source, .head (direct listed) path, status⟩
      · intro reason
        cases own.symm.trans reason
        obtain ⟨source, known, path, closed⟩ := gate theirs
        exact ⟨source, known, .head (direct listed) path, closed⟩
    | none =>
      have free : c.report.Free s := by
        intro need listed
        have unskipped := List.find?_eq_none.1 first need listed
        exact ⟨unfailed need listed, by simpa using unskipped⟩
      by_cases gate : s.Shut c.setup.context
      · have reason := (closed.shut member free gate r shown).2
        refine ⟨fun other => ?_, fun _ => ⟨s, member, .refl, gate⟩⟩
        cases reason.symm.trans other
      · have unskipped := closed.released member free gate r shown
        obtain ⟨j, found, _⟩ := mem_recordsOf.1 inside
        have silent {why : SkipReason} (reason : r.skipReason = some why) : False :=
          unskipped (closed.skipped_of_reason (List.mem_of_getElem? found) reason)
        exact ⟨fun reason => (silent reason).elim, fun reason => (silent reason).elim⟩

theorem declared : c.report.Declared g.graph c.setup.context := by
  have jobs : c.report.jobs = c.records := closed.reported
  refine ⟨fun s member => closed.blocked member, fun s member unfailed need => closed.passedOn member unfailed,
    fun s member => closed.shut member, fun s member => closed.released member, ?_, ?_, ?_,
    ⟨closed.run_succeeded, closed.run_failed⟩, ?_, ?_⟩
  · intro s member
    obtain ⟨i, stage, _⟩ := closed.stage member
    exact (closed.states stage).1
  · intro s member
    obtain ⟨i, stage, _⟩ := closed.stage member
    exact (closed.states stage).2.1
  · intro s member
    obtain ⟨i, stage, _⟩ := closed.stage member
    exact (closed.states stage).2.2
  · intro r member reason
    obtain ⟨i, s, listed, stage, home, inside⟩ := closed.home (jobs ▸ member)
    rw [home]
    exact (closed.origin i listed s stage r inside).1 reason
  · intro r member reason
    obtain ⟨i, s, listed, stage, home, inside⟩ := closed.home (jobs ▸ member)
    rw [home]
    exact (closed.origin i listed s stage r inside).2 reason

end Closed
end Coordinator

namespace Operation

open Moment Coordinator

variable {ω : Type} [World ω] {g : RunGraph}

theorem Completed.closed {p : Pipeline} {context : Option Context} (built : RunGraph.build p context = .ok g)
    (distinct : g.DistinctKeys) {setup : Setup} (graph : setup.graph = g.graph) {roster : Roster ω} {w : ω}
    (vacant : roster.postings w = []) {final : Operation ω} (completed : Completed g (start setup g w) final) :
    final.coord.Closed g where
  populated := RunGraph.build_populated built
  named := StageGraph.build_named (RunGraph.build_graph built)
  graph := by
    rw [show final.coord.setup = setup from completed.path.setup]
    exact graph
  jobs := completed.jobs
  reported := completed.reported distinct
  opened := fun i listed => (completed.settled i listed).1
  ended := completed.ended
  accords := completed.path.accords (RunGraph.build_populated built) distinct graph vacant

/-- A run completes unless it breaks off, and the report of a completed run says of every stage what its declaration
asks for. The jobs of a stage are skipped if a need has failed, else if a need was skipped, with the reason of the first
such one, else if its condition is not met; otherwise none is skipped. Stages and the run sum up their jobs, and every
reason goes back to a failed stage or to a closed gate. -/
theorem report_declared {p : Pipeline} {context : Option Context} (built : RunGraph.build p context = .ok g)
    (distinct : g.DistinctKeys) {setup : Setup} (graph : setup.graph = g.graph) (workers : 1 ≤ setup.workers)
    (roster : Roster ω) {w : ω} (vacant : roster.postings w = []) (fair : roster.Fair (start setup g w)) :
    (∃ final, (start setup g w).run = .ok final ∧ final.coord.report.jobs.map (·.job) = g.allJobs ∧
      final.coord.report.Declared g.graph setup.context) ∨
    ∃ halt, (start setup g w).run = .error halt ∧ (start setup g w).Strained halt.fault := by
  obtain ⟨_, _, _, end_⟩ := run_ends (RunGraph.build_populated built) distinct (RunGraph.build_written built) workers
    (orderly_start graph roster vacant) fair
  refine end_.imp ?_ ?_
  · rintro ⟨final, _, completed⟩
    have closed := completed.closed built distinct graph vacant
    refine ⟨final, completed.done, ?_, ?_⟩
    · rw [show final.coord.report.jobs = final.coord.records from closed.reported, completed.jobs]
    · have declared := closed.declared
      rwa [show final.coord.setup = setup from completed.path.setup] at declared
  · rintro ⟨halt, _, broken, strained⟩
    exact ⟨halt, broken, strained⟩

/-- Two builds publish nothing: the stage of the builds has failed, and the tests are skipped for that. -/
theorem crossBuild_declared :
    let world : Workshop willing := {}
    let setup : Setup := { graph := crossBuildGraph.graph, context := pushed, workers := 2 }
    ∃ final, (start setup crossBuildGraph world).run = .ok final ∧
      final.coord.report.jobs.map (·.job) = crossBuildGraph.allJobs ∧
      final.coord.report.statusOf "build" = some .failed ∧
      final.coord.report.AllSkipped "test" .dependencyFailed := by
  intro world setup
  obtain ⟨built, skipped, last, first, second, third, failed⟩ :
      ∃ built skipped last : Operation (Workshop willing), (start setup crossBuildGraph world).turn = .ok (built, true) ∧
        built.turn = .ok (skipped, true) ∧ skipped.turn = .ok (last, false) ∧
        last.coord.report.statusOf "build" = some .failed := by
    refine ⟨_, _, _, by cbv, by cbv, by cbv, by cbv⟩
  have populated := RunGraph.build_populated crossBuild_built
  have orderly : Orderly crossBuildGraph Workshop.roster (start setup crossBuildGraph world).moment :=
    orderly_start rfl _ rfl
  have ended := Turns.completed populated crossBuild_distinct orderly (.more first (.more second (.none _))) third
  rcases report_declared crossBuild_built crossBuild_distinct rfl (by decide) Workshop.roster rfl
    (Workshop.swift.fair populated crossBuild_distinct orderly) with ⟨final, done, jobs, declared⟩ | ⟨halt, broken, _⟩
  · cases done.symm.trans ended.done
    have tests : crossBuild.stages[1] ∈ crossBuildGraph.graph.stages := by simp [crossBuildGraph, crossBuild]
    exact ⟨_, done, jobs, failed, declared.blocked _ tests ⟨"build", by simp [crossBuild], failed⟩⟩
  · cases broken.symm.trans ended.done

end Operation
end Conveyor

import Conveyor.Proofs.AkinStates

/-! For what reasons a stage can be skipped. A failed need gives one reason; a skipped need hands on its own; a gate gives
the other. The order of needs decides only which of the reasons that come down to a stage is the one that its jobs are
told. So the reason of a skipped job does not depend on the order exactly if no second reason comes down to its stage. -/

namespace Conveyor

open Fallible

variable {g : StageGraph} {s : Stage} {need : String}

theorem StageGraph.Ordered.index?_eq (ordered : g.Ordered) {n : Nat} {t : Stage} (stage : g.stages[n]? = some t) :
    g.index? t.name = some n := by
  cases found : g.index? t.name with
  | none =>
    have declared : t.name ∈ g.stages.map (·.name) := List.mem_map_of_mem (List.mem_of_getElem? stage)
    exact (List.idxOf?_eq_none_iff.1 found declared).elim
  | some k =>
    obtain ⟨bound, same, _⟩ := List.idxOf?_eq_some_iff.1 found
    have bound : k < g.stages.length := by simpa using bound
    have other : g.stages[k]? = some g.stages[k] := by simp [bound]
    rw [ordered.unique other stage (by simpa using same)]

theorem StageGraph.requires_iff (ordered : g.Ordered) (named : g.Named) {i : Nat} (stage : g.stages[i]? = some s) :
    g.Requires s.name need ↔ ∃ n t, g.Needs i n ∧ g.stages[n]? = some t ∧ t.name = need := by
  constructor
  · rintro ⟨s', declared, same, listed⟩
    obtain ⟨k, place⟩ := List.mem_iff_getElem?.1 declared
    cases ordered.unique place stage same
    cases place.symm.trans stage
    obtain ⟨n, required, rfl⟩ := (named.needs_iff stage).1 listed
    obtain ⟨t, known⟩ := ordered.stage ((ordered.complete n).2 (ordered.needs i n required).2)
    exact ⟨n, t, required, known, (nameAt_eq known).symm⟩
  · rintro ⟨n, t, required, known, rfl⟩
    exact ⟨s, List.mem_of_getElem? stage, rfl, (named.needs_iff stage).2 ⟨n, required, nameAt_eq known⟩⟩

namespace Coordinator

def statusOf (c : Coordinator) (stage : String) : Option Status := (c.setup.graph.index? stage).bind c.stageStatus

/-- A reason for which a stage can be skipped: one of its needs has failed; or none has, and one of them has been skipped
and could be so for this reason; or all of them have succeeded, which leaves it to the gate. -/
inductive Warrants (c : Coordinator) : String → SkipReason → Prop
  | failed {stage need : String} (required : c.setup.graph.Requires stage need)
      (failed : c.statusOf need = some .failed) : Warrants c stage .dependencyFailed
  | inherited {stage need : String} {why : SkipReason}
      (unfailed : ∀ other, c.setup.graph.Requires stage other → c.statusOf other ≠ some .failed)
      (required : c.setup.graph.Requires stage need) (skipped : c.statusOf need = some .skipped)
      (before : Warrants c need why) : Warrants c stage why
  | gate {stage : String}
      (succeeded : ∀ need, c.setup.graph.Requires stage need → c.statusOf need = some .succeeded) :
      Warrants c stage .gateClosed

/-- Every skipped job was told what follows from the needs and the condition of its stage. -/
structure Explained (c : Coordinator) : Prop where
  ordered : c.setup.graph.Ordered
  named : c.setup.graph.Named
  told : ∀ j r, c.record? j = some r → r.status = .skipped →
    ∃ remark, c.Decided r.job.stage (.skipped, remark) ∧ r.skipReason = remark.skipReason

theorem opening_reason {c : Coordinator} {s : Stage} {outcomes : List (String × Status × Option SkipReason)}
    {remark : Remark} (skipped : c.opening s outcomes = (.skipped, remark)) :
    (∃ outcome ∈ outcomes, outcome.2.1 = .failed) ∧ remark.skipReason = some .dependencyFailed ∨
      (¬ ∃ outcome ∈ outcomes, outcome.2.1 = .failed) ∧
        (∃ need reason, outcomes.find? (·.2.1 = .skipped) = some (need, .skipped, reason) ∧
          remark.skipReason = some (reason.getD .gateClosed)) ∨
      (¬ ∃ outcome ∈ outcomes, outcome.2.1 = .failed) ∧ (¬ ∃ outcome ∈ outcomes, outcome.2.1 = .skipped) ∧
        remark.skipReason = some .gateClosed := by
  have none {status : Status} (unfound : outcomes.find? (·.2.1 = status) = none) :
      ¬ ∃ outcome ∈ outcomes, outcome.2.1 = status := by
    intro present
    obtain ⟨outcome, member, state⟩ := present
    exact List.find?_eq_none.1 unfound outcome member (decide_eq_true state)
  unfold opening at skipped
  split at skipped
  next name _ found =>
    cases skipped
    exact Or.inl ⟨⟨_, List.mem_of_find?_eq_some found, by simpa using List.find?_some found⟩, rfl⟩
  next name status reason unfailed found =>
    cases skipped
    have state : status = .skipped := by simpa using List.find?_some found
    subst state
    exact Or.inr (Or.inl ⟨none unfailed, name, reason, found, rfl⟩)
  next unfailed unskipped =>
    split at skipped
    next => cases skipped
    next =>
      cases skipped
      exact Or.inr (Or.inr ⟨none unfailed, none unskipped, rfl⟩)

theorem stageOutcome_reason {c : Coordinator} {n : Nat} {reason : Option SkipReason}
    (settled : c.stageOutcome n = some (.skipped, reason)) :
    ∃ j r, c.record? j = some r ∧ r.job.stage = c.stageName n ∧ r.status = .skipped ∧ r.skipReason = reason := by
  obtain ⟨opened, _⟩ := stageOutcome_some settled
  have all : ∀ r ∈ c.recordsOf (c.stageName n), r.status = .skipped := by
    rcases stageOutcome_cases settled with ⟨other, _⟩ | ⟨_, all⟩ | other
    · cases other
    · exact all
    · cases other
  cases records : c.recordsOf (c.stageName n) with
  | nil =>
    have empty := stageOutcome_succeeded opened (by simp [records])
    cases settled.symm.trans empty
  | cons first rest =>
    have present : first ∈ c.recordsOf (c.stageName n) := by simp [records]
    have shown := stageOutcome_skipped opened present all
    rw [settled, records] at shown
    obtain ⟨j, found, home⟩ := mem_recordsOf.1 present
    refine ⟨j, first, found, home, all first present, ?_⟩
    simpa using shown.symm

section

variable {c : Coordinator} (ordered : c.setup.graph.Ordered)

include ordered

theorem statusOf_eq {n : Nat} {t : Stage} (stage : c.setup.graph.stages[n]? = some t) :
    c.statusOf t.name = c.stageStatus n := by
  rw [statusOf, ordered.index?_eq stage]
  rfl

variable (named : c.setup.graph.Named)

include named

theorem exists_required {i : Nat} {s : Stage} (stage : c.setup.graph.stages[i]? = some s) (status : Status) :
    (∃ need, c.setup.graph.Requires s.name need ∧ c.statusOf need = some status) ↔
      ∃ n, c.setup.graph.Needs i n ∧ c.stageStatus n = some status := by
  simp only [StageGraph.requires_iff ordered named stage]
  constructor
  · rintro ⟨_, ⟨n, t, required, known, rfl⟩, ended⟩
    exact ⟨n, required, (statusOf_eq ordered known).symm.trans ended⟩
  · rintro ⟨n, required, ended⟩
    obtain ⟨t, known⟩ := ordered.stage ((ordered.complete n).2 (ordered.needs i n required).2)
    exact ⟨t.name, ⟨n, t, required, known, rfl⟩, (statusOf_eq ordered known).trans ended⟩

omit named in
theorem find_prerequisite {i : Nat} {outcomes : List (String × Status × Option SkipReason)}
    (settled : c.prerequisites? i = some outcomes) {outcome : String × Status × Option SkipReason} {status : Status}
    (first : outcomes.find? (·.2.1 = status) = some outcome) :
    ∃ n t, c.setup.graph.Needs i n ∧ c.setup.graph.stages[n]? = some t ∧ t.name = outcome.1 ∧
      c.stageOutcome n = some outcome.2 := by
  obtain ⟨n, required, name, ended⟩ := (mem_prerequisites settled).1 (List.mem_of_find?_eq_some first)
  obtain ⟨t, known⟩ := ordered.stage ((ordered.complete n).2 (ordered.needs i n required).2)
  rw [stageName, known] at name
  exact ⟨n, t, required, known, name, ended⟩

theorem find_need {i : Nat} {s : Stage} (stage : c.setup.graph.stages[i]? = some s)
    {outcomes : List (String × Status × Option SkipReason)} (settled : c.prerequisites? i = some outcomes)
    (status : Status) :
    s.needs.find? (fun need => c.statusOf need = some status) = (outcomes.find? (·.2.1 = status)).map (·.1) := by
  rw [prerequisites?_eq settled, named.find stage, List.find?_map, Option.map_map]
  congr 1
  apply List.find?_congr
  intro n required
  obtain ⟨t, known⟩ := ordered.stage ((ordered.complete n).2 (ordered.needs i n required).2)
  obtain ⟨_, _, image⟩ := mapM_some_member settled required
  obtain ⟨outcome, ended, _⟩ := Option.map_eq_some_iff.1 image
  rw [StageGraph.nameAt_eq known, statusOf_eq ordered known, stageStatus_eq ended, Function.comp_apply, ended]
  simp

end

variable {j : Nat} {r : JobRecord}

/-- The reason of a skipped job follows from what was decided when its stage was opened. -/
theorem Explained.decision {c : Coordinator} (explained : c.Explained) {i : Nat} {s : Stage}
    (stage : c.setup.graph.stages[i]? = some s) (found : c.record? j = some r) (home : r.job.stage = s.name)
    (skipped : r.status = .skipped) :
    ∃ outcomes remark, c.prerequisites? i = some outcomes ∧ c.opening s outcomes = (.skipped, remark) ∧
      r.skipReason = remark.skipReason := by
  obtain ⟨remark, ⟨k, t, outcomes, place, same, settled, change⟩, told⟩ := explained.told j r found skipped
  cases explained.ordered.unique place stage (same.trans home)
  cases place.symm.trans stage
  exact ⟨outcomes, remark, settled, change, told⟩

/-- What is shown to hold stage by stage, along the order, holds of the stage of every skipped job. -/
theorem Explained.along {c : Coordinator} (explained : c.Explained) (holds : JobRecord → Prop)
    (step : ∀ i s, c.setup.graph.stages[i]? = some s →
      (∀ n t, c.setup.graph.Needs i n → c.setup.graph.stages[n]? = some t → ∀ j r, c.record? j = some r →
        r.job.stage = t.name → r.status = .skipped → holds r) →
      ∀ j r, c.record? j = some r → r.job.stage = s.name → r.status = .skipped → holds r)
    (found : c.record? j = some r) (skipped : r.status = .skipped) : holds r := by
  have all : ∀ i ∈ c.setup.graph.order, ∀ s, c.setup.graph.stages[i]? = some s → ∀ j r, c.record? j = some r →
      r.job.stage = s.name → r.status = .skipped → holds r := by
    apply explained.ordered.induction
    intro i _ ih s stage
    exact step i s stage fun n t need known => ih n need t known
  obtain ⟨_, ⟨i, s, _, stage, same, _⟩, _⟩ := explained.told j r found skipped
  have listed := (explained.ordered.complete i).2 (List.getElem?_eq_some_iff.1 stage).1
  exact all i listed s stage j r found same.symm skipped

theorem Explained.warranted {c : Coordinator} (explained : c.Explained) (found : c.record? j = some r)
    (skipped : r.status = .skipped) :
    ∃ why, r.skipReason = some why ∧ c.Warrants r.job.stage why := by
  have ordered := explained.ordered
  have named := explained.named
  refine explained.along (fun r => ∃ why, r.skipReason = some why ∧ c.Warrants r.job.stage why)
    (fun i s stage ih j r found home skipped => ?_) found skipped
  obtain ⟨outcomes, remark, settled, change, told⟩ := explained.decision stage found home skipped
  have needs (status : Status) :=
    (exists_prerequisite settled status).trans (exists_required ordered named stage status).symm
  rw [home]
  rcases opening_reason change with ⟨failed, reason⟩ | ⟨unfailed, inherits⟩ | ⟨unfailed, unskipped, reason⟩
  · obtain ⟨need, required, failed⟩ := (needs .failed).1 failed
    exact ⟨_, told.trans reason, .failed required failed⟩
  · obtain ⟨need, given, first, reason⟩ := inherits
    rw [needs] at unfailed
    obtain ⟨n, t, required, known, rfl, ended⟩ := find_prerequisite ordered settled first
    obtain ⟨k, q, held, member, status, given⟩ := stageOutcome_reason ended
    rw [stageName, known] at member
    obtain ⟨why, said, warrants⟩ := ih n t required known k q held member status
    rw [← given, said] at reason
    refine ⟨why, told.trans reason, .inherited ?_ ?_ ?_ (member ▸ warrants)⟩
    · exact fun other asked failed => unfailed ⟨other, asked, failed⟩
    · exact (StageGraph.requires_iff ordered named stage).2 ⟨n, t, required, known, rfl⟩
    · exact (statusOf_eq ordered known).trans (stageStatus_eq ended)
  · refine ⟨_, told.trans reason, .gate fun need required => ?_⟩
    obtain ⟨n, t, asked, known, rfl⟩ := (StageGraph.requires_iff ordered named stage).1 required
    obtain ⟨_, member, image⟩ := mapM_some_member settled asked
    obtain ⟨outcome, ended, rfl⟩ := Option.map_eq_some_iff.1 image
    rw [statusOf_eq ordered known, stageStatus_eq ended]
    rcases stageOutcome_cases ended with ⟨rfl, _⟩ | ⟨⟨why, rfl⟩, _⟩ | rfl
    · rfl
    · exact (unskipped ⟨_, member, rfl⟩).elim
    · exact (unfailed ⟨_, member, rfl⟩).elim

namespace Akin

variable {c c' : Coordinator}

theorem statusOf (akin : c.Akin c') (stage : String) : c'.statusOf stage = c.statusOf stage := by
  unfold Coordinator.statusOf StageGraph.index?
  rw [Graph.names_akin akin.graph.stages, funext akin.stageStatus]

theorem requires (akin : c.Akin c') (stage need : String) :
    c'.setup.graph.Requires stage need ↔ c.setup.graph.Requires stage need := by
  have stages := akin.graph.stages
  unfold StageGraph.Requires
  generalize c.setup.graph.stages = stages, c'.setup.graph.stages = stages' at stages
  induction stages with
  | nil => rfl
  | cons first _ ih => simp only [List.exists_mem_cons_iff, first.name, first.needs, ih]

theorem warrants (akin : c.Akin c') {stage : String} {why : SkipReason} (warrants : c'.Warrants stage why) :
    c.Warrants stage why := by
  induction warrants with
  | failed required failed => exact .failed ((akin.requires _ _).1 required) ((akin.statusOf _).symm.trans failed)
  | inherited unfailed required skipped _ ih =>
    refine .inherited ?_ ((akin.requires _ _).1 required) ((akin.statusOf _).symm.trans skipped) ih
    intro other asked
    rw [← akin.statusOf]
    exact unfailed other ((akin.requires _ _).2 asked)
  | gate succeeded =>
    refine .gate fun need required => ?_
    rw [← akin.statusOf]
    exact succeeded need ((akin.requires _ _).2 required)

/-- The same reason is given in both runs where only one comes down to the stage. -/
theorem reason (akin : c.Akin c') (explained : c.Explained) (explained' : c'.Explained) {j : Nat} {r r' : JobRecord}
    (found : c.record? j = some r) (found' : c'.record? j = some r')
    (sole : ∀ why why', c.Warrants r.job.stage why → c.Warrants r.job.stage why' → why' = why) :
    r'.skipReason = r.skipReason := by
  obtain ⟨_, again, alike⟩ := akin.found found
  cases found'.symm.trans again
  by_cases skipped : r.status = .skipped
  · obtain ⟨why, said, warrants⟩ := explained.warranted found skipped
    obtain ⟨why', said', warrants'⟩ := explained'.warranted found' (alike.status.trans skipped)
    rw [alike.job] at warrants'
    rw [said, said', sole why why' warrants (akin.warrants warrants')]
  · rw [alike.eq_of_unskipped skipped]

end Akin
end Coordinator

/-! ### Needs in another order -/

def Stage.favour (favoured : String → Bool) (s : Stage) : Stage :=
  { s with needs := s.needs.filter favoured ++ s.needs.filter fun need => !favoured need }

/-- The pipeline with the needs of a kind before all others in every stage. -/
def Pipeline.favour (favoured : String → Bool) (p : Pipeline) : Pipeline :=
  { p with stages := p.stages.map (Stage.favour favoured) }

theorem Stage.favour_akin (favoured : String → Bool) (s : Stage) : s.Akin (s.favour favoured) := by
  refine ⟨rfl, fun need => ?_⟩
  cases chosen : favoured need <;> simp [favour, chosen]

theorem Pipeline.favour_akin (favoured : String → Bool) (p : Pipeline) : p.Akin (p.favour favoured) := by
  refine ⟨rfl, ?_⟩
  rw [favour, List.forall₂_map_right_iff]
  exact List.forall₂_same.2 fun s _ => s.favour_akin favoured

theorem Pipeline.favour_layered (favoured : String → Bool) (p : Pipeline) :
    RunGraph.layered (p.favour favoured) = (RunGraph.layered p).map (Stage.favour favoured) := by
  unfold RunGraph.layered Pipeline.favour
  simp only
  split
  next => rfl
  next => simp [Stage.favour]

/-- If a stage has a favoured need, then the first of its needs of any kind to which these belong is favoured. -/
theorem Stage.favour_find {favoured wanted : String → Bool} (listed : need ∈ s.needs) (chosen : favoured need = true)
    (among : ∀ need, favoured need = true → wanted need = true) :
    ∃ first, (s.favour favoured).needs.find? wanted = some first ∧ favoured first = true := by
  have present : ((s.needs.filter favoured).find? wanted).isSome := by
    rw [List.find?_isSome]
    exact ⟨need, by simp [listed, chosen], among need chosen⟩
  obtain ⟨first, found⟩ := Option.isSome_iff_exists.1 present
  refine ⟨first, by simp [favour, List.find?_append, found], ?_⟩
  exact (List.mem_filter.1 (List.mem_of_find?_eq_some found)).2

/-- In a graph with favoured needs, the first need of a kind is favoured if any need of the stage is. -/
theorem StageGraph.first_favoured (ordered : g.Ordered) (named : g.Named) {i : Nat} (stage : g.stages[i]? = some s)
    {favoured wanted : String → Bool} {stages : List Stage} (arranged : g.stages = stages.map (Stage.favour favoured))
    (required : g.Requires s.name need) (chosen : favoured need = true)
    (among : ∀ need, favoured need = true → wanted need = true) {first : String}
    (found : s.needs.find? wanted = some first) : favoured first = true := by
  obtain ⟨n, t, asked, known, rfl⟩ := (requires_iff ordered named stage).1 required
  have listed := (named.needs_iff stage).2 ⟨n, asked, nameAt_eq known⟩
  have declared := List.mem_of_getElem? stage
  rw [arranged] at declared
  obtain ⟨given, _, rfl⟩ := List.mem_map.1 declared
  obtain ⟨_, again, chief⟩ := Stage.favour_find (((given.favour_akin favoured).needs _).1 listed) chosen among
  cases found.symm.trans again
  exact chief

namespace Coordinator

/-- Where the needs to which a reason comes down are favoured, every job is skipped for it that can be. -/
theorem Explained.favoured {c c' : Coordinator} (explained : c'.Explained) (akin : c.Akin c') {why : SkipReason}
    {favoured : String → Bool}
    (chosen : ∀ need, favoured need = true ↔ c.statusOf need = some .skipped ∧ c.Warrants need why)
    {stages : List Stage} (arranged : c'.setup.graph.stages = stages.map (Stage.favour favoured)) {j : Nat}
    {r : JobRecord} (found : c'.record? j = some r) (skipped : r.status = .skipped) :
    c.Warrants r.job.stage why → r.skipReason = some why := by
  have ordered := explained.ordered
  have named := explained.named
  refine explained.along (fun r => c.Warrants r.job.stage why → r.skipReason = some why)
    (fun i s stage ih j r found home skipped warrants => ?_) found skipped
  obtain ⟨outcomes, remark, settled, change, told⟩ := explained.decision stage found home skipped
  rw [home] at warrants
  have needs (status : Status) : (∃ outcome ∈ outcomes, outcome.2.1 = status) ↔
      ∃ need, c.setup.graph.Requires s.name need ∧ c.statusOf need = some status := by
    rw [exists_prerequisite settled, ← exists_required ordered named stage]
    simp only [akin.requires, akin.statusOf]
  rw [told]
  rcases opening_reason change with ⟨failed, reason⟩ | ⟨unfailed, inherits⟩ | ⟨unfailed, unskipped, reason⟩
  · obtain ⟨need, required, failed⟩ := (needs .failed).1 failed
    cases warrants with
    | failed => exact reason
    | inherited unfailed => exact (unfailed need required failed).elim
    | gate succeeded => cases (succeeded need required).symm.trans failed
  · obtain ⟨need, given, first, reason⟩ := inherits
    obtain ⟨n, t, required, known, rfl, ended⟩ := find_prerequisite ordered settled first
    have asked := (akin.requires _ _).1 ((StageGraph.requires_iff ordered named stage).2 ⟨n, t, required, known, rfl⟩)
    have state : c.statusOf t.name = some .skipped := by
      rw [← akin.statusOf, statusOf_eq ordered known, stageStatus_eq ended]
    cases warrants with
    | failed required failed => exact (unfailed ((needs .failed).2 ⟨_, required, failed⟩)).elim
    | gate succeeded => cases (succeeded t.name asked).symm.trans state
    | inherited _ other skipped before =>
      -- The first skipped need is a favoured one, so the reason has come down to it.
      have found := find_need ordered named stage settled .skipped
      rw [first, Option.map_some] at found
      have heir : favoured t.name = true := by
        refine StageGraph.first_favoured ordered named stage arranged ((akin.requires _ _).2 other)
          ((chosen _).2 ⟨skipped, before⟩) (fun need favour => ?_) found
        exact decide_eq_true ((akin.statusOf need).trans ((chosen need).1 favour).1)
      obtain ⟨k, q, held, member, status, same⟩ := stageOutcome_reason ended
      rw [stageName, known] at member
      have said := ih n t required known k q held member status (member ▸ ((chosen _).1 heir).2)
      rw [reason, ← same, said]
      rfl
  · cases warrants with
    | failed required failed => exact (unfailed ((needs .failed).2 ⟨_, required, failed⟩)).elim
    | inherited _ required skipped => exact (unskipped ((needs .skipped).2 ⟨_, required, skipped⟩)).elim
    | gate => exact reason

end Coordinator

/-! ### Runs -/

namespace Moment

open Coordinator

variable {ω : Type} [World ω] {m m' : Moment ω}

theorem Step.explained (step : Step m m') (explained : m.coord.Explained) : m'.coord.Explained := by
  refine ⟨by rw [step.frame.1]; exact explained.ordered, by rw [step.frame.1]; exact explained.named, ?_⟩
  intro j r' found' skipped
  obtain ⟨r, found, _⟩ := step.evolved.source found'
  have fate := step.fate_of found found'
  cases fate with
  | kept =>
    obtain ⟨remark, decided, told⟩ := explained.told j _ found skipped
    exact ⟨remark, step.decided decided, told⟩
  | @opened _ i s outcomes stage _ _ settled member =>
    obtain ⟨why, said⟩ := opening_skipped skipped
    have shape : m.coord.opening s outcomes = (.skipped, (m.coord.opening s outcomes).2) :=
      Prod.ext skipped rfl
    have decided := step.decided ⟨i, s, outcomes, stage, member.symm, settled, rfl⟩
    rw [shape] at decided
    exact ⟨_, decided, by simp [JobRecord.moved, said]⟩
  | lacked => cases skipped
  | launched => cases skipped
  | @returned _ outcome _ _ _ _ fault =>
    cases outcome with
    | succeeded => cases fault <;> cases skipped
    | cancelled => cases skipped
    | failed => cases skipped
  | expired => cases skipped
  | stopped => cases skipped

/-- At every moment of a run the skipped jobs have been told what follows from the needs of their stages. -/
theorem Path.explained {p : Pipeline} {early : Option Context} {g : RunGraph} (built : RunGraph.build p early = .ok g)
    {setup : Setup} (graph : setup.graph = g.graph) {w : ω} (path : Path (Operation.start setup g w).moment m) :
    m.coord.Explained := by
  have made := RunGraph.build_graph built
  rw [← graph] at made
  refine path.preserves (fun m => m.coord.Explained) (fun _ _ step => step.explained) ?_
  refine ⟨(StageGraph.build_ordered made).2.2, StageGraph.build_named made, fun j r found skipped => ?_⟩
  obtain ⟨job, _, rfl⟩ := Operation.start_record found
  cases skipped

end Moment

end Conveyor

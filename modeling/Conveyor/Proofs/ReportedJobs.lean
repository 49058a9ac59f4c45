import Conveyor.Proofs.CombinationKeys
import Conveyor.Proofs.EngineRuns
import Conveyor.Proofs.TriggerClauses

/-! Which runs report all their jobs. Combinations are compared as texts when a pipeline is checked, and as values when
jobs are looked up. A run that does not break off reports every job, in order and ended, if and only if the values tell
all jobs apart; two combinations that differ as texts only are merged into one job, and the run may not come to its
end. -/

namespace Conveyor

theorem Coordinator.unmerged_of_reported {c : Coordinator} (all : c.reported.length = c.records.length) :
    (c.records.map (·.job)).Pairwise fun a b => a.sameKey b = false := by
  have kept : c.firsts.length = (List.range c.records.length).length := by
    have some : c.reported.length ≤ c.firsts.length := List.length_filterMap_le _ _
    have most : c.firsts.length ≤ (List.range c.records.length).length := List.length_filter_le _ _
    rw [List.length_range] at most ⊢
    omega
  have first := List.length_filter_eq_length_iff.1 kept
  rw [List.pairwise_iff_getElem]
  intro i j inside inside' before
  rw [List.length_map] at inside inside'
  have fresh := first j (List.mem_range.2 inside')
  rw [Bool.not_eq_true', List.any_eq_false] at fresh
  have unshared := fresh i (List.mem_range.2 before)
  have place : c.record? i = some c.records[i] := List.getElem?_eq_getElem inside
  have place' : c.record? j = some c.records[j] := List.getElem?_eq_getElem inside'
  simp only [sharesKey, place, place', Bool.or_eq_true, not_or, Bool.not_eq_true] at unshared
  simpa using unshared.2

/-- No stage has two combinations that are equal as values. -/
def Pipeline.Unmerged (p : Pipeline) : Prop :=
  ∀ s ∈ p.stages, ∀ found, s.combinations = .ok found → found.Pairwise fun a b => Value.alikePairsInOrder a b = false

namespace Engine

open Moment

variable {ω : Type} [World ω] {α : Type} {executors : Registry α} {settings : Settings} {processors : Nat} {p : Pipeline}
  {context : Context} {g : RunGraph} {world : ω}

/-- The run of a pipeline comes to an end after some turns, and its report lists the jobs of the graph in their order,
all of which have ended. -/
def ListsAll (executors : Registry α) (settings : Settings) (processors : Nat) (p : Pipeline) (context : Context)
    (world : ω) (g : RunGraph) : Prop :=
  ∃ n last final report, Operation.Turns (opening settings processors g context world) n last ∧
    last.turn = .ok (final, false) ∧ (run executors settings processors p context world).result = .ok report ∧
    report.jobs.map (·.job) = g.allJobs ∧ ∀ r ∈ report.jobs, r.status.isTerminal = true

/-- After some turns one breaks off. -/
def BreaksOff (start : Operation ω) : Prop := ∃ n last halt, Operation.Turns start n last ∧ last.turn = .error halt

/-- A run that comes to its end does not break off: there is only one way for it to go. -/
theorem BreaksOff.not_ended {start last final : Operation ω} (breaks : BreaksOff start) {n : Nat}
    (turns : Operation.Turns start n last) (ended : last.turn = .ok (final, false)) : False := by
  obtain ⟨_, _, halt, before, broken⟩ := breaks
  have : Nonempty (Operation ω) := ⟨start⟩
  have performed := (before.broken broken).perform
  rw [turns.perform ended] at performed
  cases performed

theorem ListsAll.unmerged (valid : Validation.check executors p = .ok ())
    (triggered : Trigger.anyAccepts p.triggers context = true) (built : RunGraph.build p (some context) = .ok g)
    (lists : ListsAll executors settings processors p context world g) :
    g.allJobs.Pairwise fun a b => a.sameKey b = false := by
  obtain ⟨n, last, final, report, turns, ended, result, listed, _⟩ := lists
  have path := turns.path.trans (Operation.turn_path ended).1
  have runs : Runs g final.moment := Path.preserves (Runs g) (fun _ _ step runs => runs.step step) path (.start rfl _)
  have jobs : final.coord.records.map (·.job) = g.allJobs := runs.jobs
  have reported : report.jobs = final.coord.reported := by
    rw [run_result valid triggered built, turns.run_eq ended] at result
    by_cases none : final.coord.unfinished = []
    · rw [if_pos none] at result
      cases result
      rfl
    · rw [if_neg none] at result
      cases result
  rw [← jobs]
  apply Coordinator.unmerged_of_reported
  have size := congrArg List.length (listed.trans jobs.symm)
  rwa [List.length_map, List.length_map, reported] at size

/-- A run reports all jobs of a valid pipeline, in their order and all ended, if and only if its jobs can be made, no
stage has two combinations that are equal as values, and no turn breaks off. A turn of such a run breaks off only at a
filter that cannot be written, at a limit or a wait that is too long, or at an interruption. -/
theorem lists_all_iff (valid : Validation.check executors p = .ok ()) (texts : p.TextKeys)
    (triggered : Trigger.anyAccepts p.triggers context = true) (checked : settings.checked = .ok settings)
    (roster : Roster ω) (vacant : roster.postings world = [])
    (fair : ∀ g, RunGraph.build p (some context) = .ok g → roster.Fair (opening settings processors g context world)) :
    ((∃ g, RunGraph.build p (some context) = .ok g ∧ ListsAll executors settings processors p context world g) ↔
      p.Unmerged ∧ ∃ g, RunGraph.build p (some context) = .ok g ∧
        ¬ BreaksOff (opening settings processors g context world)) ∧
    ∀ g, RunGraph.build p (some context) = .ok g → p.Unmerged →
      BreaksOff (opening settings processors g context world) →
        ∃ fault, (run executors settings processors p context world).result = .error (.broken fault) ∧
          (opening settings processors g context world).Strained fault := by
  have distinct {g : RunGraph} (built : RunGraph.build p (some context) = .ok g) (apart : p.Unmerged) :
      g.DistinctKeys := (RunGraph.distinctKeys_iff texts built).2 ((RunGraph.unmerged_iff built).2 apart)
  refine ⟨⟨?_, ?_⟩, ?_⟩
  · rintro ⟨g, built, lists⟩
    refine ⟨(RunGraph.unmerged_iff built).1 (lists.unmerged valid triggered built), g, built, ?_⟩
    obtain ⟨n, last, final, _, turns, ended, _⟩ := lists
    exact fun breaks => breaks.not_ended turns ended
  · rintro ⟨apart, g, built, whole⟩
    obtain ⟨n, last, turns, ⟨final, ended, completed⟩ | ⟨halt, broken, _⟩⟩ :=
      opening_ends built (distinct built apart) checked vacant (fair g built)
    · have reported := completed.reported (distinct built apart)
      refine ⟨g, built, n, last, final, _, turns, ended, (run_ok valid triggered built completed.done).1, ?_, ?_⟩
      · exact (congrArg _ reported).trans completed.jobs
      · intro r member
        exact completed.ended r (reported ▸ member)
    · exact (whole ⟨n, last, halt, turns, broken⟩).elim
  · intro g built apart breaks
    obtain ⟨n, last, turns, ⟨final, ended, _⟩ | ⟨halt, _, broken, strained⟩⟩ :=
      opening_ends built (distinct built apart) checked vacant (fair g built)
    · exact (breaks.not_ended turns ended).elim
    · exact ⟨halt.fault, by rw [run_result valid triggered built, broken], strained⟩

/-- All jobs of the builds for two systems are reported. -/
theorem release_lists_all :
    ∃ g, RunGraph.build release (some pushed) = .ok g ∧
      ListsAll shells { maxWorkers := some 2 } 1 release pushed ({} : Workshop building) g := by
  have texts : release.TextKeys := Pipeline.textKeys_of_axes (by simp [release, crossBuild])
  have populated := RunGraph.build_populated release_built
  have lists := @lists_all_iff (Workshop building) _ _ shells { maxWorkers := some 2 } 1 release pushed {} release_valid
    texts (Trigger.anyAccepts_unfiltered (by decide)) rfl Workshop.roster rfl ?_
  · refine lists.1.2 ⟨(RunGraph.unmerged_iff release_built).1 (crossBuild_distinct.imp And.left), _, release_built, ?_⟩
    intro breaks
    have calm : Operation.Calm crossBuildGraph
        (opening { maxWorkers := some 2 } 1 crossBuildGraph pushed ({} : Workshop building)) :=
      Workshop.crossBuild_calm rfl
    obtain ⟨n, last, final, turns, ended, _⟩ := calm.ends populated crossBuild_distinct
      (RunGraph.build_written release_built) (by decide) (opening_orderly rfl)
      (Workshop.swift.fair populated crossBuild_distinct (opening_orderly rfl))
    exact breaks.not_ended turns ended
  · intro g built
    cases release_built.symm.trans built
    exact Workshop.swift.fair populated crossBuild_distinct (opening_orderly rfl)

/-- Builds with one job at a time and with "true" jobs at a time, and then a test. -/
def doubled : Pipeline :=
  { name := "doubled"
    triggers := [{ event := "push" }]
    stages := [
      { name := "build", steps := [{ uses := "shell" }], matrix := some { axes := [("jobs", [.int 1, .bool true])] } },
      { name := "test", steps := [{ uses := "shell" }], needs := ["build"] }] }

def doubledGraph : RunGraph :=
  { graph := { stages := doubled.stages, needs := [[], [0]], dependents := [[1], []], order := [0, 1] }
    jobs := [
      [{ stage := "build", index := 0, assignment := [(.str "jobs", .int 1)], steps := [{ uses := "shell" }] },
       { stage := "build", index := 1, assignment := [(.str "jobs", .bool true)], steps := [{ uses := "shell" }] }],
      [{ stage := "test", steps := [{ uses := "shell" }] }]]
    context := some pushed }

/-- The craft of doing what is asked for and publishing nothing. -/
def obedient : Craft := fun w => (w.context.staged, { exitStatus := 0 })

/-- The numeral and the truth value differ as texts but not as values. The pipeline is valid and has three jobs, of which
two are merged, and the run breaks off because the test never begins. -/
theorem doubled_breaks_off :
    Validation.check shells doubled = .ok () ∧ doubled.TextKeys ∧
      Trigger.anyAccepts doubled.triggers pushed = true ∧
      RunGraph.build doubled (some pushed) = .ok doubledGraph ∧ doubledGraph.allJobs.length = 3 ∧
      (run shells {} 1 doubled pushed ({} : Workshop obedient)).result = .error (.broken (.unfinished ["test"])) := by
  have valid : Validation.check shells doubled = .ok () := by decide +kernel
  have texts : doubled.TextKeys := Pipeline.textKeys_of_axes (by simp [doubled])
  have triggered : Trigger.anyAccepts doubled.triggers pushed = true := Trigger.anyAccepts_unfiltered (by decide)
  have built : RunGraph.build doubled (some pushed) = .ok doubledGraph := by decide +kernel
  refine ⟨valid, texts, triggered, built, by decide +kernel, ?_⟩
  obtain ⟨next, last, first, second, left⟩ : ∃ next last : Operation (Workshop obedient),
      (opening {} 1 doubledGraph pushed {}).turn = .ok (next, true) ∧ next.turn = .ok (last, false) ∧
        last.coord.unfinished = ["test"] := by
    refine ⟨_, _, by cbv, by cbv, by cbv⟩
  have turns : Operation.Turns (opening {} 1 doubledGraph pushed ({} : Workshop obedient)) 1 next :=
    .more first (.none next)
  rw [run_result valid triggered built, turns.run_eq second, left, if_neg (by simp)]

end Engine
end Conveyor

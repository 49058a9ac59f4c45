import Conveyor.Engine
import Conveyor.Proofs.RunCompletion

/-! Runs of pipelines. What earlier runs of the same jobs have stored is removed, then the jobs are run, and in the end
their artifacts are removed again unless they are kept. -/

namespace Conveyor

theorem Settings.one_le_workers {settings : Settings} (checked : settings.checked = .ok settings) (processors : Nat) :
    1 ≤ settings.workers processors := by
  unfold Settings.checked at checked
  split at checked
  · cases checked
  next enough =>
    unfold Settings.workers Settings.defaultWorkers
    split
    next n given =>
      rw [given] at enough
      simp only [Option.any_some, decide_eq_true_eq, Int.not_lt] at enough
      split <;> omega
    · omega

theorem Operation.Turns.run_eq {ω : Type} [World ω] {o last final : Operation ω} {n : Nat} (turns : Turns o n last)
    (ended : last.turn = .ok (final, false)) :
    o.run = if final.coord.unfinished = [] then .ok final
      else .error ⟨.unfinished final.coord.unfinished, final⟩ := by
  have : Nonempty (Operation ω) := ⟨o⟩
  have performed := turns.perform ended
  by_cases none : final.coord.unfinished = []
  · rw [if_pos none]
    exact Fallible.bind_ok.2 ⟨final, performed, if_pos (List.isEmpty_iff.2 none)⟩
  · rw [if_neg none, run, performed]
    exact if_neg (by simpa using none)

namespace Engine

variable {ω : Type} [World ω]

theorem get?_discardAll (keeps : World.Keeps ω) (jobs : List Job) (world : ω) (key : ArtifactKey) :
    ArtifactStore.get? (discardAll jobs world) key =
      if key.producer ∈ jobs.map Job.producer then none else ArtifactStore.get? world key := by
  unfold discardAll
  induction jobs generalizing world with
  | nil => simp
  | cons job jobs ih =>
    rw [List.foldl_cons, ih, keeps.discarded]
    by_cases here : key.producer = job.producer
    · simp [here]
    · simp [here]

theorem postings_discardAll (roster : Roster ω) (jobs : List Job) (world : ω) :
    roster.postings (discardAll jobs world) = roster.postings world := by
  unfold discardAll
  induction jobs generalizing world with
  | nil => rfl
  | cons job jobs ih => rw [List.foldl_cons, ih, roster.discarded]

def opening (settings : Settings) (processors : Nat) (g : RunGraph) (context : Context) (world : ω) : Operation ω :=
  .start
    { graph := g.graph, context, workers := settings.workers processors, timeout := settings.jobTimeout } g
    (discardAll g.allJobs world)

variable {α : Type} {executors : Registry α} {settings : Settings} {processors : Nat} {p : Pipeline} {context : Context}
  {g : RunGraph} {world : ω}

theorem run_result (valid : Validation.check executors p = .ok ())
    (triggered : Trigger.anyAccepts p.triggers context = true) (built : RunGraph.build p (some context) = .ok g) :
    (run executors settings processors p context world).result =
      match (opening settings processors g context world).run with
      | .ok final => .ok { final.coord.report with pipeline := p.name }
      | .error halt => .error (.broken halt.fault) := by
  simp only [run, valid, triggered, built, schedule, Bool.not_true, Bool.false_eq_true, if_false]
  unfold opening
  generalize (Operation.start _ g (discardAll g.allJobs world)).run = outcome
  cases outcome <;> rfl

theorem run_ok (valid : Validation.check executors p = .ok ())
    (triggered : Trigger.anyAccepts p.triggers context = true) (built : RunGraph.build p (some context) = .ok g)
    {final : Operation ω} (done : (opening settings processors g context world).run = .ok final) :
    (run executors settings processors p context world).result =
        .ok { final.coord.report with pipeline := p.name } ∧
      (run executors settings processors p context world).world =
        if settings.keepArtifacts then final.world else discardAll g.allJobs final.world := by
  constructor
  · rw [run_result valid triggered built, done]
  · unfold opening at done
    simp only [run, valid, triggered, built, schedule, done, Bool.not_true, Bool.false_eq_true, if_false]

theorem opening_orderly {roster : Roster ω} (vacant : roster.postings world = []) :
    Moment.Orderly g roster (opening settings processors g context world).moment :=
  Moment.orderly_start rfl roster ((postings_discardAll roster _ world).trans vacant)

theorem opening_ends (built : RunGraph.build p (some context) = .ok g) (distinct : g.DistinctKeys)
    (checked : settings.checked = .ok settings) {roster : Roster ω} (vacant : roster.postings world = [])
    (fair : roster.Fair (opening settings processors g context world)) :
    let start := opening settings processors g context world
    ∃ n last, Operation.Turns start n last ∧
      ((∃ final, last.turn = .ok (final, false) ∧ Operation.Completed g start final) ∨
        ∃ halt, last.turn = .error halt ∧ start.run = .error halt ∧ start.Strained halt.fault) :=
  Operation.run_ends (RunGraph.build_populated built) distinct (RunGraph.build_written built)
    (settings.one_le_workers checked processors) (opening_orderly vacant) fair

end Engine
end Conveyor

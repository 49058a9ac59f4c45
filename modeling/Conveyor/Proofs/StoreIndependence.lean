import Conveyor.Proofs.Plant
import Conveyor.Proofs.TriggerClauses

/-! What earlier runs have left in the store does not matter. Every read and every write of a run is at the address of one
of its jobs, and before the first job starts these addresses have been emptied. So two runs that differ only in what the
store holds at the beginning go through the same states turn by turn, ask the site for the same work, and end alike. -/

namespace Conveyor

open Fallible

variable {ω : Type} [Site ω] {jobs : List Job}

inductive Halt.Alike {σ : Type} (related : σ → σ → Prop) : Halt σ → Halt σ → Prop
  | intro {state state' : σ} (fault : SchedulerFault) (alike : related state state') :
      Alike related ⟨fault, state⟩ ⟨fault, state'⟩

namespace Coordinator

/-- The same coordinator, at plants that agree for some jobs. -/
inductive Twin (jobs : List Job) : Coordinator × Plant ω → Coordinator × Plant ω → Prop
  | intro {w w' : Plant ω} (c : Coordinator) (agrees : w.Agrees jobs w') : Twin jobs (c, w) (c, w')

variable {c : Coordinator} {w w' : Plant ω}

omit [Site ω] in
theorem settled_twin (agrees : w.Agrees jobs w') (c : Coordinator) (now : Double) (i : Nat) (next : Status)
    (remark : Remark) :
    Paired (Halt.Alike (Twin jobs)) (Twin jobs) (c.settled w now i next remark) (c.settled w' now i next remark) := by
  unfold settled
  cases c.transition now i next remark with
  | error halt => exact .error (.intro _ (.intro _ agrees))
  | ok moved => exact .ok (.intro _ agrees)

theorem commit_twin {job : Job} (member : job ∈ jobs) (agrees : w.Agrees jobs w') (i : Nat)
    (artifacts : List (String × Blob)) (c : Coordinator) :
    (commit i job artifacts c w').1 = (commit i job artifacts c w).1 ∧
      (commit i job artifacts c w').2.2 = (commit i job artifacts c w).2.2 ∧
      (commit i job artifacts c w).2.1.Agrees jobs (commit i job artifacts c w').2.1 := by
  induction artifacts generalizing c w w' with
  | nil => exact ⟨rfl, rfl, agrees⟩
  | cons artifact rest ih =>
    obtain ⟨name, blob⟩ := artifact
    rcases agrees.put member name blob with ⟨fault, refused, refused'⟩ | ⟨entry, v, v', stored, stored', after⟩
    · simpa only [commit, refused, refused', true_and] using agrees
    · simp only [commit, stored, stored']
      exact ih after _

theorem conclude_twin {job : Job} (member : job ∈ jobs) (agrees : w.Agrees jobs w') (c : Coordinator) (now : Double)
    (i : Nat) (outcome : Outcome) :
    Paired (Halt.Alike (Twin jobs)) (Twin jobs) (c.conclude w now i job outcome)
      (c.conclude w' now i job outcome) := by
  cases outcome with
  | cancelled => exact settled_twin agrees _ _ _ _ _
  | failed => exact settled_twin agrees _ _ _ _ _
  | succeeded steps artifacts =>
    obtain ⟨same, faults, after⟩ := commit_twin member agrees i (inNameOrder artifacts) (c.update i ({ · with steps }))
    unfold conclude
    simp only
    generalize commit i job (inNameOrder artifacts) (c.update i ({ · with steps })) w = first at same faults after ⊢
    generalize commit i job (inNameOrder artifacts) (c.update i ({ · with steps })) w' = second at same faults after ⊢
    obtain ⟨stored, v, fault⟩ := first
    obtain ⟨_, v', _⟩ := second
    cases same
    cases faults
    cases fault with
    | none => exact settled_twin after _ _ _ _ _
    | some fault => exact settled_twin after _ _ _ _ _

theorem collect_twin (held : c.records.map (·.job) = jobs) (agrees : w.Agrees jobs w') (now : Double)
    (finished : Nat × Completion) :
    Paired (Halt.Alike (Twin jobs)) (Twin jobs) (collect now (c, w) finished) (collect now (c, w') finished) := by
  obtain ⟨i, completion⟩ := finished
  unfold collect
  simp only
  cases completion with
  | interrupted => exact .error (.intro _ (.intro _ agrees))
  | returned outcome =>
    simp only
    split
    next => exact .ok (.intro _ agrees)
    next r found =>
      have member : r.job ∈ jobs := held ▸ List.mem_map_of_mem (List.mem_of_getElem? found)
      split
      next => exact conclude_twin member agrees _ _ _ _
      next => exact .ok (.intro _ agrees)

theorem settle_twin (held : c.records.map (·.job) = jobs) (agrees : w.Agrees jobs w') (now : Double)
    (finished : List (Nat × Completion)) :
    Paired (Halt.Alike (Twin jobs)) (Twin jobs) (c.settle w now finished) (c.settle w' now finished) := by
  have arrivals : Paired (Halt.Alike (Twin jobs)) (Twin jobs) ((c.byRank finished).foldlM (collect now) (c, w))
      ((c.byRank finished).foldlM (collect now) (c, w')) := by
    -- As long as the coordinator has the jobs of the run, what it stores is stored for one of them.
    apply Paired.foldlM (fun a => a.1.records.map (·.job) = jobs) _ held (.intro c agrees)
    · intro a finished a' held done
      have step : Moment.Step (⟨a.1, a.2, [finished], []⟩ : Moment (Plant ω)) ⟨a'.1, a'.2, [], []⟩ := .collects done
      exact Eq.trans step.evolved.sameJobs held
    · rintro _ _ finished held ⟨c, agrees⟩
      exact collect_twin held agrees now finished
  unfold settle
  apply arrivals.bind
  rintro _ _ _ ⟨collected, after⟩
  simp only
  split
  next => exact .ok (.intro _ after)
  next => exact .error (.intro _ (.intro _ after))

theorem takeUp_twin (held : c.records.map (·.job) = jobs) (agrees : w.Agrees jobs w') (now : Double) (i : Nat) :
    c.takeUp w' now i = c.takeUp w now i := by
  have read (refs : List ArtifactRef) : Inputs.resolve w' c.recordsOf refs = Inputs.resolve w c.recordsOf refs := by
    apply Inputs.resolve_congr (fun _ _ => rfl)
    intro r _ q selected
    obtain ⟨k, found, _⟩ := mem_recordsOf.1 (List.mem_of_mem_filter selected)
    exact agrees.stored q.job (held ▸ List.mem_map_of_mem (List.mem_of_getElem? found)) r.name
  simp only [takeUp, read]

theorem dispatchFrom_twin (agrees : w.Agrees jobs w') (now : Double) (queue : List Nat) {c : Coordinator}
    (held : c.records.map (·.job) = jobs) (ready : c.ready = queue) (count : Nat) :
    dispatchFrom w' now queue c count = dispatchFrom w now queue c count := by
  induction queue generalizing c count with
  | nil => rfl
  | cons i queue ih =>
    unfold dispatchFrom
    split
    next => rfl
    next free =>
      rw [takeUp_twin (c := { c with ready := queue }) held agrees]
      cases taken : takeUp { c with ready := queue } w now i with
      | error halt => rfl
      | ok result =>
        obtain ⟨c', taken'⟩ := result
        have step : Moment.Step (⟨c, w, [], []⟩ : Moment (Plant ω)) ⟨c', w, [], []⟩ := .takes ready (by omega) taken
        exact ih (Eq.trans step.evolved.sameJobs held) (takeUp_ok taken).frame.2.2 _

end Coordinator

namespace Operation

/-- The same run, at plants that agree for its jobs. -/
inductive Agrees (jobs : List Job) : Operation (Plant ω) → Operation (Plant ω) → Prop
  | intro {w w' : Plant ω} (c : Coordinator) (world : w.Agrees jobs w') : Agrees jobs ⟨c, w⟩ ⟨c, w'⟩

/-- The same answer whether there is more to do, in runs that agree. -/
inductive Answers (jobs : List Job) : Operation (Plant ω) × Bool → Operation (Plant ω) × Bool → Prop
  | intro {o o' : Operation (Plant ω)} (more : Bool) (agrees : o.Agrees jobs o') : Answers jobs (o, more) (o', more)

variable {o o' : Operation (Plant ω)}

theorem Agrees.deliver (agrees : o.Agrees jobs o') : o.deliver.Agrees jobs o'.deliver := by
  obtain ⟨c, world⟩ := agrees
  exact .intro _ (world.acceptAll c.requests)

omit [Site ω] in
theorem inWorld_paired {τ : Type} {w w' : Plant ω} (agrees : w.Agrees jobs w')
    (result : Except (Halt Coordinator) τ) :
    Paired (Halt.Alike (Agrees jobs)) (fun a b => b = a) (inWorld w result) (inWorld w' result) := by
  cases result with
  | error halt => exact .error (.intro _ (.intro _ agrees))
  | ok value => exact .ok rfl

section

variable (agrees : o.Agrees jobs o') (held : o.coord.records.map (·.job) = jobs)

include agrees held

theorem Agrees.advance : Paired (Halt.Alike (Agrees jobs)) (Answers jobs) o.advance o'.advance := by
  obtain @⟨w, w', c, world⟩ := agrees
  unfold Operation.advance
  simp only [world.now]
  apply (inWorld_paired world _).bind
  rintro ⟨opened, changed⟩ _ resolved rfl
  have path : Moment.Path (⟨c, w, [], []⟩ : Moment (Plant ω)) ⟨opened, w, [], []⟩ :=
    Moment.resolveStages_path _ (fun _ member => member) (mapError_ok.1 resolved)
  have still : opened.records.map (·.job) = jobs := Eq.trans path.evolved.sameJobs held
  simp only [Coordinator.dispatch, Coordinator.dispatchFrom_twin world _ opened.ready still rfl]
  apply (inWorld_paired world _).bind
  rintro ⟨taken, count⟩ _ _ rfl
  have after : Agrees jobs ⟨taken, w⟩ ⟨taken, w'⟩ := .intro taken world
  exact .ok (.intro _ after.deliver)

theorem Agrees.gather : Paired (Halt.Alike (Agrees jobs)) (Agrees jobs) o.gather o'.gather := by
  obtain @⟨w, w', c, world⟩ := agrees
  unfold Operation.gather
  simp only [world.now, world.refuses]
  split
  · exact .error (.intro _ (.intro c world))
  obtain ⟨told, finished, after⟩ := world.await ((c.patience (World.now w)).map (World.now w).add)
  rw [told, finished, after.now]
  refine ((Coordinator.settle_twin ?_ after _ _).mapError ?_).bind ?_
  · exact held
  · rintro _ _ ⟨fault, ⟨c, agrees⟩⟩
    exact .intro fault (.intro c agrees)
  · rintro _ _ _ ⟨c, agrees⟩
    exact .ok (Agrees.intro c agrees).deliver

theorem Agrees.turn : Paired (Halt.Alike (Agrees jobs)) (Answers jobs) o.turn o'.turn := by
  unfold Operation.turn
  apply (agrees.advance held).bind
  rintro _ _ advanced ⟨busy, started⟩
  have still := Eq.trans (advance_path advanced).1.evolved.sameJobs held
  obtain ⟨c, world⟩ := started
  simp only
  split
  next => exact .ok (.intro _ (.intro c world))
  next =>
    apply ((Agrees.intro c world).gather still).bind
    intro last last' _ final
    exact .ok (.intro _ final)

end

theorem Turns.agrees {last : Operation (Plant ω)} {n : Nat} (turns : Turns o n last) (agrees : o.Agrees jobs o')
    (held : o.coord.records.map (·.job) = jobs) : ∃ last', Turns o' n last' ∧ last.Agrees jobs last' := by
  induction turns generalizing o' with
  | none => exact ⟨o', .none o', agrees⟩
  | more first _ ih =>
    obtain ⟨_, turned, ⟨_, after⟩⟩ := (agrees.turn held).of_ok first
    obtain ⟨last', onward, final⟩ := ih after (Eq.trans (turn_path first).1.evolved.sameJobs held)
    exact ⟨last', .more turned onward, final⟩

theorem Finishes.agrees {result : Except (Halt (Operation (Plant ω))) (Operation (Plant ω))}
    (finishes : Finishes o result) (agrees : o.Agrees jobs o') (held : o.coord.records.map (·.job) = jobs) :
    ∃ result', Finishes o' result' ∧ Paired (Halt.Alike (Agrees jobs)) (Agrees jobs) result result' := by
  induction finishes generalizing o' with
  | last ended =>
    obtain ⟨_, turned, ⟨_, after⟩⟩ := (agrees.turn held).of_ok ended
    exact ⟨_, .last turned, .ok after⟩
  | breaks broken =>
    obtain ⟨_, turned, alike⟩ := (agrees.turn held).of_error broken
    exact ⟨_, .breaks turned, .error alike⟩
  | goesOn first _ ih =>
    obtain ⟨_, turned, ⟨_, after⟩⟩ := (agrees.turn held).of_ok first
    obtain ⟨result', onward, alike⟩ := ih after (Eq.trans (turn_path first).1.evolved.sameJobs held)
    exact ⟨result', .goesOn turned onward, alike⟩

theorem Finishes.run_ok {ω : Type} [World ω] {o final : Operation ω} (finishes : Finishes o (.ok final))
    (done : final.coord.unfinished = []) : o.run = .ok final := by
  have : Nonempty (Operation ω) := ⟨o⟩
  exact bind_ok.2 ⟨final, finishes.perform, if_pos (List.isEmpty_iff.2 done)⟩

theorem Finishes.run_paired {result : Except (Halt (Operation (Plant ω))) (Operation (Plant ω))}
    (finishes : Finishes o result) (agrees : o.Agrees jobs o') (held : o.coord.records.map (·.job) = jobs) :
    Paired (Halt.Alike (Agrees jobs)) (Agrees jobs) o.run o'.run := by
  obtain ⟨result', finishes', alike⟩ := finishes.agrees agrees held
  have : Nonempty (Operation (Plant ω)) := ⟨o⟩
  rw [run, run, finishes.perform, finishes'.perform]
  apply alike.bind
  rintro _ _ _ ⟨c, world⟩
  simp only
  split
  next => exact .ok (.intro c world)
  next => exact .error (.intro _ (.intro c world))

end Operation

namespace Engine

open Operation

/-- The run of a pipeline comes to its end: it does not begin, or its turns come to theirs. -/
def Ends {ω : Type} [World ω] {α : Type} (executors : Registry α) (settings : Settings) (processors : Nat) (p : Pipeline)
    (context : Context) (world : ω) : Prop :=
  Validation.check executors p = .ok () → Trigger.anyAccepts p.triggers context = true →
    ∀ g, RunGraph.build p (some context) = .ok g → ∃ result, (opening settings processors g context world).Finishes result

variable {settings : Settings} {processors : Nat} {context : Context} {g : RunGraph} {site : ω}

theorem opening_agrees (store store' : MemoryStore) :
    Agrees g.allJobs (opening settings processors g context { site, store })
      (opening settings processors g context ({ site, store := store' } : Plant ω)) :=
  .intro _ (.discardAll g.allJobs site [] store store')

theorem opening_jobs (world : Plant ω) :
    (opening settings processors g context world).coord.records.map (·.job) = g.allJobs :=
  (Moment.Runs.start rfl (discardAll g.allJobs world)).jobs

theorem heard_discardAll (jobs : List Job) (w : Plant ω) : (discardAll jobs w).heard = w.heard := by
  obtain ⟨store, same⟩ := w.discardAll_eq jobs
  rw [same]

theorem schedule_alike {setup : Setup} {w w' : Plant ω}
    (paired : Paired (Halt.Alike (Agrees jobs)) (Agrees jobs) (Operation.start setup g w).run
      (Operation.start setup g w').run) :
    (schedule setup g w').result = (schedule setup g w).result ∧ (schedule setup g w').log = (schedule setup g w).log ∧
      (schedule setup g w').world.heard = (schedule setup g w).world.heard := by
  unfold schedule
  generalize (Operation.start setup g w).run = outcome at paired ⊢
  generalize (Operation.start setup g w').run = outcome' at paired ⊢
  cases paired with
  | error alike =>
    obtain ⟨fault, ⟨c, world⟩⟩ := alike
    exact ⟨rfl, rfl, world.heard⟩
  | ok agrees =>
    obtain ⟨c, world⟩ := agrees
    exact ⟨rfl, rfl, world.heard⟩

theorem run_alike {α : Type} {executors : Registry α} {p : Pipeline} {store : MemoryStore} (store' : MemoryStore)
    (ends : Ends executors settings processors p context ({ site, store } : Plant ω)) :
    let attempt := run executors settings processors p context ({ site, store } : Plant ω)
    let attempt' := run executors settings processors p context ({ site, store := store' } : Plant ω)
    attempt'.result = attempt.result ∧ attempt'.log = attempt.log ∧ attempt'.world.heard = attempt.world.heard := by
  unfold run
  simp only
  split
  next => exact ⟨rfl, rfl, rfl⟩
  next valid =>
    split
    next => exact ⟨rfl, rfl, rfl⟩
    next triggered =>
      split
      next => exact ⟨rfl, rfl, rfl⟩
      next g built =>
        obtain ⟨result, finishes⟩ := ends valid (by simpa using triggered) g built
        obtain ⟨result, log, heard⟩ :=
          schedule_alike (finishes.run_paired (opening_agrees store store') (opening_jobs _))
        refine ⟨by rw [result], by rw [log], ?_⟩
        split
        next => exact heard
        next => rw [heard_discardAll, heard_discardAll, heard]

/-- What earlier runs have left in the store has no bearing on a run. Whatever the store holds at the beginning, the run
is in the same state after every turn and has asked the site for the same jobs with the same inputs. If it comes to its
end with one store, it does with any other, with the same report or fault, the same log and the same requests. -/
theorem leftovers_irrelevant {α : Type} (executors : Registry α) (settings : Settings) (processors : Nat) (p : Pipeline)
    (context : Context) (site : ω) (store store' : MemoryStore) :
    let first : Plant ω := { site, store }
    let second : Plant ω := { site, store := store' }
    (∀ g n o, RunGraph.build p (some context) = .ok g → Turns (opening settings processors g context first) n o →
      ∃ o', Turns (opening settings processors g context second) n o' ∧ o'.coord = o.coord ∧
        o'.world.heard = o.world.heard) ∧
    (Ends executors settings processors p context first →
      let attempt := run executors settings processors p context first
      let attempt' := run executors settings processors p context second
      Ends executors settings processors p context second ∧ attempt'.result = attempt.result ∧
        attempt'.log = attempt.log ∧ attempt'.world.heard = attempt.world.heard) := by
  intro first second
  constructor
  · intro g n o _ turns
    obtain ⟨_, onward, ⟨c, world⟩⟩ := turns.agrees (opening_agrees store store') (opening_jobs first)
    exact ⟨_, onward, rfl, world.heard⟩
  · intro ends attempt attempt'
    constructor
    · intro valid triggered g built
      obtain ⟨result, finishes⟩ := ends valid triggered g built
      obtain ⟨result', finishes', _⟩ := finishes.agrees (opening_agrees store store') (opening_jobs first)
      exact ⟨result', finishes'⟩
    · exact run_alike store' ends

/-- Whether a run comes to its end within so many turns and has brought all jobs to theirs. -/
def completesWithin {ω : Type} [World ω] : Nat → Operation ω → Bool
  | 0, _ => false
  | n + 1, o =>
    match o.turn with
    | .error _ => false
    | .ok (final, false) => final.coord.unfinished.isEmpty
    | .ok (next, true) => completesWithin n next

theorem completesWithin_finishes {ω : Type} [World ω] {n : Nat} {o : Operation ω} (completes : completesWithin n o = true) :
    ∃ final, o.Finishes (.ok final) ∧ final.coord.unfinished = [] := by
  fun_induction completesWithin n o with
  | case1 | case2 => cases completes
  | case3 _ _ final ended => exact ⟨final, .last ended, by simpa using completes⟩
  | case4 _ _ _ first ih =>
    obtain ⟨final, finishes, done⟩ := ih completes
    exact ⟨final, .goesOn first finishes, done⟩

/-- A program and notes from earlier runs change nothing about the builds. -/
theorem release_unaffected :
    let first : Plant (Workshop assembling) := { site := {} }
    let second : Plant (Workshop assembling) :=
      { site := {}
        store := ⟨[(⟨{ stage := "build", qualifier := "os=linux" }, "app"⟩, [7]), (⟨{ stage := "lint" }, "notes"⟩, [8])]⟩ }
    let attempt := run shells { maxWorkers := some 1 } 1 release pushed first
    let attempt' := run shells { maxWorkers := some 1 } 1 release pushed second
    ∃ report, attempt.result = .ok report ∧ attempt'.result = .ok report ∧
      attempt'.world.heard = attempt.world.heard := by
  intro first second attempt attempt'
  have completes : completesWithin 4 (opening { maxWorkers := some 1 } 1 crossBuildGraph pushed first) = true := by
    decide +kernel
  obtain ⟨final, finishes, done⟩ := completesWithin_finishes completes
  have ends : Ends shells { maxWorkers := some 1 } 1 release pushed first := by
    intro _ _ g built
    cases built.symm.trans release_built
    exact ⟨_, finishes⟩
  obtain ⟨_, result, _, heard⟩ :=
    (leftovers_irrelevant shells { maxWorkers := some 1 } 1 release pushed ({} : Workshop assembling) {} second.store).2 ends
  have reported : attempt.result = .ok { final.coord.report with pipeline := release.name } :=
    (run_ok release_valid (Trigger.anyAccepts_unfiltered (by decide)) release_built (finishes.run_ok done)).1
  exact ⟨_, reported, result.trans reported, heard⟩

end Engine
end Conveyor

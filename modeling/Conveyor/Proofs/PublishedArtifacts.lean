import Conveyor.Proofs.CommitAtomicity
import Conveyor.Proofs.CrewInvariant

/-! What workers have published when they succeed. If the steps of a job publish only one artifact after the other, each
once and each declared, then a worker that succeeds hands over the artifacts that its job declares and no others. -/

namespace Conveyor

namespace JobContext

abbrev Publishes : JobContext → JobContext → Prop :=
  Relation.ReflTransGen fun c c' => ∃ name blob, c.publish name blob = .ok c'

theorem publish_ok {c c' : JobContext} {name : String} {blob : Blob} (done : c.publish name blob = .ok c') :
    name ∈ c.job.produces ∧ name ∉ c.staged.map Prod.fst ∧ c' = { c with staged := c.staged ++ [(name, blob)] } := by
  unfold publish at done
  split at done
  · cases done
  next declared =>
    split at done
    · cases done
    next fresh =>
      cases done
      refine ⟨by simpa using declared, ?_, ?_⟩
      · exact fun present => fresh ((Table.has_iff (Key.exact name)).2 present)
      · rw [Table.insert_absent (by simpa using fresh)]

/-- Publishing changes nothing but what has been published, and only adds names that are declared, each once. -/
theorem Publishes.kept {c c' : JobContext} (publishes : c.Publishes c') :
    c' = { c with staged := c'.staged } ∧
      (∀ name ∈ c'.staged.map Prod.fst, name ∈ c.staged.map Prod.fst ∨ name ∈ c.job.produces) ∧
      ((c.staged.map Prod.fst).Nodup → (c'.staged.map Prod.fst).Nodup) := by
  induction publishes with
  | refl => exact ⟨rfl, fun _ => Or.inl, id⟩
  | @tail middle last _ publish ih =>
    obtain ⟨same, declared, single⟩ := ih
    obtain ⟨name, blob, done⟩ := publish
    obtain ⟨member, fresh, rfl⟩ := publish_ok done
    rw [same] at member
    refine ⟨by rw [same], ?_, ?_⟩
    · intro other present
      rw [List.map_append, List.mem_append] at present
      rcases present with before | here
      · exact declared other before
      · obtain rfl : other = name := by simpa using here
        exact Or.inr member
    · intro distinct
      rw [List.map_append, List.nodup_append]
      refine ⟨single distinct, by simp, ?_⟩
      rintro other present _ here rfl
      obtain rfl : other = name := by simpa using here
      exact fresh present

end JobContext

/-- Nothing is published but through the surroundings of the job. -/
def Manner.publishing : Manner := fun w _ staged _ => ∃ c, w.context.Publishes c ∧ c.staged = staged

namespace Worker

variable {w : Worker} {token : Bool} {finds : Bool → Prop} {artifacts : Table String Blob} {steps : List StepResult}

theorem receive_ok {w' : Worker} {step : Step} {staged : Table String Blob} {reply : Reply}
    (done : w.receive step staged reply token = .ok w') : w'.context = { w.context with staged } := by
  cases reply with
  | interrupted | nothing | raised => cases done
  | outcome o =>
    simp only [receive] at done
    split at done
    · cases done
    · split at done <;> cases done
      rfl

theorem receive_succeeded {step : Step} {staged : Table String Blob} {reply : Reply} :
    w.receive step staged reply token ≠ .error (.returned (.succeeded steps artifacts)) := by
  intro done
  cases reply with
  | interrupted | nothing => cases done
  | raised fault =>
    have said := Completion.returned.inj (Except.error.inj done)
    split at said
    · cases said
    · unfold raised at said
      dsimp only at said
      split at said <;> cases said
  | outcome o =>
    simp only [receive] at done
    split at done
    · cases done
    · split at done
      · have said := Completion.returned.inj (Except.error.inj done)
        split at said <;> cases said
      · cases done

theorem conclude_succeeded (done : w.conclude = .succeeded steps artifacts) :
    w.context.staged = artifacts ∧ ∀ name ∈ w.context.job.produces, name ∈ artifacts.map Prod.fst := by
  unfold conclude at done
  simp only at done
  split at done
  · split at done <;> cases done
  next complete =>
    cases done
    refine ⟨rfl, fun name declared => ?_⟩
    apply (Table.has_iff (Key.exact name)).1
    simpa using List.find?_eq_none.1 complete name declared

theorem turn_concluded (done : w.turn token = .finish (.returned (.succeeded steps artifacts))) :
    w.conclude = .succeeded steps artifacts := by
  unfold turn at done
  split at done
  · simpa using done
  · split at done
    · cases done
    · split at done <;> cases done

/-- A worker that succeeds hands over all that its job declares, whatever its steps have done. -/
theorem Ends.declared {manner : Manner} (ends : w.Ends manner finds (.succeeded steps artifacts)) :
    ∀ name ∈ w.context.job.produces, name ∈ artifacts.map Prod.fst := by
  generalize outcome : Outcome.succeeded steps artifacts = last at ends
  induction ends with
  | finishes _ done =>
    subst outcome
    exact (conclude_succeeded (turn_concluded done)).2
  | stops _ _ _ done =>
    subst outcome
    exact (receive_succeeded done).elim
  | goesOn _ _ _ done _ ih =>
    have complete := ih outcome
    rwa [receive_ok done] at complete

theorem Ends.published (ends : w.Ends Manner.publishing finds (.succeeded steps artifacts)) :
    ∃ c, w.context.Publishes c ∧ c.staged = artifacts := by
  generalize outcome : Outcome.succeeded steps artifacts = last at ends
  induction ends with
  | @finishes w _ token _ done =>
    subst outcome
    exact ⟨w.context, .refl, (conclude_succeeded (turn_concluded done)).1⟩
  | stops _ _ _ done =>
    subst outcome
    exact (receive_succeeded done).elim
  | @goesOn w w' _ staged _ _ _ _ _ replied done _ ih =>
    obtain ⟨c, publishes, rfl⟩ := replied
    have same : w'.context = c := (receive_ok done).trans publishes.kept.1.symm
    obtain ⟨last, onward, handed⟩ := ih outcome
    rw [same] at onward
    exact ⟨last, publishes.trans onward, handed⟩

/-- The worker of a job that succeeds hands over what the job has published: all that it declares, each once, and
nothing else. -/
theorem Ends.produces {job : Job} {run : Context} {inputs : Inputs}
    (ends : (Worker.start job run inputs).Ends Manner.publishing finds (.succeeded steps artifacts)) :
    ∃ c, ({ job, run, inputs } : JobContext).Publishes c ∧ c.staged = artifacts ∧ (artifacts.map Prod.fst).Nodup ∧
      ∀ name, name ∈ artifacts.map Prod.fst ↔ name ∈ job.produces := by
  obtain ⟨c, publishes, rfl⟩ := ends.published
  obtain ⟨_, declared, single⟩ := publishes.kept
  refine ⟨c, publishes, rfl, single List.nodup_nil, fun name => ⟨fun present => ?_, ends.declared name⟩⟩
  rcases declared name present with before | declared
  · cases before
  · exact declared

end Worker

namespace Moment

open Coordinator

variable {ω : Type} [World ω] {m m' : Moment ω} {g : RunGraph} {roster : Roster ω} {manner : Manner}
  {finds : Bool → Bool → Prop}

/-- The worker at a place is that of the job there, and may be stopped at any time. -/
def hired : Terms ω where
  assigned m slot worker := ∃ r inputs, m.coord.record? slot = some r ∧
    worker = Worker.start r.job m.coord.setup.context inputs
  excused _ _ := True

theorem Step.hired_kept (step : Step m m') {slot : Nat} {worker : Worker} (given : hired.assigned m slot worker) :
    hired.assigned m' slot worker := by
  obtain ⟨r, inputs, found, rfl⟩ := given
  obtain ⟨r', found', evolves⟩ := step.evolved.record found
  exact ⟨r', inputs, found', by rw [evolves.job, step.frame.1]⟩

theorem Step.hired_launched (step : Step m m') {slot : Nat} {worker : Worker}
    (asked : .launch slot worker ∈ m'.coord.requests) :
    .launch slot worker ∈ m.coord.requests ∨ hired.assigned m' slot worker := by
  rcases step.launching asked with before | ⟨r, r', inputs, found, _, _, rfl, _⟩
  · exact Or.inl before
  · exact Or.inr (step.hired_kept ⟨r, inputs, found, rfl⟩)

theorem Step.hired (performs : roster.Performs manner finds) (step : Step m m') (orderly : Orderly g roster m)
    (crewed : Crewed hired manner finds roster m) : Crewed hired manner finds roster m' := by
  apply step.crewed performs orderly _ (fun _ _ => trivial) _ (fun _ _ => Or.inr trivial) crewed
  · exact fun slot worker _ given => step.hired_kept given
  · exact fun slot worker asked => step.hired_launched asked

theorem Path.hired (performs : roster.Performs manner finds) (populated : g.Populated) (distinct : g.DistinctKeys)
    (path : Path m m') (orderly : Orderly g roster m) (crewed : Crewed hired manner finds roster m) :
    Crewed hired manner finds roster m' := by
  induction path with
  | refl => exact crewed
  | tail path step ih => exact step.hired performs (Path.orderly path populated distinct orderly) ih

theorem TakenIn.ends (performs : roster.Performs manner finds) (populated : g.Populated) (distinct : g.DistinctKeys)
    {setup : Setup} (graph : setup.graph = g.graph) {w : ω}
    (vacant : roster.postings w = []) {j : Nat} {r : JobRecord} {outcome : Outcome}
    (came : TakenIn (Operation.start setup g w).moment m j outcome) (found : m.coord.record? j = some r) :
    ∃ inputs asked, (Worker.start r.job setup.context inputs).Ends manner (finds asked) outcome := by
  obtain ⟨before, after, later, q, path, step, onward, arrived, held, _⟩ := came
  have crewed := path.hired performs populated distinct (orderly_start graph roster vacant)
    (crewed_start hired setup g vacant)
  obtain ⟨worker, asked, ⟨q', inputs, again, rfl⟩, _, ends⟩ := crewed.arrived j outcome (by simp [arrived])
  cases again.symm.trans held
  obtain ⟨_, again, evolves⟩ := (Path.evolved (onward.head step)).record held
  cases again.symm.trans found
  refine ⟨inputs, asked, ?_⟩
  rw [evolves.job]
  rwa [path.setup] at ends

end Moment
end Conveyor

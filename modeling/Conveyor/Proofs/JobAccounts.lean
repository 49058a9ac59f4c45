import Conveyor.Proofs.ArtifactLedger
import Conveyor.Proofs.CrewInvariant

/-! What every job of a run owes its state to. In a world of settled conduct and without deadlines, the verdict about
a job follows from the outcomes of the stages that its stage needs, from its inputs, and from the one end that its
worker has; only a failure in its own stage can cut it short. -/

namespace Conveyor

/-- A graph whose jobs do not get in each other's way: different keys, different producers, no deadlines. -/
structure RunGraph.Regular (g : RunGraph) : Prop where
  populated : g.Populated
  provisioned : g.Provisioned
  written : g.Written
  keys : g.DistinctKeys
  producers : (g.allJobs.map Job.producer).Nodup
  untimed : ∀ job ∈ g.allJobs, job.timeout = none

/-- What a job that nobody stops comes to with its inputs: what is decided about it, and what is stored for it. -/
inductive Job.Yields (conduct : Conduct) (context : Context) (job : Job) :
    Except InputFault Inputs → Verdict → List (String × Blob) → Prop
  | lacking (missing : MissingArtifact) :
      Yields conduct context job (.error (.missing missing)) ((Coordinator.lacking missing).verdict .failed [] []) []
  | working {inputs : Inputs} {outcome : Outcome} (ends : (Worker.start job context inputs).EndsBy conduct false outcome) :
      Yields conduct context job (.ok inputs) (outcome.verdict job.producer) (outcome.stock job.producer)

namespace Job.Yields

variable {conduct : Conduct} {context : Context} {job : Job} {inputs : Except InputFault Inputs} {verdict : Verdict}
  {stock : List (String × Blob)} (yields : job.Yields conduct context inputs verdict stock)

include yields

theorem terminal : verdict.status.isTerminal = true := by
  cases yields with
  | lacking => rfl
  | working => exact Outcome.verdict_terminal _ _

theorem nodup : (stock.map Prod.fst).Nodup := by
  cases yields with
  | lacking => exact List.nodup_nil
  | working => exact (shelved_fresh _ _ _).1

theorem sorted : stock.Pairwise fun a b => Text.le a.1 b.1 = true := by
  cases yields with
  | lacking => exact .nil
  | @working _ outcome =>
    apply List.Pairwise.sublist (shelved_sublist job.producer [] outcome.offered)
    cases outcome with
    | succeeded steps artifacts => exact Coordinator.inNameOrder_sorted artifacts
    | cancelled | failed => exact .nil

theorem unique {verdict' : Verdict} {stock' : List (String × Blob)}
    (again : job.Yields conduct context inputs verdict' stock') : verdict = verdict' ∧ stock = stock' := by
  cases yields with
  | lacking =>
    cases again
    exact ⟨rfl, rfl⟩
  | working ends =>
    cases again with
    | working ends' =>
      cases ends.unique ends'
      exact ⟨rfl, rfl⟩

end Job.Yields

namespace Moment

open Coordinator

variable {ω : Type} [World ω] {m m' : Moment ω} {g : RunGraph} {roster : Roster ω} {conduct : Conduct}

/-- What has been stored for the job at a place, for which nothing was stored before the run. -/
abbrev Holds (m : Moment ω) (j : Nat) (producer : Producer) (stock : List (String × Blob)) : Prop :=
  m.Stocked (fun _ => none) j producer stock

/-- The course of a job whose stage has been released. -/
inductive Course (conduct : Conduct) (m : Moment ω) (j : Nat) (r : JobRecord) : Prop
  | ready (status : r.status = .ready) (blank : r.Blank) (empty : m.Holds j r.job.producer [])
  | running {inputs : Inputs} (status : r.status = .running) (blank : r.Blank)
      (resolved : m.inputs r.job = .ok inputs) (empty : m.Holds j r.job.producer [])
  | stopped (status : r.status = .cancelled) (tripped : m.coord.Tripped r.job.stage)
      (empty : m.Holds j r.job.producer [])
  | settled {stock : List (String × Blob)}
      (yields : r.job.Yields conduct m.coord.setup.context (m.inputs r.job) r.verdict stock)
      (holds : m.Holds j r.job.producer stock)

/-- What a job owes its state to: its stage is closed, or it was skipped, or it was released. -/
inductive Account (conduct : Conduct) (m : Moment ω) (j : Nat) (r : JobRecord) : Prop
  | pending (status : r.status = .pending) (blank : r.Blank) (empty : m.Holds j r.job.producer [])
  | skipped {remark : Remark} (decided : m.coord.Decided r.job.stage (.skipped, remark))
      (verdict : r.verdict = remark.verdict .skipped [] []) (empty : m.Holds j r.job.producer [])
  | released (decided : m.coord.Decided r.job.stage (.ready, {})) (course : Course conduct m j r)

variable {j : Nat} {r : JobRecord}

/-- Nothing has been said of a job that has not ended, or stored for it; once begun, its stage has been released. -/
theorem Account.unended (account : Account conduct m j r) (unended : r.status.isTerminal = false) :
    r.Blank ∧ m.Holds j r.job.producer [] ∧
      (r.status = .pending ∨ m.coord.Decided r.job.stage (.ready, {})) := by
  have ended (terminal : r.verdict.status.isTerminal = true) : False := by
    rw [r.verdict_status, unended] at terminal
    cases terminal
  cases account with
  | pending status blank empty => exact ⟨blank, empty, Or.inl status⟩
  | skipped _ verdict => exact (ended (by rw [verdict]; rfl)).elim
  | released decided course =>
    cases course with
    | ready _ blank empty => exact ⟨blank, empty, Or.inr decided⟩
    | running _ blank _ empty => exact ⟨blank, empty, Or.inr decided⟩
    | stopped status => exact (ended (by rw [r.verdict_status, status]; rfl)).elim
    | settled yields => exact (ended yields.terminal).elim

theorem Account.of_active (account : Account conduct m j r) (active : r.status = .ready ∨ r.status = .running) :
    m.coord.Decided r.job.stage (.ready, {}) ∧ r.Blank ∧ m.Holds j r.job.producer [] := by
  obtain ⟨blank, empty, pending | decided⟩ := account.unended
    (by rcases active with status | status <;> rw [status] <;> rfl)
  · simp [pending] at active
  · exact ⟨decided, blank, empty⟩

theorem Step.holds (keeps : World.Keeps ω) (step : Step m m') (runs : Runs g m) (regular : g.Regular) {r' : JobRecord}
    (found : m.coord.record? j = some r) (found' : m'.coord.record? j = some r')
    (stays : r.status = .running → r'.status = .running) {stock : List (String × Blob)}
    (holds : m.Holds j r.job.producer stock) : m'.Holds j r.job.producer stock :=
  step.stocked keeps runs regular.keys regular.producers found found' (fun _ _ _ => stays) holds

/-- The inputs of a job whose stage has been released are the same from then on. -/
theorem Step.inputs (keeps : World.Keeps ω) (step : Step m m') (runs : Runs g m) (regular : g.Regular)
    (barred : m.coord.Barred) (found : m.coord.record? j = some r)
    (decided : m.coord.Decided r.job.stage (.ready, {})) : m'.inputs r.job = m.inputs r.job := by
  have succeeded := runs.producers_succeeded regular.populated regular.provisioned barred found
    (decided.cleared (runs.graph ▸ regular.populated.ordered))
  refine Inputs.resolve_congr (fun ref consumed => ?_) (fun ref consumed q selected => ?_)
  · rw [step.evolved.recordsOf fun q member => by rw [succeeded ref consumed q member]; rfl]
  · have member := List.mem_of_mem_filter selected
    have done := succeeded ref consumed q member
    obtain ⟨k, held, _⟩ := mem_recordsOf.1 member
    have frozen := step.evolved.frozen held (by rw [done]; rfl)
    exact step.contents keeps runs regular.producers held frozen (fun _ _ _ running => running) ref.name

end Moment
end Conveyor

import Mathlib.Data.List.Chain
import Conveyor.Proofs.JobFates

/-! The life of a job. Whatever happens in a run, a record changes in few ways: the job comes into a state
that may follow its own, a ready job gets its time of start, and a running one its steps and artifacts.
So the history of every job is a walk through the states, and a job that has ended never changes. -/

namespace Conveyor
namespace JobRecord

inductive Change : JobRecord → JobRecord → Prop
  | moves {r : JobRecord} {now : Double} {next : Status} {remark : Remark}
      (legal : r.status.mayBecome next = true) : Change r (r.moved now next remark)
  | starts {r : JobRecord} {time : Option Number} (ready : r.status = .ready) :
      Change r { r with startedAt := time }
  | notes {r : JobRecord} {steps : List StepResult} {artifacts : List String} (running : r.status = .running) :
      Change r { r with steps, artifacts }

abbrev Evolves : JobRecord → JobRecord → Prop := Relation.ReflTransGen Change

theorem Evolves.job {r r' : JobRecord} (evolves : r.Evolves r') : r'.job = r.job := by
  induction evolves with
  | refl => rfl
  | tail _ change ih => cases change <;> exact ih

theorem mayBecome_of_terminal {s next : Status} (terminal : s.isTerminal = true) : s.mayBecome next = false := by
  simp [Status.mayBecome, Status.successors_eq_nil_iff.2 terminal]

theorem Evolves.frozen {r r' : JobRecord} (evolves : r.Evolves r') (terminal : r.status.isTerminal = true) :
    r' = r := by
  induction evolves with
  | refl => rfl
  | tail _ change ih =>
    subst ih
    cases change with
    | moves legal => simp [mayBecome_of_terminal terminal] at legal
    | starts ready => simp [ready, Status.isTerminal] at terminal
    | notes running => simp [running, Status.isTerminal] at terminal

/-- A history that begins at the beginning, takes allowed steps only, and ends at the present state. -/
structure Lived (r : JobRecord) : Prop where
  begins : r.history.head? = some .pending
  walks : r.history.IsChain fun s next => s.mayBecome next = true
  ends : r.history.getLast? = some r.status

theorem Change.lived {r r' : JobRecord} (change : Change r r') (lived : r.Lived) : r'.Lived := by
  cases change with
  | moves legal =>
    have present : r.history ≠ [] := by
      intro empty
      simpa [empty] using lived.begins
    refine ⟨?_, ?_, by simp [moved]⟩
    · simp only [moved, List.head?_append, lived.begins, Option.some_or]
    · refine lived.walks.append (.singleton _) ?_
      intro last final next first
      cases lived.ends.symm.trans final
      cases first
      exact legal
  | starts => exact ⟨lived.begins, lived.walks, lived.ends⟩
  | notes => exact ⟨lived.begins, lived.walks, lived.ends⟩

theorem Evolves.lived {r r' : JobRecord} (evolves : r.Evolves r') (lived : r.Lived) : r'.Lived := by
  induction evolves with
  | refl => exact lived
  | tail _ change ih => exact change.lived ih

theorem lived_fresh (job : Job) : Lived { job } := ⟨rfl, .singleton _, rfl⟩

end JobRecord

namespace Coordinator

/-- Every record of an earlier state has evolved into the one at its place. -/
def Evolved (c c' : Coordinator) : Prop :=
  ∃ change, Rewritten c c' change ∧ ∀ j r, c.record? j = some r → r.Evolves (change j r)

variable {c c' : Coordinator} {j : Nat}

theorem Evolved.of_records (same : c'.records = c.records) : Evolved c c' :=
  ⟨fun _ r => r, fun j => by simp [record?, same], fun _ _ _ => .refl⟩

theorem Evolved.trans {a b : Coordinator} (first : Evolved a b) (second : Evolved b c) : Evolved a c := by
  obtain ⟨early, rewritten, evolves⟩ := first
  obtain ⟨late, again, evolves'⟩ := second
  refine ⟨_, rewritten.trans again, fun j r found => (evolves j r found).trans (evolves' j _ ?_)⟩
  simp [rewritten j, found]

theorem Evolved.record (evolved : Evolved c c') {r : JobRecord} (found : c.record? j = some r) :
    ∃ r', c'.record? j = some r' ∧ r.Evolves r' := by
  obtain ⟨change, rewritten, evolves⟩ := evolved
  exact ⟨change j r, by simp [rewritten j, found], evolves j r found⟩

theorem Evolved.evolves (evolved : Evolved c c') {r r' : JobRecord} (found : c.record? j = some r)
    (found' : c'.record? j = some r') : r.Evolves r' := by
  obtain ⟨_, again, evolves⟩ := evolved.record found
  cases found'.symm.trans again
  exact evolves

theorem Evolved.source (evolved : Evolved c c') {r' : JobRecord} (found : c'.record? j = some r') :
    ∃ r, c.record? j = some r ∧ r.Evolves r' := by
  obtain ⟨change, rewritten, evolves⟩ := evolved
  obtain ⟨r, held, rfl⟩ := Option.map_eq_some_iff.1 ((rewritten j).symm.trans found)
  exact ⟨r, held, evolves j r held⟩

theorem Evolved.sameJobs (evolved : Evolved c c') : SameJobs c c' := by
  obtain ⟨change, rewritten, evolves⟩ := evolved
  apply List.ext_getElem?
  intro j
  have found := rewritten j
  simp only [record?] at found evolves
  simp only [List.getElem?_map, found]
  cases held : c.records[j]? with
  | none => rfl
  | some r => simp [(evolves j r held).job]

theorem Evolved.frozen (evolved : Evolved c c') {r : JobRecord} (found : c.record? j = some r)
    (terminal : r.status.isTerminal = true) : c'.record? j = some r := by
  obtain ⟨r', found', evolves⟩ := evolved.record found
  rw [found', evolves.frozen terminal]

end Coordinator

namespace Moment

variable {ω : Type} [World ω]

theorem Fate.evolves {m m' : Moment ω} {j : Nat} {r r' : JobRecord} (fate : Fate m m' j r r') : r.Evolves r' := by
  cases fate with
  | kept => exact .refl
  | opened _ _ _ _ _ legal => exact .single (.moves legal)
  | lacked ready => exact .single (.moves (by rw [ready]; rfl))
  | launched ready => exact .tail (.single (.starts ready)) (.moves (by rw [ready]; rfl))
  | returned running =>
    refine .tail (.single (.notes running)) (.moves ?_)
    simpa [running] using Outcome.ending_follows_running _ _
  | expired running => exact .single (.moves (by rw [running]; rfl))
  | stopped waiting =>
    refine .single (.moves ?_)
    rcases waiting with status | status <;> rw [status] <;> rfl

theorem Step.evolved {m m' : Moment ω} (step : Step m m') : m.coord.Evolved m'.coord := by
  obtain ⟨change, rewritten⟩ := step.rewritten
  refine ⟨change, rewritten, fun j r found => ?_⟩
  obtain ⟨r', found', fate⟩ := step.fate found
  cases (rewritten.found found).symm.trans found'
  exact fate.evolves

theorem Path.evolved {m m' : Moment ω} (path : Path m m') : m.coord.Evolved m'.coord := by
  induction path with
  | refl => exact .of_records rfl
  | tail _ step ih => exact ih.trans step.evolved

end Moment
end Conveyor

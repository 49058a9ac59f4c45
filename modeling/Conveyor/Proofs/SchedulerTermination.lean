import Mathlib.Data.Finset.Card
import Mathlib.Data.Finset.Range
import Conveyor.Proofs.SchedulerInvariant

/-! Runs come to an end. What is left to do is weighed: stages to open, jobs that wait, and workers that are out.
No step adds to the weight, and a turn that changes nothing waits for workers; a fair world brings them back. -/

namespace Conveyor

open Fallible

theorem JobRecord.Evolves.waiting {r r' : JobRecord} (evolves : r.Evolves r') (waiting : r'.Waiting) : r.Waiting := by
  induction evolves with
  | refl => exact waiting
  | @tail q q' _ change ih =>
    apply ih
    cases change with
    | moves legal =>
      rcases waiting with status | status <;>
        · simp only [JobRecord.moved_status] at status
          subst status
          cases from' : q.status <;> simp_all [JobRecord.Waiting, Status.mayBecome, Status.successors]
    | starts => exact waiting
    | notes => exact waiting

namespace Coordinator

def waiting (c : Coordinator) : Finset Nat :=
  (Finset.range c.records.length).filter fun j => (c.record? j).any fun r => decide r.Waiting

variable {c c' : Coordinator} {i : Nat}

theorem mem_waiting {j : Nat} : j ∈ c.waiting ↔ ∃ r, c.record? j = some r ∧ r.Waiting := by
  simp only [waiting, Finset.mem_filter, Finset.mem_range, Option.any_eq_true, decide_eq_true_eq]
  constructor
  · rintro ⟨_, r, found, waiting⟩
    exact ⟨r, found, waiting⟩
  · rintro ⟨r, found, waiting⟩
    exact ⟨(List.getElem?_eq_some_iff.1 found).1, r, found, waiting⟩

theorem Evolved.waiting (evolved : Evolved c c') : c'.waiting ⊆ c.waiting := by
  intro j member
  obtain ⟨r', found', waiting⟩ := mem_waiting.1 member
  obtain ⟨r, found, evolves⟩ := evolved.source found'
  exact mem_waiting.2 ⟨r, found, evolves.waiting waiting⟩

theorem Evolved.waiting_lt (evolved : Evolved c c') {r r' : JobRecord} (found : c.record? i = some r)
    (before : r.Waiting) (found' : c'.record? i = some r') (after : ¬ r'.Waiting) :
    c'.waiting.card < c.waiting.card := by
  apply Finset.card_lt_card
  refine Finset.ssubset_iff_of_subset evolved.waiting |>.2 ⟨i, mem_waiting.2 ⟨r, found, before⟩, fun member => ?_⟩
  obtain ⟨q, held, waiting⟩ := mem_waiting.1 member
  cases held.symm.trans found'
  exact after waiting

def unopened (c : Coordinator) : Nat := (c.setup.graph.order.filter fun i => i ∉ c.opened).length

theorem unopened_le (setup : c'.setup = c.setup) (opened : ∀ i ∈ c.opened, i ∈ c'.opened) :
    c'.unopened ≤ c.unopened := by
  unfold unopened
  rw [setup]
  apply List.Sublist.length_le
  apply List.monotone_filter_right
  intro i closed
  simp only [decide_eq_true_eq] at closed ⊢
  exact fun member => closed (opened i member)

theorem unopened_lt (setup : c'.setup = c.setup) (opened : c'.opened = c.opened ++ [i])
    (listed : i ∈ c.setup.graph.order) (closed : i ∉ c.opened) : c'.unopened < c.unopened := by
  have split : (c'.setup.graph.order.filter fun j => j ∉ c'.opened) =
      (c.setup.graph.order.filter fun j => j ∉ c.opened).filter (· ≠ i) := by
    rw [List.filter_filter, setup]
    congr 1
    funext j
    simp only [opened, List.mem_append, List.mem_singleton]
    by_cases same : j = i <;> simp [same]
  unfold unopened
  rw [split]
  exact List.length_filter_lt_length_iff_exists.2 ⟨i, by simp [listed, closed], by simp⟩

def weight (c : Coordinator) : Nat := c.unopened + 2 * c.waiting.card + c.inFlight.length

theorem Opened.weight {now : Double} {s : Stage} {change : Status × Remark} (evolved : Evolved c c')
    (opened : Opened c c' now i s change) (listed : i ∈ c.setup.graph.order) (closed : i ∉ c.opened) :
    c'.weight < c.weight := by
  have stages := unopened_lt opened.setup opened.opened listed closed
  have fewer := Finset.card_le_card evolved.waiting
  unfold Coordinator.weight
  rw [opened.inFlight]
  omega

variable {σ : Type} [ArtifactStore σ]

theorem TakenUp.weight {store : σ} {now : Double} {count : Nat} (evolved : Evolved c c')
    (taken : TakenUp c store now i c' count) : c'.weight + count ≤ c.weight := by
  obtain ⟨setup, opened, _⟩ := taken.frame
  have stages := unopened_le setup (by rw [opened]; exact fun _ member => member)
  cases taken with
  | passed => exact Nat.le_refl _
  | lacked found ready _ failed =>
    obtain ⟨_, quiet, records, _⟩ := transition_ok failed found
    have fewer := evolved.waiting_lt found (Or.inr ready) (records.found found) (by simp [aftermath, JobRecord.Waiting])
    unfold Coordinator.weight
    rw [quiet.inFlight]
    omega
  | launched found ready _ started =>
    have fewer := evolved.waiting_lt found (Or.inr ready) (started.records.found found) (by simp [JobRecord.Waiting])
    unfold Coordinator.weight
    rw [started.inFlight, List.length_append, List.length_singleton]
    omega

end Coordinator

namespace Moment

open Coordinator

variable {ω : Type} [World ω] {m m' : Moment ω}

/-- No step adds to what is left to do, and one that takes a job out of flight lightens it. -/
theorem Step.weight (step : Step m m') : m'.coord.weight ≤ m.coord.weight ∧
    ((∀ j ∈ m.coord.inFlight, j ∈ m'.coord.inFlight) ∨ m'.coord.weight < m.coord.weight) := by
  have evolved := step.evolved
  have stages := unopened_le step.frame.1 step.frame.2
  have fewer := Finset.card_le_card step.evolved.waiting
  have steady (same : m'.coord.inFlight = m.coord.inFlight) :
      m'.coord.weight ≤ m.coord.weight ∧
        ((∀ j ∈ m.coord.inFlight, j ∈ m'.coord.inFlight) ∨
          m'.coord.weight < m.coord.weight) := by
    constructor
    · unfold Coordinator.weight
      rw [same]
      omega
    · exact Or.inl (by rw [same]; exact fun _ member => member)
  have landing {i : Nat} (lands : m'.coord.inFlight = m.coord.inFlight.filter (· ≠ i)) :
      m'.coord.weight ≤ m.coord.weight ∧
        ((∀ j ∈ m.coord.inFlight, j ∈ m'.coord.inFlight) ∨
          m'.coord.weight < m.coord.weight) := by
    by_cases flying : i ∈ m.coord.inFlight
    · have shorter : m'.coord.inFlight.length < m.coord.inFlight.length := by
        rw [lands]
        exact List.length_filter_lt_length_iff_exists.2 ⟨i, flying, by simp⟩
      unfold Coordinator.weight
      exact ⟨by omega, Or.inr (by omega)⟩
    · apply steady
      rw [lands, List.filter_eq_self]
      intro j member
      have other : j ≠ i := fun same => flying (same ▸ member)
      simpa using other
  cases step with
  | opens _ _ _ _ opened => exact steady (openStage_ok opened).inFlight
  | @takes c c' _ _ _ count queue _ _ taken =>
    have taken := takeUp_ok taken
    have lighter : c'.weight + count ≤ c.weight := TakenUp.weight (c := { c with ready := queue }) evolved taken
    refine ⟨(Nat.le_add_right _ count).trans lighter, Or.inl ?_⟩
    cases taken with
    | passed => exact fun _ member => member
    | lacked found _ _ failed =>
      rw [(transition_ok failed found).2.1.inFlight]
      exact fun _ member => member
    | launched _ _ _ started =>
      rw [started.inFlight]
      exact fun _ member => List.mem_append.2 (Or.inl member)
  | delivers => exact steady rfl
  | awaits => exact steady rfl
  | collects collected =>
    cases collect_ok collected with
    | dropped => exact landing rfl
    | taken _ _ returned => exact landing returned.inFlight
  | looks => exact steady rfl
  | expires expired =>
    cases expire_ok expired with
    | early => exact steady rfl
    | ended => exact steady rfl
    | stopped _ _ late => exact steady late.inFlight

theorem Path.weight (path : Path m m') : m'.coord.weight ≤ m.coord.weight ∧
    ((∀ j ∈ m.coord.inFlight, j ∈ m'.coord.inFlight) ∨ m'.coord.weight < m.coord.weight) := by
  induction path with
  | refl => exact ⟨Nat.le_refl _, Or.inl fun _ member => member⟩
  | tail _ step ih =>
    obtain ⟨lighter, kept⟩ := step.weight
    refine ⟨lighter.trans ih.1, ?_⟩
    rcases ih.2 with before | before
    · rcases kept with after | after
      · exact Or.inl fun j member => after j (before j member)
      · exact Or.inr (Nat.lt_of_lt_of_le after ih.1)
    · exact Or.inr (Nat.lt_of_le_of_lt lighter before)

end Moment
end Conveyor

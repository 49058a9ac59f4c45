import Mathlib.Data.List.Basic
import Conveyor.Proofs.StageOutcomes

/-! Runs in which no two jobs have one key. Every place then stands for itself, and the report shows every
record once, in order. -/

namespace Conveyor

def Job.Apart (a b : Job) : Prop := a.sameKey b = false ∧ b.sameKey a = false

instance (a b : Job) : Decidable (a.Apart b) := inferInstanceAs (Decidable (_ ∧ _))

def RunGraph.DistinctKeys (g : RunGraph) : Prop := g.allJobs.Pairwise Job.Apart

instance (g : RunGraph) : Decidable g.DistinctKeys := inferInstanceAs (Decidable (List.Pairwise _ _))

namespace Coordinator

variable {c : Coordinator} (distinct : (c.records.map (·.job)).Pairwise Job.Apart)

include distinct

theorem sharesKey_iff (i j : Nat) : c.sharesKey i j = true ↔ i = j := by
  rw [List.pairwise_iff_getElem] at distinct
  constructor
  · intro shared
    by_contra other
    unfold sharesKey at shared
    cases left : c.record? i with
    | none => simp [left, other] at shared
    | some r =>
      cases right : c.record? j with
      | none => simp [left, right, other] at shared
      | some q =>
        obtain ⟨inside, rfl⟩ := List.getElem?_eq_some_iff.1 left
        obtain ⟨inside', rfl⟩ := List.getElem?_eq_some_iff.1 right
        rcases Nat.lt_or_gt_of_ne other with before | after
        · have apart := (distinct i j (by simpa using inside) (by simpa using inside') before).1
          simp only [List.getElem_map] at apart
          simp [left, right, other, apart] at shared
        · have apart := (distinct j i (by simpa using inside') (by simpa using inside) after).2
          simp only [List.getElem_map] at apart
          simp [left, right, other, apart] at shared
  · rintro rfl
    simp [sharesKey]

theorem slot_eq (i : Nat) : c.slot i = i := by
  have same : ((List.range c.records.length).filter fun j => c.sharesKey i j) =
      (List.range c.records.length).filter (· = i) := by
    apply List.filter_congr
    intro j _
    rw [Bool.eq_iff_iff, sharesKey_iff distinct, decide_eq_true_eq, eq_comm]
  rw [slot, same]
  cases last : ((List.range c.records.length).filter (· = i)).getLast? with
  | none => rfl
  | some j =>
    have member := List.mem_of_getLast? last
    simpa using (List.mem_filter.1 member).2

theorem firsts_eq : c.firsts = List.range c.records.length := by
  rw [firsts, List.filter_eq_self]
  intro i _
  rw [Bool.not_eq_true', List.any_eq_false]
  intro j before shared
  rw [sharesKey_iff distinct] at shared
  simp [shared] at before

theorem rank_eq {i : Nat} (inside : i ≤ c.records.length) : c.rank i = i := by
  rw [rank, firsts_eq distinct]
  have kept : (List.range c.records.length).filter (· < i) = List.range i := by
    obtain ⟨rest, size⟩ := Nat.exists_eq_add_of_le inside
    rw [size, List.range_add, List.filter_append, List.filter_eq_self.2 (by simp), List.filter_eq_nil_iff.2 (by simp),
      List.append_nil]
  rw [kept, List.length_range]

theorem reported_eq : c.reported = c.records := by
  rw [reported, firsts_eq distinct]
  simp only [slot_eq distinct, record?]
  have places : (List.range c.records.length).map (fun i => c.records[i]?) = c.records.map some := by
    apply List.ext_getElem
    · simp
    · intro i inside _
      have bound : i < c.records.length := by simpa using inside
      simp [bound]
  calc (List.range c.records.length).filterMap (fun i => c.records[i]?)
      = ((List.range c.records.length).map fun i => c.records[i]?).filterMap id := by
        rw [List.filterMap_map, Function.id_comp]
    _ = c.records := by rw [places, List.filterMap_map, Function.id_comp, List.filterMap_some]

end Coordinator

namespace Moment

variable {ω : Type} {g : RunGraph} {m : Moment ω}

theorem Runs.apart (runs : Runs g m) (distinct : g.DistinctKeys) :
    (m.coord.records.map (·.job)).Pairwise Job.Apart := by
  rw [runs.jobs]
  exact distinct

end Moment
end Conveyor

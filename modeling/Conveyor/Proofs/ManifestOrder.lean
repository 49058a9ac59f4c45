import Mathlib.Data.List.Sort
import Mathlib.Data.List.Nodup
import Conveyor.Proofs.StageOrder
import Conveyor.Scheduler.Coordinator

/-! The order of artifacts. Names are in the order of their texts, and the manifest has the lines of the first job
first. So the manifest is known as soon as the lines of every job are. -/

namespace Conveyor

theorem Text.le_trans {a b c : String} (first : Text.le a b = true) (second : Text.le b c = true) :
    Text.le a c = true := by
  simp only [Text.le, decide_eq_true_eq] at *
  exact String.le_trans first second

theorem Text.le_total (a b : String) : (Text.le a b || Text.le b a) = true := by
  simpa [Text.le] using String.le_total a b

theorem Text.le_antisymm {a b : String} (first : Text.le a b = true) (second : Text.le b a = true) : a = b := by
  simp only [Text.le, decide_eq_true_eq] at *
  exact String.le_antisymm first second

theorem flatMap_zipIdx {α β : Type} (l : List α) (f : α → Nat → List β) :
    (l.zipIdx.flatMap fun item => f item.1 item.2) =
      (List.range l.length).flatMap fun j => (l[j]?.map fun a => f a j).getD [] := by
  induction l using List.reverseRecOn with
  | nil => rfl
  | append_singleton l a ih =>
    rw [List.zipIdx_append, List.flatMap_append, ih, List.length_append, List.length_singleton, List.range_succ,
      List.flatMap_append]
    congr 1
    · apply List.flatMap_congr
      intro j member
      rw [List.getElem?_append_left (List.mem_range.1 member)]
    · simp

namespace Coordinator

theorem inNameOrder_perm (artifacts : Table String Blob) : (inNameOrder artifacts).Perm artifacts :=
  List.mergeSort_perm _ _

theorem inNameOrder_sorted (artifacts : Table String Blob) :
    (inNameOrder artifacts).Pairwise fun a b => Text.le a.1 b.1 = true := by
  apply List.pairwise_mergeSort
  · intro a b c
    exact Text.le_trans
  · intro a b
    exact Text.le_total a.1 b.1

/-- Artifacts of different names in their order have the names of their declaration, each once and in order. -/
theorem inNameOrder_names {artifacts : Table String Blob} {declared : List String}
    (distinct : (artifacts.map Prod.fst).Nodup) (same : ∀ name, name ∈ artifacts.map Prod.fst ↔ name ∈ declared) :
    (inNameOrder artifacts).map Prod.fst = Text.sortedSet declared := by
  have names := (inNameOrder_perm artifacts).map Prod.fst
  have texts : (Text.sortedSet declared).Perm declared.eraseDups := List.mergeSort_perm _ _
  have order : (Text.sortedSet declared).Pairwise fun a b => Text.le a b = true := by
    apply List.pairwise_mergeSort
    · intro a b c
      exact Text.le_trans
    · exact Text.le_total
  refine List.Perm.eq_of_pairwise (fun a b _ _ => Text.le_antisymm) ?_ order ?_
  · rw [List.pairwise_map]
    exact inNameOrder_sorted artifacts
  · apply names.trans
    apply List.Perm.trans _ texts.symm
    rw [List.perm_ext_iff_of_nodup distinct (Graph.nodup_eraseDups _)]
    intro name
    rw [List.mem_eraseDups, same]

/-- Lines that are put together by their places are the lines of the first places. -/
theorem buckets_perm {α : Type} (lines : List (Nat × α)) (n : Nat) :
    ((List.range n).flatMap fun j => lines.filter (·.1 = j)).Perm (lines.filter (·.1 < n)) := by
  induction n with
  | zero => simp
  | succ n ih =>
    rw [List.range_succ, List.flatMap_append, List.flatMap_singleton]
    apply (ih.append_right _).trans
    have split := List.filter_append_perm (fun line : Nat × α => decide (line.1 < n)) (lines.filter (·.1 < n + 1))
    rw [List.filter_filter, List.filter_filter] at split
    refine List.Perm.trans (.of_eq ?_) split
    congr 1
    · apply List.filter_congr
      intro line _
      rw [Bool.eq_iff_iff, Bool.and_eq_true, decide_eq_true_eq, decide_eq_true_eq]
      omega
    · apply List.filter_congr
      intro line _
      rw [Bool.eq_iff_iff, Bool.and_eq_true, Bool.not_eq_true', decide_eq_false_iff_not, decide_eq_true_eq,
        decide_eq_true_eq]
      omega

def before (a b : Nat × Entry) : Bool := a.1 < b.1 || (a.1 == b.1 && Text.le a.2.name b.2.name)

theorem before_iff {a b : Nat × Entry} :
    before a b = true ↔ a.1 < b.1 ∨ a.1 = b.1 ∧ Text.le a.2.name b.2.name = true := by
  simp [before]

theorem before_trans {a b c : Nat × Entry} (first : before a b = true) (second : before b c = true) :
    before a c = true := by
  rw [before_iff] at *
  rcases first with earlier | ⟨same, names⟩
  · left
    omega
  · rcases second with later | ⟨same', names'⟩
    · left
      omega
    · exact Or.inr ⟨same.trans same', Text.le_trans names names'⟩

theorem before_antisymm {a b : Nat × Entry} (above : before a b = true) (below : before b a = true) :
    a.1 = b.1 ∧ a.2.name = b.2.name := by
  rw [before_iff] at above below
  rcases above with earlier | ⟨same, names⟩
  · rcases below with later | ⟨same, _⟩ <;> omega
  · rcases below with later | ⟨_, names'⟩
    · omega
    · exact ⟨same, Text.le_antisymm names names'⟩

theorem before_total (a b : Nat × Entry) : (before a b || before b a) = true := by
  rw [Bool.or_eq_true, before_iff, before_iff]
  rcases Nat.lt_trichotomy a.1 b.1 with earlier | same | later
  · exact Or.inl (Or.inl earlier)
  · have names := Text.le_total a.2.name b.2.name
    rw [Bool.or_eq_true] at names
    exact names.imp (fun le => Or.inr ⟨same, le⟩) (fun le => Or.inr ⟨same.symm, le⟩)
  · exact Or.inr (Or.inl later)

/-- The lines of the places in order, if the lines of each place are in order. -/
theorem flatMap_pairwise {n : Nat} {lines : Nat → List Entry}
    (sorted : ∀ j < n, (lines j).Pairwise fun a b => Text.le a.name b.name = true) :
    ((List.range n).flatMap fun j => (lines j).map fun entry => (j, entry)).Pairwise
      fun a b => before a b = true := by
  rw [List.pairwise_flatMap]
  constructor
  · intro j member
    rw [List.pairwise_map]
    apply (sorted j (List.mem_range.1 member)).imp
    intro a b names
    exact before_iff.2 (Or.inr ⟨rfl, names⟩)
  · apply List.pairwise_lt_range.imp
    intro i j earlier a first b second
    obtain ⟨entry, _, rfl⟩ := List.mem_map.1 first
    obtain ⟨entry', _, rfl⟩ := List.mem_map.1 second
    exact before_iff.2 (Or.inl earlier)

/-- If the lines of every job are in the order of their names, the manifest has them job after job. -/
theorem entries_eq {c : Coordinator} {n : Nat} {lines : Nat → List Entry}
    (inside : ∀ line ∈ c.manifest, line.1 < n)
    (each : ∀ j < n, c.manifest.filter (·.1 = j) = (lines j).map fun entry => (j, entry))
    (sorted : ∀ j < n, (lines j).Pairwise fun a b => Text.le a.name b.name = true)
    (distinct : ∀ j < n, ((lines j).map Entry.name).Nodup) :
    c.entries = (List.range n).flatMap lines := by
  have whole : c.manifest.Perm ((List.range n).flatMap fun j => (lines j).map fun entry => (j, entry)) := by
    have buckets := buckets_perm c.manifest n
    rw [List.filter_eq_self.2 (by simpa using inside)] at buckets
    apply buckets.symm.trans
    apply List.Perm.of_eq
    apply List.flatMap_congr
    intro j member
    exact each j (List.mem_range.1 member)
  have listed {line : Nat × Entry} (member : line ∈ c.manifest) : line.1 < n ∧ line.2 ∈ lines line.1 := by
    refine ⟨inside line member, ?_⟩
    have found : line ∈ c.manifest.filter (·.1 = line.1) := by simpa using member
    rw [each _ (inside line member)] at found
    obtain ⟨entry, present, same⟩ := List.mem_map.1 found
    rw [← same]
    exact present
  have arranged : (c.manifest.mergeSort before).Pairwise fun a b => before a b = true := by
    apply List.pairwise_mergeSort
    · intro a b c
      exact before_trans
    · exact before_total
  have order : c.manifest.mergeSort before =
      (List.range n).flatMap fun j => (lines j).map fun entry => (j, entry) := by
    refine List.Perm.eq_of_pairwise ?_ arranged (flatMap_pairwise sorted)
      ((List.mergeSort_perm _ _).trans whole)
    -- Two lines that stand before each other have one place and one name, and names come once.
    intro ⟨i, a⟩ ⟨j, b⟩ first second above below
    have first := listed ((List.mergeSort_perm _ _).mem_iff.1 first)
    have second := listed (whole.mem_iff.2 second)
    obtain ⟨same, names⟩ := before_antisymm above below
    cases same
    exact congrArg _ (List.inj_on_of_nodup_map (distinct i first.1) first.2 second.2 names)
  change (c.manifest.mergeSort before).map (·.2) = _
  rw [order, List.map_flatMap]
  simp

end Coordinator
end Conveyor

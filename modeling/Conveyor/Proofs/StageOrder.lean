import Mathlib.Data.List.Dedup
import Mathlib.Data.List.Induction
import Mathlib.Data.List.Perm.Subperm
import Mathlib.Logic.Relation
import Conveyor.Graph.Basic

/-! The order of a stage graph. Stages are taken from a queue, each once the count of its needs has come down
to nothing; so every stage stands behind all that it needs, and a graph that is accepted leaves none out. -/

namespace Conveyor
namespace Graph

theorem release_freed (children : List Nat) (counts : List Int) (distinct : children.Nodup)
    (inside : ∀ i ∈ children, i < counts.length) :
    (release children counts).2 = children.filter fun i => counts.getD i 0 = 1 := by
  induction children generalizing counts with
  | nil => rfl
  | cons child rest ih =>
    obtain ⟨fresh, distinct⟩ := List.nodup_cons.1 distinct
    have same (i : Nat) (member : i ∈ rest) : (counts.set child (counts.getD child 0 - 1)).getD i 0 = counts.getD i 0 := by
      have other : child ≠ i := fun equal => fresh (equal ▸ member)
      simp [List.getD, other]
    have later := ih (counts.set child (counts.getD child 0 - 1)) distinct
      (fun i member => by simpa using inside i (by simp [member]))
    simp only [release]
    rw [later, List.filter_congr (fun i member => by rw [same i member]), List.filter_cons]
    have last : counts.getD child 0 - 1 = 0 ↔ counts.getD child 0 = 1 := by omega
    simp only [last, decide_eq_true_eq]

theorem release_counts (children : List Nat) (counts : List Int) (distinct : children.Nodup)
    (inside : ∀ i ∈ children, i < counts.length) (i : Nat) :
    (release children counts).1.getD i 0 = counts.getD i 0 - if i ∈ children then 1 else 0 := by
  induction children generalizing counts with
  | nil => simp [release]
  | cons child rest ih =>
    obtain ⟨fresh, distinct⟩ := List.nodup_cons.1 distinct
    have later := ih (counts.set child (counts.getD child 0 - 1)) distinct
      (fun i member => by simpa using inside i (by simp [member]))
    have bound := inside child (by simp)
    simp only [release]
    rw [later]
    by_cases here : i = child
    · subst here
      simp [fresh, List.getD, bound]
    · have other : child ≠ i := fun equal => here equal.symm
      simp [here, List.getD, other]

theorem release_length (children : List Nat) (counts : List Int) :
    (release children counts).1.length = counts.length := by
  induction children generalizing counts with
  | nil => rfl
  | cons child rest ih => simp [release, ih]

def missingNeeds (needs : List (List Nat)) (taken : List Nat) (i : Nat) : List Nat :=
  (entry needs i).filter fun n => n ∉ taken

variable {needs dependents : List (List Nat)} {taken : List Nat}

theorem missingNeeds_eq_nil {i : Nat} :
    missingNeeds needs taken i = [] ↔ ∀ n ∈ entry needs i, n ∈ taken := by
  simp [missingNeeds, List.filter_eq_nil_iff]

/-- Tables of needs and dependents that fit together. -/
structure Coherent (needs dependents : List (List Nat)) : Prop where
  distinct : ∀ i, (entry needs i).Nodup
  dependents : ∀ i, i < needs.length → entry dependents i = dependentsOf needs i

/-- The state of the search after some stages have been taken. -/
structure Underway (needs : List (List Nat)) (taken : List Nat) (counts : List Int) (queue : List Nat) : Prop where
  size : counts.length = needs.length
  counted : ∀ i, i < needs.length → counts.getD i 0 = (missingNeeds needs taken i).length
  free : ∀ i, i ∈ taken ++ queue ↔ i < needs.length ∧ ∀ n ∈ entry needs i, n ∈ taken
  distinct : (taken ++ queue).Nodup

theorem missingNeeds_snoc {node i : Nat} (distinct : (entry needs i).Nodup) (fresh : node ∉ taken) :
    ((missingNeeds needs (taken ++ [node]) i).length : Int) =
      (missingNeeds needs taken i).length - if node ∈ entry needs i then 1 else 0 := by
  have erased : missingNeeds needs (taken ++ [node]) i = (missingNeeds needs taken i).erase node := by
    unfold missingNeeds
    rw [(distinct.filter _).erase_eq_filter, List.filter_filter]
    apply List.filter_congr
    intro n _
    by_cases same : n = node <;> simp [same]
  rw [erased]
  by_cases member : node ∈ entry needs i
  · have open' : node ∈ missingNeeds needs taken i := by simp [missingNeeds, member, fresh]
    have positive := List.length_pos_of_mem open'
    rw [List.length_erase_of_mem open']
    simp only [member, if_true]
    omega
  · have closed : node ∉ missingNeeds needs taken i := by simp [missingNeeds, member]
    simp [member, List.erase_of_not_mem closed]

/-- Taking the first stage of the queue keeps the state of the search in order. -/
theorem Underway.step {counts : List Int} {node : Nat} {queue : List Nat} (coherent : Coherent needs dependents)
    (underway : Underway needs taken counts (node :: queue)) :
    Underway needs (taken ++ [node]) (release ((entry dependents node).mergeSort (· ≤ ·)) counts).1
      (queue ++ (release ((entry dependents node).mergeSort (· ≤ ·)) counts).2) := by
  have inside : node < needs.length := ((underway.free node).1 (by simp)).1
  have fresh : node ∉ taken := by
    intro member
    exact (List.nodup_append.1 underway.distinct).2.2 node member node (by simp) rfl
  have children (i : Nat) : i ∈ (entry dependents node).mergeSort (· ≤ ·) ↔ i < needs.length ∧ node ∈ entry needs i := by
    simp [coherent.dependents node inside, dependentsOf]
  have unique : ((entry dependents node).mergeSort (· ≤ ·)).Nodup := by
    rw [(List.mergeSort_perm _ _).nodup_iff, coherent.dependents node inside]
    exact List.nodup_range.filter _
  have bounds : ∀ i ∈ (entry dependents node).mergeSort (· ≤ ·), i < counts.length :=
    fun i member => underway.size ▸ ((children i).1 member).1
  have counted (i : Nat) (bound : i < needs.length) :
      (release ((entry dependents node).mergeSort (· ≤ ·)) counts).1.getD i 0 =
        (missingNeeds needs (taken ++ [node]) i).length := by
    rw [release_counts _ _ unique bounds, underway.counted i bound, missingNeeds_snoc (coherent.distinct i) fresh]
    simp [children, bound]
  have freed (i : Nat) : i ∈ (release ((entry dependents node).mergeSort (· ≤ ·)) counts).2 ↔
      i < needs.length ∧ node ∈ entry needs i ∧ ∀ n ∈ entry needs i, n ∈ taken ++ [node] := by
    rw [release_freed _ _ unique bounds, List.mem_filter, children, ← missingNeeds_eq_nil]
    constructor
    · rintro ⟨⟨bound, member⟩, one⟩
      have left := counted i bound
      rw [release_counts _ _ unique bounds, if_pos ((children i).2 ⟨bound, member⟩), of_decide_eq_true one] at left
      exact ⟨bound, member, List.length_eq_zero_iff.1 (by omega)⟩
    · rintro ⟨bound, member, done⟩
      have left := counted i bound
      rw [release_counts _ _ unique bounds, if_pos ((children i).2 ⟨bound, member⟩), done] at left
      exact ⟨⟨bound, member⟩, by simp at left ⊢; omega⟩
  refine ⟨(release_length _ _).trans underway.size, counted, ?_, ?_⟩
  · intro i
    have before := underway.free i
    have reordered : i ∈ taken ++ [node] ++ (queue ++ (release ((entry dependents node).mergeSort (· ≤ ·)) counts).2) ↔
        i ∈ taken ++ node :: queue ∨ i ∈ (release ((entry dependents node).mergeSort (· ≤ ·)) counts).2 := by
      simp only [List.mem_append, List.mem_cons, List.not_mem_nil]
      tauto
    rw [reordered, before, freed]
    constructor
    · rintro (⟨bound, done⟩ | ⟨bound, _, done⟩)
      · exact ⟨bound, fun n member => by simp [done n member]⟩
      · exact ⟨bound, done⟩
    · rintro ⟨bound, done⟩
      by_cases member : node ∈ entry needs i
      · exact Or.inr ⟨bound, member, done⟩
      · refine Or.inl ⟨bound, fun n need => ?_⟩
        rcases List.mem_append.1 (done n need) with known | last
        · exact known
        · cases List.mem_singleton.1 last
          exact (member need).elim
  · have apart : ∀ i ∈ taken ++ node :: queue,
        ∀ j ∈ (release ((entry dependents node).mergeSort (· ≤ ·)) counts).2, i ≠ j := by
      rintro i member j late rfl
      obtain ⟨_, need, _⟩ := (freed i).1 late
      exact fresh (((underway.free i).1 member).2 node need)
    have freedDistinct : (release ((entry dependents node).mergeSort (· ≤ ·)) counts).2.Nodup := by
      rw [release_freed _ _ unique bounds]
      exact unique.filter _
    have all := List.nodup_append.2 ⟨underway.distinct, freedDistinct, apart⟩
    simpa [List.append_assoc] using all

/-- Every stage that is taken comes after all that it needs, and none is taken twice. -/
theorem take_spec (coherent : Coherent needs dependents) (fuel : Nat) {counts : List Int} {queue : List Nat}
    (underway : Underway needs taken counts queue) :
    (taken ++ take fuel dependents counts queue).Nodup ∧
      (∀ i ∈ take fuel dependents counts queue, i < needs.length) ∧
      ∀ before i after, take fuel dependents counts queue = before ++ i :: after →
        ∀ n ∈ entry needs i, n ∈ taken ++ before := by
  induction fuel generalizing taken counts queue with
  | zero =>
    have early := (List.nodup_append.1 underway.distinct).1
    simpa [take] using early
  | succ fuel ih =>
    cases queue with
    | nil => simpa [take] using underway.distinct
    | cons node queue =>
      obtain ⟨distinct, bounds, earlier⟩ := ih (underway.step coherent)
      simp only [take]
      refine ⟨by simpa using distinct, ?_, ?_⟩
      · intro i member
        rcases List.mem_cons.1 member with rfl | member
        · exact ((underway.free i).1 (by simp)).1
        · exact bounds i member
      · intro before i after split n need
        cases before with
        | nil =>
          obtain ⟨rfl, -⟩ := List.cons.inj split
          simpa using ((underway.free node).1 (by simp)).2 n need
        | cons first before =>
          obtain ⟨rfl, rest⟩ := List.cons.inj split
          simpa using earlier before i after rest n need

theorem nodup_eraseDups {α : Type} [DecidableEq α] (l : List α) : l.eraseDups.Nodup := by
  match l with
  | [] => simp
  | a :: l =>
    rw [List.eraseDups_cons, List.nodup_cons, List.mem_eraseDups]
    exact ⟨by simp, nodup_eraseDups _⟩
termination_by l.length
decreasing_by exact Nat.lt_succ_of_le (List.length_filter_le _ _)

theorem entry_map {α : Type} (f : α → List Nat) (l : List α) (i : Nat) :
    entry (l.map f) i = (l[i]?.map f).getD [] := by
  simp [entry]

/-- Before any stage is taken, the stages without needs are in the queue. -/
theorem underway_start (needs : List (List Nat)) :
    Underway needs [] (needs.map fun n => (n.length : Int))
      ((List.range needs.length).filter fun i => (entry needs i).isEmpty) := by
  refine ⟨by simp, ?_, ?_, List.nodup_range.filter _⟩
  · intro i inside
    simp [missingNeeds, entry, inside]
  · intro i
    simp [List.eq_nil_iff_forall_not_mem]

theorem topologicalOrder_spec (coherent : Coherent needs dependents) :
    (topologicalOrder needs dependents).Nodup ∧ (∀ i ∈ topologicalOrder needs dependents, i < needs.length) ∧
      ∀ before i after, topologicalOrder needs dependents = before ++ i :: after →
        ∀ n ∈ entry needs i, n ∈ before := by
  unfold topologicalOrder
  simpa using take_spec coherent needs.length (underway_start needs)

/-- Along an order in which needs come first, a property can be passed from the needs of a stage to the stage. -/
theorem order_induction {order : List Nat}
    (earlier : ∀ before i after, order = before ++ i :: after → ∀ n ∈ entry needs i, n ∈ before) (holds : Nat → Prop)
    (step : ∀ i ∈ order, (∀ n ∈ entry needs i, holds n) → holds i) : ∀ i ∈ order, holds i := by
  have prefixes : ∀ before after, order = before ++ after → ∀ i ∈ before, holds i := by
    intro before
    induction before using List.reverseRecOn with
    | nil => simp
    | append_singleton before last ih =>
      intro after split i member
      have known := ih (last :: after) (by simp [split])
      rcases List.mem_append.1 member with member | member
      · exact known i member
      · cases List.mem_singleton.1 member
        refine step last (by simp [split]) fun n need => known n ?_
        exact earlier before last after (by simp [split]) n need
  exact prefixes order [] (by simp)

theorem coherent_build (stages : List Stage) (names : List String) :
    Coherent (stages.map (needsOf names))
      ((List.range stages.length).map (dependentsOf (stages.map (needsOf names)))) := by
  constructor
  · intro i
    rw [entry_map]
    cases stages[i]? with
    | none => simp
    | some s => exact nodup_eraseDups _
  · intro i inside
    rw [entry_map]
    simp only [List.length_map] at inside
    simp [inside]

end Graph

namespace StageGraph

open Conveyor.Graph

/-- A graph whose order holds every stage once, behind the stages that it needs. -/
structure Ordered (g : StageGraph) : Prop where
  names : (g.stages.map (·.name)).Nodup
  needs : ∀ i n, n ∈ entry g.needs i → i < g.stages.length ∧ n < g.stages.length
  distinct : g.order.Nodup
  complete : ∀ i, i ∈ g.order ↔ i < g.stages.length
  earlier : ∀ before i after, g.order = before ++ i :: after → ∀ n ∈ entry g.needs i, n ∈ before

private theorem names_nodup {names : List String} (unrepeated : (names.filter fun name => 1 < names.count name) = []) :
    names.Nodup := by
  rw [List.nodup_iff_count_le_one]
  intro name
  by_cases member : name ∈ names
  · have single := List.filter_eq_nil_iff.1 unrepeated name member
    simpa using single
  · simp [List.count_eq_zero_of_not_mem member]

private theorem needs_inside {stages : List Stage} {names : List String} (size : names.length = stages.length)
    {i n : Nat} (need : n ∈ entry (stages.map (needsOf names)) i) : i < stages.length ∧ n < stages.length := by
  rw [entry_map] at need
  cases found : stages[i]? with
  | none => simp [found] at need
  | some s =>
    simp only [found, Option.map_some, Option.getD_some, needsOf, List.mem_eraseDups, List.mem_filterMap] at need
    obtain ⟨name, _, place⟩ := need
    obtain ⟨bound, _⟩ := List.idxOf?_eq_some_iff.1 place
    exact ⟨(List.getElem?_eq_some_iff.1 found).1, size ▸ bound⟩

theorem build_ordered {stages : List Stage} {g : StageGraph} (built : build stages = .ok g) :
    g.stages = stages ∧ g.needs = stages.map (needsOf (stages.map (·.name))) ∧ g.Ordered := by
  simp only [build] at built
  split at built
  next => cases built
  next unrepeated =>
    split at built
    next => cases built
    next =>
      split at built
      next whole =>
        cases built
        obtain ⟨distinct, bounds, earlier⟩ :=
          topologicalOrder_spec (coherent_build stages (stages.map (·.name)))
        simp only [List.length_map] at bounds
        refine ⟨rfl, rfl,
          ⟨names_nodup (by simpa using unrepeated), fun i n => needs_inside (by simp), distinct, ?_, earlier⟩⟩
        have all := (List.Nodup.subperm distinct (fun i member => List.mem_range.2 (bounds i member))).perm_of_length_le
          (by simp [whole])
        exact fun i => all.mem_iff.trans List.mem_range
      next => cases built

/-- The numbered needs of every stage are those that it lists, and all of them are stages. -/
structure Named (g : StageGraph) : Prop where
  needs : ∀ i s, g.stages[i]? = some s → entry g.needs i = needsOf (g.stages.map (·.name)) s
  known : ∀ s ∈ g.stages, ∀ need ∈ s.needs, need ∈ g.stages.map (·.name)

theorem build_named {stages : List Stage} {g : StageGraph} (built : build stages = .ok g) : g.Named := by
  obtain ⟨same, needs, _⟩ := build_ordered built
  constructor
  · intro i s stage
    rw [needs, entry_map, ← same, stage]
    rfl
  · intro s member need listed
    simp only [build] at built
    split at built
    next => cases built
    next =>
      split at built
      next => cases built
      next present =>
        by_contra stranger
        rw [same] at member stranger
        apply present
        simp only [Bool.not_eq_true', List.isEmpty_eq_false_iff_exists_mem]
        refine ⟨(s.name, need), List.mem_flatMap.2 ⟨s, member, List.mem_map.2 ⟨need, ?_, rfl⟩⟩⟩
        simpa [listed] using stranger

variable {g : StageGraph}

def Needs (g : StageGraph) (i n : Nat) : Prop := n ∈ entry g.needs i

/-- A property that comes down from the needs of a stage to it holds of all stages in the order. -/
theorem Ordered.induction (ordered : g.Ordered) (holds : Nat → Prop)
    (step : ∀ i ∈ g.order, (∀ n, g.Needs i n → holds n) → holds i) : ∀ i ∈ g.order, holds i :=
  order_induction ordered.earlier holds step

theorem Ordered.stage (ordered : g.Ordered) {i : Nat} (listed : i ∈ g.order) : ∃ s, g.stages[i]? = some s :=
  ⟨_, List.getElem?_eq_getElem ((ordered.complete i).1 listed)⟩

theorem Ordered.unique (ordered : g.Ordered) {i j : Nat} {s t : Stage} (first : g.stages[i]? = some s)
    (second : g.stages[j]? = some t) (same : s.name = t.name) : i = j := by
  have inside := (List.getElem?_eq_some_iff.1 first).1
  exact (List.getElem?_inj (by simpa using inside) ordered.names).1 (by simp [first, second, same])

theorem Ordered.find (ordered : g.Ordered) {s : Stage} (declared : s ∈ g.stages) :
    g.stages.find? (·.name == s.name) = some s := by
  obtain ⟨i, place⟩ := List.mem_iff_getElem?.1 declared
  cases found : g.stages.find? (·.name == s.name) with
  | none => exact (List.find?_eq_none.1 found s declared (beq_self_eq_true s.name)).elim
  | some t =>
    obtain ⟨k, place'⟩ := List.mem_iff_getElem?.1 (List.mem_of_find?_eq_some found)
    have same : t.name = s.name := by simpa using List.find?_some found
    cases ordered.unique place' place same
    exact place'.symm.trans place

end StageGraph
end Conveyor

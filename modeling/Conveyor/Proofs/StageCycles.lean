import Mathlib.Data.Fintype.Pigeonhole
import Mathlib.Data.List.Permutation
import Mathlib.Order.Monotone.Basic
import Conveyor.Proofs.ManifestOrder

/-! Which stages form a graph. The search for an order takes every stage whose needs have all been taken, so a stage that
is left out has a need that is left out as well. There are finitely many stages, and so following such needs comes back to
a stage that was met before: what is left out are the stages on a cycle and those that wait for one. -/

namespace Conveyor
namespace Graph

open Relation

section

variable {needs dependents : List (List Nat)}

/-- Stages that are taken one by one and all exist are all of them once there are enough. -/
theorem Underway.taken_all {taken queue : List Nat} {counts : List Int} (underway : Underway needs taken counts queue)
    (enough : needs.length ≤ taken.length) {i : Nat} (inside : i < needs.length) : i ∈ taken := by
  have distinct := (List.nodup_append.1 underway.distinct).1
  have bounds : taken ⊆ List.range needs.length := by
    intro j member
    exact List.mem_range.2 ((underway.free j).1 (List.mem_append_left _ member)).1
  have all := (List.Nodup.subperm distinct bounds).perm_of_length_le (by simpa using enough)
  exact all.mem_iff.2 (List.mem_range.2 inside)

/-- A search that goes on for long enough takes every stage whose needs it takes. -/
theorem take_closed (coherent : Coherent needs dependents) (fuel : Nat) {taken queue : List Nat} {counts : List Int}
    (underway : Underway needs taken counts queue) (enough : needs.length ≤ taken.length + fuel) {i : Nat}
    (inside : i < needs.length) (done : ∀ n ∈ entry needs i, n ∈ taken ++ take fuel dependents counts queue) :
    i ∈ taken ++ take fuel dependents counts queue := by
  induction fuel generalizing taken counts queue with
  | zero =>
    apply List.mem_append_left
    exact underway.taken_all enough inside
  | succ fuel ih =>
    cases queue with
    | nil =>
      simp only [take, List.append_nil] at done ⊢
      have free := (underway.free i).2 ⟨inside, done⟩
      simpa using free
    | cons node queue =>
      have later := ih (underway.step coherent) (by simp only [List.length_append, List.length_singleton]; omega)
      simp only [take] at done ⊢
      simp only [List.append_assoc, List.singleton_append] at later
      exact later done

theorem mem_topologicalOrder (coherent : Coherent needs dependents) {i : Nat} :
    i ∈ topologicalOrder needs dependents ↔
      i < needs.length ∧ ∀ n ∈ entry needs i, n ∈ topologicalOrder needs dependents := by
  obtain ⟨_, bounds, earlier⟩ := topologicalOrder_spec coherent
  constructor
  · intro taken
    refine ⟨bounds i taken, ?_⟩
    intro n need
    obtain ⟨before, after, split⟩ := List.append_of_mem taken
    rw [split]
    exact List.mem_append_left _ (earlier before i after split n need)
  · intro ready
    have closed := take_closed coherent needs.length (underway_start needs) (by simp) ready.1
    simp only [List.nil_append] at closed
    exact closed ready.2

def Lists (table : List (List Nat)) (i n : Nat) : Prop := n ∈ entry table i

theorem topologicalOrder_acyclic (coherent : Coherent needs dependents) :
    ∀ i ∈ topologicalOrder needs dependents, ¬ TransGen (Lists needs) i i := by
  apply order_induction (topologicalOrder_spec coherent).2.2
  intro i _ below cycle
  obtain ⟨n, need, back⟩ := TransGen.head'_iff.1 cycle
  exact below n need (TransGen.tail' back need)

/-- Stages in a finite range each of which leads to another one of them lead to a cycle. -/
theorem exists_cycle {leads : Nat → Nat → Prop} (left : Nat → Prop) {size : Nat} (bound : ∀ i, left i → i < size)
    (next : ∀ i, left i → ∃ n, leads i n ∧ left n) {i : Nat} (start : left i) :
    ∃ n, ReflTransGen leads i n ∧ TransGen leads n n := by
  choose follow led stays using next
  let step : {i // left i} → {i // left i} := fun i => ⟨follow i.1 i.2, stays i.1 i.2⟩
  let visited : Nat → Fin size := fun k => ⟨(step^[k] ⟨i, start⟩).1, bound _ (step^[k] ⟨i, start⟩).2⟩
  have successive (k : Nat) : TransGen leads (visited k) (visited (k + 1)) := by
    apply TransGen.single
    simp only [visited, Function.iterate_succ_apply']
    exact led _ (step^[k] ⟨i, start⟩).2
  have onward {a b : Nat} (earlier : a < b) : TransGen leads (visited a) (visited b) := by
    have through := Nat.rel_of_forall_rel_succ_of_lt (TransGen leads) (f := fun k => (visited k : Nat)) successive
    exact through earlier
  have reached (k : Nat) : ReflTransGen leads i (visited k) := by
    rcases Nat.eq_zero_or_pos k with rfl | positive
    · exact ReflTransGen.refl
    · exact (onward positive).to_reflTransGen
  obtain ⟨a, b, other, same⟩ := Finite.exists_ne_map_eq_of_infinite visited
  rcases Nat.lt_or_gt_of_ne other with earlier | later
  · refine ⟨visited a, reached a, ?_⟩
    have round := onward earlier
    rwa [← same] at round
  · refine ⟨visited b, reached b, ?_⟩
    have round := onward later
    rwa [same] at round

theorem left_out_iff (coherent : Coherent needs dependents) (inner : ∀ i n, Lists needs i n → n < needs.length) {i : Nat}
    (inside : i < needs.length) :
    i ∉ topologicalOrder needs dependents ↔ ∃ n, ReflTransGen (Lists needs) i n ∧ TransGen (Lists needs) n n := by
  constructor
  · intro absent
    apply exists_cycle (fun i => i < needs.length ∧ i ∉ topologicalOrder needs dependents) (fun i => And.left)
    · intro j stuck
      by_contra free
      apply stuck.2
      refine (mem_topologicalOrder coherent).2 ⟨stuck.1, ?_⟩
      intro n need
      by_contra missing
      exact free ⟨n, need, inner j n need, missing⟩
    · exact ⟨inside, absent⟩
  · intro ⟨n, reached, cycle⟩ taken
    have followed : n ∈ topologicalOrder needs dependents := by
      clear cycle
      induction reached with
      | refl => exact taken
      | tail _ need met => exact ((mem_topologicalOrder coherent).1 met).2 _ need
    exact topologicalOrder_acyclic coherent n followed cycle

end

/-- A stage names another one among its needs, by the places of both. -/
def Awaits (stages : List Stage) (i n : Nat) : Prop :=
  ∃ s t, stages[i]? = some s ∧ stages[n]? = some t ∧ t.name ∈ s.needs

def Stuck (stages : List Stage) (i : Nat) : Prop :=
  ∃ n, ReflTransGen (Awaits stages) i n ∧ TransGen (Awaits stages) n n

section

variable {stages : List Stage}

theorem lists_iff_awaits (distinct : (stages.map (·.name)).Nodup) {i n : Nat} :
    Lists (stages.map (needsOf (stages.map (·.name)))) i n ↔ Awaits stages i n := by
  unfold Lists Awaits
  rw [entry_map]
  cases stages[i]? with
  | none => simp
  | some s =>
    simp only [Option.map_some, Option.getD_some, needsOf, List.mem_eraseDups, List.mem_filterMap]
    constructor
    · intro found
      obtain ⟨need, listed, place⟩ := found
      obtain ⟨inside, same, _⟩ := List.idxOf?_eq_some_iff.1 place
      rw [List.length_map] at inside
      refine ⟨s, stages[n], rfl, List.getElem?_eq_getElem inside, ?_⟩
      rw [List.getElem_map] at same
      rwa [same]
    · intro waits
      obtain ⟨_, t, same, place, listed⟩ := waits
      cases same
      refine ⟨t.name, listed, ?_⟩
      have named : (stages.map (·.name))[n]? = some t.name := by rw [List.getElem?_map, place, Option.map_some]
      obtain ⟨inside, same⟩ := List.getElem?_eq_some_iff.1 named
      rw [List.idxOf?_eq_some_iff]
      refine ⟨inside, same, ?_⟩
      intro j before again
      have early := (List.Nodup.getElem_inj_iff distinct).1 (again.trans same.symm)
      omega

/-- The numbers of the stages in the order in which they are taken. -/
def orderOf (stages : List Stage) : List Nat :=
  let needs := stages.map (needsOf (stages.map (·.name)))
  topologicalOrder needs ((List.range stages.length).map (dependentsOf needs))

theorem orderOf_left_out (distinct : (stages.map (·.name)).Nodup) {i : Nat} (inside : i < stages.length) :
    i ∉ orderOf stages ↔ Stuck stages i := by
  have coherent := coherent_build stages (stages.map (·.name))
  have same : Lists (stages.map (needsOf (stages.map (·.name)))) = Awaits stages := by
    funext i n
    exact propext (lists_iff_awaits distinct)
  have inner : ∀ i n, Awaits stages i n → n < (stages.map (needsOf (stages.map (·.name)))).length := by
    intro i n ⟨_, _, _, place, _⟩
    rw [List.length_map]
    exact (List.getElem?_eq_some_iff.1 place).1
  have left := left_out_iff coherent (same ▸ inner) (i := i) (by rwa [List.length_map])
  rwa [same] at left

theorem orderOf_length (stages : List Stage) :
    (orderOf stages).length = stages.length ↔ ∀ i, i < stages.length → i ∈ orderOf stages := by
  obtain ⟨distinct, bounds, _⟩ := topologicalOrder_spec (coherent_build stages (stages.map (·.name)))
  change (orderOf stages).Nodup at distinct
  change ∀ i ∈ orderOf stages, _ at bounds
  rw [List.length_map] at bounds
  constructor
  · intro whole i inside
    have all := (List.Nodup.subperm distinct (fun i member => List.mem_range.2 (bounds i member))).perm_of_length_le
      (by rw [whole, List.length_range])
    exact all.mem_iff.2 (List.mem_range.2 inside)
  · intro complete
    have all : (orderOf stages).Perm (List.range stages.length) := by
      rw [List.perm_ext_iff_of_nodup distinct List.nodup_range]
      intro i
      rw [List.mem_range]
      exact ⟨bounds i, complete i⟩
    rw [all.length_eq, List.length_range]

def leftOut (stages : List Stage) : List String :=
  ((stages.map (·.name)).zipIdx.filter fun item => !(orderOf stages).contains item.2).map (·.1)

theorem mem_leftOut (distinct : (stages.map (·.name)).Nodup) {name : String} :
    name ∈ leftOut stages ↔ ∃ i s, stages[i]? = some s ∧ s.name = name ∧ Stuck stages i := by
  simp only [leftOut, List.mem_map, List.mem_filter, Prod.exists, Bool.not_eq_true', List.contains_eq_mem,
    decide_eq_false_iff_not, List.mem_zipIdx_iff_getElem?, List.getElem?_map]
  constructor
  · intro ⟨_, i, ⟨place, absent⟩, same⟩
    obtain ⟨s, stage, rfl⟩ := Option.map_eq_some_iff.1 place
    have inside := (List.getElem?_eq_some_iff.1 stage).1
    exact ⟨i, s, stage, same, (orderOf_left_out distinct inside).1 absent⟩
  · intro ⟨i, s, stage, same, stuck⟩
    have inside := (List.getElem?_eq_some_iff.1 stage).1
    exact ⟨name, i, ⟨by rw [stage, Option.map_some, same], (orderOf_left_out distinct inside).2 stuck⟩, rfl⟩

theorem sorted_leftOut (distinct : (stages.map (·.name)).Nodup) :
    (Text.sorted (leftOut stages)).Pairwise fun a b => Text.le a b = true ∧ a ≠ b := by
  have part : (leftOut stages).Sublist (stages.map (·.name)) := by
    have kept := (List.filter_sublist (l := (stages.map (·.name)).zipIdx)
      (p := fun item => !(orderOf stages).contains item.2)).map Prod.fst
    rwa [List.zipIdx_map_fst] at kept
  have each : (Text.sorted (leftOut stages)).Nodup := by
    rw [Text.sorted, (List.mergeSort_perm _ _).nodup_iff]
    exact distinct.sublist part
  have ascending : (Text.sorted (leftOut stages)).Pairwise fun a b => Text.le a b = true := by
    apply List.pairwise_mergeSort
    · intro a b c
      exact Text.le_trans
    · exact Text.le_total
  exact ascending.and each

end

end Graph

namespace StageGraph

open Conveyor.Graph Relation

/-- Stages whose names differ and whose needs are all declared. -/
structure Declared (stages : List Stage) : Prop where
  names : (stages.map (·.name)).Nodup
  needs : ∀ s ∈ stages, ∀ need ∈ s.needs, need ∈ stages.map (·.name)

variable {stages : List Stage}

theorem build_declared (declared : Declared stages) :
    build stages =
      if (orderOf stages).length = stages.length then
        .ok { stages, needs := stages.map (needsOf (stages.map (·.name)))
              dependents := (List.range stages.length).map (dependentsOf (stages.map (needsOf (stages.map (·.name)))))
              order := orderOf stages }
      else .error (.cycle (Text.sorted (leftOut stages))) := by
  have unrepeated : ((stages.map (·.name)).filter fun name => 1 < (stages.map (·.name)).count name) = [] := by
    rw [List.filter_eq_nil_iff]
    intro name _
    have once := List.nodup_iff_count_le_one.1 declared.names name
    simpa using once
  have present : missing (stages.map (·.name)) stages = [] := by
    simp only [missing, List.flatMap_eq_nil_iff, List.map_eq_nil_iff, List.filter_eq_nil_iff]
    intro s member need listed
    simpa using declared.needs s member need listed
  unfold build
  dsimp only
  rw [unrepeated, present]
  rfl

theorem build_undeclared (undeclared : ¬ Declared stages) : ∀ g, build stages ≠ .ok g := by
  intro g built
  obtain ⟨same, _, ordered⟩ := build_ordered built
  apply undeclared
  refine ⟨same ▸ ordered.names, ?_⟩
  exact same ▸ (build_named built).known

theorem build_ok {g : StageGraph} (built : build stages = .ok g) :
    Declared stages ∧
      g = { stages, needs := stages.map (needsOf (stages.map (·.name)))
            dependents := (List.range stages.length).map (dependentsOf (stages.map (needsOf (stages.map (·.name)))))
            order := orderOf stages } := by
  have declared : Declared stages := by
    by_contra undeclared
    exact build_undeclared undeclared g built
  refine ⟨declared, ?_⟩
  rw [build_declared declared] at built
  split at built
  next => exact (Except.ok.inj built).symm
  next => cases built

theorem build_searched {g : StageGraph} (built : build stages = .ok g) :
    Coherent g.needs g.dependents ∧ g.order = topologicalOrder g.needs g.dependents := by
  rw [(build_ok built).2]
  exact ⟨coherent_build stages _, rfl⟩

/-- The tables and the order of a graph are those of its stages. -/
structure Arranges (g : StageGraph) (stages : List Stage) : Prop where
  given : g.stages = stages
  order : g.order.Perm (List.range stages.length)
  earlier : ∀ before i after, g.order = before ++ i :: after → ∀ n, Awaits stages i n → n ∈ before
  sizes : g.needs.length = stages.length ∧ g.dependents.length = stages.length
  needs : ∀ i n, n ∈ entry g.needs i ↔ Awaits stages i n
  dependents : ∀ i n, i ∈ entry g.dependents n ↔ n ∈ entry g.needs i
  distinct : ∀ i, (entry g.needs i).Nodup ∧ (entry g.dependents i).Nodup

theorem build_arranges {g : StageGraph} (built : build stages = .ok g) : g.Arranges stages := by
  obtain ⟨declared, parts⟩ := build_ok built
  obtain ⟨same, needs, ordered⟩ := build_ordered built
  have dependents : g.dependents = (List.range stages.length).map (dependentsOf g.needs) := by rw [parts]
  have awaited (i n : Nat) : n ∈ entry g.needs i ↔ Awaits stages i n := by
    rw [needs]
    exact lists_iff_awaits declared.names
  have reverse (i n : Nat) : i ∈ entry g.dependents n ↔ n ∈ entry g.needs i := by
    have bounds := ordered.needs i n
    rw [same] at bounds
    rw [dependents, entry_map]
    by_cases inside : n < stages.length
    · simp only [List.getElem?_range inside, Option.map_some, Option.getD_some, dependentsOf, List.mem_filter,
        List.mem_range, needs, List.length_map, List.contains_iff_mem, and_iff_right_iff_imp]
      intro need
      exact (bounds (needs ▸ need)).1
    · have none : (List.range stages.length)[n]? = none := by simpa using inside
      simp only [none, Option.map_none, Option.getD_none, List.not_mem_nil, false_iff]
      intro need
      exact inside (bounds need).2
  constructor
  case given => exact same
  case order =>
    rw [List.perm_ext_iff_of_nodup ordered.distinct List.nodup_range]
    intro i
    rw [ordered.complete, List.mem_range, same]
  case earlier =>
    intro before i after split n waits
    exact ordered.earlier before i after split n ((awaited i n).2 waits)
  case sizes => simp [needs, dependents]
  case needs => exact awaited
  case dependents => exact reverse
  case distinct =>
    intro i
    constructor
    · rw [needs]
      exact (coherent_build stages _).distinct i
    · rw [dependents, entry_map]
      cases (List.range stages.length)[i]? with
      | none => exact List.nodup_nil
      | some n => exact List.nodup_range.filter _

/-- Stages form a graph if and only if their names differ, all that they need is declared and no stage comes back to itself
through needs. The graph then has every stage once, behind the stages that it needs, and lists needs and dependents
accordingly. If only a cycle is in the way, the complaint names the stages on a cycle and those that wait for one. -/
theorem build_correct (stages : List Stage) :
    ((∃ g, build stages = .ok g) ↔ Declared stages ∧ ∀ i, ¬ TransGen (Awaits stages) i i) ∧
      (∀ g, build stages = .ok g → g.Arranges stages) ∧
      (Declared stages → (∃ i, TransGen (Awaits stages) i i) →
        ∃ stuck, build stages = .error (.cycle stuck) ∧ (stuck.Pairwise fun a b => Text.le a b = true ∧ a ≠ b) ∧
          ∀ name, name ∈ stuck ↔ ∃ i s, stages[i]? = some s ∧ s.name = name ∧ Stuck stages i) := by
  have whole (declared : Declared stages) :
      (orderOf stages).length = stages.length ↔ ∀ i, ¬ TransGen (Awaits stages) i i := by
    rw [orderOf_length]
    constructor
    · intro complete i cycle
      have inside : i < stages.length := by
        obtain ⟨_, ⟨_, _, place, _⟩, _⟩ := TransGen.head'_iff.1 cycle
        exact (List.getElem?_eq_some_iff.1 place).1
      exact (orderOf_left_out declared.names inside).2 ⟨i, ReflTransGen.refl, cycle⟩ (complete i inside)
    · intro acyclic i inside
      by_contra absent
      obtain ⟨n, _, cycle⟩ := (orderOf_left_out declared.names inside).1 absent
      exact acyclic n cycle
  refine ⟨?_, fun g => build_arranges, ?_⟩
  · constructor
    · intro ⟨g, built⟩
      have declared := (build_ok built).1
      refine ⟨declared, (whole declared).1 ?_⟩
      by_contra short
      rw [build_declared declared, if_neg short] at built
      cases built
    · intro ⟨declared, acyclic⟩
      rw [build_declared declared, if_pos ((whole declared).2 acyclic)]
      exact ⟨_, rfl⟩
  · intro declared ⟨i, cycle⟩
    have short : (orderOf stages).length ≠ stages.length := fun full => (whole declared).1 full i cycle
    refine ⟨_, by rw [build_declared declared, if_neg short], sorted_leftOut declared.names, ?_⟩
    intro name
    rw [Text.sorted, List.mem_mergeSort]
    exact mem_leftOut declared.names

/-- Two stages that need each other, a third behind them, and two that have nothing to do with them. -/
def deadlocked : List Stage :=
  [{ name := "deploy", steps := [], needs := ["build"] }, { name := "build", steps := [], needs := ["test", "test"] },
    { name := "test", steps := [], needs := ["lint", "build"] }, { name := "lint", steps := [] },
    { name := "docs", steps := [], needs := ["lint"] }]

theorem deadlocked_named :
    Declared deadlocked ∧ TransGen (Awaits deadlocked) 1 1 ∧
      ∃ stuck, build deadlocked = .error (.cycle stuck) ∧ "deploy" ∈ stuck ∧
        ∀ name, name ∈ stuck ↔ ∃ i s, deadlocked[i]? = some s ∧ s.name = name ∧ Stuck deadlocked i := by
  have declared : Declared deadlocked := ⟨by decide, by decide⟩
  have first : Awaits deadlocked 1 2 := ⟨_, _, rfl, rfl, by decide⟩
  have second : Awaits deadlocked 2 1 := ⟨_, _, rfl, rfl, by decide⟩
  have behind : Awaits deadlocked 0 1 := ⟨_, _, rfl, rfl, by decide⟩
  have cycle : TransGen (Awaits deadlocked) 1 1 := TransGen.tail (TransGen.single first) second
  obtain ⟨stuck, refused, _, names⟩ := (build_correct deadlocked).2.2 declared ⟨1, cycle⟩
  have waiting := (names "deploy").2 ⟨0, _, rfl, rfl, 1, ReflTransGen.single behind, cycle⟩
  exact ⟨declared, cycle, stuck, refused, waiting, names⟩

end StageGraph
end Conveyor

import Conveyor.Proofs.StageCycles
import Conveyor.Proofs.TableContents

/-! The waves of a stage graph. The depth of a stage is one more than that of the deepest stage it needs, which is the
length of the longest chain of needs below it. Stages are taken from a first-in, first-out queue, and a stage enters it
when the last of its needs is taken. So at any time the queue holds stages of one depth and behind them stages of the
next, and the order goes through the waves one after the other. -/

namespace Conveyor
namespace Graph

/-- Numbers that are one more than the greatest of the stages needed, or zero without needs. -/
structure Layered (needs : List (List Nat)) (depth : Nat → Nat) : Prop where
  deeper : ∀ i, ∀ n ∈ entry needs i, depth n < depth i
  attained : ∀ i, depth i = 0 ∨ ∃ n ∈ entry needs i, depth i = depth n + 1

section

variable {needs dependents : List (List Nat)} {taken queue : List Nat} {counts : List Int} {node : Nat} {depth : Nat → Nat}

/-- A stage that enters the queue waited for the stage that is taken, and for no later one. -/
theorem Underway.freed (coherent : Coherent needs dependents) (underway : Underway needs taken counts (node :: queue))
    {j : Nat} (late : j ∈ (release ((entry dependents node).mergeSort (· ≤ ·)) counts).2) :
    node ∈ entry needs j ∧ ∀ n ∈ entry needs j, n ∈ taken ++ [node] := by
  have next := underway.step coherent
  have ready := (next.free j).1 (List.mem_append_right _ (List.mem_append_right _ late))
  refine ⟨?_, ready.2⟩
  by_contra unneeded
  have early : j ∈ taken ++ node :: queue := by
    refine (underway.free j).2 ⟨ready.1, ?_⟩
    intro n need
    rcases List.mem_append.1 (ready.2 n need) with known | last
    · exact known
    · cases List.mem_singleton.1 last
      exact (unneeded need).elim
  have twice := next.distinct
  rw [← List.append_assoc, List.append_assoc taken, List.singleton_append, List.nodup_append] at twice
  exact twice.2.2 j early j late rfl

theorem Layered.freed (layered : Layered needs depth) (coherent : Coherent needs dependents)
    (underway : Underway needs taken counts (node :: queue)) (sorted : ∀ n ∈ taken, depth n ≤ depth node) {j : Nat}
    (late : j ∈ (release ((entry dependents node).mergeSort (· ≤ ·)) counts).2) : depth j = depth node + 1 := by
  obtain ⟨need, known⟩ := underway.freed coherent late
  have above := layered.deeper j node need
  rcases layered.attained j with zero | ⟨n, member, same⟩
  · omega
  · have below : depth n ≤ depth node := by
      rcases List.mem_append.1 (known n member) with early | last
      · exact sorted n early
      · cases List.mem_singleton.1 last
        exact Nat.le_refl _
    omega

/-- Stages are taken in the order of their depths if the queue holds only two of them, the lesser one first. -/
theorem take_sorted (layered : Layered needs depth) (coherent : Coherent needs dependents) (fuel : Nat)
    (underway : Underway needs taken counts queue) (sorted : (taken ++ queue).Pairwise fun i j => depth i ≤ depth j)
    (narrow : ∀ i ∈ queue, ∀ j ∈ queue, depth j ≤ depth i + 1) :
    (taken ++ take fuel dependents counts queue).Pairwise fun i j => depth i ≤ depth j := by
  induction fuel generalizing taken counts queue with
  | zero =>
    rw [take, List.append_nil]
    exact (List.pairwise_append.1 sorted).1
  | succ fuel ih =>
    cases queue with
    | nil => simpa only [take] using sorted
    | cons node queue =>
      obtain ⟨_, queued, across⟩ := List.pairwise_append.1 sorted
      have least := (List.pairwise_cons.1 queued).1
      have freed {j : Nat} (late : j ∈ (release ((entry dependents node).mergeSort (· ≤ ·)) counts).2) :
          depth j = depth node + 1 :=
        layered.freed coherent underway (fun n member => across n member node List.mem_cons_self) late
      have later := ih (underway.step coherent)
      simp only [List.append_assoc, List.singleton_append] at later
      rw [take]
      apply later
      · rw [← List.cons_append, ← List.append_assoc, List.pairwise_append]
        refine ⟨sorted, ?_, ?_⟩
        · apply List.pairwise_of_forall_mem_list
          intro i first j second
          rw [freed first, freed second]
        · intro i member j late
          rw [freed late]
          rcases List.mem_append.1 member with early | waiting
          · have below := across i early node List.mem_cons_self
            omega
          · exact narrow node List.mem_cons_self i waiting
      · intro i first j second
        have low : depth node ≤ depth i := by
          rcases List.mem_append.1 first with waiting | late
          · exact least i waiting
          · rw [freed late]
            omega
        have high : depth j ≤ depth node + 1 := by
          rcases List.mem_append.1 second with waiting | late
          · exact narrow node List.mem_cons_self j (List.mem_cons_of_mem _ waiting)
          · rw [freed late]
        omega

theorem topologicalOrder_sorted (layered : Layered needs depth) (coherent : Coherent needs dependents) :
    (topologicalOrder needs dependents).Pairwise fun i j => depth i ≤ depth j := by
  have first {i : Nat} (ready : i ∈ (List.range needs.length).filter fun i => (entry needs i).isEmpty) : depth i = 0 := by
    have none := List.isEmpty_iff.1 (List.mem_filter.1 ready).2
    rcases layered.attained i with zero | ⟨n, need, _⟩
    · exact zero
    · rw [none] at need
      cases need
  have sorted := take_sorted layered coherent needs.length (underway_start needs)
  simp only [List.nil_append] at sorted
  apply sorted
  · apply List.pairwise_of_forall_mem_list
    intro i ready j ready'
    rw [first ready, first ready']
  · intro i ready j ready'
    rw [first ready, first ready']
    omega

end

theorem flatMap_filter {depth : Nat → Nat} {order : List Nat} (sorted : order.Pairwise fun i j => depth i ≤ depth j)
    (count : Nat) :
    ((List.range count).flatMap fun level => order.filter fun i => depth i = level) =
      order.filter fun i => depth i < count := by
  induction count with
  | zero => simp
  | succ count ih =>
    rw [List.range_succ, List.flatMap_append, ih, List.flatMap_singleton]
    clear ih
    induction order with
    | nil => rfl
    | cons i order ih =>
      obtain ⟨least, rest⟩ := List.pairwise_cons.1 sorted
      by_cases below : depth i < count
      · rw [List.filter_cons_of_pos (by simpa using below), List.filter_cons_of_neg (by simp; omega),
          List.filter_cons_of_pos (by simp; omega), List.cons_append, ih rest]
      · have none : (i :: order).filter (fun j => decide (depth j < count)) = [] := by
          rw [List.filter_eq_nil_iff]
          intro j member
          rcases List.mem_cons.1 member with rfl | later
          · simpa using below
          · have above := least j later
            simp only [decide_eq_true_eq]
            omega
        rw [none, List.nil_append]
        apply List.filter_congr
        intro j member
        have above : count ≤ depth j := by
          rcases List.mem_cons.1 member with rfl | later
          · omega
          · have := least j later
            omega
        rw [Bool.eq_iff_iff, decide_eq_true_eq, decide_eq_true_eq]
        omega

theorem foldl_max (numbers : List Nat) :
    (∀ n ∈ numbers, n ≤ numbers.foldl max 0) ∧ (numbers.foldl max 0 = 0 ∨ numbers.foldl max 0 ∈ numbers) := by
  induction numbers using List.reverseRecOn with
  | nil => simp
  | append_singleton numbers last ih =>
    rw [List.foldl_append, List.foldl_cons, List.foldl_nil]
    obtain ⟨bound, greatest⟩ := ih
    constructor
    · intro n member
      rcases List.mem_append.1 member with early | same
      · have := bound n early
        omega
      · cases List.mem_singleton.1 same
        omega
    · rcases Nat.le_total (numbers.foldl max 0) last with above | below
      · right
        rw [Nat.max_eq_right above]
        simp
      · rw [Nat.max_eq_left below]
        rcases greatest with zero | member
        · exact Or.inl zero
        · exact Or.inr (List.mem_append_left _ member)

end Graph

namespace StageGraph

open Conveyor.Graph

section

variable {needs : List (List Nat)} {order : List Nat}

def depthIn (known : Table Nat Nat) (i : Nat) : Nat := (known.get? i).getD 0

/-- One more than the greatest depth among the needs of a stage. -/
def depthOver (needs : List (List Nat)) (known : Table Nat Nat) (i : Nat) : Nat :=
  ((entry needs i).map fun n => depthIn known n + 1).foldl max 0

theorem depths_snoc (before : List Nat) (i : Nat) :
    depths needs (before ++ [i]) = (depths needs before).insert i (depthOver needs (depths needs before) i) := by
  rw [depths, List.foldl_append]
  rfl

theorem depthOver_congr {known other : Table Nat Nat} {i : Nat}
    (same : ∀ n ∈ entry needs i, known.get? n = other.get? n) : depthOver needs known i = depthOver needs other i := by
  unfold depthOver depthIn
  congr 1
  apply List.map_congr_left
  intro n need
  rw [same n need]

/-- Every stage of the order has an entry, whose depth is one more than the greatest depth among its needs. -/
theorem depths_spec (distinct : order.Nodup)
    (earlier : ∀ before i after, order = before ++ i :: after → ∀ n ∈ entry needs i, n ∈ before) :
    (depths needs order).keys = order ∧
      ∀ i ∈ order, (depths needs order).get? i = some (depthOver needs (depths needs order) i) := by
  induction order using List.reverseRecOn with
  | nil => exact ⟨rfl, by simp⟩
  | append_singleton before last ih =>
    obtain ⟨distinct, _, fresh⟩ := List.nodup_append.1 distinct
    obtain ⟨keys, found⟩ := ih distinct (fun b i a split => earlier b i (a ++ [last]) (by simp [split]))
    have absent : last ∉ before := fun member => fresh last member last List.mem_cons_self rfl
    have kept {n : Nat} (member : n ∈ before) :
        ((depths needs before).insert last (depthOver needs (depths needs before) last)).get? n =
          (depths needs before).get? n := by
      rw [Table.get?_insert, if_neg]
      simp only [Key.same, decide_eq_true_eq]
      intro same
      exact absent (same ▸ member)
    rw [depths_snoc]
    constructor
    · have unlisted : (depths needs before).has last = false := by
        rw [← Bool.not_eq_true, Table.has_iff (Key.exact last), keys]
        exact absent
      rw [Table.keys_insert, unlisted, keys]
      rfl
    · intro i member
      rcases List.mem_append.1 member with early | same
      · have needed : ∀ n ∈ entry needs i, n ∈ before := by
          obtain ⟨b, a, split⟩ := List.append_of_mem early
          intro n need
          rw [split]
          exact List.mem_append_left _ (earlier b i (a ++ [last]) (by simp [split]) n need)
        rw [kept early, found i early, depthOver_congr fun n need => (kept (needed n need)).symm]
      · cases List.mem_singleton.1 same
        have needed : ∀ n ∈ entry needs last, n ∈ before := earlier before last [] rfl
        rw [Table.get?_insert, if_pos (by simp [Key.same])]
        exact congrArg some (depthOver_congr fun n need => (kept (needed n need)).symm)

end

variable {g : StageGraph} (ordered : g.Ordered)

include ordered

def depth (g : StageGraph) : Nat → Nat := depthIn (depths g.needs g.order)

theorem Ordered.depths_get? {i : Nat} (listed : i ∈ g.order) : (depths g.needs g.order).get?
    i = some (g.depth i) := by
  have found := (depths_spec ordered.distinct ordered.earlier).2 i listed
  rw [depth, depthIn, found]
  rfl

theorem Ordered.layered : Layered g.needs g.depth := by
  have value {i : Nat} (listed : i ∈ g.order) : g.depth i = depthOver g.needs (depths g.needs g.order) i := by
    have found := (depths_spec ordered.distinct ordered.earlier).2 i listed
    exact Option.some.inj ((ordered.depths_get? listed).symm.trans found)
  constructor
  · intro i n need
    rw [value ((ordered.complete i).2 (ordered.needs i n need).1)]
    exact (foldl_max _).1 _ (List.mem_map_of_mem need)
  · intro i
    by_cases listed : i ∈ g.order
    · rw [value listed]
      rcases (foldl_max ((entry g.needs i).map fun n => depthIn (depths g.needs g.order) n + 1)).2 with zero | member
      · exact Or.inl zero
      · obtain ⟨n, need, same⟩ := List.mem_map.1 member
        exact Or.inr ⟨n, need, same.symm⟩
    · left
      have unknown : (depths g.needs g.order).has i = false := by
        rw [← Bool.not_eq_true, Table.has_iff (Key.exact i), (depths_spec ordered.distinct ordered.earlier).1]
        exact listed
      rw [depth, depthIn, Option.isSome_eq_false_iff.1 unknown |> Option.isNone_iff_eq_none.1]
      rfl

def height (g : StageGraph) : Nat := ((depths g.needs g.order).values.map (· + 1)).foldl max 0

theorem Ordered.mem_values {d : Nat} : d ∈ (depths g.needs g.order).values ↔ ∃ i ∈ g.order, g.depth i = d := by
  have keys := (depths_spec ordered.distinct ordered.earlier).1
  constructor
  · intro member
    obtain ⟨⟨i, _⟩, present, rfl⟩ := List.mem_map.1 member
    have listed : i ∈ g.order := by
      rw [← keys]
      exact List.mem_map_of_mem present
    have found := Table.get?_of_mem (by rw [keys]; exact ordered.distinct) (Key.exact i) present
    exact ⟨i, listed, Option.some.inj ((ordered.depths_get? listed).symm.trans found)⟩
  · intro ⟨i, listed, same⟩
    have found := Table.mem_of_get? (Key.exact i) (ordered.depths_get? listed)
    rw [← same]
    exact List.mem_map_of_mem found

theorem Ordered.depth_lt_height {i : Nat} (listed : i ∈ g.order) : g.depth i < g.height :=
  (foldl_max _).1 _ (List.mem_map_of_mem (ordered.mem_values.2 ⟨i, listed, rfl⟩))

theorem Ordered.exists_depth {level : Nat} (inside : level < g.height) : ∃ i ∈ g.order, g.depth i = level := by
  have descend (d : Nat) : (∃ i ∈ g.order, g.depth i = level + d) → ∃ i ∈ g.order, g.depth i = level := by
    induction d with
    | zero => exact id
    | succ d ih =>
      intro ⟨i, listed, same⟩
      rcases ordered.layered.attained i with zero | ⟨n, need, above⟩
      · omega
      · apply ih
        exact ⟨n, (ordered.complete n).2 (ordered.needs i n need).2, by omega⟩
  rcases (foldl_max ((depths g.needs g.order).values.map (· + 1))).2 with none | member
  · unfold height at inside
    omega
  · obtain ⟨d, present, top⟩ := List.mem_map.1 member
    obtain ⟨i, listed, same⟩ := ordered.mem_values.1 present
    apply descend (d - level)
    refine ⟨i, listed, ?_⟩
    unfold height at inside
    omega

def namesOf (g : StageGraph) (numbers : List Nat) : List String := numbers.filterMap fun i => (g.stage? i).map (·.name)

theorem Ordered.levels_eq :
    g.levels = (List.range g.height).map fun level => g.namesOf (g.order.filter fun i => g.depth i = level) := by
  unfold levels namesOf
  apply List.map_congr_left
  intro level _
  congr 1
  apply List.filter_congr
  intro i listed
  rw [ordered.depths_get? listed, Bool.eq_iff_iff]
  simp

theorem Ordered.levels_flatten (sorted : g.order.Pairwise fun i j => g.depth i ≤ g.depth j) :
    g.levels.flatten = g.namesOf g.order := by
  rw [ordered.levels_eq, ← List.flatMap_def]
  unfold namesOf
  rw [← List.filterMap_flatMap, flatMap_filter sorted, List.filter_eq_self.2]
  intro i listed
  simpa using ordered.depth_lt_height listed

theorem Ordered.mem_namesOf {numbers : List Nat} {i : Nat} {s : Stage} (stage : g.stages[i]? = some s) :
    s.name ∈ g.namesOf numbers ↔ i ∈ numbers := by
  unfold namesOf
  rw [List.mem_filterMap]
  constructor
  · intro ⟨j, member, found⟩
    obtain ⟨t, other, same⟩ := Option.map_eq_some_iff.1 found
    rwa [ordered.unique stage other same.symm]
  · intro member
    exact ⟨i, member, Option.map_eq_some_iff.2 ⟨s, stage, rfl⟩⟩

theorem Ordered.namesOf_order : (g.namesOf g.order).Perm (g.stages.map (·.name)) := by
  have each : (g.namesOf g.order).Nodup := by
    apply ordered.distinct.filterMap
    intro i j name first second
    obtain ⟨s, stage, rfl⟩ := Option.map_eq_some_iff.1 first
    obtain ⟨t, stage', same⟩ := Option.map_eq_some_iff.1 second
    exact ordered.unique stage stage' same.symm
  rw [List.perm_ext_iff_of_nodup each ordered.names]
  intro name
  constructor
  · intro member
    obtain ⟨i, _, found⟩ := List.mem_filterMap.1 member
    obtain ⟨s, stage, rfl⟩ := Option.map_eq_some_iff.1 found
    exact List.mem_map_of_mem (List.mem_of_getElem? stage)
  · intro member
    obtain ⟨s, declared, rfl⟩ := List.mem_map.1 member
    obtain ⟨i, stage⟩ := List.mem_iff_getElem?.1 declared
    exact (ordered.mem_namesOf stage).2 ((ordered.complete i).2 (List.getElem?_eq_some_iff.1 stage).1)

def InWave (g : StageGraph) (name : String) (level : Nat) : Prop := ∃ names, g.levels[level]? = some names ∧ name ∈ names

theorem Ordered.inWave_iff {i level : Nat} {s : Stage} (stage : g.stages[i]? = some s) :
    g.InWave s.name level ↔ g.depth i = level := by
  have listed : i ∈ g.order := (ordered.complete i).2 (List.getElem?_eq_some_iff.1 stage).1
  unfold InWave
  simp only [ordered.levels_eq, List.getElem?_map, Option.map_eq_some_iff]
  constructor
  · intro ⟨names, ⟨_, place, wave⟩, member⟩
    obtain ⟨_, rfl⟩ := List.getElem?_eq_some_iff.1 place
    rw [← wave, ordered.mem_namesOf stage, List.mem_filter, List.getElem_range] at member
    simpa using member.2
  · intro same
    have inside : level < g.height := same ▸ ordered.depth_lt_height listed
    refine ⟨_, ⟨level, List.getElem?_range inside, rfl⟩, ?_⟩
    rw [ordered.mem_namesOf stage, List.mem_filter]
    exact ⟨listed, by simpa using same⟩

theorem Ordered.levels_filled : ∀ names ∈ g.levels, names ≠ [] := by
  intro names member
  rw [ordered.levels_eq] at member
  obtain ⟨level, inside, rfl⟩ := List.mem_map.1 member
  obtain ⟨i, listed, same⟩ := ordered.exists_depth (List.mem_range.1 inside)
  obtain ⟨s, stage⟩ := ordered.stage listed
  apply List.ne_nil_of_mem
  rw [ordered.mem_namesOf stage, List.mem_filter]
  exact ⟨listed, by simpa using same⟩

end StageGraph

namespace Graph

inductive Chain (stages : List Stage) : Nat → Nat → Prop
  | alone (i : Nat) : Chain stages i 0
  | link {i n length : Nat} (waits : Awaits stages i n) (below : Chain stages n length) : Chain stages i (length + 1)

def Longest (stages : List Stage) (i length : Nat) : Prop :=
  Chain stages i length ∧ ∀ other, Chain stages i other → other ≤ length

variable {stages : List Stage} {needs : List (List Nat)} {depth : Nat → Nat}

theorem Layered.longest (layered : Layered needs depth) (same : ∀ i n, n ∈ entry needs i ↔ Awaits stages i n) (i : Nat) :
    Longest stages i (depth i) := by
  constructor
  · generalize deep : depth i = d
    induction d generalizing i with
    | zero => exact .alone i
    | succ d ih =>
      rcases layered.attained i with zero | ⟨n, need, above⟩
      · omega
      · exact .link ((same i n).1 need) (ih n (by omega))
  · intro other chain
    induction chain with
    | alone => exact Nat.zero_le _
    | link waits _ ih =>
      have above := layered.deeper _ _ ((same _ _).2 waits)
      omega

theorem Longest.unique {i length other : Nat} (first : Longest stages i length) (second : Longest stages i other) :
    length = other :=
  Nat.le_antisymm (second.2 length first.1) (first.2 other second.1)

end Graph

namespace StageGraph

open Conveyor.Graph

/-- The waves of a graph are the layers of its stages, in order. -/
structure Waves (g : StageGraph) (stages : List Stage) : Prop where
  ordered : g.levels.flatten = g.ordered.map (·.name)
  once : g.levels.flatten.Nodup ∧ g.levels.flatten.Perm (stages.map (·.name))
  longest : ∀ i s level, stages[i]? = some s → (g.InWave s.name level ↔ Longest stages i level)
  earlier : ∀ s ∈ stages, ∀ need ∈ s.needs, ∀ level before, g.InWave s.name level → g.InWave need before → before < level
  filled : ∀ names ∈ g.levels, names ≠ []

/-- The waves of a graph hold every stage once, each at the length of the longest chain of needs below it, and follow the
order of the graph. -/
theorem levels_are_waves {stages : List Stage} {g : StageGraph} (built : build stages = .ok g) : g.Waves stages := by
  obtain ⟨given, needs, ordered⟩ := build_ordered built
  have arranges := build_arranges built
  have layered := ordered.layered
  have sorted : g.order.Pairwise fun i j => g.depth i ≤ g.depth j := by
    obtain ⟨coherent, searched⟩ := build_searched built
    have taken := topologicalOrder_sorted layered coherent
    rwa [← searched] at taken
  have flat := ordered.levels_flatten sorted
  have all := ordered.namesOf_order
  rw [← flat, given] at all
  constructor
  case ordered => rw [flat, namesOf, StageGraph.ordered, List.map_filterMap]
  case once => exact ⟨all.nodup_iff.2 (given ▸ ordered.names), all⟩
  case longest =>
    intro i s level stage
    rw [ordered.inWave_iff (given ▸ stage)]
    constructor
    · intro same
      rw [← same]
      exact layered.longest arranges.needs i
    · intro longest
      exact (layered.longest arranges.needs i).unique longest
  case earlier =>
    intro s member need listed level before wave wave'
    obtain ⟨i, stage⟩ := List.mem_iff_getElem?.1 member
    obtain ⟨t, present, rfl⟩ := List.mem_map.1 ((build_ok built).1.needs s member need listed)
    obtain ⟨n, stage'⟩ := List.mem_iff_getElem?.1 present
    rw [ordered.inWave_iff (given ▸ stage)] at wave
    rw [ordered.inWave_iff (given ▸ stage')] at wave'
    have above := layered.deeper i n ((arranges.needs i n).2 ⟨s, t, stage, stage', listed⟩)
    omega
  case filled => exact ordered.levels_filled

/-- A stage that needs two others, of which one needs the other. -/
def staggered : List Stage :=
  [{ name := "release", steps := [], needs := ["lint", "test"] }, { name := "lint", steps := [] },
    { name := "build", steps := [] }, { name := "test", steps := [], needs := ["build", "lint"] }]

theorem staggered_levels :
    (build staggered).map levels = .ok [["lint", "build"], ["test"], ["release"]] := by
  cbv

theorem staggered_waves :
    ∃ g, build staggered = .ok g ∧ g.levels = [["lint", "build"], ["test"], ["release"]] ∧ g.Waves staggered := by
  have levels := staggered_levels
  cases built : build staggered with
  | error fault =>
    rw [built] at levels
    cases levels
  | ok g =>
    rw [built] at levels
    exact ⟨g, rfl, Except.ok.inj levels, levels_are_waves built⟩

end StageGraph
end Conveyor

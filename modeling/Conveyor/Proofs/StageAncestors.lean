import Conveyor.Proofs.StagePositions

/-! The ancestors of a stage. The search for them works off a list of pending stages, which may hold a stage more than
once and grows while it is worked off. Whichever stage is taken from it next, what the stage itself needs and what is
needed by the stages met so far is always met or pending. So nothing is missing once the list is empty. A stage is met
only once, and so every need becomes pending only once: the search takes one turn for each need of the stage and of its
ancestors. -/

namespace Conveyor
namespace Graph

open Relation

/-- The stages that a search has yet to look at, and those that it has met. -/
structure Search where
  pending : List Nat
  met : List Nat

namespace Search

/-- A turn takes a stage from those pending, wherever it stands among them. If it was not met before, its needs are
looked up and become pending. -/
inductive Turn (needs : List (List Nat)) (node : Nat) : Search → Search → Prop
  | meet {pending rest later met below : List Nat} (taken : pending.Perm (node :: rest)) (fresh : node ∉ met)
      (listed : needs[node]? = some below) (added : later.Perm (below ++ rest)) :
      Turn needs node ⟨pending, met⟩ ⟨later, node :: met⟩
  | pass {pending rest met : List Nat} (taken : pending.Perm (node :: rest)) (old : node ∈ met) :
      Turn needs node ⟨pending, met⟩ ⟨rest, met⟩

inductive Turns (needs : List (List Nat)) : Nat → Search → Search → Prop
  | none (s : Search) : Turns needs 0 s s
  | more {s t u : Search} {node count : Nat} (first : Turn needs node s t) (later : Turns needs count t u) :
      Turns needs (count + 1) s u

def start (needs : List (List Nat)) (i : Nat) : Search := ⟨entry needs i, []⟩

/-- How many needs the given stages have. -/
def demand (needs : List (List Nat)) (stages : List Nat) : Nat := (stages.flatMap (entry needs)).length

/-- The state of a search for the ancestors of a stage after some turns. -/
structure Halfway (needs : List (List Nat)) (i turns : Nat) (s : Search) : Prop where
  reached : ∀ n, n ∈ s.pending ∨ n ∈ s.met → TransGen (Lists needs) i n
  closed : ∀ j, j = i ∨ j ∈ s.met → ∀ n ∈ entry needs j, n ∈ s.pending ∨ n ∈ s.met
  distinct : s.met.Nodup
  counted : s.pending.length + turns = demand needs (i :: s.met)

section

variable {needs : List (List Nat)} {i node turns count : Nat} {s t : Search}

theorem halfway_start (needs : List (List Nat)) (i : Nat) : Halfway needs i 0 (start needs i) := by
  constructor
  case reached =>
    rintro n (pending | met)
    · exact .single pending
    · cases met
  case closed =>
    rintro j (rfl | met) n need
    · exact Or.inl need
    · cases met
  case distinct => exact List.nodup_nil
  case counted => simp [start, demand]

theorem Turn.halfway (turn : Turn needs node s t) (before : Halfway needs i turns s) :
    Halfway needs i (turns + 1) t := by
  cases turn with
  | @meet pending rest later met below taken fresh listed added =>
    have below_eq : entry needs node = below := by simp [entry, listed]
    have way : TransGen (Lists needs) i node := before.reached node (Or.inl (taken.mem_iff.2 List.mem_cons_self))
    have kept {n : Nat} (known : n ∈ pending ∨ n ∈ met) : n ∈ later ∨ n ∈ node :: met := by
      rw [taken.mem_iff, List.mem_cons] at known
      rw [added.mem_iff, List.mem_append, List.mem_cons]
      tauto
    constructor
    case reached =>
      rintro n (waiting | known)
      · rcases List.mem_append.1 (added.mem_iff.1 waiting) with need | other
        · exact way.tail (below_eq ▸ need : n ∈ entry needs node)
        · exact before.reached n (Or.inl (taken.mem_iff.2 (List.mem_cons_of_mem _ other)))
      · rcases List.mem_cons.1 known with rfl | old
        · exact way
        · exact before.reached n (Or.inr old)
    case closed =>
      rintro j (rfl | known) n need
      · exact kept (before.closed j (Or.inl rfl) n need)
      · rcases List.mem_cons.1 known with rfl | old
        · exact Or.inl (added.mem_iff.2 (List.mem_append_left _ (below_eq ▸ need)))
        · exact kept (before.closed j (Or.inr old) n need)
    case distinct => exact List.nodup_cons.2 ⟨fresh, before.distinct⟩
    case counted =>
      have counted := before.counted
      simp only [demand, List.flatMap_cons, List.length_append, below_eq, taken.length_eq, added.length_eq,
        List.length_cons] at counted ⊢
      omega
  | @pass pending rest met taken old =>
    constructor
    case reached =>
      intro n known
      apply before.reached n
      rw [taken.mem_iff, List.mem_cons]
      tauto
    case closed =>
      intro j known n need
      have before := before.closed j known n need
      rw [taken.mem_iff, List.mem_cons] at before
      rcases before with (rfl | waiting) | met
      · exact Or.inr old
      · exact Or.inl waiting
      · exact Or.inr met
    case distinct => exact before.distinct
    case counted =>
      have counted := before.counted
      simp only [taken.length_eq, List.length_cons] at counted ⊢
      omega

theorem Turns.halfway (run : Turns needs count s t) (before : Halfway needs i turns s) :
    Halfway needs i (turns + count) t := by
  induction run generalizing turns with
  | none => exact before
  | more first _ ih =>
    have later := ih (first.halfway before)
    rwa [Nat.add_right_comm, Nat.add_assoc] at later

/-- A search that has nothing pending has met all stages that can be reached. -/
theorem Halfway.met_iff (halfway : Halfway needs i turns s) (empty : s.pending = []) {n : Nat} :
    n ∈ s.met ↔ TransGen (Lists needs) i n := by
  have closed {j : Nat} (known : j = i ∨ j ∈ s.met) {n : Nat} (need : Lists needs j n) : n ∈ s.met := by
    rcases halfway.closed j known n need with waiting | met
    · rw [empty] at waiting
      cases waiting
    · exact met
  constructor
  · intro met
    exact halfway.reached n (Or.inr met)
  · intro reached
    induction reached with
    | single need => exact closed (Or.inl rfl) need
    | tail _ need met => exact closed (Or.inr met) need

/-- A search can go on with any of its pending stages: each of them has an entry. -/
theorem Halfway.progress (halfway : Halfway needs i turns s) (inner : ∀ j n, Lists needs j n → n < needs.length)
    (waiting : node ∈ s.pending) : ∃ t, Turn needs node s t := by
  have taken := List.perm_cons_erase waiting
  by_cases old : node ∈ s.met
  · exact ⟨_, .pass taken old⟩
  · obtain ⟨j, _, need⟩ := TransGen.tail'_iff.1 (halfway.reached node (Or.inl waiting))
    exact ⟨_, .meet taken old (List.getElem?_eq_getElem (inner j node need)) (.refl _)⟩

theorem demand_le {first second : List Nat} (distinct : first.Nodup) (part : first ⊆ second) :
    demand needs first ≤ demand needs second := by
  obtain ⟨chosen, same, sublist⟩ := distinct.subperm part
  calc demand needs first
      = demand needs chosen := (same.flatMap_right (entry needs)).length_eq.symm
    _ ≤ demand needs second := (sublist.flatMap (entry needs)).length_le

/-- A search never takes more turns than its stage and the stages that can be reached have needs. -/
theorem Halfway.turns_le (halfway : Halfway needs i turns s) {ancestors : List Nat}
    (all : ∀ n, n ∈ ancestors ↔ TransGen (Lists needs) i n) : turns ≤ demand needs (i :: ancestors) := by
  have part : demand needs s.met ≤ demand needs ancestors :=
    demand_le halfway.distinct fun n met => (all n).2 (halfway.reached n (Or.inr met))
  have counted := halfway.counted
  simp only [demand, List.flatMap_cons, List.length_append] at part counted ⊢
  omega

/-- A search that has ended met the stages that can be reached, and took a turn for every need. -/
theorem Halfway.ended (halfway : Halfway needs i turns s) (empty : s.pending = []) {ancestors : List Nat}
    (all : ∀ n, n ∈ ancestors ↔ TransGen (Lists needs) i n) (distinct : ancestors.Nodup) :
    s.met.Perm ancestors ∧ turns = demand needs (i :: ancestors) := by
  have same : s.met.Perm ancestors := by
    rw [List.perm_ext_iff_of_nodup halfway.distinct distinct]
    intro n
    rw [halfway.met_iff empty, all]
  have counted := halfway.counted
  rw [empty, List.length_nil, Nat.zero_add] at counted
  exact ⟨same, counted.trans ((same.cons i).flatMap_right (entry needs)).length_eq⟩

end

end Search
end Graph

namespace StageGraph

open Conveyor.Graph Conveyor.Graph.Search Relation

theorem walk_turns {needs : List (List Nat)} (inner : ∀ j n, Lists needs j n → n < needs.length) (stack seen : List Nat)
    (inside : ∀ n ∈ stack, n < needs.length) :
    ∃ count, Turns needs count ⟨stack, seen⟩ ⟨[], walk needs stack seen⟩ := by
  fun_induction walk needs stack seen with
  | case1 seen => exact ⟨0, .none _⟩
  | case2 seen node rest fresh ih =>
    obtain ⟨count, later⟩ := ih fun n member => (List.mem_append.1 member).elim (inner node n)
      fun other => inside n (List.mem_cons_of_mem _ other)
    have listed : needs[node]? = some (entry needs node) := by simp [entry, fresh.1]
    exact ⟨count + 1, .more (.meet (.refl _) fresh.2 listed (.refl _)) later⟩
  | case3 seen node rest stale ih =>
    obtain ⟨count, later⟩ := ih fun n other => inside n (List.mem_cons_of_mem _ other)
    have old : node ∈ seen := by
      by_contra fresh
      exact stale ⟨inside node List.mem_cons_self, fresh⟩
    exact ⟨count + 1, .more (.pass (.refl _) old) later⟩

variable {stages : List Stage} {g : StageGraph}

theorem build_inner (built : build stages = .ok g) : ∀ j n, Lists g.needs j n → n < g.needs.length := by
  obtain ⟨given, needs, ordered⟩ := build_ordered built
  intro j n need
  rw [needs, List.length_map, ← given]
  exact (ordered.needs j n need).2

theorem build_walked (built : build stages = .ok g) (i : Nat) :
    ∃ count, Turns g.needs count (start g.needs i) ⟨[], walk g.needs (entry g.needs i) []⟩ :=
  walk_turns (build_inner built) _ [] (build_inner built i)

theorem mem_ancestors (built : build stages = .ok g) {i n : Nat} : n ∈ g.ancestors i ↔ TransGen g.Needs i n := by
  obtain ⟨count, walked⟩ := build_walked built i
  rw [ancestors, List.mem_mergeSort]
  exact (walked.halfway (halfway_start g.needs i)).met_iff rfl

theorem ancestors_ascending (built : build stages = .ok g) (i : Nat) : (g.ancestors i).Pairwise (· < ·) := by
  obtain ⟨count, walked⟩ := build_walked built i
  have sorted : (g.ancestors i).Pairwise fun a b => decide (a ≤ b) = true := by
    apply List.pairwise_mergeSort
    · intro a b c
      simpa using Nat.le_trans
    · intro a b
      simpa using Nat.le_total a b
  have each : (g.ancestors i).Nodup :=
    (List.mergeSort_perm _ _).nodup_iff.2 (walked.halfway (halfway_start g.needs i)).distinct
  apply (sorted.and each).imp
  intro a b order
  exact Nat.lt_of_le_of_ne (of_decide_eq_true order.1) order.2

theorem Ordered.idxOf_lt_of_reached (ordered : g.Ordered) {i n : Nat} (reached : TransGen g.Needs i n) :
    g.order.idxOf n < g.order.idxOf i := by
  induction reached with
  | single need => exact ordered.idxOf_lt need
  | tail _ need later => exact (ordered.idxOf_lt need).trans later

/-- What the search for the ancestors of a stage comes to, in whichever order it takes the pending stages. -/
structure Lineage (g : StageGraph) (stages : List Stage) (i : Nat) : Prop where
  closure : ∀ n, n ∈ g.ancestors i ↔ TransGen (Awaits stages) i n
  ascending : (g.ancestors i).Pairwise (· < ·)
  proper : i ∉ g.ancestors i
  placed : i ∈ g.order
  earlier : ∀ n ∈ g.ancestors i, g.order.idxOf n < g.order.idxOf i
  bounded : ∀ count s, Turns g.needs count (start g.needs i) s → count ≤ demand g.needs (i :: g.ancestors i)
  unhindered : ∀ count s, Turns g.needs count (start g.needs i) s → ∀ node ∈ s.pending,
    ∃ t, Search.Turn g.needs node s t
  determined : ∀ count s, Turns g.needs count (start g.needs i) s → s.pending = [] →
    s.met.Perm (g.ancestors i) ∧ count = demand g.needs (i :: g.ancestors i)
  walked : ∃ count, Turns g.needs count (start g.needs i) ⟨[], walk g.needs (entry g.needs i) []⟩

/-- The ancestors of a stage are the stages that it waits for, directly or through others. They stand before it in the
order of the graph, and it is none of them. Whichever pending stages the search for them takes first, it can always go
on, ends after as many turns as the stage and its ancestors have needs, and has then met the same stages. -/
theorem ancestors_exact (built : build stages = .ok g) {i : Nat} (inside : i < stages.length) : g.Lineage stages i := by
  obtain ⟨given, _, ordered⟩ := build_ordered built
  have awaited : g.Needs = Awaits stages := by
    funext j n
    exact propext ((build_arranges built).needs j n)
  have all (n : Nat) : n ∈ g.ancestors i ↔ TransGen (Lists g.needs) i n := mem_ancestors built
  have ascending := ancestors_ascending built i
  have earlier (n : Nat) (ancestor : n ∈ g.ancestors i) : g.order.idxOf n < g.order.idxOf i :=
    ordered.idxOf_lt_of_reached ((all n).1 ancestor)
  have halfway (count : Nat) (s : Search) (run : Turns g.needs count (start g.needs i) s) :
      Halfway g.needs i (0 + count) s := run.halfway (halfway_start g.needs i)
  simp only [Nat.zero_add] at halfway
  constructor
  case closure => exact fun n => awaited ▸ mem_ancestors built
  case ascending => exact ascending
  case proper => exact fun ancestor => (earlier i ancestor).false
  case placed => exact (ordered.complete i).2 (given ▸ inside)
  case earlier => exact earlier
  case bounded => exact fun count s run => (halfway count s run).turns_le all
  case unhindered => exact fun count s run node waiting => (halfway count s run).progress (build_inner built) waiting
  case determined =>
    intro count s run empty
    exact (halfway count s run).ended empty all (ascending.imp Nat.ne_of_lt)
  case walked => exact build_walked built i

theorem staggered_ancestors : (build staggered).map (fun g => g.ancestors 0) = .ok [1, 2, 3] := by
  cbv

theorem staggered_lineage :
    ∃ g, build staggered = .ok g ∧ 0 < staggered.length ∧ g.ancestors 0 = [1, 2, 3] ∧ g.Lineage staggered 0 := by
  have found := staggered_ancestors
  have inside : 0 < staggered.length := by decide
  cases built : build staggered with
  | error fault =>
    rw [built] at found
    cases found
  | ok g =>
    rw [built] at found
    exact ⟨g, rfl, inside, Except.ok.inj found, ancestors_exact built inside⟩

end StageGraph
end Conveyor

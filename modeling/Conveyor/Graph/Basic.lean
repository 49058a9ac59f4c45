import Conveyor.Pipeline.Basic

/-! The graph of the stages of a pipeline. Stages are numbered in declaration order; the order of the
graph puts every stage after the stages it needs, and otherwise follows the declaration. -/

namespace Conveyor

inductive GraphFault where
  | duplicates (names : List String)
  | dangling (missing : List (String × String)) (known : List String)
  | cycle (stuck : List String)
  deriving DecidableEq, Repr

def GraphFault.complaint : GraphFault → Complaint
  | .duplicates names => ⟨"Duplicate stage names found: " ++ Text.quotedList names, []⟩
  | .dangling missing known =>
    ⟨"Dangling needs reference", missing.map fun (stage, need) =>
      s!"Stage '{stage}' needs missing stage '{need}'. Known stages: " ++ Text.quotedList known⟩
  | .cycle stuck => ⟨"Stage graph has a cycle. Stuck stages: " ++ Text.quotedList stuck, []⟩

structure StageGraph where
  stages : List Stage
  needs : List (List Nat)
  dependents : List (List Nat)
  order : List Nat
  deriving DecidableEq, Repr, Inhabited

namespace Graph

def entry (table : List (List Nat)) (i : Nat) : List Nat := table.getD i []

/-- Takes one from the counts of the given stages, in order, and notes each that reaches zero. -/
def release : List Nat → List Int → List Int × List Nat
  | [], counts => (counts, [])
  | child :: rest, counts =>
    let count := counts.getD child 0 - 1
    let (counts, freed) := release rest (counts.set child count)
    (counts, if count = 0 then child :: freed else freed)

/-- Takes stages from a queue, each once all stages it needs are taken; at most `fuel` of them. -/
def take : Nat → List (List Nat) → List Int → List Nat → List Nat
  | 0, _, _, _ => []
  | _, _, _, [] => []
  | fuel + 1, dependents, counts, node :: queue =>
    let (counts, freed) := release ((entry dependents node).mergeSort (· ≤ ·)) counts
    node :: take fuel dependents counts (queue ++ freed)

/-- The stages in an order that respects their needs. Stages on a cycle and stages behind one are
left out. -/
def topologicalOrder (needs dependents : List (List Nat)) : List Nat :=
  let counts : List Int := needs.map fun n => n.length
  let ready := (List.range needs.length).filter fun i => (entry needs i).isEmpty
  take needs.length dependents counts ready

/-- The order, if every stage in it has an entry that lists only existing stages. -/
def topologicalOrder? (needs dependents : List (List Nat)) : Option (List Nat) :=
  let order := topologicalOrder needs dependents
  let isListed := fun i => i < dependents.length && (entry dependents i).all (· < needs.length)
  if order.all isListed then some order else none

def needsOf (names : List String) (stage : Stage) : List Nat :=
  (stage.needs.filterMap fun need => names.idxOf? need).eraseDups

def dependentsOf (needs : List (List Nat)) (i : Nat) : List Nat :=
  (List.range needs.length).filter fun j => (entry needs j).contains i

def missing (names : List String) (stages : List Stage) : List (String × String) :=
  stages.flatMap fun stage =>
    (stage.needs.filter fun need => !names.contains need).map fun need => (stage.name, need)

end Graph

namespace StageGraph

open Conveyor.Graph

def build (stages : List Stage) : Except GraphFault StageGraph :=
  let names := stages.map (·.name)
  let repeated := names.filter fun name => 1 < names.count name
  if !repeated.isEmpty then .error (.duplicates (Text.sortedSet repeated))
  else
    let lost := missing names stages
    if !lost.isEmpty then .error (.dangling lost (Text.sorted names))
    else
      let needs := stages.map (needsOf names)
      let dependents := (List.range stages.length).map (dependentsOf needs)
      let order := topologicalOrder needs dependents
      if order.length = stages.length then .ok { stages, needs, dependents, order }
      else
        let stuck := (names.zipIdx.filter fun (_, i) => !order.contains i).map (·.1)
        .error (.cycle (Text.sorted stuck))

def index? (g : StageGraph) (name : String) : Option Nat := (g.stages.map (·.name)).idxOf? name

def stage? (g : StageGraph) (i : Nat) : Option Stage := g.stages[i]?

def ordered (g : StageGraph) : List Stage := g.order.filterMap g.stage?

def unseen (needs : List (List Nat)) (seen : List Nat) : Nat :=
  ((List.range needs.length).filter fun i => !seen.contains i).length

theorem unseen_lt {needs : List (List Nat)} {seen : List Nat} {node : Nat}
    (inside : node < needs.length) (fresh : node ∉ seen) :
    unseen needs (node :: seen) < unseen needs seen := by
  unfold unseen
  have kept : node ∈ (List.range needs.length).filter fun i => !seen.contains i := by
    simp [inside, fresh]
  have split : ((List.range needs.length).filter fun i => !(node :: seen).contains i) =
      ((List.range needs.length).filter fun i => !seen.contains i).filter (· != node) := by
    rw [List.filter_filter]
    congr 1
    funext i
    by_cases same : i = node <;> simp [same]
  rw [split]
  exact List.length_filter_lt_length_iff_exists.2 ⟨node, kept, by simp⟩

def walk (needs : List (List Nat)) (stack seen : List Nat) : List Nat :=
  match stack with
  | [] => seen
  | node :: rest =>
    if _ : node < needs.length ∧ node ∉ seen then
      walk needs (entry needs node ++ rest) (node :: seen)
    else walk needs rest seen
termination_by (unseen needs seen, stack.length)
decreasing_by
  · rename_i fresh
    exact Prod.Lex.left _ _ (unseen_lt fresh.1 fresh.2)
  · exact Prod.Lex.right _ (by simp)

/-- The stages that a stage needs, directly or through others, in increasing order. -/
def ancestors (g : StageGraph) (i : Nat) : List Nat :=
  (walk g.needs (entry g.needs i) []).mergeSort (· ≤ ·)

def depths (needs : List (List Nat)) (order : List Nat) : Table Nat Nat :=
  order.foldl (fun known i =>
    let below := (entry needs i).map fun n => (known.get? n).getD 0 + 1
    known.insert i (below.foldl max 0)) []

def levels (g : StageGraph) : List (List String) :=
  let known := depths g.needs g.order
  let count := (known.values.map (· + 1)).foldl max 0
  (List.range count).map fun level =>
    (g.order.filter fun i => known.get? i == some level).filterMap fun i =>
      (g.stage? i).map (·.name)

end StageGraph
end Conveyor

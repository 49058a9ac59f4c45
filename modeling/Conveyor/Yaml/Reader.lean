import Conveyor.Yaml.Lexer
import Conveyor.Yaml.Node
import Conveyor.Yaml.Scalar

/-! Reading documents: the values of graphs, and of whole texts. The collections of a document are
filled level by level: first the document itself, then the collections in it, then those inside them.
The first fault met in this order is reported. -/

namespace Conveyor.Yaml

/-! ### Merge keys -/

namespace Graph

/-- Takes the sign for the default value as a text where it is a key of the mapping at a place. -/
def plainKeys (g : Graph) (place : Nat) : Graph :=
  (g.entries place).foldl
    (fun g (key, _) =>
      match g.node key with
      | .scalar .value text => g.put key (.scalar .str text)
      | .sequence .value items => g.put key (.sequence .str items)
      | .mapping .value entries => g.put key (.mapping .str entries)
      | _ => g)
    g

def mergeCount (g : Graph) : Nat :=
  (g.nodes.toList.flatMap fun node => node.entries.filter fun (k, _) => g.tag k = .merge).length

/-- Replaces the merge keys of the mapping at a place by the entries that they bring: those of one
mapping, or of a list of mappings, of which the earlier ones win. They come first, so that the mapping's
own entries win. A merge key is taken away before its mapping is looked at, which may be the same one;
so there are never more steps than merge keys. -/
def merged : (fuel : Nat) → (place : Nat) → (brought : List (Nat × Nat)) → Graph →
    Except Fault Graph
  | 0, _, _, g => .ok g
  | fuel + 1, place, brought, g =>
    let entries := g.entries place
    match entries.findIdx? fun (k, _) => g.tag k = .merge with
    | none => .ok ((g.setEntries place (brought ++ entries)).plainKeys place)
    | some index =>
      let source := (entries.map (·.2)).getD index 0
      let g := g.setEntries place (entries.eraseIdx index)
      match g.node source with
      | .mapping _ _ => do
        let g ← merged fuel source [] g
        merged fuel place (brought ++ g.entries source) g
      | .sequence _ items => do
        let (lists, g) ← items.foldlM
          (fun (lists, g) item =>
            match g.node item with
            | .mapping _ _ => do
              let g ← merged fuel item [] g
              pure (g.entries item :: lists, g)
            | _ => throw .malformed)
          ([], g)
        merged fuel place (brought ++ lists.flatten) g
      | .scalar _ _ => .error .malformed

/-- The text of a scalar. A mapping stands for the value of its default key. -/
def text : (fuel : Nat) → Graph → (place : Nat) → Except Fault String
  | 0, _, _ => .error .malformed
  | fuel + 1, g, place =>
    match g.node place with
    | .scalar _ text => .ok text
    | .mapping _ entries =>
      match entries.find? fun (k, _) => g.tag k = .value with
      | some (_, value) => text fuel g value
      | none => .error .malformed
    | .sequence _ _ => .error .malformed

end Graph

/-! ### Filling collections -/

def Tag.isCollection : Tag → Bool
  | .seq | .map | .set | .omap | .pairs => true
  | _ => false

/-- The state of filling: the graph, the values of the scalars met so far, the collections met so far,
and those of them that are to be filled next, the latest first. -/
structure Filling where
  graph : Graph
  scalars : Array (Option Value)
  met : Array Bool
  waiting : List Nat := []

namespace Filling

def hasMet (f : Filling) (place : Nat) : Bool :=
  f.met.getD place false || (f.scalars.getD place none).isSome

/-- The value of the scalar at a place. A date may not be the default of a mapping. -/
def scalar (f : Filling) (place : Nat) : Except Fault Value := do
  let text ← f.graph.text (f.graph.nodes.size + 1) place
  match f.graph.node place with
  | .mapping .timestamp _ => throw .timestampInMapping
  | node => scalarValue (place + 1) text node.tag

def meet (f : Filling) (place : Nat) : Except Fault Filling := do
  let tag := f.graph.tag place
  if f.hasMet place then return f
  else if tag.isCollection then
    return { f with met := f.met.setIfInBounds place true, waiting := place :: f.waiting }
  else if tag = .merge ∨ tag = .value then throw .malformed
  else
    let value ← f.scalar place
    return { f with scalars := f.scalars.setIfInBounds place (some value) }

def meetEntry (f : Filling) (entry : Nat × Nat) : Except Fault Filling := do
  (← f.meet entry.1).meet entry.2

/-- Meets an entry of a mapping, whose key may not be a collection. -/
def meetKeyed (f : Filling) (entry : Nat × Nat) : Except Fault Filling := do
  let f ← f.meet entry.1
  if (f.graph.tag entry.1).isCollection then throw .malformed
  f.meet entry.2

def meetPair (f : Filling) (item : Nat) : Except Fault Filling :=
  match f.graph.node item with
  | .mapping _ [entry] => f.meetEntry entry
  | _ => .error .malformed

def fill (f : Filling) (place : Nat) : Except Fault Filling :=
  match f.graph.node place with
  | .sequence .seq items => items.foldlM meet f
  | .sequence .omap items => items.foldlM meetPair f
  | .sequence .pairs items => items.foldlM meetPair f
  | .mapping .map _ => keyed
  | .mapping .set _ => keyed
  | _ => .error .malformed
where
  keyed : Except Fault Filling := do
    let graph ← f.graph.merged (f.graph.mergeCount + 1) place []
    (graph.entries place).foldlM meetKeyed { f with graph }

def levels : (fuel : Nat) → Filling → Except Fault Filling
  | 0, f => .ok f
  | fuel + 1, f =>
    match f.waiting with
    | [] => .ok f
    | waiting => do levels fuel (← waiting.reverse.foldlM fill { f with waiting := [] })

/-! ### Values -/

/-- The value of the node at a place, and the labels of the collections around it that it refers to. A
collection that refers to itself or to a collection around it is a knot, whose label is its place. -/
def value (f : Filling) : (fuel : Nat) → (around : List Nat) → (place : Nat) → Value × List Nat
  | 0, _, _ => (.null, [])
  | fuel + 1, around, place =>
    match f.scalars.getD place none with
    | some v => (v, [])
    | none =>
      if around.contains place then
        (.again place ((f.graph.tag place) == .map), [place])
      else
        let part := value f fuel (place :: around)
        let tied := fun (v : Value) (labels : List Nat) =>
          if labels.isEmpty then (v, []) else (.knot place v, labels.filter (· ≠ place))
        let table := Table.ofPairs ((f.graph.entries place).map fun (k, v) => ((part k).1, part v))
        match f.graph.node place with
        | .mapping .map _ =>
          tied (.map (table.map fun (k, v) => (k, v.1))) (table.flatMap (·.2.2))
        | .mapping _ _ => (.set table.keys, [])
        | .sequence .seq items =>
          let parts := items.map part
          tied (.list (parts.map (·.1))) (parts.flatMap (·.2))
        | .sequence _ items =>
          let pairs := items.flatMap fun item =>
            (f.graph.entries item).map fun (k, v) => (part k, part v)
          tied (.list (pairs.map fun (k, v) => .tuple [k.1, v.1]))
            (pairs.flatMap fun (k, v) => k.2 ++ v.2)
        | .scalar _ _ => (.null, [])

end Filling

def Graph.value (g : Graph) (root : Nat) : Except Fault Value := do
  let size := g.nodes.size
  let start : Filling :=
    { graph := g, scalars := Array.replicate size none, met := Array.replicate size false }
  let f ← Filling.levels (size + 1) (← start.meet root)
  return (f.value (size + 1) [] root).1

def read (text : String) : Except Fault Value :=
  match tokens? text with
  | none => .error .malformed
  | some tokens => do
    match ← Graph.ofTokens tokens with
    | none => return .null
    | some (root, g) => g.value root

end Conveyor.Yaml

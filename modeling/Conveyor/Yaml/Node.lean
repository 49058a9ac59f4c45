import Conveyor.Yaml.Tag
import Conveyor.Yaml.Token

/-! The graph of a document. Every node has a place in the graph, and collections name their parts by
these places; an alias names the place of another node, which may be a collection around it. -/

namespace Conveyor.Yaml

inductive Node where
  | scalar (tag : Tag) (text : String)
  | sequence (tag : Tag) (items : List Nat)
  | mapping (tag : Tag) (entries : List (Nat × Nat))
  deriving DecidableEq, Repr

namespace Node

def empty : Node := .scalar .null ""

def tag : Node → Tag
  | .scalar tag _ => tag
  | .sequence tag _ => tag
  | .mapping tag _ => tag

def entries : Node → List (Nat × Nat)
  | .mapping _ entries => entries
  | _ => []

end Node

structure Graph where
  nodes : Array Node := #[]
  deriving Repr

namespace Graph

def node (g : Graph) (place : Nat) : Node := g.nodes.getD place .empty

def tag (g : Graph) (place : Nat) : Tag := (g.node place).tag

def entries (g : Graph) (place : Nat) : List (Nat × Nat) := (g.node place).entries

def put (g : Graph) (place : Nat) (node : Node) : Graph := ⟨g.nodes.setIfInBounds place node⟩

def setEntries (g : Graph) (place : Nat) (entries : List (Nat × Nat)) : Graph :=
  g.put place (.mapping (g.tag place) entries)

end Graph

/-- The state of reading a graph: the tokens left, the nodes read, the places with names and the
meaning of tag handles. -/
structure TreeState where
  tokens : List Token
  graph : Graph := {}
  anchors : List (String × Nat) := []
  handles : List (String × String) := []

namespace TreeState

def standardHandles : List (String × String) := [("!", "!"), ("!!", standardBase)]

def refuse {α : Type} (s : TreeState) : Except Fault α :=
  match s.tokens with
  | .unreadable fault :: _ => .error fault
  | _ => .error .malformed

/-- The full name of a tag; one without a handle is given in full. -/
def uri (s : TreeState) : Option String → String → Except Fault String
  | none, suffix => .ok suffix
  | some handle, suffix =>
    match s.handles.find? (·.1 = handle) with
    | some (_, base) => .ok (base ++ suffix)
    | none => .error .malformed

def next (s : TreeState) (tokens : List Token) : TreeState := { s with tokens }

def add (s : TreeState) (anchor : Option String) (node : Node) : Nat × TreeState :=
  let place := s.graph.nodes.size
  let anchors :=
    match anchor with
    | none => s.anchors
    | some name => (name, place) :: s.anchors
  (place, { s with graph := ⟨s.graph.nodes.push node⟩, anchors })

def addEmpty (s : TreeState) : Nat × TreeState := s.add none .empty

def put (s : TreeState) (place : Nat) (node : Node) : TreeState :=
  { s with graph := s.graph.put place node }

end TreeState

structure Properties where
  anchor : Option String := none
  tag : Option String := none

/-- Reads the name and the tag of a node. The handle of the tag has to be known, and the name may be
given once only; a token that cannot be read counts before these faults. -/
def properties (s : TreeState) : Except Fault (Properties × TreeState) := do
  let (p, s) ←
    match s.tokens with
    | .anchor anchor :: .tag handle suffix :: rest => do
      let uri ← s.uri handle suffix
      pure ({ anchor := some anchor, tag := some uri : Properties }, s.next rest)
    | .anchor anchor :: rest => pure ({ anchor := some anchor }, s.next rest)
    | .tag handle suffix :: .anchor anchor :: rest => do
      let uri ← s.uri handle suffix
      pure ({ anchor := some anchor, tag := some uri }, s.next rest)
    | .tag _ _ :: .unreadable fault :: _ => throw fault
    | .tag handle suffix :: rest => do
      let uri ← s.uri handle suffix
      pure ({ tag := some uri }, s.next rest)
    | _ => pure ({}, s)
  if p.anchor.any fun a => s.anchors.any (·.1 = a) then s.refuse else return (p, s)

namespace Properties

/-- The tag of a collection, which is the given one unless only the sign for no tag stands there. -/
def collectionTag (p : Properties) (default : Tag) : Tag :=
  match p.tag with
  | none => default
  | some uri => if uri = "!" then default else .ofUri uri

/-- The node of a scalar. Without a tag a plain one is resolved, and a quoted one is a text; with the
sign for no tag, both are resolved. -/
def scalar (p : Properties) (text : String) (plain : Bool) : Node :=
  match p.tag with
  | none => .scalar (if plain then .ofPlain text else .str) text
  | some uri => .scalar (if uri = "!" then .ofPlain text else .ofUri uri) text

end Properties

inductive Place where
  | flow
  | block
  | blockValue
  deriving DecidableEq

def isOmitted (stops : List Token) (s : TreeState) : Bool :=
  match s.tokens with
  | t :: _ => stops.contains t
  | [] => false

def afterComma (s : TreeState) : Except Fault TreeState :=
  match s.tokens with
  | .flowEntry :: rest => .ok (s.next rest)
  | _ => s.refuse

mutual
/-- Reads a node. The place of a collection is known before its parts are read. -/
def readNode : Nat → Place → TreeState → Except Fault (Nat × TreeState)
  | 0, _, _ => .error .malformed
  | fuel + 1, where_, s =>
    match s.tokens with
    | .alias name :: rest =>
      match s.anchors.find? (·.1 = name) with
      | some (_, place) => .ok (place, s.next rest)
      | none => .error .malformed
    | _ => do
      let (p, s) ← properties s
      let sequence := fun (rest : List Token)
          (items : TreeState → Except Fault (List Nat × TreeState)) => do
        let (place, s) := (s.next rest).add p.anchor .empty
        let (items, s) ← items s
        pure (place, s.put place (.sequence (p.collectionTag .seq) items))
      let mapping := fun (rest : List Token)
          (entries : TreeState → Except Fault (List (Nat × Nat) × TreeState)) => do
        let (place, s) := (s.next rest).add p.anchor .empty
        let (entries, s) ← entries s
        pure (place, s.put place (.mapping (p.collectionTag .map) entries))
      match s.tokens with
      | .scalar text plain :: rest => return (s.next rest).add p.anchor (p.scalar text plain)
      | .flowSequenceStart :: rest => sequence rest (flowItems fuel true)
      | .flowMappingStart :: rest => mapping rest (flowEntries fuel true)
      | .blockSequenceStart :: rest =>
        if where_ = .flow then s.refuse else sequence rest (blockItems fuel)
      | .blockMappingStart :: rest =>
        if where_ = .flow then s.refuse else mapping rest (blockEntries fuel)
      | tokens =>
        if where_ = .blockValue ∧ tokens.head? = some .blockEntry then
          sequence tokens (bareItems fuel)
        else if p.anchor.isSome ∨ p.tag.isSome then return s.add p.anchor (p.scalar "" true)
        else s.refuse

def nodeUnless : Nat → Place → List Token → TreeState → Except Fault (Nat × TreeState)
  | 0, _, _, _ => .error .malformed
  | fuel + 1, where_, stops, s => if isOmitted stops s then .ok s.addEmpty else readNode fuel where_ s

def valueAfter : Nat → Place → List Token → TreeState → Except Fault (Nat × TreeState)
  | 0, _, _, _ => .error .malformed
  | fuel + 1, where_, stops, s =>
    match s.tokens with
    | .value :: rest => nodeUnless fuel where_ stops (s.next rest)
    | _ => .ok s.addEmpty

def blockItems : Nat → TreeState → Except Fault (List Nat × TreeState)
  | 0, _ => .error .malformed
  | fuel + 1, s =>
    match s.tokens with
    | .blockEntry :: rest => do
      let (item, s) ← nodeUnless fuel .block [.blockEntry, .blockEnd] (s.next rest)
      let (items, s) ← blockItems fuel s
      return (item :: items, s)
    | .blockEnd :: rest => .ok ([], s.next rest)
    | _ => s.refuse

/-- The items of a block sequence that is not indented more than its key. -/
def bareItems : Nat → TreeState → Except Fault (List Nat × TreeState)
  | 0, _ => .error .malformed
  | fuel + 1, s =>
    match s.tokens with
    | .blockEntry :: rest => do
      let (item, s) ← nodeUnless fuel .block [.blockEntry, .key, .value, .blockEnd] (s.next rest)
      let (items, s) ← bareItems fuel s
      return (item :: items, s)
    | _ => .ok ([], s)

def blockEntries : Nat → TreeState → Except Fault (List (Nat × Nat) × TreeState)
  | 0, _ => .error .malformed
  | fuel + 1, s =>
    match s.tokens with
    | .key :: rest => do
      let stops := [Token.key, .value, .blockEnd]
      let (key, s) ← nodeUnless fuel .blockValue stops (s.next rest)
      let (value, s) ← valueAfter fuel .blockValue stops s
      let (entries, s) ← blockEntries fuel s
      return ((key, value) :: entries, s)
    | .blockEnd :: rest => .ok ([], s.next rest)
    | _ => s.refuse

/-- The items of a sequence in brackets, up to its end. A key makes a mapping of one entry. -/
def flowItems : Nat → (first : Bool) → TreeState → Except Fault (List Nat × TreeState)
  | 0, _, _ => .error .malformed
  | fuel + 1, first, s =>
    match s.tokens with
    | .flowSequenceEnd :: rest => .ok ([], s.next rest)
    | _ => do
      let s ← if first then .ok s else afterComma s
      match s.tokens with
      | .flowSequenceEnd :: rest => return ([], s.next rest)
      | .key :: rest =>
        let (place, s) := (s.next rest).addEmpty
        let (key, s) ← nodeUnless fuel .flow [.value, .flowEntry, .flowSequenceEnd] s
        let (value, s) ← valueAfter fuel .flow [.flowEntry, .flowSequenceEnd] s
        let (items, s) ← flowItems fuel false (s.put place (.mapping .map [(key, value)]))
        return (place :: items, s)
      | _ =>
        let (item, s) ← readNode fuel .flow s
        let (items, s) ← flowItems fuel false s
        return (item :: items, s)

/-- The entries of a mapping in braces, up to its end. A key without a colon has no value. -/
def flowEntries : Nat → (first : Bool) → TreeState → Except Fault (List (Nat × Nat) × TreeState)
  | 0, _, _ => .error .malformed
  | fuel + 1, first, s =>
    match s.tokens with
    | .flowMappingEnd :: rest => .ok ([], s.next rest)
    | _ => do
      let s ← if first then .ok s else afterComma s
      match s.tokens with
      | .flowMappingEnd :: rest => return ([], s.next rest)
      | .key :: rest =>
        let (key, s) ← nodeUnless fuel .flow [.value, .flowEntry, .flowMappingEnd] (s.next rest)
        let (value, s) ← valueAfter fuel .flow [.flowEntry, .flowMappingEnd] s
        let (entries, s) ← flowEntries fuel false s
        return ((key, value) :: entries, s)
      | _ =>
        let (key, s) ← readNode fuel .flow s
        let (value, s) := s.addEmpty
        let (entries, s) ← flowEntries fuel false s
        return ((key, value) :: entries, s)
end

/-- The directives at the head of a document: one version at most, which has to be a first one, and
one meaning for each handle. -/
def directives? : Bool → List (String × String) → List Token →
    Option (List (String × String) × List Token)
  | seen, handles, .directive (.version major) :: rest =>
    if seen ∨ major ≠ 1 then none else directives? true handles rest
  | seen, handles, .directive (.tagHandle handle base) :: rest =>
    if handles.any (·.1 = handle) then none
    else directives? seen ((handle, base) :: handles) rest
  | seen, handles, .directive .other :: rest => directives? seen handles rest
  | _, handles, tokens => some (handles, tokens)

def finished (s : TreeState) : Except Fault Unit :=
  let s := s.next (s.tokens.dropWhile (· = .documentEnd))
  if s.tokens.isEmpty then .ok () else s.refuse

/-- The graph of a text that holds one document or none, and the place of its root. -/
def Graph.ofTokens (tokens : List Token) : Except Fault (Option (Nat × Graph)) := do
  let fuel := 5 * tokens.length + 16
  let document := fun (s : TreeState) (isOmitted : Bool) => do
    let (root, s) ← if isOmitted then pure s.addEmpty else readNode fuel .block s
    finished s
    pure (some (root, s.graph))
  let standard := TreeState.standardHandles
  match tokens with
  | [] => return none
  | .directive _ :: _ | .documentStart :: _ =>
    match directives? false [] tokens with
    | some (handles, .documentStart :: rest) =>
      let s : TreeState := { tokens := rest, handles := handles ++ standard }
      match rest with
      | [] | .documentEnd :: _ => document s true
      | .directive _ :: _ | .documentStart :: _ => throw .malformed
      | _ => document s false
    | some (_, rest) => TreeState.refuse { tokens := rest }
    | none => throw .malformed
  | _ => document { tokens, handles := standard } false

end Conveyor.Yaml

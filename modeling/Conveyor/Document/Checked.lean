import Conveyor.Text.Split
import Conveyor.Value.Cycle
import Conveyor.Value.Text

/-! Checking documents. All problems of a document are collected, each with its place; a fault that
is not a problem of the document's shape ends the check at once. -/

namespace Conveyor.Document

structure Problem where
  path : List String
  text : String
  deriving DecidableEq, Repr

def Problem.message (p : Problem) : String :=
  if p.path.isEmpty then p.text else ".".intercalate p.path ++ ": " ++ p.text

inductive Misuse where
  | notIterable (kind : String)
  | notSequence (index : Nat)
  | pairLength (index length : Nat)
  | unhashable (kind : String)
  | unwritable
  | endless
  deriving DecidableEq, Repr

def Misuse.message : Misuse → String
  | .notIterable kind => s!"'{kind}' object is not iterable"
  | .notSequence index => s!"cannot convert dictionary update sequence element #{index} to a sequence"
  | .pairLength index length =>
    s!"dictionary update sequence element #{index} has length {length}; 2 is required"
  | .unhashable kind => s!"unhashable type: '{kind}'"
  | .unwritable => Value.unwritableMessage
  | .endless => "maximum recursion depth exceeded in comparison"

def Misuse.kind : Misuse → String
  | .pairLength _ _ => "ValueError"
  | .unwritable => "ValueError"
  | .endless => "RecursionError"
  | _ => "TypeError"

def textOf (v : Value) : Except Misuse String :=
  if v.isUnwritable then .error .unwritable else .ok v.text

def quotedOf (v : Value) : Except Misuse String :=
  if v.isUnwritable then .error .unwritable else .ok v.quoted

inductive Checked (α : Type) where
  | valid (value : α)
  | invalid (problems : List Problem)
  | abandoned (misuse : Misuse)
  deriving Repr

namespace Checked

variable {α β : Type}

def problem (text : String) : Checked α := .invalid [⟨[], text⟩]

def refused (text : String) : Checked α := problem ("Value error, " ++ text)

def map (f : α → β) : Checked α → Checked β
  | .valid a => .valid (f a)
  | .invalid problems => .invalid problems
  | .abandoned misuse => .abandoned misuse

def seq (f : Checked (α → β)) (next : Unit → Checked α) : Checked β :=
  match f with
  | .abandoned misuse => .abandoned misuse
  | .valid g => (next ()).map g
  | .invalid problems =>
    match next () with
    | .abandoned misuse => .abandoned misuse
    | .valid _ => .invalid problems
    | .invalid more => .invalid (problems ++ more)

def andThen (a : Checked α) (next : α → Checked β) : Checked β :=
  match a with
  | .valid value => next value
  | .invalid problems => .invalid problems
  | .abandoned misuse => .abandoned misuse

instance : Functor Checked := ⟨map, fun a => map fun _ => a⟩
instance : Pure Checked := ⟨.valid⟩
instance : Seq Checked := ⟨seq⟩
instance : SeqLeft Checked := ⟨fun a b => seq (map (fun x _ => x) a) b⟩

def under (place : String) : Checked α → Checked α
  | .invalid problems => .invalid (problems.map fun p => { p with path := place :: p.path })
  | a => a

def items (check : Value → Checked α) (values : List Value) : Checked (List α) :=
  (values.zipIdx.map fun (v, i) => (check v).under (toString i)).foldr
    (fun item rest => seq (map List.cons item) fun _ => rest) (.valid [])

end Checked

def keyText : Value → String
  | .str s => s
  | .bool b => toString (Value.boolInt b)
  | v => if v.isUnwritable then s!"<unprintable {v.kindName} object>" else v.quoted

open Checked

def asText : Value → Checked String
  | .str s => .valid s
  | .bytes b =>
    match Blob.toText? b with
    | some s => .valid s
    | none =>
      problem "Input should be a valid string, unable to parse raw data as a unicode string"
  | _ => problem "Input should be a valid string"

def asOptional {α : Type} (check : Value → Checked α) : Value → Checked (Option α)
  | .null => .valid none
  | v => (check v).map some

def asListOf {α : Type} (check : Value → Checked α) (v : Value) : Checked (List α) :=
  match v.opened with
  | .list values => items check values
  | .tuple values => items check values
  | .set values => items check values
  | _ => problem "Input should be a valid list"

def asEntry {α : Type} (check : Value → Checked α) (entry : Value × Value) :
    Checked (String × α) :=
  let (k, v) := entry
  (Prod.mk <$> (asText k).under "[key]" <*> check v).under (keyText k)

/-- A mapping with text keys whose values are all of one shape. Keys that are the same text count as
one. -/
def asTableOf {α : Type} (check : Value → Checked α) (v : Value) : Checked (Table String α) :=
  match v.opened with
  | .map entries =>
    ((entries.map (asEntry check)).foldr
      (fun entry rest => seq (map List.cons entry) fun _ => rest) (.valid [])).map Table.ofPairs
  | _ => problem "Input should be a valid dictionary"

def asFields : Value → Checked Fields := asTableOf .valid

/-- The binary number of a text in plain digits. White space around it is left out, and so are single
underscores inside it, but not both at once. -/
def plainDouble? (s : String) : Option Double :=
  let cs := if s.toList.contains '_' then s.toList else Text.trimSpace s.toList
  let bars :=
    cs.head? == some '_' || cs.getLast? == some '_' || Text.contains cs ['_', '_']
  if bars || cs.any (fun c => Text.isSpace c || 0x80 ≤ c.toNat) then none
  else Number.readDouble? (String.ofList (cs.filter (· ≠ '_')))

def numberFrom (s : Option String) : Checked Double :=
  match s.bind plainDouble? with
  | some d => .valid d
  | none => problem "Input should be a valid number, unable to parse string as a number"

def asNumber : Value → Checked Double
  | .float d => .valid d
  | .int i =>
    match Double.ofInt i with
    | .infinite _ => problem "Input should be a valid number"
    | d => .valid d
  | .bool b => .valid (.ofInt (Value.boolInt b))
  | .str s => numberFrom (some s)
  | .bytes b => numberFrom (Blob.toText? b)
  | _ => problem "Input should be a valid number"

def trueWords : List String := ["1", "on", "t", "true", "y", "yes"]

def falseWords : List String := ["0", "off", "f", "false", "n", "no"]

def ofWhole (i : Int) : Checked Bool :=
  if i = 1 then .valid true
  else if i = 0 then .valid false
  else problem "Input should be a valid boolean, unable to interpret input"

def booleanFrom (s : Option String) : Checked Bool :=
  let word := s.map fun s => String.ofList (s.toList.map Char.toLower)
  if word.any trueWords.contains then .valid true
  else if word.any falseWords.contains then .valid false
  else problem "Input should be a valid boolean, unable to interpret input"

/-- A boolean; zero and one and a few words stand for booleans too. A number that is not whole, or
that does not fit into a signed word of 64 bits, is not taken for an attempt at one; a binary number
fits only strictly above the least word. -/
def asBoolean : Value → Checked Bool
  | .bool b => .valid b
  | .int i =>
    if -(Nat.pow 2 63 : Int) ≤ i ∧ i < Nat.pow 2 63 then ofWhole i
    else problem "Input should be a valid boolean"
  | .float d =>
    match d.truncate? with
    | some i =>
      if d.compareInt? i = some .eq ∧ i.natAbs < Nat.pow 2 63 then ofWhole i
      else problem "Input should be a valid boolean"
    | none => problem "Input should be a valid boolean"
  | .str s => booleanFrom (some s)
  | .bytes b => booleanFrom (Blob.toText? b)
  | _ => problem "Input should be a valid boolean"

structure Record where
  entries : Mapping

namespace Record

def find? (r : Record) : List String → Option (String × Value)
  | [] => none
  | spelling :: rest =>
    match r.entries.get? (.str spelling) with
    | some v => some (spelling, v)
    | none => find? r rest

def field {α : Type} (r : Record) (spellings : List String) (default : α)
    (check : Value → Checked α) : Checked α :=
  match r.find? spellings with
  | some (spelling, v) => (check v).under spelling
  | none => .valid default

def required {α : Type} (r : Record) (spellings : List String) (check : Value → Checked α) :
    Checked α :=
  match r.find? spellings with
  | some (spelling, v) => (check v).under spelling
  | none => (problem "Field required" : Checked α).under (spellings.headD "")

def strangers (r : Record) (fields : List (List String)) : List Problem :=
  let used := fields.filterMap fun spellings => (r.find? spellings).map (·.1)
  r.entries.filterMap fun (k, _) =>
    match k with
    | .str s => if used.contains s then none else some ⟨[s], "Extra inputs are not permitted"⟩
    | k => some ⟨[keyText k], "Keys should be strings"⟩

def closed (r : Record) (fields : List (List String)) : Checked Unit :=
  match r.strangers fields with
  | [] => .valid ()
  | problems => .invalid problems

end Record

def asRecord {α : Type} (shape : String) (check : Record → Checked α) (v : Value) : Checked α :=
  match v.opened with
  | .map entries => check ⟨entries⟩
  | _ => problem ("Input should be a valid dictionary or instance of " ++ shape)

def wrapped : Value → Value
  | .null => .list []
  | .str s => .list [.str s]
  | .int i => .list [.int i]
  | .float d => .list [.float d]
  | .bool b => .list [.bool b]
  | v => v

/-- What a value gives when it is gone through item by item: the items of a list or a set, the keys
of a mapping, the characters of a text, the numbers of bytes. -/
def iterate (v : Value) : Except Misuse (List Value) :=
  match v.opened with
  | .list values => .ok values
  | .tuple values => .ok values
  | .set values => .ok values
  | .map entries => .ok (entries.map (·.1))
  | .str s => .ok (s.toList.map fun c => .str (String.ofList [c]))
  | .bytes b => .ok (b.map fun byte => .int byte.toNat)
  | v => .error (.notIterable v.fullKindName)

def asPair (index : Nat) (item : Value) : Except Misuse (Value × Value) :=
  match iterate item with
  | .error _ => .error (.notSequence index)
  | .ok [k, v] =>
    match k.keyless? with
    | none => .ok (k, v)
    | some part => .error (.unhashable part.fullKindName)
  | .ok values => .error (.pairLength index values.length)

def asMapping (v : Value) : Except Misuse Mapping :=
  match v.opened with
  | .map entries => .ok entries
  | v => do
    let values ← iterate v
    let pairs ← values.zipIdx.mapM fun (item, index) => asPair index item
    return Table.ofPairs pairs

end Conveyor.Document

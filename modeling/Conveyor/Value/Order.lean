import Conveyor.Complaint

/-! Putting keys in order. Texts are ordered by code point, bytes and numbers by value, times by
moment, and tuples by their first items that differ, or else by their lengths; keys of different kinds
have no order. -/

namespace Conveyor.Value

def compareNumbers? : Value → Value → Option Ordering
  | .float d, .float e => d.compare? e
  | .float d, .int j => d.compareInt? j
  | .float d, .bool b => d.compareInt? (boolInt b)
  | .int i, .float e => (e.compareInt? i).map Ordering.swap
  | .bool a, .float e => (e.compareInt? (boolInt a)).map Ordering.swap
  | .int i, .int j => some (compare i j)
  | .int i, .bool b => some (compare i (boolInt b))
  | .bool a, .int j => some (compare (boolInt a) j)
  | .bool a, .bool b => some (compare (boolInt a) (boolInt b))
  | _, _ => none

def isNumber : Value → Bool
  | .bool _ => true
  | .int _ => true
  | .float _ => true
  | _ => false

mutual
def orderFault? : Value → Value → Option ValueFault
  | .str _, .str _ => none
  | .bytes _, .bytes _ => none
  | .date _, .date _ => none
  | .timestamp s, .timestamp t =>
    if s.offset.isSome = t.offset.isSome then none else some .mixedOffsets
  | .date _, .timestamp _ => some .dateWithTime
  | .timestamp _, .date _ => some .dateWithTime
  | .tuple xs, .tuple ys => itemsFault? xs ys
  | a, b =>
    if a.isNumber && b.isNumber then none else some (.unordered a.fullKindName b.fullKindName)

def itemsFault? : List Value → List Value → Option ValueFault
  | x :: xs, y :: ys => if x.alike y then itemsFault? xs ys else x.orderFault? y
  | _, _ => none
end

def compareBytes : Blob → Blob → Ordering
  | [], [] => .eq
  | [], _ :: _ => .lt
  | _ :: _, [] => .gt
  | a :: as, b :: bs => (compare a b).then (compareBytes as bs)

mutual
def le : Value → Value → Bool
  | .str a, .str b => decide (a ≤ b)
  | .bytes a, .bytes b => (compareBytes a b).isLE
  | .date a, .date b => a.ordinal ≤ b.ordinal
  | .timestamp a, .timestamp b => a.instant ≤ b.instant
  | .tuple xs, .tuple ys => leItems xs ys
  | a, b =>
    match compareNumbers? a b with
    | some order => order.isLE
    | none => true

def leItems : List Value → List Value → Bool
  | x :: xs, y :: ys => if x.alike y then leItems xs ys else x.le y
  | xs, _ => xs.isEmpty
end

/-- The fault of the first value that has no order with one before it, the nearest first. -/
def unordered? (before : List Value) : List Value → Option ValueFault
  | [] => none
  | v :: rest => before.findSome? v.orderFault? <|> unordered? (v :: before) rest

def sorted (values : List Value) : Except ValueFault (List Value) :=
  match unordered? [] values with
  | some fault => .error fault
  | none => .ok (values.mergeSort le)

end Conveyor.Value

import Conveyor.Blob
import Conveyor.Number.Double
import Conveyor.Table

/-! Free-form values of pipeline documents: scalars, bytes, calendar dates, and collections, which
may contain themselves. -/

namespace Conveyor

structure Date where
  year : Nat
  month : Nat
  day : Nat
  deriving DecidableEq, Repr, Inhabited

namespace Date

def isLeap (year : Nat) : Bool := year % 4 == 0 && (year % 100 != 0 || year % 400 == 0)

def daysIn (year month : Nat) : Nat :=
  if month = 2 then if isLeap year then 29 else 28
  else if [4, 6, 9, 11].contains month then 30
  else 31

def ordinal (d : Date) : Nat :=
  let past := d.year - 1
  (List.range' 1 (d.month - 1)).foldl (fun days month => days + daysIn d.year month)
    (365 * past + past / 4 - past / 100 + past / 400 + d.day)

end Date

/-- A date with a time of day, and possibly an offset from universal time in minutes. -/
structure Timestamp where
  date : Date
  hour : Nat
  minute : Nat
  second : Nat
  microsecond : Nat
  offset : Option Int
  deriving DecidableEq, Repr, Inhabited

namespace Timestamp

def instant (t : Timestamp) : Int :=
  let minutes : Int := (t.date.ordinal * 24 + t.hour) * 60 + t.minute - t.offset.getD 0
  (minutes * 60 + t.second) * 1000000 + t.microsecond

/-- Whether two times are the same moment. A time without an offset is never the same as one with an
offset. -/
def same (a b : Timestamp) : Bool :=
  a.offset.isSome == b.offset.isSome && a.instant == b.instant

end Timestamp

/-- A value of a document. A collection that contains itself is a knot: it has a label, and inside it
the label stands for the collection. -/
inductive Value where
  | null
  | bool (b : Bool)
  | int (i : Int)
  | float (d : Double)
  | str (s : String)
  | bytes (b : Blob)
  | date (d : Date)
  | timestamp (t : Timestamp)
  | list (items : List Value)
  | tuple (items : List Value)
  | set (items : List Value)
  | map (entries : List (Value × Value))
  | knot (label : Nat) (collection : Value)
  | again (label : Nat) (isMap : Bool)
  deriving Repr, Inhabited

abbrev Mapping := Table Value Value

abbrev Fields := Table String Value

namespace Value

mutual
def identical : Value → Value → Bool
  | .null, .null => true
  | .bool x, .bool y => x == y
  | .int x, .int y => x == y
  | .float x, .float y => x == y
  | .str x, .str y => x == y
  | .bytes x, .bytes y => x == y
  | .date x, .date y => x == y
  | .timestamp x, .timestamp y => x == y
  | .list xs, .list ys => identicalItems xs ys
  | .tuple xs, .tuple ys => identicalItems xs ys
  | .set xs, .set ys => identicalItems xs ys
  | .map xs, .map ys => identicalEntries xs ys
  | .knot l x, .knot m y => l == m && identical x y
  | .again l b, .again m c => l == m && b == c
  | _, _ => false

def identicalItems : List Value → List Value → Bool
  | [], [] => true
  | x :: xs, y :: ys => identical x y && identicalItems xs ys
  | _, _ => false

def identicalEntries : List (Value × Value) → List (Value × Value) → Bool
  | [], [] => true
  | (k, v) :: xs, (l, w) :: ys => identical k l && identical v w && identicalEntries xs ys
  | _, _ => false
end

mutual
theorem identical_iff : (a b : Value) → (identical a b = true ↔ a = b)
  | .null, b => by cases b <;> simp [identical]
  | .bool _, b => by cases b <;> simp [identical]
  | .int _, b => by cases b <;> simp [identical]
  | .float _, b => by cases b <;> simp [identical]
  | .str _, b => by cases b <;> simp [identical]
  | .bytes _, b => by cases b <;> simp [identical]
  | .date _, b => by cases b <;> simp [identical]
  | .timestamp _, b => by cases b <;> simp [identical]
  | .list xs, b => by cases b <;> simp [identical, identicalItems_iff xs]
  | .tuple xs, b => by cases b <;> simp [identical, identicalItems_iff xs]
  | .set xs, b => by cases b <;> simp [identical, identicalItems_iff xs]
  | .map xs, b => by cases b <;> simp [identical, identicalEntries_iff xs]
  | .knot _ x, b => by cases b <;> simp [identical, identical_iff x]
  | .again _ _, b => by cases b <;> simp [identical]

theorem identicalItems_iff : (a b : List Value) → (identicalItems a b = true ↔ a = b)
  | [], b => by cases b <;> simp [identicalItems]
  | x :: xs, b => by cases b <;> simp [identicalItems, identical_iff x, identicalItems_iff xs]

theorem identicalEntries_iff :
    (a b : List (Value × Value)) → (identicalEntries a b = true ↔ a = b)
  | [], b => by cases b <;> simp [identicalEntries]
  | (k, v) :: xs, b => by
    cases b <;> simp [identicalEntries, identical_iff k, identical_iff v, identicalEntries_iff xs,
      Prod.ext_iff, and_assoc]
end

instance : DecidableEq Value := fun a b => decidable_of_iff _ (identical_iff a b)

def boolInt (b : Bool) : Int := if b then 1 else 0

mutual
/-- Equality of keys and of parts of collections: numbers are equal when their values are, whatever
their kind, times when they are the same moment, and mappings and sets when they hold equal entries
in any order. An undefined number is equal to itself. It is asked of keys and of values without parts;
collections that may contain themselves are compared by `equal?`. -/
def alike : Value → Value → Bool
  | .null, .null => true
  | .str a, .str b => a == b
  | .bytes a, .bytes b => a == b
  | .date a, .date b => a == b
  | .timestamp a, .timestamp b => a.same b
  | .bool a, .bool b => a == b
  | .bool a, .int j => boolInt a == j
  | .bool a, .float e => e.compareInt? (boolInt a) == some .eq
  | .int i, .bool b => i == boolInt b
  | .int i, .int j => i == j
  | .int i, .float e => e.compareInt? i == some .eq
  | .float d, .bool b => d.compareInt? (boolInt b) == some .eq
  | .float d, .int j => d.compareInt? j == some .eq
  | .float d, .float e => d.alike e
  | .list xs, .list ys => alikeItems xs ys
  | .tuple xs, .tuple ys => alikeItems xs ys
  | .set xs, .set ys => xs.length == ys.length && alikeMembers xs ys
  | .map xs, .map ys => xs.length == ys.length && alikePairs xs ys
  | .knot l x, .knot m y => l == m && alike x y
  | .again l _, .again m _ => l == m
  | _, _ => false

def alikeItems : List Value → List Value → Bool
  | [], [] => true
  | x :: xs, y :: ys => x.alike y && alikeItems xs ys
  | _, _ => false

def alikeMembers : List Value → List Value → Bool
  | [], _ => true
  | x :: xs, ys => ys.any (fun y => x.alike y) && alikeMembers xs ys

/-- Every entry of the first list has an equal key with an equal value in the second. -/
def alikePairs : List (Value × Value) → List (Value × Value) → Bool
  | [], _ => true
  | (k, v) :: xs, ys =>
    (match ys.find? fun (l, _) => k.alike l with
     | some (_, w) => v.alike w
     | none => false) && alikePairs xs ys
end

/-- Equality of values in the sense of the document language. An undefined number differs from every
value and from itself, but a collection that holds it is equal to itself. -/
def same : Value → Value → Bool
  | .float d, .float e => d.same e
  | a, b => a.alike b

instance : Key Value := ⟨fun a b => a.alike b⟩

def alikePairsInOrder : List (Value × Value) → List (Value × Value) → Bool
  | [], [] => true
  | (k, v) :: xs, (l, w) :: ys => k.alike l && v.alike w && alikePairsInOrder xs ys
  | _, _ => false

/-- Whether a value counts as true: everything but null, false, zero and the empty ones. -/
def truthy : Value → Bool
  | .null => false
  | .bool b => b
  | .int i => i != 0
  | .float d => !d.isZero
  | .str s => s != ""
  | .bytes b => !b.isEmpty
  | .date _ => true
  | .timestamp _ => true
  | .list items => !items.isEmpty
  | .tuple items => !items.isEmpty
  | .set items => !items.isEmpty
  | .map entries => !entries.isEmpty
  | .knot _ collection => collection.truthy
  | .again _ _ => true

def isScalar : Value → Bool
  | .bool _ => true
  | .int _ => true
  | .float _ => true
  | .str _ => true
  | _ => false

def kindName : Value → String
  | .null => "NoneType"
  | .bool _ => "bool"
  | .int _ => "int"
  | .float _ => "float"
  | .str _ => "str"
  | .bytes _ => "bytes"
  | .date _ => "date"
  | .timestamp _ => "datetime"
  | .list _ => "list"
  | .tuple _ => "tuple"
  | .set _ => "set"
  | .map _ => "dict"
  | .knot _ collection => collection.kindName
  | .again _ isMap => if isMap then "dict" else "list"

def fullKindName : Value → String
  | .date _ => "datetime.date"
  | .timestamp _ => "datetime.datetime"
  | v => v.kindName

mutual
/-- The part of a value because of which it may not be a key of a mapping: itself if it is a list, a
set or a mapping, and of a tuple the first such part. -/
def keyless? : Value → Option Value
  | .list items => some (.list items)
  | .set items => some (.set items)
  | .map entries => some (.map entries)
  | .knot label collection => some (.knot label collection)
  | .again label isMap => some (.again label isMap)
  | .tuple items => firstKeyless? items
  | _ => none

def firstKeyless? : List Value → Option Value
  | [] => none
  | item :: items => item.keyless? <|> firstKeyless? items
end

end Value

def Table.fields (entries : Mapping) : Fields :=
  entries.filterMap fun (k, v) =>
    match k with
    | .str name => some (name, v)
    | _ => none

def Table.field? (entries : Mapping) (name : String) : Option Value := entries.get? (.str name)

end Conveyor

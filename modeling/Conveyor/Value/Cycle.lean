import Conveyor.Value.Basic

/-! Collections that contain themselves. Such a collection is a knot, and every collection on the way
from it back to it is a knot too. A knot is opened to reach its parts: in each part, references back to
the knot become the knot itself, in which the collections passed on the way are references in turn.
Thus every part is complete in itself. -/

namespace Conveyor.Value

def isMap : Value → Bool
  | .map _ => true
  | _ => false

mutual
def hidden (label : Nat) : Value → Value
  | .knot l collection =>
    if l = label then .again l collection.isMap else .knot l (hidden label collection)
  | .list items => .list (hiddenItems label items)
  | .tuple items => .tuple (hiddenItems label items)
  | .map entries => .map (hiddenEntries label entries)
  | v => v

def hiddenItems (label : Nat) : List Value → List Value
  | [] => []
  | item :: items => hidden label item :: hiddenItems label items

def hiddenEntries (label : Nat) : List (Value × Value) → List (Value × Value)
  | [] => []
  | (k, v) :: entries => (k, hidden label v) :: hiddenEntries label entries
end

mutual
def freed (label : Nat) (whole : Value) : Value → Value
  | .again l isMap => if l = label then .knot label whole else .again l isMap
  | .knot l collection => .knot l (freed label (whole.hidden l) collection)
  | .list items => .list (freedItems label whole items)
  | .tuple items => .tuple (freedItems label whole items)
  | .map entries => .map (freedEntries label whole entries)
  | v => v

def freedItems (label : Nat) (whole : Value) : List Value → List Value
  | [] => []
  | item :: items => freed label whole item :: freedItems label whole items

def freedEntries (label : Nat) (whole : Value) : List (Value × Value) → List (Value × Value)
  | [] => []
  | (k, v) :: entries => (k, freed label whole v) :: freedEntries label whole entries
end

/-- The collection of a knot, with parts that are complete in themselves; any other value is left as
it is. -/
def opened : Value → Value
  | .knot label (.list items) => .list (freedItems label (.list items) items)
  | .knot label (.map entries) => .map (freedEntries label (.map entries) entries)
  | v => v

mutual
/-- Whether a walk through all parts of a value comes back to a collection that it is inside of. Keys
of mappings are not entered, nor are sets, which hold no collections. -/
def isEndless : Value → Bool
  | .again _ _ => true
  | .knot _ collection => collection.isEndless
  | .list items => anyEndless items
  | .tuple items => anyEndless items
  | .map entries => anyEntryEndless entries
  | _ => false

def anyEndless : List Value → Bool
  | [] => false
  | item :: items => item.isEndless || anyEndless items

def anyEntryEndless : List (Value × Value) → Bool
  | [] => false
  | (_, v) :: entries => v.isEndless || anyEntryEndless entries
end

def label? : Value → Option Nat
  | .knot label _ => some label
  | _ => none

/-- Compares the items of two lists, one after the other, up to the first two that differ. -/
def equalItems (equal : Value → Value → Option Bool) : List Value → List Value → Option Bool
  | [], [] => some true
  | x :: xs, y :: ys =>
    match equal x y with
    | some true => equalItems equal xs ys
    | answer => answer
  | _, _ => some false

/-- Compares the entries of a mapping, one after the other, with those under equal keys in another one,
up to the first that is not there or differs. -/
def equalEntries (equal : Value → Value → Option Bool) (other : Mapping) : Mapping → Option Bool
  | [] => some true
  | (k, v) :: entries =>
    match other.get? k with
    | none => some false
    | some w =>
      match equal v w with
      | some true => equalEntries equal other entries
      | answer => answer

/-- Whether two values are equal, as far as they have to be compared no deeper than some number of
levels. Two knots of one label are one collection and need no comparison; two others may be compared
for ever. -/
def equalWithin : Nat → Value → Value → Option Bool
  | 0, _, _ => none
  | depth + 1, a, b =>
    if a.label?.isSome ∧ a.label? = b.label? then some true
    else
      match a.opened, b.opened with
      | .list xs, .list ys =>
        if xs.length = ys.length then equalItems (equalWithin depth) xs ys else some false
      | .tuple xs, .tuple ys => equalItems (equalWithin depth) xs ys
      | .map xs, .map ys =>
        if xs.length = ys.length then equalEntries (equalWithin depth) ys xs else some false
      | a, b => some (a.alike b)

def depthLimit : Nat := 1000

/-- Whether two values are equal; none if their comparison goes deeper than the limit. -/
def equal? (a b : Value) : Option Bool := equalWithin depthLimit a b

end Conveyor.Value

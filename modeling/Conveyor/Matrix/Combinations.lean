import Conveyor.Pipeline.Basic
import Conveyor.Value.Order

/-! The combinations of a matrix. The values of the axes are combined in declaration order; a
combination that agrees with an excluded entry is dropped; an included entry extends every
combination whose axes it does not contradict, and becomes a combination of its own if there is
none. -/

namespace Conveyor

inductive MatrixFault where
  | excludeWithoutAxes
  | emptyAxis (axis : String)
  | nonScalars (found : List (String × Value × Value))
  | unknownAxes (axes : List Value)
  | noJobs
  | duplicate (combination : Mapping)
  | unusable (f : ValueFault)
  deriving DecidableEq, Repr

def MatrixFault.rejection (stage : String) : MatrixFault → Rejection
  | .excludeWithoutAxes =>
    .complaint ⟨s!"Stage '{stage}' matrix has exclude entries but no axes", []⟩
  | .emptyAxis axis =>
    .complaint ⟨s!"Stage '{stage}' matrix axis '{axis}' has no values",
      ["an empty axis would silently drop the whole stage"]⟩
  | .nonScalars found =>
    .complaint ⟨s!"Stage '{stage}' matrix values must be strings, numbers or booleans",
      found.map fun (place, key, value) => place ++ " " ++ key.text ++ ": " ++ value.quoted⟩
  | .unknownAxes axes =>
    .complaint ⟨s!"Stage '{stage}' matrix exclude uses unknown axes: " ++ (Value.list axes).quoted, []⟩
  | .noJobs => .complaint ⟨s!"Stage '{stage}' matrix expands to zero jobs", []⟩
  | .duplicate combination =>
    .complaint ⟨s!"Stage '{stage}' matrix has duplicate combination " ++
        (Value.map combination).quoted,
      ["values are compared as text, so 1 and '1' name the same job"]⟩
  | .unusable f => .unusable f

namespace Matrix

def isPlain (v : Value) : Bool := v == .null || v.isScalar

def nonScalarEntries (place : String) (entries : List Mapping) : List (String × Value × Value) :=
  entries.flatMap fun entry =>
    (entry.filter fun (_, v) => !isPlain v).map fun (k, v) => (place, k, v)

def nonScalars (m : Matrix) : List (String × Value × Value) :=
  (m.axes.flatMap fun (axis, values) =>
    (values.filter fun v => !isPlain v).map fun v => ("axis", .str axis, v)) ++
  nonScalarEntries "include" m.included ++ nonScalarEntries "exclude" m.excluded

def axisKeys (m : Matrix) : List Value := m.axes.map fun (axis, _) => .str axis

def isAxis (m : Matrix) (key : Value) : Bool := m.axisKeys.any fun axis => axis.alike key

def product : Table String (List Value) → List Mapping
  | [] => [[]]
  | (axis, values) :: rest =>
    values.flatMap fun v => (product rest).map fun combination => (.str axis, v) :: combination

def agrees (combination entry : Mapping) : Bool :=
  entry.all fun (k, v) =>
    match combination.get? k with
    | some w => w.same v
    | none => false

def compatible (m : Matrix) (combination entry : Mapping) : Bool :=
  agrees combination (entry.filter fun (k, _) => m.isAxis k)

/-- The combinations of the axes that no excluded entry agrees with; none without axes. -/
def survivors (m : Matrix) : List Mapping :=
  if m.axes.isEmpty then []
  else (product m.axes).filter fun combination => !m.excluded.any (agrees combination)

/-- One included entry: every compatible combination is extended; otherwise the entry is kept to be
added at the end. -/
def extend (m : Matrix) (state : List Mapping × List Mapping) (entry : Mapping) :
    List Mapping × List Mapping :=
  let (combinations, added) := state
  if combinations.any fun combination => m.compatible combination entry then
    (combinations.map fun combination =>
      if m.compatible combination entry then combination.update entry else combination, added)
  else (combinations, added ++ [entry])

/-- The combinations of the axes, extended by the included entries, and the entries that extend
none. -/
def merged (m : Matrix) : List Mapping :=
  let (combinations, added) := m.included.foldl m.extend (m.survivors, [])
  combinations ++ added

def marker (combination : Mapping) : Except ValueFault (List (Value × String)) := do
  if combination.any fun (_, v) => v.isUnwritable then throw .unwritable
  let keys ← Value.sorted combination.keys
  return keys.map fun k => (k, ((combination.get? k).getD .null).text)

def sameMarker : List (Value × String) → List (Value × String) → Bool
  | [], [] => true
  | (k, s) :: a, (l, t) :: b => k.alike l && s == t && sameMarker a b
  | _, _ => false

def checkDistinct : List (List (Value × String)) → List Mapping → Except MatrixFault Unit
  | _, [] => .ok ()
  | seen, combination :: rest =>
    match marker combination with
    | .error f => .error (.unusable f)
    | .ok found =>
      if seen.any (sameMarker found) then
        if combination.keys.any Value.isUnwritable then .error (.unusable .unwritable)
        else .error (.duplicate combination)
      else checkDistinct (found :: seen) rest

def checkExcluded (m : Matrix) : List Mapping → Except MatrixFault Unit
  | [] => .ok ()
  | entry :: rest =>
    match entry.keys.filter fun k => !m.isAxis k with
    | [] => checkExcluded m rest
    | unknown =>
      match Value.sorted unknown with
      | .ok axes =>
        if axes.any Value.isUnwritable then .error (.unusable .unwritable)
        else .error (.unknownAxes axes)
      | .error f => .error (.unusable f)

def combinations (m : Matrix) : Except MatrixFault (List Mapping) :=
  if m.axes.isEmpty ∧ m.included.isEmpty then
    if m.excluded.isEmpty then .ok [[]] else .error .excludeWithoutAxes
  else
    match m.axes.find? fun (_, values) => values.isEmpty with
    | some (axis, _) => .error (.emptyAxis axis)
    | none =>
      if m.nonScalars.any fun (_, k, v) => k.isUnwritable || v.isUnwritable then
        .error (.unusable .unwritable)
      else if !m.nonScalars.isEmpty then .error (.nonScalars m.nonScalars)
      else do
        m.checkExcluded m.excluded
        let found := m.merged
        if found.isEmpty then .error .noJobs
        else
          checkDistinct [] found
          return found

end Matrix

namespace Stage

def combinations (s : Stage) : Except Rejection (List Mapping) :=
  match s.matrix with
  | none => .ok [[]]
  | some m => m.combinations.mapError (MatrixFault.rejection s.name)

end Stage

/-- The keys that are in two sets, as the smaller one spells them; as the second one does if they are
of one size. -/
def sharedKeys (a b : List Value) : List Value :=
  let within := fun (keys : List Value) (k : Value) => keys.any fun key => key.alike k
  if a.length < b.length then a.filter (within b) else b.filter (within a)

def commonKeys : List Mapping → List Value
  | [] => []
  | first :: rest => rest.foldl (fun keys combination => sharedKeys keys combination.keys) first.keys

end Conveyor

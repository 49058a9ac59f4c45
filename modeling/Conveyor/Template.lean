import Conveyor.Complaint
import Conveyor.Condition.Token
import Conveyor.Context
import Conveyor.Value.Cycle

/-! Templates inside texts: a dollar sign, double braces and a variable name. Substituted text is
not searched for templates again. -/

namespace Conveyor.Template

open Condition.Token (isNameStart isNameChar)

/-- A piece of a text: a plain character, or a template as it was written with its variable. -/
inductive Piece where
  | char (c : Char)
  | hole (written : List Char) (name : String)
  deriving DecidableEq, Repr

/-- A template at the start of a text: its characters, its variable, and the rest. -/
def hole? (cs : List Char) : Option (List Char × String × List Char) := do
  let inner ← Text.dropStart? ['$', '\x7b', '\x7b'] cs
  match Text.trimStart inner with
  | [] => none
  | c :: rest =>
    if isNameStart c then
      let name := c :: rest.takeWhile isNameChar
      let after ← Text.dropStart? ['\x7d', '\x7d'] (Text.trimStart (rest.dropWhile isNameChar))
      return (cs.take (cs.length - after.length), String.ofList name, after)
    else none

theorem hole?_length {cs written rest : List Char} {name : String}
    (found : hole? cs = some (written, name, rest)) : rest.length < cs.length := by
  unfold hole? at found
  obtain ⟨inner, opened, found⟩ := Option.bind_eq_some_iff.1 found
  rw [Text.dropStart?_eq_some_iff] at opened
  have trimmed := Text.length_trimStart_le inner
  split at found
  · simp at found
  · rename_i c tail begun
    split at found
    · obtain ⟨after, closed, found⟩ := Option.bind_eq_some_iff.1 found
      rw [Text.dropStart?_eq_some_iff] at closed
      have first := Text.length_trimStart_le (tail.dropWhile isNameChar)
      have second := Condition.Token.length_dropWhile_le isNameChar tail
      simp only [Option.pure_def, Option.some.injEq, Prod.mk.injEq] at found
      rw [begun] at trimmed
      rw [closed] at first
      simp only [opened, List.length_append, List.length_cons, ← found.2.2] at *
      omega
    · simp at found

/-- The pieces of a text: leftmost templates that do not overlap, and what is between them. -/
def pieces (cs : List Char) : List Piece :=
  match cs with
  | [] => []
  | c :: cs =>
    match _ : hole? (c :: cs) with
    | some (written, name, rest) => .hole written name :: pieces rest
    | none => .char c :: pieces cs
termination_by cs.length
decreasing_by
  · rename_i found
    exact hole?_length found
  · exact Nat.lt_succ_self _

def textNames (s : String) : List String :=
  (pieces s.toList).filterMap fun
    | .hole _ name => some name
    | .char _ => none

mutual
/-- The variables of all texts inside a value; keys of mappings are not searched. -/
def names : Value → List String
  | .str s => textNames s
  | .list items => namesOfItems items
  | .tuple items => namesOfItems items
  | .map entries => namesOfEntries entries
  | .knot _ collection => names collection
  | _ => []

def namesOfItems : List Value → List String
  | [] => []
  | item :: items => names item ++ namesOfItems items

def namesOfEntries : List (Value × Value) → List String
  | [] => []
  | (_, value) :: entries => names value ++ namesOfEntries entries
end

def namesOfFields (fields : Fields) : List String := fields.flatMap fun (_, value) => names value

inductive Fault where
  | unknown (name source : String)
  | unusable (f : ValueFault)
  deriving DecidableEq, Repr

def Fault.rejection : Fault → Rejection
  | .unknown name source =>
    .complaint ⟨s!"Unknown template variable '{name}' in " ++ Text.quoted source, []⟩
  | .unusable f => .unusable f

/-- What variables stand for, and whether variables of the event may stay as they are. -/
structure Scope where
  bindings : Fields
  strict : Bool := true

/-- The characters that a template is replaced by. A variable without value leaves nothing; one
that is not in scope is an error, unless it belongs to an event that is not known yet. -/
def Scope.fill (scope : Scope) (source : String) (written : List Char) (name : String) :
    Except Fault (List Char) :=
  match scope.bindings.get? name with
  | some .null => .ok []
  | some value => (value.written.map String.toList).mapError .unusable
  | none =>
    if Text.startsWith name.toList "matrix.".toList ∨ scope.strict ∨
        ¬ Context.knownVariables.contains name then
      .error (.unknown name source)
    else .ok written

def Scope.fillAll (scope : Scope) (source : String) : List Piece → Except Fault (List Char)
  | [] => .ok []
  | .char c :: rest => do
    let cs ← scope.fillAll source rest
    return c :: cs
  | .hole written name :: rest => do
    let filled ← scope.fill source written name
    let cs ← scope.fillAll source rest
    return filled ++ cs

def Scope.text (scope : Scope) (s : String) : Except Fault String := do
  let cs ← scope.fillAll s (pieces s.toList)
  return String.ofList cs

mutual
/-- A value with the templates of all its texts replaced. A collection that contains itself is gone
through without end. -/
def Scope.value (scope : Scope) : Value → Except Fault Value
  | .str s => do
    let t ← scope.text s
    return .str t
  | .list items => do
    let items ← scope.items items
    return .list items
  | .tuple items => do
    let items ← scope.items items
    return .tuple items
  | .map entries => do
    let entries ← scope.entries entries
    return .map entries
  | .knot label collection => do
    let collection ← scope.value collection
    return .knot label collection
  | .again _ _ => .error (.unusable .endless)
  | v => .ok v

def Scope.items (scope : Scope) : List Value → Except Fault (List Value)
  | [] => .ok []
  | item :: items => do
    let item ← scope.value item
    let items ← scope.items items
    return item :: items

def Scope.entries (scope : Scope) : List (Value × Value) → Except Fault (List (Value × Value))
  | [] => .ok []
  | (key, value) :: entries => do
    let value ← scope.value value
    let entries ← scope.entries entries
    return (key, value) :: entries
end

def Scope.fields (scope : Scope) : Fields → Except Fault Fields
  | [] => .ok []
  | (key, value) :: fields => do
    let value ← scope.value value
    let fields ← scope.fields fields
    return (key, value) :: fields

end Conveyor.Template

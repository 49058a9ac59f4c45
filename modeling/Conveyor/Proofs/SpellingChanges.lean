import Mathlib.Logic.Relation
import Conveyor.Proofs.AcceptedValues

/-! A document may be spelled in many ways. Keys have several spellings, a single text stands for a list of one, and the
matrix and the mode of failing may be set on the stage or under its strategy. A change of spelling is described at the
place where it is made; the documents that are spelled alike are those that some number of changes turns into each other.
A change in a field is not seen by a check that makes the same of the old and of the new value. -/

namespace Conveyor.Document

open Checked

/-! ### Changes of spelling -/

def InMap (related : Mapping → Mapping → Prop) (v w : Value) : Prop :=
  ∃ a b, v.opened = .map a ∧ w.opened = .map b ∧ related a b

inductive InEntry (change : Value → Value → Prop) : Mapping → Mapping → Prop
  | intro (front back : Mapping) (key : Value) {v w : Value} (changed : change v w) :
      InEntry change (front ++ (key, v) :: back) (front ++ (key, w) :: back)

inductive InItem (change : Value → Value → Prop) (v w : Value) : Prop
  | list (front back : List Value) {x y : Value} (opened : v.opened = .list (front ++ x :: back))
      (opened' : w.opened = .list (front ++ y :: back)) (changed : change x y)
  | tuple (front back : List Value) {x y : Value} (opened : v.opened = .tuple (front ++ x :: back))
      (opened' : w.opened = .tuple (front ++ y :: back)) (changed : change x y)

/-- The entry of a field, which is spelled once, gets another spelling or another value. -/
inductive FieldChange (spellings : List Value) (change : Value → Value → Prop) : Mapping → Mapping → Prop
  | intro (front back : Mapping) {key key' v w : Value} (old : key ∈ spellings) (new : key' ∈ spellings)
      (once : ∀ entry ∈ front ++ back, ∀ spelling ∈ spellings, Key.same entry.1 spelling = false) (changed : change v w) :
      FieldChange spellings change (front ++ (key, v) :: back) (front ++ (key', w) :: back)

def RecordChange (fields : List (List String)) (change : List String → Value → Value → Prop) (a b : Mapping) : Prop :=
  ∃ spellings ∈ fields, FieldChange (spellings.map .str) (change spellings) a b

inductive Wrapped : Value → Value → Prop
  | intro (s : String) : Wrapped (.str s) (.list [.str s])

def StepChange : Mapping → Mapping → Prop := RecordChange StepEntry.allKeys fun _ => Eq

def TriggerChange : Mapping → Mapping → Prop := RecordChange TriggerEntry.allKeys fun _ v w => v = w ∨ Wrapped v w

def strategyFields : List (List String) := [failFastKeys, StageEntry.matrixKeys]

def StrategyChange : Mapping → Mapping → Prop := RecordChange strategyFields fun _ => Eq

inductive PartChange (spellings : List String) (v w : Value) : Prop
  | same (equal : v = w)
  | wrapped (listed : spellings ∈ [StageEntry.needsKeys, StageEntry.producesKeys, StageEntry.consumesKeys])
      (wrapped : Wrapped v w)
  | strategy (field : spellings = StageEntry.strategyKeys) (changed : InMap StrategyChange v w)
  | steps (field : spellings = StageEntry.stepsKeys) (changed : InItem (InMap StepChange) v w)

/-- A field is moved from the strategy to the stage, which has none. -/
inductive Moved (spellings : List String) : Mapping → Mapping → Prop
  | intro (before after inner outer front back : Mapping) {v w x : Value} {key key' : String}
      (old : key ∈ spellings) (new : key' ∈ spellings)
      (opened : v.opened = .map (inner ++ (.str key, x) :: outer)) (opened' : w.opened = .map (inner ++ outer))
      (once : Unspelled spellings (inner ++ outer)) (none : Unspelled ("strategy" :: spellings) (before ++ after))
      (place : before ++ (.str "strategy", w) :: after = front ++ back) :
      Moved spellings (before ++ (.str "strategy", v) :: after) (front ++ (.str key', x) :: back)

inductive Dropped : Mapping → Mapping → Prop
  | strategy (front back : Mapping) {v : Value} (opened : v.opened = .map [])
      (once : Unspelled StageEntry.strategyKeys (front ++ back)) :
      Dropped (front ++ (.str "strategy", v) :: back) (front ++ back)
  | field (front back : Mapping) {spellings : List String} {key : String}
      (listed : spellings ∈ [StageEntry.matrixKeys, failFastKeys]) (member : key ∈ spellings)
      (once : Unspelled spellings (front ++ back)) : Dropped (front ++ (.str key, .null) :: back) (front ++ back)

inductive StageChange (a b : Mapping) : Prop
  | part (changed : RecordChange StageEntry.allKeys PartChange a b)
  | matrix (moved : Moved StageEntry.matrixKeys a b)
  | failFast (moved : Moved failFastKeys a b)
  | dropped (dropped : Dropped a b)

def triggersSpellings : List Value := .bool true :: PipelineEntry.triggersKeys.map .str

inductive PipelineChange (a b : Mapping) : Prop
  | triggers (changed : FieldChange triggersSpellings (fun v w => v = w ∨ InMap (InEntry (InMap TriggerChange)) v w) a b)
  | stages (changed : FieldChange (PipelineEntry.stagesKeys.map .str)
      (fun v w => v = w ∨ InMap (InEntry (InMap StageChange)) v w) a b)

def SpelledAlike : Value → Value → Prop := Relation.EqvGen (InMap PipelineChange)

/-! ### Records -/

/-- Two records have the same fields, but for values that are related. -/
structure Record.Alike (fields : List (List String)) (related : List String → Value → Value → Prop) (r s : Record) :
    Prop where
  given : ∀ spellings ∈ fields, r.given? spellings = s.given? spellings ∨
    ∃ v w, related spellings v w ∧ r.given? spellings = some v ∧ s.given? spellings = some w
  closed : r.strangers fields = [] ↔ s.strangers fields = []

namespace Record.Alike

variable {α : Type} {fields : List (List String)} {related : List String → Value → Value → Prop} {r s : Record}
  {spellings : List String} {check : Value → Checked α} (alike : Alike fields related r s)

include alike

theorem accepted_closed : (r.closed fields).accepted = (s.closed fields).accepted := by
  rw [Record.accepted_closed, Record.accepted_closed]
  exact if_congr alike.closed rfl rfl

variable (listed : spellings ∈ fields)
  (blind : ∀ v w, related spellings v w → (check v).accepted = (check w).accepted)

include listed blind

theorem field (default : α) :
    (r.field spellings default check).accepted = (s.field spellings default check).accepted := by
  rw [accepted_field, accepted_field]
  rcases alike.given spellings listed with same | ⟨v, w, changed, first, second⟩
  · rw [same]
  · rw [first, second]
    exact blind v w changed

theorem required : (r.required spellings check).accepted = (s.required spellings check).accepted := by
  rw [accepted_required, accepted_required]
  rcases alike.given spellings listed with same | ⟨v, w, changed, first, second⟩
  · rw [same]
  · rw [first, second]
    exact blind v w changed

end Record.Alike

open Record

variable {entries front back : Mapping}

theorem unspelled_of_once {spellings : List String}
    (once : ∀ entry ∈ entries, ∀ spelling ∈ spellings.map Value.str, Key.same entry.1 spelling = false) :
    Unspelled spellings entries := by
  intro spelling member present
  obtain ⟨value, listed⟩ := Table.mem_keys_iff.1 present
  have apart := once _ listed (.str spelling) (List.mem_map_of_mem member)
  have same : Key.same (Value.str spelling) (Value.str spelling) = true := (Value.str_exact spelling _).2 rfl
  cases same.symm.trans apart

/-- Two entries for a field that is spelled nowhere else make records that differ in that field alone. -/
theorem alike_sole {fields : List (List String)} (unmixed : Unmixed fields)
    {change : List String → Value → Value → Prop} {spellings : List String} (field : spellings ∈ fields)
    {front' back' : Mapping} {key key' : String} {v w : Value} (rest : front ++ back = front' ++ back')
    (old : key ∈ spellings) (new : key' ∈ spellings) (sole : Unspelled spellings (front ++ back))
    (changed : change spellings v w) :
    Alike fields change ⟨front ++ (.str key, v) :: back⟩ ⟨front' ++ (.str key', w) :: back'⟩ := by
  have sole' : Unspelled spellings (front' ++ back') := rest ▸ sole
  constructor
  · intro other listed
    by_cases same : other = spellings
    · subst same
      exact Or.inr ⟨v, w, changed, by rw [given?, find?_sole old sole]; rfl, by rw [given?, find?_sole new sole']; rfl⟩
    · have foreign : key ∉ other := fun shared => same (unmixed spellings field key old other listed shared)
      have foreign' : key' ∉ other := fun shared => same (unmixed spellings field key' new other listed shared)
      exact Or.inl (by rw [given?, given?, find?_skip foreign, find?_skip foreign', rest])
  · rw [strangers_sole unmixed field old sole, strangers_sole unmixed field new sole', rest]

/-- A record has a field, with a value, that another one lacks. -/
structure Record.Extends (fields : List (List String)) (spellings : List String) (v : Value) (r s : Record) : Prop where
  given : r.given? spellings = some v
  lacking : s.given? spellings = none
  others : ∀ other ∈ fields, other ≠ spellings → r.given? other = s.given? other
  closed : r.strangers fields = [] ↔ s.strangers fields = []

theorem extends_sole {fields : List (List String)} (unmixed : Unmixed fields) {spellings : List String}
    (field : spellings ∈ fields) {key : String} {v : Value} (member : key ∈ spellings)
    (sole : Unspelled spellings (front ++ back)) :
    Extends fields spellings v ⟨front ++ (.str key, v) :: back⟩ ⟨front ++ back⟩ := by
  constructor
  · rw [given?, find?_sole member sole]
    rfl
  · rw [given?, find?_unspelled sole]
    rfl
  · intro other listed apart
    have foreign : key ∉ other := fun shared => apart (unmixed spellings field key member other listed shared)
    rw [given?, given?, find?_skip foreign]
  · exact strangers_sole unmixed field member sole

theorem RecordChange.alike {fields : List (List String)} (unmixed : Unmixed fields)
    {change : List String → Value → Value → Prop} {a b : Mapping} (changed : RecordChange fields change a b) :
    Alike fields change ⟨a⟩ ⟨b⟩ := by
  obtain ⟨spellings, field, ⟨front, back, old, new, once, changed⟩⟩ := changed
  obtain ⟨key, member, rfl⟩ := List.mem_map.1 old
  obtain ⟨key', member', rfl⟩ := List.mem_map.1 new
  exact alike_sole unmixed field rfl member member' (unspelled_of_once once) changed

theorem accepted_step {a b : Mapping} (changed : StepChange a b) :
    (StepEntry.check ⟨a⟩).accepted = (StepEntry.check ⟨b⟩).accepted := by
  have alike := changed.alike (by decide)
  have field {α : Type} (spellings : List String) (listed : spellings ∈ StepEntry.allKeys) (default : α)
      (check : Value → Checked α) :=
    alike.field listed (fun v w same => congrArg (fun v => (check v).accepted) same) default
  simp only [StepEntry.check, accepted_andThen, accepted_seqLeft, accepted_seq, accepted_functor]
  rw [field StepEntry.idKeys (by decide), field StepEntry.nameKeys (by decide), field StepEntry.usesKeys (by decide),
    field StepEntry.runKeys (by decide), field StepEntry.paramsKeys (by decide), field StepEntry.envKeys (by decide),
    field StepEntry.directoryKeys (by decide), alike.accepted_closed]

theorem StrategyEntry.accepted_check (r : Record) : (check r).accepted = StrategyEntry.mk
    <$> (r.field failFastKeys none (asOptional asBoolean)).accepted
    <*> (r.field StageEntry.matrixKeys none (asOptional asFields)).accepted <* (r.closed strategyFields).accepted := by
  simp only [check, accepted_seqLeft, accepted_seq, accepted_functor]
  rfl

theorem accepted_strategy {a b : Mapping} (changed : StrategyChange a b) :
    (StrategyEntry.check ⟨a⟩).accepted = (StrategyEntry.check ⟨b⟩).accepted := by
  have alike := changed.alike (by decide)
  have field {α : Type} (spellings : List String) (listed : spellings ∈ strategyFields) (default : α)
      (check : Value → Checked α) :=
    alike.field listed (fun v w same => congrArg (fun v => (check v).accepted) same) default
  rw [StrategyEntry.accepted_check, StrategyEntry.accepted_check, field failFastKeys (by decide),
    field StageEntry.matrixKeys (by decide), alike.accepted_closed]

theorem accepted_trigger {a b : Mapping} (changed : TriggerChange a b) :
    (TriggerEntry.check ⟨a⟩).accepted = (TriggerEntry.check ⟨b⟩).accepted := by
  have alike := changed.alike (by decide)
  have patterns (spellings : List String) (listed : spellings ∈ TriggerEntry.allKeys) :
      (Record.field ⟨a⟩ spellings none asPatterns).accepted = (Record.field ⟨b⟩ spellings none asPatterns).accepted := by
    apply alike.field listed
    rintro v w (rfl | wrapped)
    · rfl
    · cases wrapped
      rfl
  simp only [TriggerEntry.check, accepted_seqLeft, accepted_seq, accepted_functor]
  rw [patterns TriggerEntry.branchesKeys (by decide), patterns TriggerEntry.tagsKeys (by decide),
    patterns TriggerEntry.branchesIgnoreKeys (by decide), patterns TriggerEntry.tagsIgnoreKeys (by decide),
    alike.accepted_closed]

end Conveyor.Document

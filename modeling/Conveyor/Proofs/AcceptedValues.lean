import Conveyor.Document.Pipeline
import Conveyor.Proofs.TableContents

/-! What a check accepts, apart from the problems it lists. A check of several parts accepts what it is put together from
if it accepts every part. A record is accepted for the values of its fields, however these are spelled: an entry for a
field that is spelled once gives the field its value and is no stranger, and nothing else depends on the entry. -/

namespace Conveyor.Document

/-! ### Checks -/

namespace Checked

variable {α β : Type}

def accepted : Checked α → Option α
  | .valid value => some value
  | .invalid _ => none
  | .abandoned _ => none

@[simp]
theorem accepted_map (f : α → β) (a : Checked α) : (a.map f).accepted = f <$> a.accepted := by
  cases a with
  | valid value => rfl
  | invalid problems => rfl
  | abandoned misuse => rfl

@[simp]
theorem accepted_functor (f : α → β) (a : Checked α) : (f <$> a).accepted = f <$> a.accepted := accepted_map f a

theorem accepted_follow (f : Checked (α → β)) (next : Unit → Checked α) :
    (seq f next).accepted = f.accepted <*> (next ()).accepted := by
  cases f with
  | valid g => exact accepted_map g (next ())
  | abandoned misuse => rfl
  | invalid problems =>
    unfold seq
    cases next () with
    | valid value => rfl
    | invalid more => rfl
    | abandoned misuse => rfl

@[simp]
theorem accepted_seq (f : Checked (α → β)) (a : Checked α) : (f <*> a).accepted = f.accepted <*> a.accepted :=
  accepted_follow f fun _ => a

@[simp]
theorem accepted_seqLeft (a : Checked α) (b : Checked β) : (a <* b).accepted = a.accepted <* b.accepted := by
  refine (accepted_follow _ fun _ => b).trans ?_
  rw [accepted_map]
  cases a.accepted <;> cases b.accepted <;> rfl

@[simp]
theorem accepted_under (place : String) (a : Checked α) : (a.under place).accepted = a.accepted := by
  cases a with
  | valid value => rfl
  | invalid problems => rfl
  | abandoned misuse => rfl

@[simp]
theorem accepted_andThen (a : Checked α) (next : α → Checked β) :
    (a.andThen next).accepted = a.accepted.bind fun value => (next value).accepted := by
  cases a with
  | valid value => rfl
  | invalid problems => rfl
  | abandoned misuse => rfl

theorem accepted_all {δ : Type} (f : δ → Checked α) (ds : List δ) :
    ((ds.map f).foldr (fun item rest => seq (map List.cons item) fun _ => rest) (.valid [])).accepted =
      ds.mapM fun d => (f d).accepted := by
  induction ds with
  | nil => rfl
  | cons d ds ih =>
    rw [List.map_cons, List.foldr_cons, accepted_follow, accepted_map, ih, List.mapM_cons]
    cases (f d).accepted with
    | none => rfl
    | some value => cases List.mapM (fun d => (f d).accepted) ds <;> rfl

theorem accepted_items (check : Value → Checked α) (values : List Value) :
    (items check values).accepted = values.mapM fun v => (check v).accepted := by
  have numbered (start : Nat) :
      ((values.zipIdx start).mapM fun item => ((check item.1).under (toString item.2)).accepted) =
        values.mapM fun v => (check v).accepted := by
    induction values generalizing start with
    | nil => rfl
    | cons v values ih => rw [List.zipIdx_cons, List.mapM_cons, List.mapM_cons, accepted_under, ih]
  exact (accepted_all _ _).trans (numbered 0)

end Checked

open Checked

theorem accepted_asEntry {α : Type} (check : Value → Checked α) (entry : Value × Value) :
    (asEntry check entry).accepted = Prod.mk <$> (asText entry.1).accepted <*> (check entry.2).accepted := by
  simp only [asEntry, accepted_under, accepted_seq, accepted_functor]

theorem accepted_asTableOf {α : Type} (check : Value → Checked α) {v : Value} {entries : Mapping}
    (opened : v.opened = .map entries) :
    (asTableOf check v).accepted =
      Table.ofPairs <$> entries.mapM fun entry => Prod.mk <$> (asText entry.1).accepted <*> (check entry.2).accepted := by
  rw [asTableOf, opened]
  dsimp only
  rw [accepted_map, accepted_all]
  simp only [accepted_asEntry]

/-! ### Records -/

def Unspelled (spellings : List String) (entries : Mapping) : Prop :=
  ∀ spelling ∈ spellings, Value.str spelling ∉ entries.keys

instance (spellings : List String) (entries : Mapping) : Decidable (Unspelled spellings entries) :=
  inferInstanceAs (Decidable (∀ spelling ∈ spellings, Value.str spelling ∉ entries.keys))

def Unmixed (fields : List (List String)) : Prop :=
  ∀ spellings ∈ fields, ∀ spelling ∈ spellings, ∀ other ∈ fields, spelling ∈ other → other = spellings

instance (fields : List (List String)) : Decidable (Unmixed fields) :=
  inferInstanceAs (Decidable (∀ spellings ∈ fields, ∀ spelling ∈ spellings, ∀ other ∈ fields,
    spelling ∈ other → other = spellings))

namespace Record

variable {α : Type} {fields : List (List String)} {spellings other : List String} {front back : Mapping} {v : Value}
  {spelling : String}

def given? (r : Record) (spellings : List String) : Option Value := (r.find? spellings).map (·.2)

theorem accepted_field (r : Record) (spellings : List String) (default : α) (check : Value → Checked α) :
    (r.field spellings default check).accepted =
      (r.given? spellings).elim (some default) fun v => (check v).accepted := by
  unfold field given?
  cases r.find? spellings with
  | none => rfl
  | some found => exact accepted_under found.1 (check found.2)

theorem accepted_required (r : Record) (spellings : List String) (check : Value → Checked α) :
    (r.required spellings check).accepted = (r.given? spellings).bind fun v => (check v).accepted := by
  unfold required given?
  cases r.find? spellings with
  | none => rfl
  | some found => exact accepted_under found.1 (check found.2)

theorem accepted_closed (r : Record) (fields : List (List String)) :
    (r.closed fields).accepted = if r.strangers fields = [] then some () else none := by
  unfold closed
  split
  next none => rw [if_pos none]; rfl
  next some => rw [if_neg some]; rfl

theorem find?_member {r : Record} {found : String × Value} (present : r.find? spellings = some found) :
    found.1 ∈ spellings ∧ r.entries.get? (.str found.1) = some found.2 := by
  induction spellings with
  | nil => cases present
  | cons spelling rest ih =>
    rw [find?] at present
    split at present
    next v here =>
      cases present
      exact ⟨List.mem_cons_self, here⟩
    next =>
      obtain ⟨member, value⟩ := ih present
      exact ⟨List.mem_cons_of_mem _ member, value⟩

theorem find?_congr {r s : Record}
    (same : ∀ spelling ∈ spellings, r.entries.get? (.str spelling) = s.entries.get? (.str spelling)) :
    r.find? spellings = s.find? spellings := by
  induction spellings with
  | nil => rfl
  | cons spelling rest ih =>
    obtain ⟨here, others⟩ := List.forall_mem_cons.1 same
    rw [find?, find?, here, ih others]

theorem find?_unspelled {entries : Mapping} (unspelled : Unspelled spellings entries) :
    find? ⟨entries⟩ spellings = none := by
  cases found : find? ⟨entries⟩ spellings with
  | none => rfl
  | some entry =>
    obtain ⟨member, value⟩ := find?_member found
    exact absurd (Table.mem_keys_iff.2 ⟨_, Table.mem_of_get? (Value.str_exact entry.1) value⟩) (unspelled entry.1 member)

theorem get?_skip {key : String} (apart : spelling ≠ key) :
    Table.get? (front ++ (.str spelling, v) :: back) (Value.str key) = Table.get? (front ++ back) (Value.str key) := by
  apply Table.get?_middle
  rw [← Bool.not_eq_true, Value.str_exact key]
  exact fun same => apart (Value.str.inj same)

theorem find?_skip (foreign : spelling ∉ other) :
    find? ⟨front ++ (.str spelling, v) :: back⟩ other = find? ⟨front ++ back⟩ other := by
  apply find?_congr
  intro key member
  exact get?_skip fun same => foreign (same ▸ member)

theorem find?_sole (member : spelling ∈ spellings) (sole : Unspelled spellings (front ++ back)) :
    find? ⟨front ++ (.str spelling, v) :: back⟩ spellings = some (spelling, v) := by
  have absent : ∀ key ∈ spellings, Table.get? (front ++ back) (Value.str key) = none := by
    intro key listed
    cases found : Table.get? (front ++ back) (Value.str key) with
    | none => rfl
    | some w => exact absurd (Table.mem_keys_iff.2 ⟨w, Table.mem_of_get? (Value.str_exact key) found⟩) (sole key listed)
  have present : Table.get? (front ++ (.str spelling, v) :: back) (Value.str spelling) = some v := by
    have before := absent spelling member
    rw [Table.get?_append, Option.or_eq_none_iff] at before
    have here : Key.same (Value.str spelling) (Value.str spelling) = true := (Value.str_exact spelling _).2 rfl
    rw [Table.get?_append, before.1, Table.get?, if_pos here]
    rfl
  clear sole
  induction spellings with
  | nil => cases member
  | cons key rest ih =>
    rw [find?]
    by_cases same : key = spelling
    · rw [same, present]
    · rw [get?_skip (Ne.symm same), absent key List.mem_cons_self]
      apply ih ((List.mem_cons.1 member).resolve_left (Ne.symm same))
      intro key listed
      exact absent key (List.mem_cons_of_mem _ listed)

/-- There are no strangers if every key is the spelling under which some field is found. -/
theorem strangers_nil {entries : Mapping} : strangers ⟨entries⟩ fields = [] ↔
    ∀ key ∈ entries.keys, ∃ spellings ∈ fields, ∃ found, find? ⟨entries⟩ spellings = some found ∧ key = .str found.1 := by
  have used (s : String) : s ∈ (fields.filterMap fun spellings => (find? ⟨entries⟩ spellings).map (·.1)) ↔
      ∃ spellings ∈ fields, ∃ found, find? ⟨entries⟩ spellings = some found ∧ s = found.1 := by
    simp only [List.mem_filterMap, Option.map_eq_some_iff, @eq_comm _ s]
  unfold strangers
  simp only [List.filterMap_eq_nil_iff, Table.keys, List.forall_mem_map]
  apply forall₂_congr
  intro entry _
  split
  next s key =>
    rw [key]
    simp only [Value.str.injEq, ← used, List.contains_iff_mem]
    split
    next known => exact iff_of_true rfl known
    next unknown => exact iff_of_false (Option.some_ne_none _) unknown
  next other =>
    refine iff_of_false (Option.some_ne_none _) ?_
    rintro ⟨_, _, found, _, key⟩
    exact other found.1 key

/-- An entry for a field that is spelled once is no stranger, and does not make strangers of others. -/
theorem strangers_sole (unmixed : Unmixed fields) (field : spellings ∈ fields) (member : spelling ∈ spellings)
    (sole : Unspelled spellings (front ++ back)) :
    strangers ⟨front ++ (.str spelling, v) :: back⟩ fields = [] ↔ strangers ⟨front ++ back⟩ fields = [] := by
  have keys : Table.keys (front ++ (.str spelling, v) :: back) = front.keys ++ .str spelling :: back.keys :=
    List.map_append
  have keys' : Table.keys (front ++ back) = front.keys ++ back.keys := List.map_append
  have elsewhere (key : Value) (present : key ∈ Table.keys (front ++ back)) (other : List String)
      (listed : other ∈ fields) (found : String × Value) (spelled : key = .str found.1) (inside : found.1 ∈ other) :
      spelling ∉ other := by
    intro shared
    rw [unmixed spellings field spelling member other listed shared] at inside
    exact sole found.1 inside (spelled ▸ present)
  rw [strangers_nil, strangers_nil, keys]
  constructor
  · intro known key present
    have listed : key ∈ front.keys ++ .str spelling :: back.keys := by
      rw [keys'] at present
      simp only [List.mem_append, List.mem_cons] at present ⊢
      exact present.imp_right Or.inr
    obtain ⟨other, listed, found, place, spelled⟩ := known key listed
    have foreign := elsewhere key present other listed found spelled (find?_member place).1
    exact ⟨other, listed, found, (find?_skip foreign) ▸ place, spelled⟩
  · intro known key present
    by_cases rest : key ∈ Table.keys (front ++ back)
    · obtain ⟨other, listed, found, place, spelled⟩ := known key rest
      have foreign := elsewhere key rest other listed found spelled (find?_member place).1
      exact ⟨other, listed, found, (find?_skip foreign).trans place, spelled⟩
    · have own : key = .str spelling := by
        rw [keys'] at rest
        simp only [List.mem_append, List.mem_cons] at present rest
        tauto
      exact ⟨spellings, field, (spelling, v), find?_sole member sole, own⟩

end Record
end Conveyor.Document

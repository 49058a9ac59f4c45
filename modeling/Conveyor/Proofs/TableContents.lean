import Conveyor.Value.Basic
import Mathlib.Data.List.Nodup

/-! What is in a table after insertions. Most keys are exact: only the key itself counts as the same. The keys of a table
are then found as they stand in it, and none of them comes twice. -/

namespace Conveyor

variable {κ α : Type}

theorem Table.mem_keys_iff {table : Table κ α} {key : κ} : key ∈ table.keys ↔ ∃ value, (key, value) ∈ table := by
  rw [keys, List.mem_map]
  constructor
  · rintro ⟨⟨_, value⟩, member, rfl⟩
    exact ⟨value, member⟩
  · rintro ⟨value, member⟩
    exact ⟨_, member, rfl⟩

theorem Table.keys_map {κ' β : Type} {f : κ × α → κ' × β} {g : κ → κ'} (same : ∀ entry, (f entry).1 = g entry.1)
    {table : Table κ α} : Table.keys (table.map f) = table.keys.map g := by
  rw [keys, keys, List.map_map, List.map_map]
  exact List.map_congr_left fun entry _ => same entry

variable [Key κ]

def Key.Exact (key : κ) : Prop := ∀ other : κ, Key.same other key = true ↔ other = key

theorem Key.exact {κ : Type} [DecidableEq κ] (key : κ) : Key.Exact key := fun _ => decide_eq_true_iff

theorem Value.str_exact (text : String) : Key.Exact (Value.str text) := by
  intro other
  cases other <;> simp [Key.same, Value.alike]

namespace Table

def TextKeys (entries : Mapping) : Prop := ∀ entry ∈ entries, ∃ text, entry.1 = .str text

def Exact (table : Table κ α) : Prop := ∀ entry ∈ table, Key.Exact entry.1

theorem exact {κ : Type} [DecidableEq κ] (table : Table κ α) : table.Exact := fun entry _ => Key.exact entry.1

theorem TextKeys.exact {entries : Mapping} (texts : entries.TextKeys) : entries.Exact := by
  intro entry member
  obtain ⟨text, key⟩ := texts entry member
  rw [key]
  exact Value.str_exact text

theorem TextKeys.keys {entries : Mapping} (texts : entries.TextKeys) : ∀ key ∈ entries.keys, ∃ text, key = .str text := by
  intro key member
  obtain ⟨entry, present, rfl⟩ := List.mem_map.1 member
  exact texts entry present

theorem keys_insert (table : Table κ α) (key : κ) (value : α) :
    (table.insert key value).keys = if table.has key then table.keys else table.keys ++ [key] := by
  induction table with
  | nil => rfl
  | cons entry rest ih =>
    obtain ⟨here, other⟩ := entry
    by_cases same : Key.same here key = true
    · simp [insert, has, get?, keys, same]
    · simp only [insert, has, get?, same, Bool.false_eq_true, if_false]
      change here :: keys (insert rest key value) = _
      rw [ih, has]
      split <;> rfl

theorem get?_append (front back : Table κ α) (key : κ) :
    Table.get? (front ++ back) key = (front.get? key).or (back.get? key) := by
  induction front with
  | nil => rfl
  | cons entry front ih =>
    rw [List.cons_append, get?, get?]
    split
    · rfl
    · exact ih

theorem get?_middle {front back : Table κ α} {key other : κ} {value : α} (apart : Key.same key other = false) :
    Table.get? (front ++ (key, value) :: back) other = Table.get? (front ++ back) other := by
  rw [get?_append, get?_append, get?, apart, if_neg Bool.false_ne_true]

theorem get?_eq_none_iff {table : Table κ α} {key : κ} :
    table.get? key = none ↔ ∀ entry ∈ table, Key.same entry.1 key = false := by
  induction table with
  | nil => simp [get?]
  | cons entry rest ih =>
    rw [List.forall_mem_cons, ← ih, get?]
    cases Key.same entry.1 key <;> simp

theorem erase_append (front back : Table κ α) (key : κ) :
    Table.erase (front ++ back) key = front.erase key ++ back.erase key :=
  List.filter_append front back

theorem erase_cons (entry : κ × α) (rest : Table κ α) (key : κ) : Table.erase (entry :: rest) key =
    if Key.same entry.1 key then rest.erase key else entry :: rest.erase key := by
  by_cases same : Key.same entry.1 key = true <;> simp [erase, same]

theorem get?_erase_none {table : Table κ α} {key : κ} (absent : table.get? key = none) (other : κ) :
    Table.get? (table.erase other) key = none :=
  get?_eq_none_iff.2 fun entry kept => get?_eq_none_iff.1 absent entry (List.mem_filter.1 kept).1

theorem erase_absent {table : Table κ α} {key : κ} (absent : table.get? key = none) : table.erase key = table := by
  induction table with
  | nil => rfl
  | cons entry rest ih =>
    obtain ⟨here, later⟩ := List.forall_mem_cons.1 (get?_eq_none_iff.1 absent)
    rw [erase_cons, here, if_neg Bool.false_ne_true, ih (get?_eq_none_iff.2 later)]

theorem mem_of_get? {table : Table κ α} {key : κ} {value : α} (exact : Key.Exact key)
    (found : table.get? key = some value) : (key, value) ∈ table := by
  induction table with
  | nil => cases found
  | cons entry rest ih =>
    obtain ⟨here, other⟩ := entry
    unfold get? at found
    split at found
    next same =>
      cases (exact here).1 same
      cases found
      exact List.mem_cons_self
    next => exact List.mem_cons_of_mem _ (ih found)

theorem has_iff {table : Table κ α} {key : κ} (exact : Key.Exact key) : table.has key = true ↔ key ∈ table.keys := by
  constructor
  · intro present
    obtain ⟨value, found⟩ := Option.isSome_iff_exists.1 present
    exact mem_keys_iff.2 ⟨value, mem_of_get? exact found⟩
  · intro member
    induction table with
    | nil => cases member
    | cons entry rest ih =>
      obtain ⟨here, value⟩ := entry
      by_cases same : Key.same here key = true
      · simp [has, get?, same]
      · have later : key ∈ keys rest := by
          rcases List.mem_cons.1 member with first | later
          · exact (same ((exact here).2 first.symm)).elim
          · exact later
        simpa [has, get?, same] using ih later

theorem get?_of_mem {table : Table κ α} {key : κ} {value : α} (distinct : table.keys.Nodup) (exact : Key.Exact key)
    (member : (key, value) ∈ table) : table.get? key = some value := by
  obtain ⟨other, found⟩ := Option.isSome_iff_exists.1 ((has_iff exact).2 (mem_keys_iff.2 ⟨value, member⟩))
  have same := List.inj_on_of_nodup_map distinct member (mem_of_get? exact found) rfl
  cases same
  exact found

theorem get?_perm {table other : Table κ α} (distinct : table.keys.Nodup) (perm : table.Perm other) {key : κ}
    (known : Key.Exact key) : table.get? key = other.get? key := by
  have distinct' : other.keys.Nodup := (perm.map _).nodup_iff.1 distinct
  apply Option.ext
  intro value
  constructor
  · intro found
    exact get?_of_mem distinct' known (perm.mem_iff.1 (mem_of_get? known found))
  · intro found
    exact get?_of_mem distinct known (perm.mem_iff.2 (mem_of_get? known found))

theorem insert_absent {table : Table κ α} {key : κ} (absent : table.has key = false) (value : α) :
    table.insert key value = table ++ [(key, value)] := by
  induction table with
  | nil => rfl
  | cons entry rest ih =>
    obtain ⟨here, other⟩ := entry
    have elsewhere : Key.same here key = false := by
      by_contra same
      rw [Bool.not_eq_false] at same
      simp [has, get?, same] at absent
    rw [insert, elsewhere, if_neg Bool.false_ne_true, List.cons_append, ih]
    simpa [has, get?, elsewhere] using absent

theorem get?_insert_exact {key other : κ} (exact : Key.Exact key) (asked : Key.Exact other) (table : Table κ α)
    (value : α) : (table.insert key value).get? other = if Key.same key other then some value else table.get? other := by
  induction table with
  | nil => rfl
  | cons entry rest ih =>
    obtain ⟨here, before⟩ := entry
    by_cases present : Key.same here key = true
    · cases (exact here).1 present
      by_cases same : Key.same key other = true <;> simp [insert, get?, present, same]
    · by_cases same : Key.same here other = true
      · have elsewhere : ¬ Key.same key other = true := by
          intro again
          rw [(asked key).1 again] at present
          exact present same
        simp [insert, get?, present, same, elsewhere]
      · simp [insert, get?, present, same, ih]

section

variable {table more : Table κ α} {key other : κ} {value : α}

theorem mem_keys_insert (exact : Key.Exact key) :
    other ∈ (table.insert key value).keys ↔ other ∈ table.keys ∨ other = key := by
  rw [keys_insert]
  split
  next present =>
    rw [has_iff exact] at present
    constructor
    · exact Or.inl
    · rintro (member | rfl)
      · exact member
      · exact present
  next => rw [List.mem_append, List.mem_singleton]

theorem nodup_keys_insert (exact : Key.Exact key) (distinct : table.keys.Nodup) :
    (table.insert key value).keys.Nodup := by
  rw [keys_insert]
  split
  next => exact distinct
  next absent =>
    rw [has_iff exact] at absent
    rw [List.nodup_append]
    refine ⟨distinct, List.nodup_singleton key, ?_⟩
    rintro _ member _ here rfl
    cases List.mem_singleton.1 here
    exact absent member

theorem mem_insert {entry : κ × α} (exact : Key.Exact key) (member : entry ∈ table.insert key value) :
    entry ∈ table ∨ entry = (key, value) := by
  induction table with
  | nil => exact Or.inr (List.mem_singleton.1 member)
  | cons first rest ih =>
    obtain ⟨here, before⟩ := first
    unfold insert at member
    split at member
    next same =>
      cases (exact here).1 same
      rcases List.mem_cons.1 member with first | later
      · exact Or.inr first
      · exact Or.inl (List.mem_cons_of_mem _ later)
    next =>
      rcases List.mem_cons.1 member with rfl | later
      · exact Or.inl List.mem_cons_self
      · rcases ih later with old | new
        · exact Or.inl (List.mem_cons_of_mem _ old)
        · exact Or.inr new

theorem mem_keys_update (exact : more.Exact) :
    other ∈ (table.update more).keys ↔ other ∈ table.keys ∨ other ∈ more.keys := by
  induction more generalizing table with
  | nil => simp [update, keys]
  | cons entry more ih =>
    obtain ⟨here, rest⟩ := List.forall_mem_cons.1 exact
    calc other ∈ keys (update (table.insert entry.1 entry.2) more)
        ↔ other ∈ (table.insert entry.1 entry.2).keys ∨ other ∈ keys more := ih rest
      _ ↔ other ∈ table.keys ∨ other ∈ keys (entry :: more) := by
        rw [mem_keys_insert here, or_assoc]
        simp [keys]

theorem keys_update_subset {table more : Table κ α} {key : κ} (member : key ∈ (table.update more).keys) :
    key ∈ table.keys ∨ key ∈ more.keys := by
  induction more generalizing table with
  | nil => exact Or.inl member
  | cons entry more ih =>
    rcases @ih (table.insert entry.1 entry.2) member with inserted | later
    · rw [keys_insert] at inserted
      split at inserted
      · exact Or.inl inserted
      · rcases List.mem_append.1 inserted with old | new
        · exact Or.inl old
        · cases List.mem_singleton.1 new
          exact Or.inr List.mem_cons_self
    · exact Or.inr (List.mem_cons_of_mem _ later)

theorem nodup_keys_update (exact : more.Exact) (distinct : table.keys.Nodup) : (table.update more).keys.Nodup := by
  induction more generalizing table with
  | nil => exact distinct
  | cons entry more ih =>
    obtain ⟨here, rest⟩ := List.forall_mem_cons.1 exact
    exact ih rest (nodup_keys_insert here distinct)

theorem mem_update {entry : κ × α} (exact : more.Exact) (member : entry ∈ table.update more) :
    entry ∈ table ∨ entry ∈ more := by
  induction more generalizing table with
  | nil => exact Or.inl member
  | cons first more ih =>
    obtain ⟨here, rest⟩ := List.forall_mem_cons.1 exact
    rcases ih rest member with inserted | later
    · rcases mem_insert here inserted with old | rfl
      · exact Or.inl old
      · exact Or.inr List.mem_cons_self
    · exact Or.inr (List.mem_cons_of_mem _ later)

/-- The last of the new values for a key counts, and an old one only if there is no new one. -/
theorem get?_update (exact : more.Exact) (asked : Key.Exact key) : (table.update more).get? key = some value ↔
    (∃ before after, more = before ++ (key, value) :: after ∧ key ∉ keys after) ∨
      key ∉ more.keys ∧ table.get? key = some value := by
  induction more generalizing table with
  | nil => simp [update, keys]
  | cons entry more ih =>
    obtain ⟨here, rest⟩ := List.forall_mem_cons.1 exact
    change ((table.insert entry.1 entry.2).update more).get? key = some value ↔ _
    rw [ih rest, get?_insert_exact here asked]
    constructor
    · rintro (⟨before, after, rfl, last⟩ | ⟨last, found⟩)
      · exact Or.inl ⟨entry :: before, after, rfl, last⟩
      · split at found
        next same =>
          cases (asked entry.1).1 same
          cases found
          exact Or.inl ⟨[], more, rfl, last⟩
        next other =>
          refine Or.inr ⟨?_, found⟩
          intro member
          rcases List.mem_cons.1 member with same | later
          · exact other ((asked entry.1).2 same.symm)
          · exact last later
    · rintro (⟨before, after, split, last⟩ | ⟨absent, found⟩)
      · cases before with
        | nil =>
          obtain ⟨rfl, rfl⟩ := List.cons.inj split
          exact Or.inr ⟨last, if_pos ((asked key).2 rfl)⟩
        | cons first before => exact Or.inl ⟨before, after, (List.cons.inj split).2, last⟩
      · refine Or.inr ⟨fun later => absent (List.mem_cons_of_mem _ later), ?_⟩
        rw [if_neg]
        · exact found
        · intro same
          cases (asked entry.1).1 same
          exact absent List.mem_cons_self

theorem get?_update_last (exact : more.Exact) (asked : Key.Exact key) :
    (table.update more).get? key = (get? more.reverse key).or (table.get? key) := by
  induction more generalizing table with
  | nil => rfl
  | cons entry more ih =>
    obtain ⟨here, rest⟩ := List.forall_mem_cons.1 exact
    change ((table.insert entry.1 entry.2).update more).get? key = _
    rw [ih rest, get?_insert_exact here asked, List.reverse_cons, get?_append, Option.or_assoc]
    congr 1
    simp only [get?]
    split <;> rfl

theorem get?_update_of_nodup (exact : more.Exact) (distinct : more.keys.Nodup) (asked : Key.Exact key) :
    (table.update more).get? key = (more.get? key).or (table.get? key) := by
  rw [get?_update_last exact asked, get?_perm distinct (List.reverse_perm more).symm asked]

theorem keys_update_begins (table more : Table κ α) : table.keys <+: (table.update more).keys := by
  induction more generalizing table with
  | nil => exact List.prefix_rfl
  | cons entry more ih =>
    refine List.IsPrefix.trans ?_ (ih (table.insert entry.1 entry.2))
    rw [keys_insert]
    split
    · exact List.prefix_rfl
    · exact List.prefix_append _ _

theorem update_of_nodup (exact : more.Exact) (distinct : (table ++ more).keys.Nodup) :
    table.update more = table ++ more := by
  induction more generalizing table with
  | nil => exact (List.append_nil table).symm
  | cons entry more ih =>
    obtain ⟨here, rest⟩ := List.forall_mem_cons.1 exact
    have fresh : table.has entry.1 = false := by
      rw [Bool.eq_false_iff, ne_eq, has_iff here]
      intro member
      rw [keys, List.map_append, List.nodup_append] at distinct
      exact distinct.2.2 _ member _ List.mem_cons_self rfl
    change (table.insert entry.1 entry.2).update more = _
    rw [insert_absent fresh, ih rest (by rwa [List.append_assoc]), List.append_assoc]
    rfl

end

section

variable {pairs : List (κ × α)}

theorem mem_keys_ofPairs {key : κ} (exact : Exact pairs) : key ∈ (ofPairs pairs).keys ↔ key ∈ keys pairs := by
  rw [ofPairs, mem_keys_update exact]
  simp [keys]

theorem insert_map {β : Type} (f : α → β) (table : Table κ α) (key : κ) (value : α) :
    (table.insert key value).map (fun entry => (entry.1, f entry.2)) =
      insert (table.map fun entry => (entry.1, f entry.2)) key (f value) := by
  induction table with
  | nil => rfl
  | cons entry rest ih =>
    obtain ⟨here, other⟩ := entry
    by_cases same : Key.same here key = true
    · simp only [insert, List.map_cons, same, if_true]
    · simp only [insert, List.map_cons, same, Bool.false_eq_true, if_false, ih]

theorem ofPairs_map {β : Type} (f : α → β) (pairs : List (κ × α)) :
    (ofPairs pairs).map (fun entry => (entry.1, f entry.2)) = ofPairs (pairs.map fun entry => (entry.1, f entry.2)) := by
  have along (table : Table κ α) : (update table pairs).map (fun entry => (entry.1, f entry.2)) =
      update (table.map fun entry => (entry.1, f entry.2)) (pairs.map fun entry => (entry.1, f entry.2)) := by
    induction pairs generalizing table with
    | nil => rfl
    | cons pair pairs ih =>
      refine (ih (table.insert pair.1 pair.2)).trans ?_
      rw [insert_map]
      rfl
  exact along []

theorem nodup_keys_ofPairs (exact : Exact pairs) : (ofPairs pairs).keys.Nodup :=
  nodup_keys_update exact List.nodup_nil

theorem mem_ofPairs {entry : κ × α} (exact : Exact pairs) (member : entry ∈ ofPairs pairs) : entry ∈ pairs := by
  rcases mem_update exact member with none | listed
  · cases none
  · exact listed

theorem values_insert (table : Table κ α) (key : κ) (value : α) :
    ∀ v ∈ (table.insert key value).values, v = value ∨ v ∈ table.values := by
  induction table with
  | nil => simp [insert, values]
  | cons entry rest ih =>
    obtain ⟨here, other⟩ := entry
    by_cases same : Key.same here key = true
    · simp +contextual [insert, same, values]
    · simp only [insert, same, values, Bool.false_eq_true, if_false, List.map_cons, List.mem_cons]
      rintro v (rfl | member)
      · exact Or.inr (Or.inl rfl)
      · exact (ih v member).imp_right Or.inr

theorem values_update (table more : Table κ α) : ∀ v ∈ (table.update more).values, v ∈ table.values ∨ v ∈ more.values := by
  induction more generalizing table with
  | nil => exact fun v member => Or.inl member
  | cons entry more ih =>
    intro v member
    rcases ih (table.insert entry.1 entry.2) v member with before | later
    · rcases values_insert table entry.1 entry.2 v before with rfl | before
      · exact Or.inr List.mem_cons_self
      · exact Or.inl before
    · exact Or.inr (List.mem_cons_of_mem _ later)

theorem values_ofPairs (pairs : List (κ × α)) : ∀ v ∈ (ofPairs pairs).values, v ∈ values pairs :=
  fun v member => (values_update [] pairs v member).resolve_left List.not_mem_nil

theorem value_of_get? {table : Table κ α} {key : κ} {value : α} (found : table.get? key = some value) :
    value ∈ table.values := by
  induction table with
  | nil => cases found
  | cons entry rest ih =>
    obtain ⟨here, other⟩ := entry
    rw [get?] at found
    split at found
    · cases found
      exact List.mem_cons_self
    · exact List.mem_cons_of_mem _ (ih found)

theorem get?_ofPairs {key : κ} {value : α} (exact : Exact pairs) (member : (key, value) ∈ pairs)
    (single : ∀ other, (key, other) ∈ pairs → other = value) : (ofPairs pairs).get? key = some value := by
  have known : Key.Exact key := exact _ member
  have listed : key ∈ (ofPairs pairs).keys := (mem_keys_ofPairs exact).2 (mem_keys_iff.2 ⟨value, member⟩)
  obtain ⟨other, found⟩ := Option.isSome_iff_exists.1 ((has_iff known).2 listed)
  rw [found, single other (mem_ofPairs exact (mem_of_get? known found))]

theorem get?_ofPairs_last {key : κ} {value : α} (exact : Exact pairs) (asked : Key.Exact key) :
    (ofPairs pairs).get? key = some value ↔
      ∃ before after, pairs = before ++ (key, value) :: after ∧ key ∉ keys after := by
  rw [ofPairs, get?_update exact asked]
  simp [get?]

theorem ofPairs_of_nodup (exact : Exact pairs) (distinct : (keys pairs).Nodup) : ofPairs pairs = pairs :=
  update_of_nodup exact distinct

end

end Table
end Conveyor

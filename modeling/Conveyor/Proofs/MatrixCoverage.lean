import Conveyor.Proofs.CombinationKeys

/-! Which keys the combinations of a matrix set. Every key of an included entry is set by some combination, and so is
every axis, unless all combinations of the axes are excluded and no included entry brings the axis back. -/

namespace Conveyor

namespace Matrix

variable {m : Matrix}

def Sets (combinations : List Mapping) (key : Value) : Prop := ∃ c ∈ combinations, key ∈ c.keys

/-- An axis that no combination sets: all combinations of the axes are excluded, and no included entry has it. -/
def Orphaned (m : Matrix) (axis : String) : Prop :=
  m.survivors = [] ∧ .str axis ∈ m.axisKeys ∧ ∀ entry ∈ m.included, .str axis ∉ entry.keys

instance (m : Matrix) (axis : String) : Decidable (m.Orphaned axis) :=
  inferInstanceAs (Decidable (m.survivors = [] ∧ .str axis ∈ m.axisKeys ∧ ∀ entry ∈ m.included, .str axis ∉ entry.keys))

theorem TextKeys.included (texts : m.TextKeys) {entry : Mapping} (member : entry ∈ m.included) : entry.TextKeys :=
  fun field present => texts entry (List.mem_append.2 (Or.inl member)) field present

variable {c : Mapping} {key : Value}

theorem product_keys {axes : Table String (List Value)} (member : c ∈ product axes) :
    c.keys = axes.map fun (axis, _) => .str axis := by
  induction axes generalizing c with
  | nil =>
    cases List.mem_singleton.1 member
    rfl
  | cons axis axes ih =>
    obtain ⟨v, _, member⟩ := List.mem_flatMap.1 member
    obtain ⟨rest, others, rfl⟩ := List.mem_map.1 member
    exact congrArg (_ :: ·) (ih others)

theorem survivors_keys (member : c ∈ m.survivors) : c.keys = m.axisKeys := by
  unfold survivors at member
  split at member
  · cases member
  · exact product_keys (List.mem_filter.1 member).1

theorem merged_keys (member : c ∈ m.merged) (set : key ∈ c.keys) :
    key ∈ m.axisKeys ∨ ∃ entry ∈ m.included, key ∈ entry.keys := by
  refine merged_each (fun c => ∀ key ∈ c.keys, key ∈ m.axisKeys ∨ ∃ entry ∈ m.included, key ∈ entry.keys)
    ?_ ?_ ?_ c member key set
  · intro c survived key set
    exact Or.inl (survivors_keys survived ▸ set)
  · intro entry included key set
    exact Or.inr ⟨entry, included, set⟩
  · intro c known entry included key set
    rcases Table.keys_update_subset set with before | new
    · exact known key before
    · exact Or.inr ⟨entry, included, new⟩

/-- The keys of a combination have a text if those of the included entries have one. -/
theorem merged_written (written : ∀ entry ∈ m.included, ∀ key ∈ entry.keys, key.isUnwritable = false) :
    ∀ c ∈ m.merged, c.keys.any Value.isUnwritable = false := by
  intro c member
  rw [List.any_eq_false]
  intro key set
  rcases merged_keys member set with axis | ⟨entry, included, own⟩
  · obtain ⟨axis, _, rfl⟩ := List.mem_map.1 axis
    exact Bool.false_ne_true
  · exact ne_true_of_eq_false (written entry included key own)

theorem survivors_sets : Sets m.survivors key ↔ m.survivors ≠ [] ∧ key ∈ m.axisKeys := by
  constructor
  · rintro ⟨c, member, set⟩
    rw [survivors_keys member] at set
    exact ⟨List.ne_nil_of_mem member, set⟩
  · rintro ⟨some, axis⟩
    obtain ⟨c, member⟩ := List.exists_mem_of_ne_nil _ some
    exact ⟨c, member, by rwa [survivors_keys member]⟩

theorem extend_sets {state : List Mapping × List Mapping} {entry : Mapping} (texts : entry.TextKeys) :
    Sets ((m.extend state entry).1 ++ (m.extend state entry).2) key ↔
      Sets (state.1 ++ state.2) key ∨ key ∈ entry.keys := by
  obtain ⟨combinations, added⟩ := state
  have grown (c : Mapping) : key ∈ (c.update entry).keys ↔ key ∈ c.keys ∨ key ∈ entry.keys :=
    Table.mem_keys_update texts.exact
  unfold extend Sets
  simp only [List.mem_append]
  split
  next some =>
    obtain ⟨target, listed, fits⟩ := List.any_eq_true.1 some
    constructor
    · rintro ⟨c, extended | kept, set⟩
      · obtain ⟨old, present, rfl⟩ := List.mem_map.1 extended
        split at set
        · rcases (grown old).1 set with before | new
          · exact Or.inl ⟨old, Or.inl present, before⟩
          · exact Or.inr new
        · exact Or.inl ⟨old, Or.inl present, set⟩
      · exact Or.inl ⟨c, Or.inr kept, set⟩
    · rintro (⟨c, present | kept, set⟩ | new)
      · refine ⟨_, Or.inl (List.mem_map_of_mem present), ?_⟩
        split
        · exact (grown c).2 (Or.inl set)
        · exact set
      · exact ⟨c, Or.inr kept, set⟩
      · refine ⟨_, Or.inl (List.mem_map_of_mem listed), ?_⟩
        rw [if_pos fits]
        exact (grown target).2 (Or.inr new)
  next =>
    constructor
    · rintro ⟨c, present | later, set⟩
      · exact Or.inl ⟨c, Or.inl present, set⟩
      · rcases List.mem_append.1 later with kept | last
        · exact Or.inl ⟨c, Or.inr kept, set⟩
        · cases List.mem_singleton.1 last
          exact Or.inr set
    · rintro (⟨c, present | kept, set⟩ | new)
      · exact ⟨c, Or.inl present, set⟩
      · exact ⟨c, Or.inr (List.mem_append.2 (Or.inl kept)), set⟩
      · exact ⟨entry, Or.inr (List.mem_append.2 (Or.inr (List.mem_singleton.2 rfl))), new⟩

theorem merged_sets (texts : m.TextKeys) : Sets m.merged key ↔
    (m.survivors ≠ [] ∧ key ∈ m.axisKeys) ∨ ∃ entry ∈ m.included, key ∈ entry.keys := by
  have along (entries : List Mapping) (texts : ∀ entry ∈ entries, entry.TextKeys)
      (state : List Mapping × List Mapping) :
      Sets ((entries.foldl m.extend state).1 ++ (entries.foldl m.extend state).2) key ↔
        Sets (state.1 ++ state.2) key ∨ ∃ entry ∈ entries, key ∈ entry.keys := by
    induction entries generalizing state with
    | nil => simp
    | cons entry entries ih =>
      obtain ⟨here, rest⟩ := List.forall_mem_cons.1 texts
      rw [List.foldl_cons, ih rest, extend_sets here, or_assoc, List.exists_mem_cons_iff]
  have result := along m.included (fun _ member => texts.included member) (m.survivors, [])
  rw [List.append_nil, survivors_sets] at result
  exact result

theorem mem_keys (texts : m.TextKeys) :
    key ∈ m.keys ↔ key ∈ m.axisKeys ∨ ∃ entry ∈ m.included, key ∈ entry.keys := by
  have along (entries : List Mapping) (texts : ∀ entry ∈ entries, entry.TextKeys) (keys : Table Value Unit) :
      key ∈ (entries.foldl (fun keys entry => keys.update (entry.map fun field => (field.1, ()))) keys).keys ↔
        key ∈ keys.keys ∨ ∃ entry ∈ entries, key ∈ entry.keys := by
    induction entries generalizing keys with
    | nil => simp
    | cons entry entries ih =>
      obtain ⟨here, rest⟩ := List.forall_mem_cons.1 texts
      have named : Table.Exact (entry.map fun field => (field.1, ())) := by
        intro field member
        obtain ⟨source, present, rfl⟩ := List.mem_map.1 member
        exact here.exact source present
      have same : Table.keys (entry.map fun field => (field.1, ())) = entry.keys := List.map_map
      rw [List.foldl_cons, ih rest, Table.mem_keys_update named, same, or_assoc, List.exists_mem_cons_iff]
  have axes : Table.keys (m.axes.map fun axis => (Value.str axis.1, ())) = m.axisKeys := List.map_map
  rw [← axes]
  exact along m.included (fun _ member => texts.included member) _

theorem orphaned_of_unset (texts : m.TextKeys) (listed : key ∈ m.keys) (unset : ¬ Sets m.merged key) :
    ∃ axis, key = .str axis ∧ m.Orphaned axis := by
  rw [merged_sets texts, not_or, not_and, not_exists] at unset
  have axis : key ∈ m.axisKeys := by
    rcases (mem_keys texts).1 listed with axis | ⟨entry, member, set⟩
    · exact axis
    · exact (unset.2 entry ⟨member, set⟩).elim
  obtain ⟨⟨name, values⟩, _, rfl⟩ := List.mem_map.1 axis
  refine ⟨name, rfl, ?_, axis, fun entry member set => unset.2 entry ⟨member, set⟩⟩
  by_contra some
  exact unset.1 some axis

theorem Orphaned.unset (texts : m.TextKeys) {axis : String} (orphaned : m.Orphaned axis) :
    ¬ Sets m.merged (.str axis) := by
  obtain ⟨none, _, absent⟩ := orphaned
  rw [merged_sets texts]
  rintro (⟨some, _⟩ | ⟨entry, member, set⟩)
  · exact some none
  · exact absent entry member set

theorem merged_textKeys (texts : m.TextKeys) (member : c ∈ m.merged) : c.TextKeys := by
  intro field present
  have set : Sets m.merged field.1 := ⟨c, member, List.mem_map_of_mem present⟩
  rcases (merged_sets texts).1 set with ⟨_, axis⟩ | ⟨entry, included, named⟩
  · obtain ⟨⟨name, _⟩, _, same⟩ := List.mem_map.1 axis
    exact ⟨name, same.symm⟩
  · obtain ⟨source, inside, same⟩ := List.mem_map.1 named
    rw [← same]
    exact texts.included included source inside

end Matrix

theorem matrixVariable_inj {a b : String} (same : matrixVariable (.str a) = matrixVariable (.str b)) : a = b := by
  have chars := congrArg String.toList same
  simp only [matrixVariable, String.toList_append] at chars
  exact String.toList_inj.1 (List.append_cancel_left chars)

theorem mem_sharedKeys {a b : List Value} (first : ∀ k ∈ a, ∃ text, k = .str text)
    (second : ∀ k ∈ b, ∃ text, k = .str text) {key : Value} (member : key ∈ sharedKeys a b) : key ∈ a ∧ key ∈ b := by
  have found (keys : List Value) (named : ∃ text, key = .str text) (within : keys.any (·.alike key) = true) :
      key ∈ keys := by
    obtain ⟨text, rfl⟩ := named
    obtain ⟨other, member, alike⟩ := List.any_eq_true.1 within
    rwa [← (Value.str_exact text other).1 alike]
  unfold sharedKeys at member
  dsimp only at member
  split at member
  · obtain ⟨inside, within⟩ := List.mem_filter.1 member
    exact ⟨inside, found b (first key inside) within⟩
  · obtain ⟨inside, within⟩ := List.mem_filter.1 member
    exact ⟨found a (second key inside) within, inside⟩

theorem mem_commonKeys {combinations : List Mapping} (texts : ∀ c ∈ combinations, c.TextKeys) {key : Value}
    (common : key ∈ commonKeys combinations) : ∀ c ∈ combinations, key ∈ c.keys := by
  have along (keys : List Value) (rest : List Mapping) (named : ∀ k ∈ keys, ∃ text, k = .str text)
      (texts : ∀ c ∈ rest, c.TextKeys)
      (member : key ∈ rest.foldl (fun keys combination => sharedKeys keys combination.keys) keys) :
      key ∈ keys ∧ ∀ c ∈ rest, key ∈ c.keys := by
    induction rest generalizing keys with
    | nil => exact ⟨member, List.forall_mem_nil _⟩
    | cons c rest ih =>
      obtain ⟨here, later⟩ := List.forall_mem_cons.1 texts
      have both {k : Value} (member : k ∈ sharedKeys keys c.keys) : k ∈ keys ∧ k ∈ c.keys :=
        mem_sharedKeys named here.keys member
      obtain ⟨inside, others⟩ := ih _ (fun k member => named k (both member).1) later member
      exact ⟨(both inside).1, List.forall_mem_cons.2 ⟨(both inside).2, others⟩⟩
  cases combinations with
  | nil => exact List.forall_mem_nil _
  | cons first rest =>
    obtain ⟨here, later⟩ := List.forall_mem_cons.1 texts
    exact List.forall_mem_cons.2 (along first.keys rest here.keys later common)

end Conveyor

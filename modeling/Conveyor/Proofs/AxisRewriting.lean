import Conveyor.Proofs.MatrixExpansion

/-! What merging does to the axes. An included entry is merged into a combination whose axes have equal values, and puts
its own in their place. Numbers and booleans of equal worth are equal, so the value of an axis can change its kind and its
text. It stays exactly if the last entry that sets the axis spells the value in the same way. -/

namespace Conveyor

namespace Table

variable {κ α : Type} [Key κ]

theorem get?_foldl_update {entries : List (Table κ α)} (exact : ∀ entry ∈ entries, entry.Exact)
    (distinct : ∀ entry ∈ entries, entry.keys.Nodup) {key : κ} (asked : Key.Exact key) (table : Table κ α) :
    (entries.foldl update table).get? key = (entries.reverse.findSome? (·.get? key)).or (table.get? key) := by
  induction entries generalizing table with
  | nil => rfl
  | cons entry entries ih =>
    obtain ⟨here, rest⟩ := List.forall_mem_cons.1 exact
    obtain ⟨single, others⟩ := List.forall_mem_cons.1 distinct
    rw [List.foldl_cons, ih rest others, get?_update_of_nodup here single asked, List.reverse_cons, List.findSome?_append,
      Option.or_assoc]
    simp

theorem keys_foldl_update (entries : List (Table κ α)) (table : Table κ α) :
    table.keys <+: (entries.foldl update table).keys := by
  induction entries generalizing table with
  | nil => exact List.prefix_rfl
  | cons entry entries ih => exact (keys_update_begins table entry).trans (ih (table.update entry))

/-- A table starts with another one if it starts with its keys and has its values. -/
theorem take_eq_iff {table first : Table κ α} (keys : first.keys <+: table.keys) (distinct : table.keys.Nodup)
    (exact : first.Exact) : table.take first.length = first ↔ ∀ entry ∈ first, table.get? entry.1 = some entry.2 := by
  constructor
  · intro start entry member
    refine get?_of_mem distinct (exact entry member) (List.mem_of_mem_take (i := first.length) ?_)
    rwa [start]
  · intro found
    obtain ⟨more, whole⟩ := keys
    have size : first.length + more.length = table.length := by simpa [Table.keys] using congrArg List.length whole
    apply List.ext_getElem
    · rw [List.length_take]
      omega
    · intro i _ inside
      rw [List.getElem_take]
      have key : table[i].1 = first[i].1 := by
        have same := congrArg (fun keys => keys[i]?) whole
        simpa [Table.keys, List.getElem?_append_left, inside, show i < table.length by omega] using same.symm
      have member := mem_of_get? (exact _ (List.getElem_mem inside)) (found _ (List.getElem_mem inside))
      exact List.inj_on_of_nodup_map distinct (List.getElem_mem _) member key

end Table

namespace Matrix

variable {m : Matrix} {t : Mapping}

/-- What the last of the entries that are merged into a combination, and set an axis, sets it to. -/
def setLast (entries : List Mapping) (t : Mapping) (axis : Value) : Option Value :=
  (entries.filter fun entry => Admits t entry).reverse.findSome? (·.get? axis)

theorem get?_grown (regular : m.Regular) (axis : String) (t : Mapping) :
    (grown m.included t).get? (.str axis) = (setLast m.included t (.str axis)).or (t.get? (.str axis)) := by
  have listed {entry : Mapping} (member : entry ∈ m.included.filter fun entry => Admits t entry) : entry ∈ m.included :=
    (List.mem_filter.1 member).1
  exact Table.get?_foldl_update (fun entry member => (regular.texts.included (listed member)).exact)
    (fun entry member => regular.entries entry (List.mem_append_left _ (listed member))) (Value.str_exact axis) t

/-- Only a value that equals the one that is there is ever put in its place. -/
theorem setLast_same {axis : String} {v w : Value} (set : setLast m.included t (.str axis) = some v)
    (own : (.str axis, w) ∈ t) : w.same v = true := by
  obtain ⟨entry, member, found⟩ := List.exists_of_findSome?_eq_some set
  obtain ⟨_, admits⟩ := List.mem_filter.1 (List.mem_reverse.1 member)
  exact of_decide_eq_true admits _ (Table.mem_of_get? (Value.str_exact axis) found) _ own rfl

theorem axis_of_mem (keys : t.keys = m.axisKeys) {field : Value × Value} (member : field ∈ t) : field.1 ∈ m.axisKeys := by
  rw [← keys]
  exact List.mem_map_of_mem member

section

variable (regular : m.Regular) (keys : t.keys = m.axisKeys)
include regular keys

theorem get?_grown_axis {field : Value × Value} (member : field ∈ t) :
    (grown m.included t).get? field.1 = some ((setLast m.included t field.1).getD field.2) := by
  have axis := axis_of_mem keys member
  have own := Table.get?_of_mem (keys ▸ regular.axisKeys) (axisKeys_exact axis) member
  obtain ⟨⟨text, _⟩, _, named⟩ := List.mem_map.1 axis
  rw [← named] at own ⊢
  rw [get?_grown regular, own]
  cases setLast m.included t (.str text) <;> rfl

theorem grown_axes {field : Value × Value} (member : field ∈ t) :
    ∃ v, (grown m.included t).get? field.1 = some v ∧ (v = field.2 ∨ field.2.same v = true) := by
  refine ⟨_, get?_grown_axis regular keys member, ?_⟩
  obtain ⟨key, w⟩ := field
  obtain ⟨⟨text, _⟩, _, rfl⟩ := List.mem_map.1 (axis_of_mem keys member)
  cases set : setLast m.included t (.str text) with
  | none => exact .inl rfl
  | some v => exact .inr (setLast_same set member)

theorem grown_take_iff (distinct : (grown m.included t).keys.Nodup) : (grown m.included t).take t.length = t ↔
    ∀ field ∈ t, ∀ v, setLast m.included t field.1 = some v → v = field.2 := by
  have exact : t.Exact := fun field member => axisKeys_exact (axis_of_mem keys member)
  have start : t.keys <+: (grown m.included t).keys := Table.keys_foldl_update _ t
  rw [Table.take_eq_iff start distinct exact]
  apply forall₂_congr
  intro field member
  rw [get?_grown_axis regular keys member, Option.some.injEq]
  cases setLast m.included t field.1 <;> simp

end

end Matrix

/-- A combination of the axes that no excluded entry agrees with comes back in its place with the axes in front, each with
an equal value. The values are the very ones, and name the job in the same way, exactly if for no axis the last entry that
was merged and sets it gives another one. -/
theorem Stage.axes_kept_iff {s : Stage} (regular : s.ownMatrix.Regular) {found tuples : List Mapping}
    (accepted : s.combinations = .ok found) (enumerated : Matrix.Enumerates s.ownMatrix.axes tuples) {i : Nat} {t : Mapping}
    (place : (tuples.filter fun t => ∀ entry ∈ s.ownMatrix.excluded, ¬ Matrix.Agrees t entry)[i]? = some t) :
    ∃ c, found[i]? = some c ∧ t.keys <+: c.keys ∧
      (∀ field ∈ t, ∃ v, c.get? field.1 = some v ∧ (v = field.2 ∨ field.2.same v = true)) ∧
      (c.take t.length = t ↔
        ∀ field ∈ t, ∀ v, Matrix.setLast s.ownMatrix.included t field.1 = some v → v = field.2) ∧
      (c.take t.length = t → (Assignment.parts c).take t.length = Assignment.parts t) := by
  cases enumerated.unique (Matrix.product_enumerates _)
  have keys : t.keys = s.ownMatrix.axisKeys := Matrix.product_keys (List.mem_filter.1 (List.mem_of_getElem? place)).1
  have parts (c : Mapping) (start : c.take t.length = t) : (Assignment.parts c).take t.length = Assignment.parts t := by
    rw [Assignment.parts, ← List.map_take, start]
    rfl
  by_cases none : s.ownMatrix.axes = []
  · -- Without axes there is only the empty combination, which is where every combination starts.
    have empty : t = [] := by simpa [Table.keys, Matrix.axisKeys, none] using keys
    subst empty
    have first : i = 0 := by
      obtain ⟨inside, _⟩ := List.getElem?_eq_some_iff.1 place
      have single := inside.trans_le (List.length_filter_le _ _)
      rw [none] at single
      exact Nat.lt_one_iff.1 single
    obtain ⟨c, rest, rfl⟩ := List.exists_cons_of_ne_nil (Stage.combinations_nonempty accepted)
    exact ⟨c, first ▸ rfl, List.nil_prefix, List.forall_mem_nil _, by simp, parts c⟩
  · rw [s.combinations_eq, Fallible.mapError_ok] at accepted
    rcases Matrix.combinations_ok accepted with ⟨axes, _⟩ | ⟨scalars, rfl, _⟩
    · exact (none axes).elim
    have scalars := Matrix.nonScalars_nil.1 scalars
    have there : s.ownMatrix.merged[i]? = some (Matrix.grown s.ownMatrix.included t) := by
      obtain ⟨inside, _⟩ := List.getElem?_eq_some_iff.1 place
      rw [Matrix.merged_eq regular scalars, Matrix.survivors_eq regular, if_neg none,
        List.getElem?_append_left (by simpa using inside), List.getElem?_map, place]
      rfl
    have distinct := (Matrix.merged_keyed regular scalars _ (List.mem_of_getElem? there)).distinct
    exact ⟨_, there, Table.keys_foldl_update _ t, fun _ => Matrix.grown_axes regular keys,
      Matrix.grown_take_iff regular keys distinct, parts _⟩

/-- A matrix in which nothing is wrong and no number too long gives its merged combinations. -/
theorem Matrix.combinations_merged {m : Matrix} (regular : m.Regular) (axes : m.axes ≠ []) (scalars : m.Scalars)
    (filled : ∀ axis ∈ m.axes, axis.2 ≠ []) (inside : ∀ entry ∈ m.excluded, ∀ key ∈ entry.keys, key ∈ m.axisKeys)
    (some : m.merged ≠ []) (short : ∀ c ∈ m.merged, ¬ Overlong c) (apart : m.merged.Pairwise fun c d => ¬ Twins c d) :
    m.combinations = .ok m.merged := by
  have outcome := combinations_outcome regular (merged_describes regular scalars fun bare => axes bare.1)
  generalize m.combinations = result at outcome ⊢
  cases outcome with
  | expanded => rfl
  | refused _ wrong _ =>
    exact (wrong.twice (fun bare => axes bare.1) filled scalars inside some apart).elim
  | broken long =>
    obtain ⟨_, before, c, after, split, _, overlong⟩ := long.overlong scalars
    exact (short c (split ▸ List.mem_append_right _ List.mem_cons_self) overlong).elim

/-- Two versions, and an entry for the first of them in a spelling of its own. -/
def versioned (first : Value) : Stage :=
  { name := "build", steps := []
    matrix := some
      { axes := [("py", [.int 1, .int 2])], included := [[(.str "py", first), (.str "slow", .null)]] } }

def versionedCombinations (first : Value) : List Mapping :=
  [[(.str "py", first), (.str "slow", .null)], [(.str "py", .int 2)]]

theorem versioned_regular (first : Value) : (versioned first).ownMatrix.Regular := by
  refine ⟨?_, List.nodup_singleton _, ?_⟩
  · intro entry member field present
    cases List.mem_singleton.1 member
    rcases List.mem_pair.1 present with rfl | rfl <;> exact ⟨_, rfl⟩
  · intro entry member
    cases List.mem_singleton.1 member
    simp [Table.keys]

theorem versioned_combinations {first : Value} (equal : first ∈ [.int 1, .bool true]) :
    (versioned first).combinations = .ok (versionedCombinations first) := by
  have merged : (versioned first).ownMatrix.merged = versionedCombinations first := by
    rcases List.mem_pair.1 equal with rfl | rfl <;> decide +kernel
  have done : (versioned first).ownMatrix.combinations = .ok (versioned first).ownMatrix.merged := by
    refine Matrix.combinations_merged (versioned_regular first) (List.cons_ne_nil _ _) ?_ ?_ ?_ ?_ ?_ ?_
    all_goals rcases List.mem_pair.1 equal with rfl | rfl
    all_goals first | decide +kernel | (unfold Matrix.Scalars; decide) | (unfold Matrix.Overlong; decide +kernel)
  rw [(versioned first).combinations_eq, done, merged]
  rfl

theorem first_version_kept :
    ∃ c, (versionedCombinations (.int 1))[0]? = some c ∧ c.take 1 = [(.str "py", .int 1)] := by
  obtain ⟨c, there, _, _, kept, _⟩ := Stage.axes_kept_iff (versioned_regular _)
    (versioned_combinations List.mem_cons_self) (Matrix.product_enumerates _) (i := 0) (t := [(.str "py", .int 1)])
    (by decide +kernel)
  exact ⟨c, there, kept.2 (by decide +kernel)⟩

/-- The number becomes a boolean, and the job is named after it. -/
theorem first_version_rewritten :
    (versioned (.bool true)).combinations = .ok (versionedCombinations (.bool true)) ∧
      (Matrix.product (versioned (.bool true)).ownMatrix.axes)[0]? = some [(.str "py", .int 1)] ∧
      (versionedCombinations (.bool true))[0]?.map Assignment.qualifier = some "py=True,slow=None" :=
  ⟨versioned_combinations (by decide), by decide +kernel, by decide +kernel⟩

end Conveyor

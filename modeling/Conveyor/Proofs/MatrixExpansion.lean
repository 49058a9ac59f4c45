import Conveyor.Proofs.MatrixDeclaration

/-! The expansion of a matrix returns the combinations that the matrix declares, or complains that it has none to return.
There is one exception. The texts of values are written in the complaint about values that are no scalars, and to tell
combinations apart; where that comes to a whole number with too many digits, the expansion breaks off. -/

namespace Conveyor

namespace Matrix

def spelling (c : Mapping) : List (Value × String) := c.map fun field => (field.1, field.2.text)

def Twins (c d : Mapping) : Prop := ∀ pair, pair ∈ spelling c ↔ pair ∈ spelling d

instance (c d : Mapping) : Decidable (Twins c d) :=
  decidable_of_iff (∀ pair ∈ spelling c ++ spelling d, pair ∈ spelling c ↔ pair ∈ spelling d)
    ⟨fun alike pair => ⟨fun here => (alike pair (List.mem_append.2 (Or.inl here))).1 here,
      fun there => (alike pair (List.mem_append.2 (Or.inr there))).2 there⟩, fun twins pair _ => twins pair⟩

/-- A combination has a number with too many digits to be written. -/
def Overlong (c : Mapping) : Prop := ∃ field ∈ c, field.2.isUnwritable = true

/-- Why a matrix that declares some combinations is refused. -/
inductive Refuses (m : Matrix) (found : List Mapping) : Prop
  | onlyExcludes (axes : m.axes = []) (included : m.included = []) (excluded : m.excluded ≠ [])
  | emptyAxis (axis : String × List Value) (member : axis ∈ m.axes) (empty : axis.2 = [])
  | nonScalar (v : Value) (member : v ∈ m.values) (other : isPlain v = false)
  | unknownAxis (entry : Mapping) (member : entry ∈ m.excluded) (key : Value) (present : key ∈ entry.keys)
      (unknown : key ∉ m.axisKeys)
  | noCombination (empty : found = [])
  | repeated (twice : ¬ found.Pairwise fun c d => ¬ Twins c d)

/-- A number with too many digits is to be written, and nothing is found wrong before. -/
structure BreaksOff (m : Matrix) (found : List Mapping) : Prop where
  declared : ¬ (m.axes = [] ∧ m.included = [])
  filled : ∀ axis ∈ m.axes, axis.2 ≠ []
  number : (∃ v ∈ m.values, isPlain v = false ∧ v.isUnwritable = true) ∨
    (m.Scalars ∧ (∀ entry ∈ m.excluded, ∀ key ∈ entry.keys, key ∈ m.axisKeys) ∧
      ∃ before c after, found = before ++ c :: after ∧ before.Pairwise (fun c d => ¬ Twins c d) ∧ Overlong c)

variable {m : Matrix} {c d : Mapping}

/-! ### Telling combinations apart -/

/-- The keys of a combination are texts, and none comes twice. -/
structure Keyed (c : Mapping) : Prop where
  texts : c.TextKeys
  distinct : c.keys.Nodup

theorem texts_map {keys : List Value} (texts : ∀ key ∈ keys, ∃ text, key = .str text) :
    ∃ names : List String, keys = names.map Value.str := by
  induction keys with
  | nil => exact ⟨[], rfl⟩
  | cons key keys ih =>
    obtain ⟨⟨name, rfl⟩, others⟩ := List.forall_mem_cons.1 texts
    obtain ⟨names, rfl⟩ := ih others
    exact ⟨name :: names, rfl⟩

theorem texts_written {keys : List Value} (texts : ∀ key ∈ keys, ∃ text, key = .str text) :
    ¬ keys.any Value.isUnwritable = true := by
  rw [List.any_eq_true]
  rintro ⟨key, member, long⟩
  obtain ⟨text, rfl⟩ := texts key member
  cases long

theorem sorted_texts (names : List String) :
    Value.sorted (names.map Value.str) = .ok ((names.mergeSort Text.le).map Value.str) := by
  have ordered (before : List String) : Value.unordered? (before.map Value.str) (names.map Value.str) = none := by
    induction names generalizing before with
    | nil => rfl
    | cons first rest ih =>
      have here : (before.map Value.str).findSome? (Value.str first).orderFault? = none := by
        rw [List.findSome?_eq_none_iff, List.forall_mem_map]
        intro name _
        rfl
      rw [List.map_cons, Value.unordered?, here]
      exact ih (first :: before)
  have ordered : Value.unordered? [] (names.map Value.str) = none := ordered []
  rw [Value.sorted, ordered, List.map_mergeSort]
  intro a _ b _
  rfl

theorem Keyed.marker (keyed : Keyed c) (short : ¬ Overlong c) :
    ∃ found, Matrix.marker c = .ok found ∧ found.Perm (spelling c) ∧ found.Pairwise fun a b => Value.le a.1 b.1 = true := by
  obtain ⟨names, keys⟩ := texts_map keyed.texts.keys
  have writable : (c.any fun field => field.2.isUnwritable) = false := by
    rw [← Bool.not_eq_true, List.any_eq_true]
    exact short
  have spelled : spelling c = (names.map Value.str).map fun key => (key, ((c.get? key).getD .null).text) := by
    rw [← keys, spelling, Table.keys, List.map_map]
    apply List.map_congr_left
    intro field member
    rw [Function.comp_apply, Table.get?_of_mem keyed.distinct (keyed.texts.exact field member) member]
    rfl
  refine ⟨((names.mergeSort Text.le).map Value.str).map fun key => (key, ((c.get? key).getD .null).text), ?_, ?_, ?_⟩
  · unfold Matrix.marker
    rw [writable, keys, sorted_texts]
    rfl
  · rw [spelled]
    exact ((List.mergeSort_perm names Text.le).map _).map _
  · rw [List.pairwise_map, List.pairwise_map]
    change (names.mergeSort Text.le).Pairwise fun a b => Text.le a b = true
    apply List.pairwise_mergeSort
    · intro a b c
      exact Text.le_trans
    · exact Text.le_total

theorem marker_overlong (long : Overlong c) : marker c = .error .unwritable := by
  have unwritable : (c.any fun field => field.2.isUnwritable) = true := List.any_eq_true.2 long
  unfold marker
  rw [unwritable]
  rfl

theorem sameMarker_iff {a b : List (Value × String)} (texts : ∀ pair ∈ b, ∃ text, pair.1 = .str text) :
    sameMarker a b = true ↔ a = b := by
  induction a generalizing b with
  | nil => cases b <;> simp [sameMarker]
  | cons first a ih =>
    cases b with
    | nil => simp [sameMarker]
    | cons second b =>
      obtain ⟨⟨text, key⟩, others⟩ := List.forall_mem_cons.1 texts
      obtain ⟨k, s⟩ := first
      obtain ⟨l, t⟩ := second
      cases key
      have same : k.alike (.str text) = true ↔ k = .str text := Value.str_exact text k
      simp only [sameMarker, Bool.and_eq_true, same, beq_iff_eq, ih others, List.cons.injEq, Prod.mk.injEq]

theorem Keyed.twins_iff {a b : List (Value × String)} (first : Keyed c) (second : Keyed d)
    (left : Matrix.marker c = .ok a) (right : Matrix.marker d = .ok b) (short : ¬ Overlong c ∧ ¬ Overlong d) :
    sameMarker a b = true ↔ Twins c d := by
  obtain ⟨_, found, perm, sorted⟩ := first.marker short.1
  cases left.symm.trans found
  obtain ⟨_, found, perm', sorted'⟩ := second.marker short.2
  cases right.symm.trans found
  have keys {c : Mapping} : (spelling c).map Prod.fst = c.keys := by
    rw [spelling, List.map_map]
    rfl
  have nodup {c : Mapping} (keyed : Keyed c) : (spelling c).Nodup := by
    apply List.Nodup.of_map Prod.fst
    rw [keys]
    exact keyed.distinct
  have texts : ∀ pair ∈ b, ∃ text, pair.1 = .str text := by
    intro pair member
    apply second.texts.keys
    rw [← keys]
    exact List.mem_map_of_mem (perm'.mem_iff.1 member)
  rw [sameMarker_iff texts]
  constructor
  · rintro rfl pair
    rw [← perm.mem_iff, perm'.mem_iff]
  · intro twins
    have same : a.Perm b :=
      perm.trans (((List.perm_ext_iff_of_nodup (nodup first) (nodup second)).2 twins).trans perm'.symm)
    refine same.eq_of_pairwise ?_ sorted sorted'
    intro p q inFirst inSecond below above
    have here := perm.mem_iff.1 inFirst
    have there := (twins q).2 (perm'.mem_iff.1 inSecond)
    obtain ⟨x, left⟩ := first.texts.keys p.1 (keys ▸ List.mem_map_of_mem here)
    obtain ⟨y, right⟩ := first.texts.keys q.1 (keys ▸ List.mem_map_of_mem there)
    rw [left, right] at below above
    cases Text.le_antisymm below above
    apply List.inj_on_of_nodup_map _ here there (left.trans right.symm)
    rw [keys]
    exact first.distinct

/-- What the search for repeated combinations finds. -/
inductive Search (found : List Mapping) : Except MatrixFault Unit → Prop
  | clear (short : ∀ c ∈ found, ¬ Overlong c) (apart : found.Pairwise fun c d => ¬ Twins c d) : Search found (.ok ())
  | twice (before : List Mapping) (c : Mapping) (after : List Mapping) (split : found = before ++ c :: after)
      (short : ∀ d ∈ before ++ [c], ¬ Overlong d) (again : ∃ d ∈ before, Twins d c) :
      Search found (.error (.duplicate c))
  | broken (before : List Mapping) (c : Mapping) (after : List Mapping) (split : found = before ++ c :: after)
      (apart : before.Pairwise fun c d => ¬ Twins c d) (long : Overlong c) :
      Search found (.error (.unusable .unwritable))

/-- The marks that are known once one more combination has been looked at. -/
theorem marks_cons {before : List Mapping} {seen : List (List (Value × String))} {mark : List (Value × String)}
    (listed : ∀ mark, mark ∈ seen ↔ ∃ d ∈ before, marker d = .ok mark) (marked : marker c = .ok mark)
    (other : List (Value × String)) : other ∈ mark :: seen ↔ ∃ d ∈ before ++ [c], marker d = .ok other := by
  simp only [List.mem_cons, listed, List.mem_append, List.mem_nil_iff, or_false]
  constructor
  · rintro (rfl | ⟨d, present, marked'⟩)
    · exact ⟨c, Or.inr rfl, marked⟩
    · exact ⟨d, Or.inl present, marked'⟩
  · rintro ⟨d, present | rfl, marked'⟩
    · exact Or.inr ⟨d, present, marked'⟩
    · exact Or.inl (Except.ok.inj (marked'.symm.trans marked))

theorem checkDistinct_spec {before rest : List Mapping} {seen : List (List (Value × String))}
    (keyed : ∀ c ∈ before ++ rest, Keyed c) (short : ∀ c ∈ before, ¬ Overlong c)
    (apart : before.Pairwise fun c d => ¬ Twins c d)
    (listed : ∀ mark, mark ∈ seen ↔ ∃ c ∈ before, marker c = .ok mark) :
    Search (before ++ rest) (checkDistinct seen rest) := by
  induction rest generalizing before seen with
  | nil =>
    rw [List.append_nil]
    exact .clear short apart
  | cons c rest ih =>
    have here := keyed c (List.mem_append.2 (Or.inr List.mem_cons_self))
    unfold checkDistinct
    by_cases long : Overlong c
    · rw [marker_overlong long]
      exact .broken before c rest rfl apart long
    obtain ⟨mark, found, _⟩ := here.marker long
    have known : seen.any (sameMarker mark) = true ↔ ∃ d ∈ before, Twins d c := by
      rw [List.any_eq_true]
      constructor
      · rintro ⟨other, member, same⟩
        obtain ⟨d, present, marked⟩ := (listed other).1 member
        refine ⟨d, present, ?_⟩
        have twins := (here.twins_iff (keyed d (List.mem_append.2 (Or.inl present))) found marked
          ⟨long, short d present⟩).1 same
        exact fun pair => (twins pair).symm
      · rintro ⟨d, present, twins⟩
        have there := keyed d (List.mem_append.2 (Or.inl present))
        obtain ⟨other, marked, _⟩ := there.marker (short d present)
        refine ⟨other, (listed other).2 ⟨d, present, marked⟩, ?_⟩
        exact (here.twins_iff there found marked ⟨long, short d present⟩).2 fun pair => (twins pair).symm
    have shorter : ∀ d ∈ before ++ [c], ¬ Overlong d := by
      intro d member
      rcases List.mem_append.1 member with present | last
      · exact short d present
      · cases List.mem_singleton.1 last
        exact long
    rw [found]
    dsimp only
    split
    next repeated =>
      rw [if_neg (texts_written here.texts.keys)]
      exact .twice before c rest rfl shorter (known.1 repeated)
    next fresh =>
      rw [← List.singleton_append, ← List.append_assoc]
      apply ih
      · simpa using keyed
      · exact shorter
      · rw [List.pairwise_append]
        refine ⟨apart, List.pairwise_singleton _ _, ?_⟩
        intro d present c' last twins
        cases List.mem_singleton.1 last
        exact fresh (known.2 ⟨d, present, twins⟩)
      · exact marks_cons listed found

theorem checkExcluded_spec (texts : m.TextKeys) {entries : List Mapping} (listed : ∀ entry ∈ entries, entry ∈ m.excluded) :
    ((∀ entry ∈ entries, ∀ key ∈ entry.keys, key ∈ m.axisKeys) ∧ m.checkExcluded entries = .ok ()) ∨
      ((∃ entry ∈ entries, ∃ key ∈ entry.keys, key ∉ m.axisKeys) ∧
        ∃ unknown, m.checkExcluded entries = .error (.unknownAxes unknown)) := by
  induction entries with
  | nil => exact Or.inl ⟨List.forall_mem_nil _, rfl⟩
  | cons entry entries ih =>
    obtain ⟨here, others⟩ := List.forall_mem_cons.1 listed
    have named : entry.TextKeys := fun field => texts entry (List.mem_append.2 (Or.inr here)) field
    have axis : ∀ key ∈ entry.keys, m.isAxis key = true ↔ key ∈ m.axisKeys := by
      intro key member
      obtain ⟨text, rfl⟩ := named.keys key member
      exact isAxis_iff
    unfold checkExcluded
    split
    next none =>
      rw [List.filter_eq_nil_iff] at none
      have inside : ∀ key ∈ entry.keys, key ∈ m.axisKeys := fun key member =>
        (axis key member).1 (by simpa using none key member)
      rcases ih others with ⟨all, done⟩ | ⟨⟨entry', later, outside⟩, refused⟩
      · exact Or.inl ⟨List.forall_mem_cons.2 ⟨inside, all⟩, done⟩
      · exact Or.inr ⟨⟨entry', List.mem_cons_of_mem _ later, outside⟩, refused⟩
    next some =>
      obtain ⟨key, member⟩ := List.exists_mem_of_ne_nil _ some
      obtain ⟨present, unknown⟩ := List.mem_filter.1 member
      obtain ⟨names, all⟩ := texts_map (fun key member => named.keys key (List.mem_filter.1 member).1)
      refine Or.inr ⟨⟨entry, List.mem_cons_self, key, present, ?_⟩, ?_⟩
      · rw [← axis key present]
        simpa using unknown
      · rw [all, sorted_texts]
        refine ⟨_, if_neg (texts_written ?_)⟩
        intro key member
        obtain ⟨text, _, rfl⟩ := List.mem_map.1 member
        exact ⟨text, rfl⟩

/-! ### How an expansion ends -/

theorem mem_nonScalars {v : Value} :
    (∃ place key, (place, key, v) ∈ m.nonScalars) ↔ v ∈ m.values ∧ isPlain v = false := by
  simp only [nonScalars, nonScalarEntries, values, Table.values, List.mem_append, List.mem_flatMap, List.mem_map,
    List.mem_filter, Bool.not_eq_true']
  constructor
  · rintro ⟨place, key, (⟨axis, member, w, ⟨present, other⟩, same⟩ | ⟨entry, member, field, ⟨present, other⟩, same⟩) |
      ⟨entry, member, field, ⟨present, other⟩, same⟩⟩
    · cases same
      exact ⟨Or.inl ⟨axis, member, present⟩, other⟩
    · cases same
      exact ⟨Or.inr ⟨entry, Or.inl member, field, present, rfl⟩, other⟩
    · cases same
      exact ⟨Or.inr ⟨entry, Or.inr member, field, present, rfl⟩, other⟩
  · rintro ⟨⟨axis, member, present⟩ | ⟨entry, member | member, field, present, rfl⟩, other⟩
    · exact ⟨_, _, Or.inl (Or.inl ⟨axis, member, v, ⟨present, other⟩, rfl⟩)⟩
    · exact ⟨_, _, Or.inl (Or.inr ⟨entry, member, field, ⟨present, other⟩, rfl⟩)⟩
    · exact ⟨_, _, Or.inr ⟨entry, member, field, ⟨present, other⟩, rfl⟩⟩

theorem nonScalars_written (texts : m.TextKeys) {place : String} {key v : Value} (listed : (place, key, v) ∈ m.nonScalars) :
    key.isUnwritable = false := by
  simp only [nonScalars, nonScalarEntries, List.mem_append, List.mem_flatMap, List.mem_map, List.mem_filter] at listed
  rcases listed with (⟨axis, _, w, _, same⟩ | ⟨entry, member, field, ⟨present, _⟩, same⟩) |
    ⟨entry, member, field, ⟨present, _⟩, same⟩
  · cases same
    rfl
  · cases same
    obtain ⟨text, named⟩ := texts entry (List.mem_append.2 (Or.inl member)) field present
    rw [named]
    rfl
  · cases same
    obtain ⟨text, named⟩ := texts entry (List.mem_append.2 (Or.inr member)) field present
    rw [named]
    rfl

theorem nonScalars_nil : m.nonScalars = [] ↔ m.Scalars := by
  constructor
  · intro none v member
    by_contra other
    obtain ⟨place, key, listed⟩ := mem_nonScalars.2 ⟨member, Bool.not_eq_true _ ▸ other⟩
    rw [none] at listed
    cases listed
  · intro scalars
    rw [List.eq_nil_iff_forall_not_mem]
    rintro ⟨place, key, v⟩ listed
    obtain ⟨member, other⟩ := mem_nonScalars.1 ⟨place, key, listed⟩
    cases other.symm.trans (scalars v member)

theorem merged_keyed (regular : m.Regular) (scalars : m.Scalars) : ∀ c ∈ m.merged, Keyed c := by
  intro c member
  refine ⟨merged_textKeys regular.texts member, ?_⟩
  rw [merged_eq regular scalars, List.mem_append] at member
  rcases member with extended | added
  · obtain ⟨tuple, survived, rfl⟩ := List.mem_map.1 extended
    have along (entries : List Mapping) (d : Mapping) (distinct : d.keys.Nodup)
        (listed : ∀ entry ∈ entries, entry ∈ m.included) : (entries.foldl Table.update d).keys.Nodup := by
      induction entries generalizing d with
      | nil => exact distinct
      | cons entry entries ih =>
        obtain ⟨here, others⟩ := List.forall_mem_cons.1 listed
        exact ih _ (Table.nodup_keys_update (regular.texts.included here).exact distinct) others
    apply along
    · rw [survivors_keys survived]
      exact regular.axisKeys
    · intro entry inside
      exact (List.mem_filter.1 inside).1
  · exact regular.entries c (List.mem_append.2 (Or.inl (List.mem_filter.1 added).1))

variable {found : List Mapping}

/-- How the expansion of a matrix ends that declares some combinations. -/
inductive Outcome (m : Matrix) (found : List Mapping) : Except MatrixFault (List Mapping) → Prop
  | expanded (sound : ¬ m.Refuses found) (short : ¬ m.BreaksOff found) : Outcome m found (.ok found)
  | refused {fault : MatrixFault} (named : ∀ f, fault ≠ .unusable f) (wrong : m.Refuses found)
      (short : ¬ m.BreaksOff found) : Outcome m found (.error fault)
  | broken (long : m.BreaksOff found) : Outcome m found (.error (.unusable .unwritable))

/-- If nothing is wrong with what a matrix declares, it is refused only for combinations that are spelled alike. -/
theorem Refuses.twice (wrong : m.Refuses found) (declared : ¬ (m.axes = [] ∧ m.included = []))
    (filled : ∀ axis ∈ m.axes, axis.2 ≠ []) (scalars : m.Scalars)
    (inside : ∀ entry ∈ m.excluded, ∀ key ∈ entry.keys, key ∈ m.axisKeys) (some : found ≠ []) :
    ¬ found.Pairwise fun c d => ¬ Twins c d := by
  rcases wrong with ⟨axes, included, _⟩ | ⟨axis, member, empty⟩ | ⟨v, member, other⟩ |
    ⟨entry, member, key, present, unknown⟩ | empty | twice
  · exact (declared ⟨axes, included⟩).elim
  · exact (filled axis member empty).elim
  · cases other.symm.trans (scalars v member)
  · exact (unknown (inside entry member key present)).elim
  · exact (some empty).elim
  · exact twice

/-- Among scalars it is a combination that has the number with too many digits. -/
theorem BreaksOff.overlong (long : m.BreaksOff found) (scalars : m.Scalars) :
    (∀ entry ∈ m.excluded, ∀ key ∈ entry.keys, key ∈ m.axisKeys) ∧
      ∃ before c after, found = before ++ c :: after ∧ before.Pairwise (fun c d => ¬ Twins c d) ∧ Overlong c := by
  rcases long.number with ⟨v, member, other, _⟩ | ⟨_, overlong⟩
  · cases other.symm.trans (scalars v member)
  · exact overlong

/-- Combinations of scalars come out as declared unless two of them are spelled alike or a number is too long. -/
theorem Search.outcome {result : Except MatrixFault Unit} (search : Search found result)
    (declared : ¬ (m.axes = [] ∧ m.included = [])) (filled : ∀ axis ∈ m.axes, axis.2 ≠ []) (scalars : m.Scalars)
    (inside : ∀ entry ∈ m.excluded, ∀ key ∈ entry.keys, key ∈ m.axisKeys) (some : found ≠ []) :
    m.Outcome found (result.map fun _ => found) := by
  have breaks : m.BreaksOff found ↔ ∃ before c after, found = before ++ c :: after ∧
      before.Pairwise (fun c d => ¬ Twins c d) ∧ Overlong c :=
    ⟨fun long => (long.overlong scalars).2, fun long => ⟨declared, filled, Or.inr ⟨scalars, inside, long⟩⟩⟩
  cases search with
  | clear short apart =>
    refine .expanded (fun wrong => wrong.twice declared filled scalars inside some apart) ?_
    rw [breaks]
    rintro ⟨before, c, after, rfl, _, long⟩
    exact short c (by simp) long
  | twice before c after split short again =>
    obtain ⟨d, present, twins⟩ := again
    -- what comes after the second of two twins is not reached
    have reached {b a : List Mapping} {x : Mapping} (other : before ++ c :: after = b ++ x :: a)
        (apart : b.Pairwise fun c d => ¬ Twins c d) (long : Overlong x) : False := by
      have later : x ∉ before ++ [c] := fun member => short x member long
      rcases List.append_eq_append_iff.1 other with ⟨between, rfl, rest⟩ | ⟨between, rfl, rest⟩
      · cases between with
        | nil =>
          cases rest
          exact later (by simp)
        | cons first between =>
          cases rest
          exact (List.pairwise_append.1 apart).2.2 d present c List.mem_cons_self twins
      · cases between with
        | nil =>
          cases rest
          exact later (by simp)
        | cons first between =>
          cases rest
          exact later (by simp)
    refine .refused (fun f => MatrixFault.noConfusion) (.repeated ?_) ?_
    · rw [split, List.pairwise_append]
      rintro ⟨_, _, across⟩
      exact across d present c List.mem_cons_self twins
    · rw [breaks]
      rintro ⟨b, x, a, other, apart, long⟩
      exact reached (split.symm.trans other) apart long
  | broken before c after split apart long => exact .broken (breaks.2 ⟨before, c, after, split, apart, long⟩)

theorem merged_outcome (regular : m.Regular) (declared : ¬ (m.axes = [] ∧ m.included = []))
    (filled : ∀ axis ∈ m.axes, axis.2 ≠ []) (scalars : m.Scalars) :
    m.Outcome m.merged (m.checkExcluded m.excluded >>= fun _ =>
      if m.merged = [] then .error .noJobs else (checkDistinct [] m.merged).map fun _ => m.merged) := by
  rcases checkExcluded_spec regular.texts (fun _ member => member) with ⟨inside, done⟩ | ⟨outside, axes, refused⟩
  · rw [done]
    change m.Outcome m.merged (if m.merged = [] then _ else _)
    split
    next none =>
      refine .refused (fun f => MatrixFault.noConfusion) (.noCombination none) ?_
      intro long
      obtain ⟨_, before, c, after, split, _⟩ := long.overlong scalars
      simp [none] at split
    next some =>
      have search : Search ([] ++ m.merged) (checkDistinct [] m.merged) :=
        checkDistinct_spec (merged_keyed regular scalars) (List.forall_mem_nil _) List.Pairwise.nil (by simp)
      exact search.outcome declared filled scalars inside some
  · obtain ⟨entry, member, key, present, unknown⟩ := outside
    rw [refused]
    refine .refused (fun f => MatrixFault.noConfusion) (.unknownAxis entry member key present unknown) ?_
    exact fun long => unknown ((long.overlong scalars).1 entry member key present)

theorem bare_outcome (axes : m.axes = []) (included : m.included = []) :
    m.Outcome [[]] (if m.excluded = [] then .ok [[]] else .error .excludeWithoutAxes) := by
  have short : ¬ m.BreaksOff [[]] := fun long => long.declared ⟨axes, included⟩
  split
  next excluded =>
    refine .expanded ?_ short
    rintro (⟨_, _, some⟩ | ⟨axis, member, _⟩ | ⟨v, member, _⟩ | ⟨entry, member, _⟩ | empty | twice)
    · exact some excluded
    · simp [axes] at member
    · simp [values, axes, included, excluded] at member
    · simp [excluded] at member
    · cases empty
    · exact twice (List.pairwise_singleton _ _)
  next excluded => exact .refused (fun f => MatrixFault.noConfusion) (.onlyExcludes axes included excluded) short

theorem combinations_outcome (regular : m.Regular) (describes : m.Describes found) :
    m.Outcome found m.combinations := by
  unfold combinations
  simp only [List.isEmpty_iff]
  split
  next bare =>
    rw [Describes, if_pos bare] at describes
    rw [describes]
    exact bare_outcome bare.1 bare.2
  next declared =>
    split
    next axis values first =>
      have empty : values = [] := by simpa using List.find?_some first
      have member := List.mem_of_find?_eq_some first
      exact .refused (fun f => MatrixFault.noConfusion) (.emptyAxis _ member empty) fun long => long.filled _ member empty
    next none =>
      have filled : ∀ axis ∈ m.axes, axis.2 ≠ [] := by simpa [List.find?_eq_none] using none
      split
      next long =>
        obtain ⟨⟨place, key, v⟩, listed, unwritable⟩ := List.any_eq_true.1 long
        obtain ⟨member, other⟩ := mem_nonScalars.1 ⟨place, key, listed⟩
        simp only [nonScalars_written regular.texts listed, Bool.false_or] at unwritable
        exact .broken ⟨declared, filled, Or.inl ⟨v, member, other, unwritable⟩⟩
      next written =>
        split
        next some =>
          obtain ⟨⟨place, key, v⟩, listed⟩ := List.exists_mem_of_ne_nil _ (by simpa using some)
          obtain ⟨member, other⟩ := mem_nonScalars.1 ⟨place, key, listed⟩
          refine .refused (fun f => MatrixFault.noConfusion) (.nonScalar v member other) ?_
          rintro ⟨_, _, ⟨w, present, different, unwritable⟩ | ⟨scalars, _⟩⟩
          · obtain ⟨place, key, listed⟩ := mem_nonScalars.2 ⟨present, different⟩
            exact written (List.any_eq_true.2 ⟨_, listed, Bool.or_eq_true_iff.2 (Or.inr unwritable)⟩)
          · cases other.symm.trans (scalars v member)
        next scalars =>
          replace scalars : m.Scalars := nonScalars_nil.1 (by simpa using scalars)
          cases describes.unique (merged_describes regular scalars declared)
          exact merged_outcome regular declared filled scalars

end Matrix

/-- The matrix of a stage; an empty one if it has none. -/
def Stage.ownMatrix (s : Stage) : Matrix := s.matrix.getD {}

theorem Stage.combinations_eq (s : Stage) :
    s.combinations = s.ownMatrix.combinations.mapError (MatrixFault.rejection s.name) := by
  unfold combinations ownMatrix
  cases s.matrix with
  | none => rfl
  | some m => rfl

/-- The expansion of a stage complains when its matrix is to be refused, and otherwise returns what the matrix declares,
unless it breaks off at a number with too many digits. -/
theorem Stage.expands_iff {s : Stage} (regular : s.ownMatrix.Regular) :
    (∃ found, s.ownMatrix.Describes found) ∧ ∀ found, s.ownMatrix.Describes found →
      ((((∃ complaint, s.combinations = .error (.complaint complaint)) ↔ s.ownMatrix.Refuses found) ∧
        (¬ s.ownMatrix.Refuses found → s.combinations = .ok found)) ↔ ¬ s.ownMatrix.BreaksOff found) := by
  refine ⟨s.ownMatrix.exists_describes, ?_⟩
  intro found describes
  have outcome := Matrix.combinations_outcome regular describes
  rw [s.combinations_eq]
  generalize s.ownMatrix.combinations = result at outcome
  cases outcome with
  | expanded sound short => simp [sound, short, Except.mapError]
  | refused named wrong short =>
    rename_i fault
    have complaint : ∃ complaint, fault.rejection s.name = .complaint complaint := by
      cases fault with
      | unusable f => exact (named f rfl).elim
      | excludeWithoutAxes | emptyAxis | nonScalars | unknownAxes | noJobs | duplicate => exact ⟨_, rfl⟩
    simpa [wrong, short, Except.mapError] using complaint
  | broken long => simp [long, Except.mapError, MatrixFault.rejection]

/-- Two systems with two versions each, of which one system gets the first and the other one the second, and entries
that spell the first version in other ways. -/
def portable : Stage :=
  { name := "build", steps := []
    matrix := some
      { axes := [("os", [.str "linux", .str "mac"]), ("py", [.int 1, .int 2])]
        excluded := [[(.str "os", .str "mac"), (.str "py", .bool true)], [(.str "py", .int 2), (.str "os", .str "linux")]]
        included := [[(.str "py", .bool true), (.str "slow", .null)],
          [(.str "slow", .int 5), (.str "py", .float (.finite false 1 0))], [(.str "os", .str "bsd")]] } }

def portableCombinations : List Mapping :=
  [[(.str "os", .str "linux"), (.str "py", .float (.finite false 1 0)), (.str "slow", .int 5)],
    [(.str "os", .str "mac"), (.str "py", .int 2)], [(.str "os", .str "bsd")]]

theorem portable_regular : portable.ownMatrix.Regular := by
  refine ⟨?_, by decide, by decide⟩
  intro entry member field present
  simp only [portable, Stage.ownMatrix, Option.getD_some, List.cons_append, List.nil_append, List.mem_cons,
    List.not_mem_nil, or_false] at member
  rcases member with rfl | rfl | rfl | rfl | rfl <;> simp at present <;> grind

theorem portable_scalars : portable.ownMatrix.Scalars := by
  unfold Matrix.Scalars
  decide

theorem portable_describes : portable.ownMatrix.Describes portableCombinations := by
  have merged : portable.ownMatrix.merged = portableCombinations := by decide +kernel
  rw [← merged]
  exact Matrix.merged_describes portable_regular portable_scalars (by decide)

theorem portable_accepted : ¬ portable.ownMatrix.Refuses portableCombinations := by
  intro wrong
  exact wrong.twice (by decide) (by decide) portable_scalars (by decide) (by decide) (by decide)

theorem portable_short : ¬ portable.ownMatrix.BreaksOff portableCombinations := by
  intro breaks
  obtain ⟨_, before, c, after, split, _, field, present, unwritable⟩ := breaks.overlong portable_scalars
  have written : ∀ c ∈ portableCombinations, ∀ field ∈ c, ¬ field.2.isUnwritable = true := by decide +kernel
  exact written c (by simp [split]) field present unwritable

theorem portable_expands :
    portable.ownMatrix.Regular ∧ ¬ portable.ownMatrix.BreaksOff portableCombinations ∧
      portable.combinations = .ok portableCombinations :=
  ⟨portable_regular, portable_short,
    ((Stage.expands_iff portable_regular).2 _ portable_describes |>.2 portable_short).2 portable_accepted⟩

/-- A list of one number, which is the least that has too many digits. -/
def immense : Stage :=
  { name := "build", steps := []
    matrix := some { axes := [("v", [.list [.int (Nat.pow 10 Number.digitLimit)]])] } }

theorem immense_breaks_off : immense.ownMatrix.Regular ∧
    (∃ found, immense.ownMatrix.Describes found ∧ immense.ownMatrix.Refuses found) ∧
      immense.combinations = .error (.unusable .unwritable) := by
  refine ⟨⟨?_, by decide, by decide⟩, ?_, ?_⟩
  · intro entry member
    cases member
  · obtain ⟨found, describes⟩ := immense.ownMatrix.exists_describes
    exact ⟨found, describes, .nonScalar _ (List.mem_singleton.2 rfl) rfl⟩
  · decide +kernel

end Conveyor

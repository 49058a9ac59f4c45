import Conveyor.Proofs.MatrixCoverage
import Conveyor.Proofs.ScalarWorth
import Mathlib.Data.List.Lex

/-! What a matrix declares. The combinations of its axes are ordered by the places of their values, the first axis first.
Those that agree with no excluded entry are kept, and each of them takes over the included entries that contradict none
of its values. Extending the combinations one entry after the other comes to the same: an entry that is taken over sets
an axis only to a value of the same worth, so later entries are compared with the values that were there first. -/

namespace Conveyor.Matrix

/-- One value of each axis, and its place among the values of the axis. -/
inductive Picks : Table String (List Value) → List Nat → Mapping → Prop
  | nil : Picks [] [] []
  | cons {axis : String} {values : List Value} {axes : Table String (List Value)} {place : Nat} {places : List Nat}
      {v : Value} {c : Mapping} (here : values[place]? = some v) (others : Picks axes places c) :
      Picks ((axis, values) :: axes) (place :: places) ((.str axis, v) :: c)

/-- All combinations of the axes, by the places of their values. -/
def Enumerates (axes : Table String (List Value)) (tuples : List Mapping) : Prop :=
  ∃ order : List (List Nat), order.Pairwise (List.Lex (· < ·)) ∧
    (∀ places c, Picks axes places c → places ∈ order) ∧ List.Forall₂ (Picks axes) order tuples

def Agrees (c entry : Mapping) : Prop :=
  ∀ field ∈ entry, ∃ own ∈ c, own.1 = field.1 ∧ own.2.same field.2 = true

def Admits (c entry : Mapping) : Prop :=
  ∀ field ∈ entry, ∀ own ∈ c, own.1 = field.1 → own.2.same field.2 = true

instance (c entry : Mapping) : Decidable (Agrees c entry) :=
  inferInstanceAs (Decidable (∀ field ∈ entry, ∃ own ∈ c, own.1 = field.1 ∧ own.2.same field.2 = true))

instance (c entry : Mapping) : Decidable (Admits c entry) :=
  inferInstanceAs (Decidable (∀ field ∈ entry, ∀ own ∈ c, own.1 = field.1 → own.2.same field.2 = true))

def grown (entries : List Mapping) (c : Mapping) : Mapping :=
  (entries.filter fun entry => Admits c entry).foldl Table.update c

def unplaced (kept entries : List Mapping) : List Mapping :=
  entries.filter fun entry => ∀ c ∈ kept, ¬ Admits c entry

def Describes (m : Matrix) (found : List Mapping) : Prop :=
  if m.axes = [] ∧ m.included = [] then found = [[]]
  else ∃ tuples, (if m.axes = [] then tuples = [] else Enumerates m.axes tuples) ∧
    let kept := tuples.filter fun c => ∀ entry ∈ m.excluded, ¬ Agrees c entry
    found = kept.map (grown m.included) ++ unplaced kept m.included

/-! ### The combinations of the axes -/

/-- The places of the combinations of axes, the last axis varying fastest. -/
def allPlaces : Table String (List Value) → List (List Nat)
  | [] => [[]]
  | (_, values) :: rest =>
    (List.range values.length).flatMap fun place => (allPlaces rest).map fun places => place :: places

theorem allPlaces_sorted (axes : Table String (List Value)) : (allPlaces axes).Pairwise (List.Lex (· < ·)) := by
  induction axes with
  | nil => exact List.pairwise_singleton _ _
  | cons axis axes ih =>
    rw [allPlaces, List.pairwise_flatMap]
    constructor
    · intro place _
      rw [List.pairwise_map]
      exact ih.imp List.Lex.cons
    · apply List.pairwise_lt_range.imp
      intro first second earlier a inFirst b inSecond
      obtain ⟨a, _, rfl⟩ := List.mem_map.1 inFirst
      obtain ⟨b, _, rfl⟩ := List.mem_map.1 inSecond
      exact List.Lex.rel earlier

variable {axes : Table String (List Value)}

theorem Picks.mem_allPlaces {places : List Nat} {c : Mapping} (picks : Picks axes places c) :
    places ∈ allPlaces axes := by
  induction picks with
  | nil => exact List.mem_singleton.2 rfl
  | cons here _ ih =>
    obtain ⟨inside, _⟩ := List.getElem?_eq_some_iff.1 here
    exact List.mem_flatMap.2 ⟨_, List.mem_range.2 inside, List.mem_map_of_mem ih⟩

theorem product_picks (axes : Table String (List Value)) : List.Forall₂ (Picks axes) (allPlaces axes) (product axes) := by
  induction axes with
  | nil => exact .cons .nil .nil
  | cons axis axes ih =>
    obtain ⟨axis, values⟩ := axis
    have indexed : List.Forall₂ (fun place v => values[place]? = some v) (List.range values.length) values := by
      rw [List.forall₂_iff_get]
      refine ⟨List.length_range, ?_⟩
      intro i _ inside
      simp
    apply List.rel_flatMap indexed
    intro place v here
    exact List.rel_map (fun _ _ others => Picks.cons here others) ih

theorem product_enumerates (axes : Table String (List Value)) : Enumerates axes (product axes) :=
  ⟨allPlaces axes, allPlaces_sorted axes, fun _ _ => Picks.mem_allPlaces, product_picks axes⟩

theorem Picks.unique {places : List Nat} {c d : Mapping} (first : Picks axes places c) (second : Picks axes places d) :
    c = d := by
  induction first generalizing d with
  | nil =>
    cases second
    rfl
  | cons here _ ih =>
    cases second with
    | cons there others =>
      cases here.symm.trans there
      rw [ih others]

theorem Enumerates.unique {a b : List Mapping} (first : Enumerates axes a) (second : Enumerates axes b) : a = b := by
  obtain ⟨order, sorted, complete, picks⟩ := first
  obtain ⟨order', sorted', complete', picks'⟩ := second
  have sound {order : List (List Nat)} {tuples : List Mapping} (picks : List.Forall₂ (Picks axes) order tuples)
      {places : List Nat} (member : places ∈ order) : ∃ c, Picks axes places c := by
    induction picks with
    | nil => cases member
    | cons here _ ih =>
      rcases List.mem_cons.1 member with rfl | later
      · exact ⟨_, here⟩
      · exact ih later
  have members (places : List Nat) : places ∈ order ↔ places ∈ order' := by
    constructor
    · intro member
      obtain ⟨c, picked⟩ := sound picks member
      exact complete' places c picked
    · intro member
      obtain ⟨c, picked⟩ := sound picks' member
      exact complete places c picked
  have distinct {order : List (List Nat)} (sorted : order.Pairwise (List.Lex (· < ·))) : order.Nodup := by
    apply List.Pairwise.imp _ sorted
    rintro a _ less rfl
    exact irrefl_of (List.Lex (· < ·)) a less
  have perm : order.Perm order' := (List.perm_ext_iff_of_nodup (distinct sorted) (distinct sorted')).2 members
  have same : order = order' :=
    perm.eq_of_pairwise (fun a b _ _ less greater => (asymm_of (List.Lex (· < ·)) less greater).elim) sorted sorted'
  subst same
  exact List.right_unique_forall₂' (fun _ _ _ first second => first.unique second) picks picks'

/-! ### Included entries, one after the other -/

/-- All keys of a matrix are texts, and no table of it has a key twice. -/
structure Regular (m : Matrix) : Prop where
  texts : m.TextKeys
  axes : m.axes.keys.Nodup
  entries : ∀ entry ∈ m.included ++ m.excluded, entry.keys.Nodup

variable {m : Matrix} {c d entry : Mapping}

theorem Regular.axisKeys (regular : m.Regular) : m.axisKeys.Nodup := by
  have renamed : m.axisKeys = m.axes.keys.map Value.str := by
    rw [Matrix.axisKeys, Table.keys, List.map_map]
    rfl
  rw [renamed]
  exact regular.axes.map fun _ _ => Value.str.inj

theorem isAxis_iff {text : String} : m.isAxis (.str text) = true ↔ .str text ∈ m.axisKeys := by
  rw [isAxis, List.any_eq_true]
  constructor
  · rintro ⟨axis, member, alike⟩
    rwa [← (Value.str_exact text axis).1 alike]
  · intro member
    exact ⟨_, member, (Value.str_exact text _).2 rfl⟩

theorem agrees_iff (distinct : c.keys.Nodup) (texts : entry.TextKeys) : agrees c entry = true ↔ Agrees c entry := by
  rw [agrees, List.all_eq_true]
  apply forall₂_congr
  rintro ⟨key, v⟩ member
  obtain ⟨text, rfl⟩ : ∃ text, key = .str text := texts _ member
  dsimp only
  constructor
  · intro equal
    split at equal
    next w found => exact ⟨_, Table.mem_of_get? (Value.str_exact text) found, rfl, equal⟩
    next => cases equal
  · rintro ⟨⟨_, w⟩, own, rfl, equal⟩
    rw [Table.get?_of_mem distinct (Value.str_exact text) own]
    exact equal

theorem compatible_iff (keys : c.keys = m.axisKeys) (distinct : c.keys.Nodup) (texts : entry.TextKeys) :
    m.compatible c entry = true ↔ Admits c entry := by
  rw [compatible, agrees_iff distinct (fun field member => texts field (List.mem_filter.1 member).1)]
  constructor
  · intro agrees field member own present named
    obtain ⟨text, key⟩ := texts field member
    have axis : m.isAxis field.1 = true := by
      rw [key, isAxis_iff, ← key, ← named, ← keys]
      exact List.mem_map_of_mem present
    obtain ⟨other, there, same, equal⟩ := agrees field (List.mem_filter.2 ⟨member, axis⟩)
    rwa [List.inj_on_of_nodup_map distinct present there (named.trans same.symm)]
  · intro admits field member
    obtain ⟨member, axis⟩ := List.mem_filter.1 member
    obtain ⟨text, key⟩ := texts field member
    have listed : m.isAxis field.1 = true := axis
    rw [key, isAxis_iff, ← key, ← keys] at listed
    obtain ⟨own, present, named⟩ := List.mem_map.1 listed
    exact ⟨own, present, named, admits field member own present named⟩

/-- A combination that has for every axis a value of the same worth as another. -/
structure Tracks (m : Matrix) (c d : Mapping) : Prop where
  plain : Plain d
  worth : ∀ key ∈ m.axisKeys, (d.get? key).map Value.worth = (c.get? key).map Value.worth

theorem Tracks.refl (plain : Plain c) : m.Tracks c c := ⟨plain, fun _ _ => rfl⟩

theorem axisKeys_exact {key : Value} (axis : key ∈ m.axisKeys) : Key.Exact key := by
  obtain ⟨⟨text, _⟩, _, rfl⟩ := List.mem_map.1 axis
  exact Value.str_exact text

/-- An admitted field sets an axis to an equal value, which is worth the same. -/
theorem Tracks.insert (tracks : m.Tracks c d) (keys : c.keys = m.axisKeys) (plain : Plain c) {text : String} {v : Value}
    (scalar : isPlain v = true) (admits : ∀ own ∈ c, own.1 = .str text → own.2.same v = true) :
    m.Tracks c (d.insert (.str text) v) := by
  refine ⟨tracks.plain.insert rfl scalar, ?_⟩
  intro key axis
  rw [Table.get?_insert_exact (Value.str_exact text) (axisKeys_exact axis)]
  split
  next here =>
    cases (axisKeys_exact axis _).1 here
    rw [← keys, ← Table.has_iff (Value.str_exact text)] at axis
    obtain ⟨w, found⟩ := Option.isSome_iff_exists.1 axis
    have own := Table.mem_of_get? (Value.str_exact text) found
    obtain ⟨x, before, after⟩ := (Value.same_iff (plain _ own).2 scalar).1 (admits _ own rfl)
    rw [found, Option.map_some, Option.map_some, before, after]
  next => exact tracks.worth key axis

theorem Tracks.update (tracks : m.Tracks c d) (keys : c.keys = m.axisKeys) (plain : Plain c) (texts : entry.TextKeys)
    (scalars : ∀ field ∈ entry, isPlain field.2 = true) (admits : Admits c entry) : m.Tracks c (d.update entry) := by
  induction entry generalizing d with
  | nil => exact tracks
  | cons field entry ih =>
    obtain ⟨⟨text, named⟩, others⟩ := List.forall_mem_cons.1 texts
    obtain ⟨scalar, rest⟩ := List.forall_mem_cons.1 scalars
    obtain ⟨here, later⟩ := List.forall_mem_cons.1 admits
    obtain ⟨_, v⟩ := field
    cases named
    exact ih (tracks.insert keys plain scalar here) others rest later

/-- Whether an entry is compatible depends only on the worth of the values that the axes have. -/
theorem Tracks.compatible (tracks : m.Tracks c d) (plain : Plain c) (texts : entry.TextKeys)
    (scalars : ∀ field ∈ entry, isPlain field.2 = true) : m.compatible d entry = m.compatible c entry := by
  rw [Bool.eq_iff_iff]
  unfold Matrix.compatible agrees
  rw [List.all_eq_true, List.all_eq_true]
  apply forall₂_congr
  rintro ⟨key, v⟩ member
  obtain ⟨present, axis⟩ := List.mem_filter.1 member
  obtain ⟨text, rfl⟩ : ∃ text, key = .str text := texts _ present
  have worth := tracks.worth _ (isAxis_iff.1 axis)
  have scalar : isPlain v = true := scalars _ present
  dsimp only
  split
  next w grown =>
    split
    next x first =>
      rw [grown, first, Option.map_some, Option.map_some, Option.some.injEq] at worth
      have known := (tracks.plain _ (Table.mem_of_get? (Value.str_exact text) grown)).2
      have before := (plain _ (Table.mem_of_get? (Value.str_exact text) first)).2
      rw [Value.same_iff known scalar, Value.same_iff before scalar, worth]
    next none => simp [grown, none] at worth
  next none =>
    split
    next x first => simp [none, first] at worth
    next => rfl

def values (m : Matrix) : List Value :=
  m.axes.flatMap (·.2) ++ (m.included ++ m.excluded).flatMap Table.values

def Scalars (m : Matrix) : Prop := ∀ v ∈ m.values, isPlain v = true

theorem Scalars.ofAxis (scalars : m.Scalars) : ∀ axis ∈ m.axes, ∀ v ∈ axis.2, isPlain v = true :=
  fun axis member v present => scalars v (List.mem_append.2 (Or.inl (List.mem_flatMap.2 ⟨axis, member, present⟩)))

theorem Scalars.ofEntry (scalars : m.Scalars) (member : entry ∈ m.included ++ m.excluded) :
    ∀ field ∈ entry, isPlain field.2 = true :=
  fun _ present => scalars _ (List.mem_append.2 (Or.inr (List.mem_flatMap.2 ⟨entry, member, List.mem_map_of_mem present⟩)))

section

variable {done kept : List Mapping}

theorem grown_tracks (keys : c.keys = m.axisKeys) (plain : Plain c)
    (known : ∀ entry ∈ done, entry.TextKeys ∧ ∀ field ∈ entry, isPlain field.2 = true) : m.Tracks c (grown done c) := by
  have along (entries : List Mapping) (d : Mapping) (tracks : m.Tracks c d)
      (admitted : ∀ entry ∈ entries, entry ∈ done ∧ Admits c entry) : m.Tracks c (entries.foldl Table.update d) := by
    induction entries generalizing d with
    | nil => exact tracks
    | cons entry entries ih =>
      obtain ⟨⟨listed, admits⟩, rest⟩ := List.forall_mem_cons.1 admitted
      exact ih _ (tracks.update keys plain (known entry listed).1 (known entry listed).2 admits) rest
  apply along _ c (Tracks.refl plain)
  intro entry member
  obtain ⟨listed, admits⟩ := List.mem_filter.1 member
  exact ⟨listed, of_decide_eq_true admits⟩

theorem grown_snoc : grown (done ++ [entry]) c = if Admits c entry then (grown done c).update entry else grown done c := by
  unfold grown
  rw [List.filter_append, List.foldl_append]
  by_cases admits : Admits c entry
  · simp [admits]
  · simp [admits]

/-- One entry more extends the combinations that admitted it from the beginning. -/
theorem extend_grown (regular : m.Regular) (tuples : ∀ c ∈ kept, c.keys = m.axisKeys ∧ Plain c)
    (known : ∀ entry ∈ done, entry.TextKeys ∧ ∀ field ∈ entry, isPlain field.2 = true)
    (texts : entry.TextKeys) (scalars : ∀ field ∈ entry, isPlain field.2 = true) :
    m.extend (kept.map (grown done), unplaced kept done) entry =
      (kept.map (grown (done ++ [entry])), unplaced kept (done ++ [entry])) := by
  have decided : ∀ c ∈ kept, m.compatible (grown done c) entry = decide (Admits c entry) := by
    intro c member
    obtain ⟨keys, plain⟩ := tuples c member
    rw [(grown_tracks keys plain known).compatible plain texts scalars, Bool.eq_iff_iff, decide_eq_true_iff]
    exact compatible_iff keys (keys ▸ regular.axisKeys) texts
  have extended : kept.map (grown (done ++ [entry])) = (kept.map (grown done)).map fun combination =>
      if m.compatible combination entry then combination.update entry else combination := by
    rw [List.map_map]
    apply List.map_congr_left
    intro c member
    rw [grown_snoc, Function.comp_apply, decided c member]
    simp only [decide_eq_true_eq]
  have fits : ((kept.map (grown done)).any fun combination => m.compatible combination entry) = true ↔
      ∃ c ∈ kept, Admits c entry := by
    rw [List.any_map, List.any_eq_true]
    apply exists_congr
    intro c
    apply and_congr_right
    intro member
    rw [Function.comp_apply, decided c member, decide_eq_true_iff]
  unfold extend
  dsimp only
  split
  next some =>
    obtain ⟨c, member, admits⟩ := fits.1 some
    have placed : unplaced kept (done ++ [entry]) = unplaced kept done := by
      have unfit : ¬ ∀ c ∈ kept, ¬ Admits c entry := fun none => none c member admits
      simp [unplaced, List.filter_append, unfit]
    rw [extended, placed]
  next none =>
    have unfit : ∀ c ∈ kept, ¬ Admits c entry := fun c member admits => none (fits.2 ⟨c, member, admits⟩)
    have unchanged : kept.map (grown (done ++ [entry])) = kept.map (grown done) := by
      apply List.map_congr_left
      intro c member
      rw [grown_snoc, if_neg (unfit c member)]
    have added : unplaced kept (done ++ [entry]) = unplaced kept done ++ [entry] := by
      simpa [unplaced, List.filter_append] using unfit
    rw [unchanged, added]

end

theorem survivors_eq (regular : m.Regular) : m.survivors =
    if m.axes = [] then [] else (product m.axes).filter fun c => ∀ entry ∈ m.excluded, ¬ Agrees c entry := by
  unfold survivors
  simp only [List.isEmpty_iff]
  split
  · rfl
  apply List.filter_congr
  intro c member
  have distinct : c.keys.Nodup := by
    rw [product_keys member]
    exact regular.axisKeys
  have each : ∀ entry ∈ m.excluded, agrees c entry = true ↔ Agrees c entry := fun entry listed =>
    agrees_iff distinct fun field => regular.texts entry (List.mem_append.2 (Or.inr listed)) field
  rw [Bool.eq_iff_iff, Bool.not_eq_true', ← Bool.not_eq_true, List.any_eq_true, decide_eq_true_iff]
  constructor
  · intro none entry listed agrees
    exact none ⟨entry, listed, (each entry listed).2 agrees⟩
  · rintro none ⟨entry, listed, agrees⟩
    exact none entry listed ((each entry listed).1 agrees)

theorem merged_eq (regular : m.Regular) (scalars : m.Scalars) :
    m.merged = m.survivors.map (grown m.included) ++ unplaced m.survivors m.included := by
  have tuples : ∀ c ∈ m.survivors, c.keys = m.axisKeys ∧ Plain c := by
    intro c member
    refine ⟨survivors_keys member, ?_⟩
    unfold survivors at member
    split at member
    · cases member
    · exact product_plain scalars.ofAxis c (List.mem_filter.1 member).1
  have known : ∀ entry ∈ m.included, entry.TextKeys ∧ ∀ field ∈ entry, isPlain field.2 = true := fun entry member =>
    ⟨regular.texts.included member, scalars.ofEntry (List.mem_append.2 (Or.inl member))⟩
  have along (done rest : List Mapping) (all : ∀ entry ∈ done ++ rest, entry ∈ m.included) :
      rest.foldl m.extend (m.survivors.map (grown done), unplaced m.survivors done) =
        (m.survivors.map (grown (done ++ rest)), unplaced m.survivors (done ++ rest)) := by
    induction rest generalizing done with
    | nil => rw [List.append_nil, List.foldl_nil]
    | cons entry rest ih =>
      have here := known entry (all entry (by simp))
      have before : ∀ entry ∈ done, entry.TextKeys ∧ ∀ field ∈ entry, isPlain field.2 = true :=
        fun entry member => known entry (all entry (List.mem_append.2 (Or.inl member)))
      rw [List.foldl_cons, extend_grown regular tuples before here.1 here.2, ih (done ++ [entry]) (by simpa using all),
        List.append_assoc, List.singleton_append]
  have start : (m.survivors, ([] : List Mapping)) = (m.survivors.map (grown []), unplaced m.survivors []) := by
    have same : grown [] = id := rfl
    rw [same, List.map_id]
    rfl
  unfold merged
  rw [start, along [] m.included fun _ member => member]
  rfl

theorem exists_describes (m : Matrix) : ∃ found, m.Describes found := by
  unfold Describes
  split
  · exact ⟨_, rfl⟩
  · by_cases none : m.axes = []
    · exact ⟨_, [], by rw [if_pos none], rfl⟩
    · exact ⟨_, product m.axes, by rw [if_neg none]; exact product_enumerates m.axes, rfl⟩

theorem Describes.unique {a b : List Mapping} (first : m.Describes a) (second : m.Describes b) : a = b := by
  unfold Describes at first second
  split at first
  next bare =>
    rw [if_pos bare] at second
    exact first.trans second.symm
  next bare =>
    rw [if_neg bare] at second
    obtain ⟨tuples, enumerated, rfl⟩ := first
    obtain ⟨tuples', enumerated', rfl⟩ := second
    split at enumerated
    next none =>
      rw [if_pos none] at enumerated'
      rw [enumerated, enumerated']
    next some =>
      rw [if_neg some] at enumerated'
      rw [enumerated.unique enumerated']

theorem merged_describes (regular : m.Regular) (scalars : m.Scalars) (declared : ¬ (m.axes = [] ∧ m.included = [])) :
    m.Describes m.merged := by
  unfold Describes
  rw [if_neg declared, merged_eq regular scalars, survivors_eq regular]
  split
  · exact ⟨[], rfl, rfl⟩
  · exact ⟨product m.axes, product_enumerates m.axes, rfl⟩

end Conveyor.Matrix

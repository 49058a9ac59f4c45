import Conveyor.Proofs.DocumentMisuse
import Conveyor.Proofs.ExpansionCompleteness
import Conveyor.Proofs.MatrixExpansion

/-! Validation accepts a pipeline or complains about it, unless it breaks off. It breaks off where keys are to be sorted
that have no order among themselves, where a whole number is to be written that has too many digits, and where templates
are looked for in a collection that contains itself. Problems are listed together, so one such place in any stage is
enough; only what is looked at before it can spare the place. -/

namespace Conveyor

open Fallible

namespace Value

/-- The kinds of values that have an order among themselves. -/
inductive OrderKind where
  | text
  | bytes
  | number
  | date
  | time (zoned : Bool)
  deriving DecidableEq, Repr

/-- The kind that a value is ordered with, if there is one. -/
def orderKind? : Value → Option OrderKind
  | .str _ => some .text
  | .bytes _ => some .bytes
  | .bool _ => some .number
  | .int _ => some .number
  | .float _ => some .number
  | .date _ => some .date
  | .timestamp t => some (.time t.offset.isSome)
  | _ => none

mutual
/-- Two values have an order between them: they are of one kind, or tuples whose items have one. -/
inductive Ordered : Value → Value → Prop
  | kind {v w : Value} {kind : OrderKind} (first : v.orderKind? = some kind) (second : w.orderKind? = some kind) :
    Ordered v w
  | tuples {xs ys : List Value} (items : OrderedItems xs ys) : Ordered (.tuple xs) (.tuple ys)

/-- The first items that differ have an order between them, or there are none as far as both lists go. -/
inductive OrderedItems : List Value → List Value → Prop
  | left (ys : List Value) : OrderedItems [] ys
  | right (xs : List Value) : OrderedItems xs []
  | same {x y : Value} {xs ys : List Value} (alike : x.alike y = true) (rest : OrderedItems xs ys) :
    OrderedItems (x :: xs) (y :: ys)
  | differ {x y : Value} {xs ys : List Value} (apart : x.alike y = false) (ordered : Ordered x y) :
    OrderedItems (x :: xs) (y :: ys)
end

/-- Values can be put in order: each has an order with all before it. -/
def Orderable (values : List Value) : Prop := values.Pairwise fun w v => Ordered v w

theorem ordered_plain {v w : Value} (plain : ∀ xs ys, v = .tuple xs → w ≠ .tuple ys) :
    Ordered v w ↔ ∃ kind, v.orderKind? = some kind ∧ w.orderKind? = some kind := by
  constructor
  · intro ordered
    cases ordered with
    | kind first second => exact ⟨_, first, second⟩
    | tuples => exact absurd rfl (plain _ _ rfl)
  · rintro ⟨kind, first, second⟩
    exact .kind first second

theorem ordered_tuples {xs ys : List Value} : Ordered (.tuple xs) (.tuple ys) ↔ OrderedItems xs ys := by
  refine ⟨fun ordered => ?_, .tuples⟩
  cases ordered with
  | kind first => cases first
  | tuples items => exact items

theorem orderFault?_plain {v w : Value} (plain : ∀ xs ys, v = .tuple xs → w ≠ .tuple ys) :
    orderFault? v w = none ↔ Ordered v w := by
  rw [ordered_plain plain]
  cases v with
  | timestamp s =>
    cases w with
    | timestamp t => simp [orderFault?, orderKind?, eq_comm]
    | _ => simp [orderFault?, orderKind?, isNumber]
  | tuple xs =>
    cases w with
    | tuple ys => exact absurd rfl (plain xs ys rfl)
    | _ => simp [orderFault?, orderKind?, isNumber]
  | _ => cases w <;> simp [orderFault?, orderKind?, isNumber]

mutual
theorem orderFault?_eq_none : (v w : Value) → (orderFault? v w = none ↔ Ordered v w)
  | .tuple xs, w => by
    cases w with
    | tuple ys => rw [orderFault?, itemsFault?_eq_none xs ys, ordered_tuples]
    | _ => exact orderFault?_plain fun _ _ _ => nofun
  | .null, _ | .bool _, _ | .int _, _ | .float _, _ | .str _, _ | .bytes _, _ | .date _, _ | .timestamp _, _
  | .list _, _ | .set _, _ | .map _, _ | .knot .., _ | .again .., _ => orderFault?_plain nofun

theorem itemsFault?_eq_none : (xs ys : List Value) → (itemsFault? xs ys = none ↔ OrderedItems xs ys)
  | [], ys => iff_of_true (by simp [itemsFault?]) (.left ys)
  | x :: xs, [] => iff_of_true (by simp [itemsFault?]) (.right _)
  | x :: xs, y :: ys => by
    rw [itemsFault?]
    split
    next alike =>
      rw [itemsFault?_eq_none xs ys]
      refine ⟨.same alike, fun items => ?_⟩
      cases items with
      | same _ rest => exact rest
      | differ apart => cases alike.symm.trans apart
    next apart =>
      rw [orderFault?_eq_none x y]
      refine ⟨.differ (Bool.eq_false_iff.2 apart), fun items => ?_⟩
      cases items with
      | same alike => exact absurd alike apart
      | differ _ ordered => exact ordered
end

theorem unordered?_eq_none {before values : List Value} : unordered? before values = none ↔
    (∀ v ∈ values, ∀ w ∈ before, Ordered v w) ∧ Orderable values := by
  induction values generalizing before with
  | nil => simp [unordered?, Orderable]
  | cons v rest ih =>
    rw [unordered?, Option.orElse_eq_none, ih, List.findSome?_eq_none_iff, Orderable, Orderable, List.pairwise_cons]
    simp only [orderFault?_eq_none, List.forall_mem_cons, forall₂_and]
    tauto

theorem sorted_succeeds {values : List Value} : Succeeds (sorted values) ↔ Orderable values := by
  have whole : unordered? [] values = none ↔ Orderable values := by simp [unordered?_eq_none]
  rw [← whole, sorted]
  cases unordered? [] values with
  | none => exact iff_of_true (succeeds_ok _) rfl
  | some fault => exact iff_of_false (not_succeeds_error fault) (Option.some_ne_none fault)

theorem mem_sorted {values list : List Value} (done : sorted values = .ok list) {v : Value} : v ∈ list ↔ v ∈ values := by
  unfold sorted at done
  split at done
  next => cases done
  next =>
    cases done
    exact List.mem_mergeSort

end Value

namespace Matrix

variable {m : Matrix} {c : Mapping}

/-- A combination cannot be told from others: a value has no text, or the keys have no order. -/
def Unnameable (c : Mapping) : Prop := Overlong c ∨ ¬ Value.Orderable c.keys

/-- Two combinations have the same keys in order, with the same texts. -/
def NamedAlike (c d : Mapping) : Prop := ∃ a b, marker c = .ok a ∧ marker d = .ok b ∧ sameMarker a b = true

def strangers (m : Matrix) (entry : Mapping) : List Value := entry.keys.filter fun key => !m.isAxis key

/-- A matrix has something to combine, and no axis is without values. -/
def Filled (m : Matrix) : Prop := ¬ (m.axes = [] ∧ m.included = []) ∧ ∀ axis ∈ m.axes, axis.2 ≠ []

inductive Breaks (m : Matrix) : Prop
  | key (entry : Mapping) (member : entry ∈ m.included) (key : Value) (present : key ∈ entry.keys)
      (long : key.isUnwritable = true)
  | value (filled : m.Filled) (place : String) (key v : Value) (listed : (place, key, v) ∈ m.nonScalars)
      (long : key.isUnwritable = true ∨ v.isUnwritable = true)
  | axes (filled : m.Filled) (scalars : m.Scalars) (entry : Mapping)
      (first : m.excluded.find? (fun entry => !(m.strangers entry).isEmpty) = some entry)
      (unlisted : ¬ Value.Orderable (m.strangers entry) ∨ ∃ key ∈ m.strangers entry, key.isUnwritable = true)
  | combination (filled : m.Filled) (scalars : m.Scalars) (known : ∀ entry ∈ m.excluded, m.strangers entry = [])
      (before after : List Mapping) (c : Mapping) (listed : m.merged = before ++ c :: after)
      (named : ∀ d ∈ before, ¬ Unnameable d) (apart : before.Pairwise fun d e => ¬ NamedAlike e d)
      (unnameable : Unnameable c)

theorem marker_succeeds : Succeeds (marker c) ↔ ¬ Unnameable c := by
  have long : (c.any fun field => field.2.isUnwritable) = true ↔ Overlong c := List.any_eq_true
  unfold marker
  rw [Unnameable, not_or, not_not, ← Value.sorted_succeeds, ← long]
  split
  next overlong => exact iff_of_false (not_succeeds_error _) fun short => short.1 overlong
  next short => exact succeeds_map.trans (and_iff_right short).symm

/-! ### Excluded entries -/

theorem checkExcluded_ok {entries : List Mapping} :
    m.checkExcluded entries = .ok () ↔ ∀ entry ∈ entries, m.strangers entry = [] := by
  induction entries with
  | nil => exact iff_of_true rfl (List.forall_mem_nil _)
  | cons entry entries ih =>
    rw [List.forall_mem_cons, ← ih, checkExcluded]
    split
    next none => exact (and_iff_right none).symm
    next some =>
      refine iff_of_false ?_ fun known => some known.1
      intro impossible
      split at impossible
      · split at impossible <;> cases impossible
      · cases impossible

/-- The axes that an excluded entry names are listed in order, so they need an order and texts. -/
theorem checkExcluded_unusable {entries : List Mapping} :
    (∃ f, m.checkExcluded entries = .error (.unusable f)) ↔ ∃ entry,
      entries.find? (fun entry => !(m.strangers entry).isEmpty) = some entry ∧
        (¬ Value.Orderable (m.strangers entry) ∨ ∃ key ∈ m.strangers entry, key.isUnwritable = true) := by
  induction entries with
  | nil => simp [checkExcluded]
  | cons entry entries ih =>
    rw [checkExcluded, List.find?_cons, ← strangers]
    split
    next none =>
      rw [ih, none]
      rfl
    next some =>
      have nonempty : (!(m.strangers entry).isEmpty) = true := by simpa using some
      simp only [nonempty, Option.some.injEq, exists_eq_left']
      rw [← Value.sorted_succeeds]
      cases sorted : Value.sorted (m.strangers entry) with
      | error f => exact iff_of_true ⟨f, rfl⟩ (Or.inl (not_succeeds_error f))
      | ok axes =>
        have listed : axes.any Value.isUnwritable = true ↔ ∃ key ∈ m.strangers entry, key.isUnwritable = true := by
          rw [List.any_eq_true]
          exact exists_congr fun key => and_congr_left' (Value.mem_sorted sorted)
        have done : ¬ ¬ Succeeds (.ok axes : Except ValueFault _) := not_not.2 (succeeds_ok axes)
        rw [← listed, or_iff_right done]
        dsimp only
        split
        next long => exact iff_of_true ⟨_, rfl⟩ long
        next short => exact iff_of_false (by simp) short

/-! ### Telling combinations apart -/

/-- Combinations are named one after the other, up to the first that has the name of an earlier one. -/
theorem checkDistinct_unusable {before rest : List Mapping} {seen : List (List (Value × String))}
    (written : ∀ c ∈ rest, c.keys.any Value.isUnwritable = false)
    (listed : ∀ mark, mark ∈ seen ↔ ∃ d ∈ before, marker d = .ok mark)
    (apart : before.Pairwise fun d e => ¬ NamedAlike e d) :
    (∃ f, checkDistinct seen rest = .error (.unusable f)) ↔ ∃ middle after c, rest = middle ++ c :: after ∧
      (∀ d ∈ middle, ¬ Unnameable d) ∧ ((before ++ middle).Pairwise fun d e => ¬ NamedAlike e d) ∧ Unnameable c := by
  induction rest generalizing before seen with
  | nil =>
    refine iff_of_false (by simp [checkDistinct]) ?_
    rintro ⟨middle, after, c, impossible, _⟩
    exact List.append_ne_nil_of_right_ne_nil middle (List.cons_ne_nil c after) impossible.symm
  | cons c rest ih =>
    obtain ⟨here, others⟩ := List.forall_mem_cons.1 written
    rw [checkDistinct]
    cases marked : marker c with
    | error f =>
      have unnameable : Unnameable c := by
        rw [← not_not (a := Unnameable c), ← marker_succeeds, marked]
        exact not_succeeds_error f
      refine iff_of_true ⟨f, rfl⟩ ⟨[], rest, c, rfl, List.forall_mem_nil _, ?_, unnameable⟩
      rwa [List.append_nil]
    | ok mark =>
      have nameable : ¬ Unnameable c := marker_succeeds.1 ⟨mark, marked⟩
      have known : seen.any (sameMarker mark) = true ↔ ∃ d ∈ before, NamedAlike c d := by
        rw [List.any_eq_true]
        constructor
        · rintro ⟨other, member, same⟩
          obtain ⟨d, present, marked'⟩ := (listed other).1 member
          exact ⟨d, present, mark, other, marked, marked', same⟩
        · rintro ⟨d, present, mark', other, marked', marked'', same⟩
          cases marked.symm.trans marked'
          exact ⟨other, (listed other).2 ⟨d, present, marked''⟩, same⟩
      -- the combination has a name, so the one without a name comes after it
      have later : (∃ middle after c', c :: rest = middle ++ c' :: after ∧ (∀ d ∈ middle, ¬ Unnameable d) ∧
          ((before ++ middle).Pairwise fun d e => ¬ NamedAlike e d) ∧ Unnameable c') ↔
          ∃ middle after c', rest = middle ++ c' :: after ∧ (∀ d ∈ middle, ¬ Unnameable d) ∧
            ((before ++ [c] ++ middle).Pairwise fun d e => ¬ NamedAlike e d) ∧ Unnameable c' := by
        constructor
        · rintro ⟨middle, after, c', split, named, distinct, unnameable⟩
          cases middle with
          | nil =>
            cases split
            exact absurd unnameable nameable
          | cons d middle =>
            cases split
            refine ⟨middle, after, c', rfl, (List.forall_mem_cons.1 named).2, ?_, unnameable⟩
            rwa [List.append_assoc, List.singleton_append]
        · rintro ⟨middle, after, c', rfl, named, distinct, unnameable⟩
          rw [List.append_assoc, List.singleton_append] at distinct
          exact ⟨c :: middle, after, c', rfl, List.forall_mem_cons.2 ⟨nameable, named⟩, distinct, unnameable⟩
      rw [later]
      dsimp only
      split
      next repeated =>
        rw [here]
        refine iff_of_false ?_ ?_
        · rintro ⟨f, unusable⟩
          cases unusable
        · rintro ⟨middle, after, c', _, _, distinct, _⟩
          obtain ⟨d, present, alike⟩ := known.1 repeated
          have before' := (List.pairwise_append.1 distinct).1
          exact (List.pairwise_append.1 before').2.2 d present c List.mem_cons_self alike
      next fresh =>
        apply ih others
        · exact marks_cons listed marked
        · rw [List.pairwise_append]
          refine ⟨apart, List.pairwise_singleton _ _, ?_⟩
          intro d present e last alike
          cases List.mem_singleton.1 last
          exact fresh (known.2 ⟨d, present, alike⟩)

/-! ### The whole matrix -/

theorem combinations_of_filled (filled : m.Filled) : m.combinations =
    if m.nonScalars.any (fun found => found.2.1.isUnwritable || found.2.2.isUnwritable) then
      .error (.unusable .unwritable)
    else if !m.nonScalars.isEmpty then .error (.nonScalars m.nonScalars)
    else do
      m.checkExcluded m.excluded
      if m.merged.isEmpty then .error .noJobs
      else
        checkDistinct [] m.merged
        return m.merged := by
  have declared : ¬ (m.axes.isEmpty = true ∧ m.included.isEmpty = true) := by simpa using filled.1
  have none : m.axes.find? (fun axis => axis.2.isEmpty) = none := by simpa using filled.2
  rw [combinations, if_neg declared, none]

theorem filled_of_unusable {f : ValueFault} (broken : m.combinations = .error (.unusable f)) : m.Filled := by
  unfold combinations at broken
  split at broken
  next => split at broken <;> cases broken
  next declared =>
    split at broken
    next => cases broken
    next none => exact ⟨by simpa using declared, by simpa using none⟩

theorem checkDistinct_merged (written : ∀ entry ∈ m.included, ∀ key ∈ entry.keys, key.isUnwritable = false) :
    (∃ f, checkDistinct [] m.merged = .error (.unusable f)) ↔ ∃ before after c, m.merged = before ++ c :: after ∧
      (∀ d ∈ before, ¬ Unnameable d) ∧ (before.Pairwise fun d e => ¬ NamedAlike e d) ∧ Unnameable c := by
  exact @checkDistinct_unusable [] m.merged [] (merged_written written) (by simp) .nil

/-- A matrix whose included entries have keys with a text breaks validation off where its combinations cannot be found. -/
theorem combinations_unusable (written : ∀ entry ∈ m.included, ∀ key ∈ entry.keys, key.isUnwritable = false) :
    (∃ f, m.combinations = .error (.unusable f)) ↔ m.Breaks := by
  have listed : m.nonScalars.any (fun found => found.2.1.isUnwritable || found.2.2.isUnwritable) = true ↔
      ∃ place key v, (place, key, v) ∈ m.nonScalars ∧ (key.isUnwritable = true ∨ v.isUnwritable = true) := by
    simp only [List.any_eq_true, Prod.exists, Bool.or_eq_true]
  constructor
  · rintro ⟨f, broken⟩
    have filled := filled_of_unusable broken
    rw [combinations_of_filled filled] at broken
    split at broken
    next long =>
      obtain ⟨place, key, v, member, long⟩ := listed.1 long
      exact .value filled place key v member long
    next =>
      split at broken
      next => cases broken
      next none =>
        have scalars : m.Scalars := nonScalars_nil.1 (by simpa using none)
        rcases bind_error.1 broken with excluded | ⟨_, known, rest⟩
        · obtain ⟨entry, first, unlisted⟩ := checkExcluded_unusable.1 ⟨f, excluded⟩
          exact .axes filled scalars entry first unlisted
        · split at rest
          next => cases rest
          next =>
            rcases bind_error.1 rest with repeated | ⟨_, _, done⟩
            · obtain ⟨before, after, c, split, named, apart, unnameable⟩ := (checkDistinct_merged written).1 ⟨f, repeated⟩
              exact .combination filled scalars (checkExcluded_ok.1 known) before after c split named apart unnameable
            · cases done
  · intro breaks
    have opened (scalars : m.Scalars) :
        ¬ (m.nonScalars.any fun found => found.2.1.isUnwritable || found.2.2.isUnwritable) = true ∧
          ¬ (!m.nonScalars.isEmpty) = true := by
      rw [nonScalars_nil.2 scalars]
      exact ⟨Bool.false_ne_true, Bool.false_ne_true⟩
    cases breaks with
    | key entry member key present long => cases (written entry member key present).symm.trans long
    | value filled place key v member long =>
      rw [combinations_of_filled filled, if_pos (listed.2 ⟨place, key, v, member, long⟩)]
      exact ⟨_, rfl⟩
    | axes filled scalars entry first unlisted =>
      obtain ⟨f, excluded⟩ := checkExcluded_unusable.2 ⟨entry, first, unlisted⟩
      rw [combinations_of_filled filled, if_neg (opened scalars).1, if_neg (opened scalars).2, excluded]
      exact ⟨f, rfl⟩
    | combination filled scalars known before after c split named apart unnameable =>
      obtain ⟨f, repeated⟩ := (checkDistinct_merged written).2 ⟨before, after, c, split, named, apart, unnameable⟩
      have some : ¬ m.merged.isEmpty = true := by simp [split]
      rw [combinations_of_filled filled, if_neg (opened scalars).1, if_neg (opened scalars).2, checkExcluded_ok.2 known,
        if_neg some, repeated]
      exact ⟨f, rfl⟩

end Matrix

/-- What breaks the validation of a reference off: a filter that cannot be written where it has to be named in a problem,
or keys that the producing stage does not have and that have no order. -/
inductive ArtifactRef.Breaks (p : Pipeline) (prerequisites : List String) (r : ArtifactRef) : Prop
  | stranger (outside : r.stage ∉ prerequisites) (long : Value.anyEntryUnwritable r.filter = true)
  | unordered (inside : r.stage ∈ prerequisites) (producer : Stage) (found : p.stage? r.stage = some producer)
      (mixed : ¬ Value.Orderable (Validation.strangeKeys producer r))
  | misfit (inside : r.stage ∈ prerequisites) (producer : Stage) (found : p.stage? r.stage = some producer)
      (wrong : Validation.strangeKeys producer r ≠ [] ∨ Validation.isUnpublished producer r = true)
      (long : Value.anyEntryUnwritable r.filter = true)

inductive Stage.Breaks (p : Pipeline) (prerequisites : List String) (s : Stage) : Prop
  | limit (limit : Number) (set : s.timeout = some limit) (wrong : limit.isNonPositive = true)
      (long : limit.isUnwritable = true)
  | matrix (m : Matrix) (declared : s.matrix = some m) (breaks : m.Breaks)
  | template (v : Value) (member : v ∈ Validation.searched s) (endless : v.isEndless = true)
  | reference (r : ArtifactRef) (member : r ∈ s.consumes) (breaks : r.Breaks p prerequisites)

/-- The names of the stages that a stage needs, directly or through others. -/
def StageGraph.prerequisites (g : StageGraph) (index : Nat) : List String :=
  (g.ancestors index).filterMap fun i => (g.stage? i).map (·.name)

/-- A pipeline has a graph, and its variables or one of its stages break validation off. -/
def Pipeline.Breaks (p : Pipeline) : Prop :=
  ∃ g, StageGraph.build p.stages = .ok g ∧ ((∃ v ∈ p.env.values, v.isEndless = true) ∨
    ∃ (i : Nat) (s : Stage), g.stages[i]? = some s ∧ s.Breaks p (g.prerequisites i))

namespace Validation

variable {α : Type} {executors : Registry α} {p : Pipeline} {s : Stage} {r : ArtifactRef} {prerequisites : List String}

theorem timeoutProblems_succeeds : Succeeds (timeoutProblems s) ↔
    ¬ ∃ limit, s.timeout = some limit ∧ limit.isNonPositive = true ∧ limit.isUnwritable = true := by
  unfold timeoutProblems
  split
  next none =>
    rw [Option.filter_eq_none_iff] at none
    refine iff_of_true (succeeds_ok []) ?_
    rintro ⟨limit, set, wrong, _⟩
    exact none limit set wrong
  next limit wrong =>
    obtain ⟨set, wrong⟩ := Option.filter_eq_some_iff.1 wrong
    split
    next long => exact iff_of_false (not_succeeds_error _) (not_not.2 ⟨limit, set, wrong, long⟩)
    next short =>
      refine iff_of_true (succeeds_ok _) ?_
      rintro ⟨other, set', _, long⟩
      cases set.symm.trans set'
      exact short long

theorem rejection_unusable {name : String} {x : Except MatrixFault (List Mapping)} {f : ValueFault} :
    x.mapError (MatrixFault.rejection name) = .error (.unusable f) ↔ x = .error (.unusable f) := by
  cases x with
  | ok => simp [Except.mapError]
  | error fault => cases fault <;> simp [Except.mapError, MatrixFault.rejection]

theorem matrixProblems_succeeds : Succeeds (matrixProblems s) ↔ ¬ ∃ m, s.matrix = some m ∧ m.Breaks := by
  have ends : Succeeds (matrixProblems s) ↔
      hasUnwritableKey s = false ∧ ¬ ∃ f, s.combinations = .error (.unusable f) := by
    unfold matrixProblems
    split
    next f broken => exact iff_of_false (not_succeeds_error f) fun sound => sound.2 ⟨f, broken⟩
    next c refused =>
      cases hasUnwritableKey s with
      | true => exact iff_of_false (not_succeeds_error _) fun sound => Bool.noConfusion sound.1
      | false => exact iff_of_true (succeeds_ok _) ⟨rfl, by simp [refused]⟩
    next combinations found =>
      cases hasUnwritableKey s with
      | true => exact iff_of_false (not_succeeds_error _) fun sound => Bool.noConfusion sound.1
      | false => exact iff_of_true (succeeds_ok _) ⟨rfl, by simp [found]⟩
  rw [ends]
  cases declared : s.matrix with
  | none =>
    have written : hasUnwritableKey s = false := by simp [hasUnwritableKey, declared]
    exact iff_of_true ⟨written, by simp [Stage.combinations, declared]⟩ (by simp)
  | some m =>
    simp only [Option.some.injEq, exists_eq_left']
    by_cases long : hasUnwritableKey s = true
    · obtain ⟨entry, member, key, present, unwritable⟩ := (hasUnwritableKey_iff declared).1 long
      refine iff_of_false ?_ (not_not.2 (.key entry member key present unwritable))
      rintro ⟨short, _⟩
      cases long.symm.trans short
    · rw [Bool.not_eq_true] at long
      rw [and_iff_right long, ← Matrix.combinations_unusable ((hasUnwritableKey_eq_false declared).1 long)]
      simp only [Stage.combinations, declared, rejection_unusable]

theorem checkEnds_succeeds {values : List Value} :
    Succeeds (checkEnds values) ↔ ∀ v ∈ values, v.isEndless = false := by
  rw [← checkEnds_ok]
  exact ⟨fun ⟨_, done⟩ => done, fun done => ⟨(), done⟩⟩

theorem stageProblems_succeeds : Succeeds (stageProblems executors s) ↔
    Succeeds (timeoutProblems s) ∧ Succeeds (matrixProblems s) ∧ Succeeds (checkEnds (searched s)) :=
  succeeds_bind fun _ => succeeds_bind fun _ => succeeds_map

/-! ### References -/

theorem consumeProblem_succeeds {text : String} :
    Succeeds (consumeProblem s r text) ↔ Value.anyEntryUnwritable r.filter = false := by
  unfold consumeProblem
  cases Value.anyEntryUnwritable r.filter with
  | true => exact iff_of_false (not_succeeds_error _) nofun
  | false => exact iff_of_true (succeeds_ok _) rfl

theorem keyProblems_succeeds {strangers : List Value} : Succeeds (keyProblems s r strangers) ↔
    (strangers ≠ [] → Value.anyEntryUnwritable r.filter = false) := by
  unfold keyProblems
  cases strangers with
  | nil => exact iff_of_true (succeeds_ok []) fun some => absurd rfl some
  | cons => exact consumeProblem_succeeds.trans (by simp)

theorem nameProblems_succeeds {producer : Stage} : Succeeds (nameProblems s producer r) ↔
    (isUnpublished producer r = true → Value.anyEntryUnwritable r.filter = false) := by
  unfold nameProblems
  split
  next unpublished => exact consumeProblem_succeeds.trans (by simp [unpublished])
  next published => exact iff_of_true (succeeds_ok []) fun unpublished => absurd unpublished published

theorem ArtifactRef.breaks_inside {producer : Stage} (inside : r.stage ∈ prerequisites)
    (found : p.stage? r.stage = some producer) : r.Breaks p prerequisites ↔ ¬ Value.Orderable (strangeKeys producer r) ∨
      (strangeKeys producer r ≠ [] ∨ isUnpublished producer r = true) ∧ Value.anyEntryUnwritable r.filter = true := by
  constructor
  · intro breaks
    cases breaks with
    | stranger outside _ => exact absurd inside outside
    | unordered _ other found' mixed =>
      cases found.symm.trans found'
      exact Or.inl mixed
    | misfit _ other found' wrong long =>
      cases found.symm.trans found'
      exact Or.inr ⟨wrong, long⟩
  · rintro (mixed | ⟨wrong, long⟩)
    · exact .unordered inside producer found mixed
    · exact .misfit inside producer found wrong long

theorem consumeProblems_succeeds : Succeeds (consumeProblems p s prerequisites r) ↔ ¬ r.Breaks p prerequisites := by
  unfold consumeProblems
  by_cases inside : r.stage ∈ prerequisites
  · have known : ¬ (!prerequisites.contains r.stage) = true := by simpa using inside
    rw [if_neg known]
    split
    next missing =>
      refine iff_of_true (succeeds_ok []) fun breaks => ?_
      cases breaks with
      | stranger outside _ => exact outside inside
      | unordered _ producer found _ => cases missing.symm.trans found
      | misfit _ producer found _ _ => cases missing.symm.trans found
    next producer found =>
      rw [ArtifactRef.breaks_inside inside found, ← Value.sorted_succeeds]
      cases sorted : Value.sorted (strangeKeys producer r) with
      | error f => exact iff_of_false (not_succeeds_error f) (not_not.2 (Or.inl (not_succeeds_error f)))
      | ok strangers =>
        have same : strangers = [] ↔ strangeKeys producer r = [] := by
          simp only [List.eq_nil_iff_forall_not_mem, Value.mem_sorted sorted]
        have rest : Succeeds (keyProblems s r strangers >>= fun unknown =>
            nameProblems s producer r >>= fun unpublished => pure (unknown ++ unpublished)) ↔
              Succeeds (keyProblems s r strangers) ∧ Succeeds (nameProblems s producer r) :=
          succeeds_bind fun _ => succeeds_map
        have done : Succeeds (.ok strangers : Except ValueFault _) := succeeds_ok strangers
        refine rest.trans ?_
        rw [keyProblems_succeeds, nameProblems_succeeds, ne_eq, same, or_iff_right (not_not.2 done), ← or_imp, not_and,
          Bool.not_eq_true]
  · have unknown : (!prerequisites.contains r.stage) = true := by simpa using inside
    rw [if_pos unknown, consumeProblem_succeeds, ← Bool.not_eq_true, not_iff_not]
    refine ⟨.stranger inside, fun breaks => ?_⟩
    cases breaks with
    | stranger _ long => exact long
    | unordered present => exact absurd present inside
    | misfit present => exact absurd present inside

/-! ### Pipelines -/

theorem allStageProblems_succeeds {g : StageGraph} {index : Nat} :
    Succeeds (allStageProblems executors p g s index) ↔ ¬ s.Breaks p (g.prerequisites index) := by
  have parts : Succeeds (allStageProblems executors p g s index) ↔ Succeeds (stageProblems executors s) ∧
      Succeeds (s.consumes.mapM (consumeProblems p s (g.prerequisites index))) :=
    succeeds_bind fun _ => succeeds_map
  rw [parts, stageProblems_succeeds, timeoutProblems_succeeds, matrixProblems_succeeds, checkEnds_succeeds,
    succeeds_mapM]
  simp only [consumeProblems_succeeds]
  constructor
  · rintro ⟨⟨limits, matrices, ends⟩, references⟩ breaks
    cases breaks with
    | limit limit set wrong long => exact limits ⟨limit, set, wrong, long⟩
    | matrix m declared breaks => exact matrices ⟨m, declared, breaks⟩
    | template v member endless => cases (ends v member).symm.trans endless
    | reference r member breaks => exact references r member breaks
  · intro sound
    refine ⟨⟨?_, ?_, fun v member => ?_⟩, fun r member breaks => sound (.reference r member breaks)⟩
    · rintro ⟨limit, set, wrong, long⟩
      exact sound (.limit limit set wrong long)
    · rintro ⟨m, declared, breaks⟩
      exact sound (.matrix m declared breaks)
    · exact Bool.eq_false_iff.2 fun endless => sound (.template v member endless)

def problems (p : Pipeline) (stages : List (List String)) : List String :=
  triggerProblems p.triggers ++
    templateProblems "pipeline env" (Template.namesOfFields p.env) Context.knownVariables [] ++ stages.flatten

/-- The problems of all stages, if the variables of the pipeline and all stages can be looked through. -/
def stagesProblems (executors : Registry α) (p : Pipeline) (g : StageGraph) : Except ValueFault (List (List String)) :=
  checkEnds p.env.values >>= fun _ =>
    g.stages.zipIdx.mapM fun item => allStageProblems executors p g item.1 item.2

theorem check_of_graph {g : StageGraph} (built : StageGraph.build p.stages = .ok g) : check executors p =
    (stagesProblems executors p g).mapError Rejection.unusable >>=
      fun stages => if (problems p stages).isEmpty then .ok ()
        else .error (.complaint ⟨"Invalid pipeline '" ++ p.name ++ "'", problems p stages⟩) := by
  rw [check, built, stagesProblems, mapError_bind]
  cases checkEnds p.env.values <;> rfl

theorem stagesProblems_succeeds {g : StageGraph} (built : StageGraph.build p.stages = .ok g) :
    Succeeds (stagesProblems executors p g) ↔ ¬ p.Breaks := by
  rw [stagesProblems, succeeds_bind fun _ => Iff.rfl, checkEnds_succeeds, succeeds_mapM]
  simp only [Pipeline.Breaks, built, Except.ok.injEq, exists_eq_left', allStageProblems_succeeds, Prod.forall,
    List.mk_mem_zipIdx_iff_getElem?, not_or, not_exists, not_and, Bool.not_eq_true]
  exact and_congr_right fun _ => forall_comm

/-- Validation accepts a pipeline or complains about it, unless the pipeline breaks it off. -/
theorem check_answers_iff (executors : Registry α) (p : Pipeline) :
    (check executors p = .ok () ∨ ∃ c, check executors p = .error (.complaint c)) ↔ ¬ p.Breaks := by
  cases built : StageGraph.build p.stages with
  | error fault =>
    refine iff_of_true (Or.inr ⟨fault.complaint, ?_⟩) ?_
    · rw [check, built]
      rfl
    · rintro ⟨g, built', _⟩
      cases built.symm.trans built'
  | ok g =>
    rw [← stagesProblems_succeeds built, check_of_graph built]
    cases stagesProblems executors p g with
    | error f => exact iff_of_false (by rintro (done | ⟨c, done⟩) <;> cases done) (not_succeeds_error f)
    | ok stages =>
      refine iff_of_true ?_ (succeeds_ok stages)
      by_cases clean : (problems p stages).isEmpty = true
      · exact Or.inl (if_pos clean)
      · exact Or.inr ⟨_, if_neg clean⟩

/-- A matrix with an included entry whose keys are a number and a text. -/
def mixedKeys : Value :=
  .map [(.str "jobs", .map [(.str "a", .map [
    (.str "matrix", .map [(.str "os", .list [.str "linux"]),
      (.str "include", .list [.map [(.int 1, .str "x"), (.str "arch", .str "y")]])]),
    (.str "steps", .list [.map [(.str "run", .str "make")]])])])]

theorem mixed_keys_break_off : ∃ p, Document.parsePipeline "<document>" mixedKeys = .ok p ∧
    check shells p = .error (.unusable (.unordered "int" "str")) := by
  have broken : (Document.parsePipeline "<document>" mixedKeys).toOption.any (fun p =>
      decide (check shells p = .error (.unusable (.unordered "int" "str")))) = true := by decide +kernel
  obtain ⟨p, parsed, found⟩ := ok_of_any broken
  exact ⟨p, parsed, of_decide_eq_true found⟩

end Validation
end Conveyor

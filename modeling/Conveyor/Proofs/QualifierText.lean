import Conveyor.Proofs.InputResolution

/-! What a qualifier spells out when it is read back. It is cut at every comma and every part at its first equals sign,
and no backslash is taken away. So the texts of an assignment come back exactly if none of them has a character that is
escaped. -/

namespace Conveyor

namespace Text

variable {separator : Char}

theorem splitChars_ne_nil (s : List Char) : splitChars separator s ≠ [] := by
  cases s with
  | nil => simp [splitChars]
  | cons c s =>
    unfold splitChars
    split
    · simp
    · split <;> simp

theorem splitChars_append (first second : List Char) :
    splitChars separator (first ++ separator :: second) =
      splitChars separator first ++ splitChars separator second := by
  induction first with
  | nil => simp [splitChars]
  | cons c first ih =>
    by_cases same : c = separator
    · simp [splitChars, same, ih]
    · simp only [List.cons_append, splitChars, same, if_false, ih]
      cases parts : splitChars separator first with
      | nil => exact (splitChars_ne_nil first parts).elim
      | cons part parts => rfl

theorem splitChars_intercalate {parts : List (List Char)} (some : parts ≠ []) :
    splitChars separator ([separator].intercalate parts) = parts.flatMap (splitChars separator) := by
  induction parts with
  | nil => exact (some rfl).elim
  | cons part parts ih =>
    cases parts with
    | nil => simp
    | cons next parts =>
      rw [List.intercalate_cons_cons, List.append_assoc, List.singleton_append, splitChars_append, ih (by simp),
        ← List.flatMap_cons]

theorem splitChars_whole {s : List Char} (absent : separator ∉ s) : splitChars separator s = [s] := by
  induction s with
  | nil => rfl
  | cons c s ih =>
    rw [List.mem_cons, not_or] at absent
    rw [splitChars, if_neg (Ne.symm absent.1), ih absent.2]

theorem notMem_of_mem_splitChars {s part : List Char} (member : part ∈ splitChars separator s) :
    separator ∉ part := by
  induction s generalizing part with
  | nil =>
    cases List.mem_singleton.1 member
    exact List.not_mem_nil
  | cons c s ih =>
    unfold splitChars at member
    split at member
    next =>
      rcases List.mem_cons.1 member with rfl | later
      · exact List.not_mem_nil
      · exact ih later
    next other =>
      split at member
      next nothing => exact (splitChars_ne_nil s nothing).elim
      next first parts split =>
        rcases List.mem_cons.1 member with rfl | later
        · rw [List.mem_cons, not_or]
          exact ⟨Ne.symm other, ih (by simp [split])⟩
        · exact ih (by simp [split, later])

theorem cutChars?_eq_some_iff {s before after : List Char} :
    cutChars? separator s = some (before, after) ↔ s = before ++ separator :: after ∧ separator ∉ before := by
  induction s generalizing before with
  | nil => simp [cutChars?]
  | cons c s ih =>
    by_cases same : c = separator
    · subst same
      cases before with
      | nil => simp [cutChars?]
      | cons d before =>
        simp only [cutChars?, if_true, Option.some.injEq, Prod.mk.injEq, List.nil_eq, reduceCtorEq, false_and,
          List.cons_append, List.cons.injEq, List.mem_cons, not_or, false_iff]
        rintro ⟨⟨same, _⟩, other, _⟩
        exact other same
    · cases before with
      | nil => simp [cutChars?, same]
      | cons d before =>
        have rest := @ih before
        simp only [cutChars?, same, if_false, Option.map_eq_some_iff, Prod.mk.injEq, List.cons.injEq, Prod.exists,
          List.cons_append, List.mem_cons, not_or]
        constructor
        · rintro ⟨_, _, cut, ⟨rfl, rfl⟩, rfl⟩
          obtain ⟨whole, absent⟩ := rest.1 cut
          exact ⟨⟨rfl, whole⟩, Ne.symm same, absent⟩
        · rintro ⟨⟨rfl, whole⟩, _, absent⟩
          exact ⟨before, after, rest.2 ⟨whole, absent⟩, ⟨rfl, rfl⟩, rfl⟩

end Text

namespace Assignment

def Bare (text : String) : Prop := ∀ c ∈ text.toList, ¬ (c = '\\' ∨ c = ',' ∨ c = '=')

/-- An assignment of which no key or value has a character that is escaped. -/
def Legible (a : Assignment) : Prop := ∀ field ∈ a, Bare field.1.text ∧ Bare field.2.text

instance (text : String) : Decidable (Bare text) := List.decidableBAll _ text.toList

instance (a : Assignment) : Decidable a.Legible := List.decidableBAll _ a

def texts (a : Assignment) : List (String × String) := a.map fun (k, v) => (k.text, v.text)

/-- The pairs into which the parts of an assignment are cut, in order. -/
def pieces (parts : List String) : List (String × String) :=
  parts.flatMap fun part => (Text.split ',' part).filterMap (Text.cut? '=')

theorem mem_escaped {c : Char} (other : c ≠ '\\') (chars : List Char) :
    c ∈ chars.flatMap escapeChar ↔ c ∈ chars := by
  have single (d : Char) : c ∈ escapeChar d ↔ c = d := by
    unfold escapeChar
    split <;> simp [other]
  simp [List.mem_flatMap, single]

theorem length_escaped (chars : List Char) :
    (chars.flatMap escapeChar).length = chars.length + chars.countP fun c => c = '\\' ∨ c = ',' ∨ c = '=' := by
  induction chars with
  | nil => rfl
  | cons c chars ih =>
    rw [List.flatMap_cons, List.length_append, ih, List.length_cons, List.countP_cons, escapeChar]
    split <;> simp_all <;> omega

theorem escape_eq_text_iff {v : Value} : escape v = v.text ↔ Bare v.text := by
  constructor
  · intro same c member
    have length := length_escaped v.text.toList
    rw [← String.toList_ofList (l := v.text.toList.flatMap escapeChar), ← escape, same] at length
    have none := List.countP_eq_zero.1 (by omega : v.text.toList.countP (fun c => c = '\\' ∨ c = ',' ∨ c = '=') = 0)
    simpa using none c member
  · intro bare
    have kept : v.text.toList.flatMap escapeChar = v.text.toList.flatMap fun c => [c] := by
      apply List.flatMap_congr
      intro c member
      exact if_neg (bare c member)
    rw [escape, kept, List.flatMap_singleton', String.ofList_toList]

/-- Backslashes are all that is escaped in a text without separators, and come out twice as often. -/
theorem count_escaped {chars : List Char} (commas : ',' ∉ chars) (signs : '=' ∉ chars) :
    (chars.flatMap escapeChar).count '\\' = 2 * chars.count '\\' := by
  induction chars with
  | nil => rfl
  | cons c chars ih =>
    rw [List.mem_cons, not_or] at commas signs
    rw [List.flatMap_cons, List.count_append, ih commas.2 signs.2, List.count_cons, escapeChar]
    by_cases slash : c = '\\'
    · simp [slash]
      omega
    · simp [slash, Ne.symm commas.1, Ne.symm signs.1]

theorem qualifierPairs_qualifier (a : Assignment) :
    Inputs.qualifierPairs a.qualifier = Table.ofPairs (pieces a.parts) := by
  rw [Inputs.qualifierPairs, pieces]
  congr 1
  cases fields : a.parts with
  | nil => 
    simp only [qualifier, fields, String.intercalate]
    rfl
  | cons part parts =>
    have chars : ([','] : List Char).intercalate ((part :: parts).map String.toList) = a.qualifier.toList := by
      rw [qualifier, String.toList_intercalate, fields]
      rfl
    rw [Text.split, ← chars, Text.splitChars_intercalate (by simp)]
    simp [Text.split, List.map_flatMap, List.flatMap_map, List.filterMap_flatMap]

theorem mem_pieces {parts : List String} {pair : String × String} (member : pair ∈ pieces parts) :
    ',' ∉ pair.1.toList ∧ '=' ∉ pair.1.toList ∧ ',' ∉ pair.2.toList := by
  obtain ⟨part, _, member⟩ := List.mem_flatMap.1 member
  obtain ⟨piece, listed, cut⟩ := List.mem_filterMap.1 member
  obtain ⟨chars, split, rfl⟩ := List.mem_map.1 listed
  obtain ⟨⟨before, after⟩, found, rfl⟩ := Option.map_eq_some_iff.1 cut
  rw [String.toList_ofList, Text.cutChars?_eq_some_iff] at found
  obtain ⟨rfl, unsigned⟩ := found
  have whole := Text.notMem_of_mem_splitChars split
  rw [List.mem_append, List.mem_cons, not_or, not_or] at whole
  simp only [String.toList_ofList]
  exact ⟨whole.1, unsigned, whole.2.2⟩

theorem pieces_parts {a : Assignment} (clean : ∀ field ∈ a, ',' ∉ field.1.text.toList ∧
    '=' ∉ field.1.text.toList ∧ ',' ∉ field.2.text.toList) :
    pieces a.parts = a.map fun (k, v) => (escape k, escape v) := by
  rw [pieces, parts, List.flatMap_map, List.map_eq_flatMap]
  apply List.flatMap_congr
  rintro ⟨k, v⟩ member
  obtain ⟨comma, sign, comma'⟩ := clean _ member
  have chars : (escape k ++ "=" ++ escape v).toList = (escape k).toList ++ '=' :: (escape v).toList := by simp
  have keyChars : (escape k).toList = k.text.toList.flatMap escapeChar := String.toList_ofList
  have valueChars : (escape v).toList = v.text.toList.flatMap escapeChar := String.toList_ofList
  have together : ',' ∉ (escape k).toList ++ '=' :: (escape v).toList := by
    rw [List.mem_append, List.mem_cons, keyChars, valueChars, mem_escaped (by decide), mem_escaped (by decide)]
    simp [comma, comma']
  have cut : Text.cutChars? '=' ((escape k).toList ++ '=' :: (escape v).toList) =
      some ((escape k).toList, (escape v).toList) := by
    rw [Text.cutChars?_eq_some_iff, keyChars, mem_escaped (by decide)]
    exact ⟨rfl, sign⟩
  simp only [Text.split, chars, Text.splitChars_whole together, List.map_cons, List.map_nil, List.filterMap_cons,
    Text.cut?, String.toList_ofList, cut, Option.map_some, String.ofList_toList, List.filterMap_nil]

theorem get?_texts {a : Assignment} (named : Table.TextKeys a) (key : String) :
    (Table.ofPairs a.texts).get? key = ((Table.ofPairs a).get? (.str key)).map Value.text := by
  have along (table : Mapping) (spelled : Table String String)
      (same : spelled.get? key = (table.get? (.str key)).map Value.text) :
      (spelled.update a.texts).get? key = ((table.update a).get? (.str key)).map Value.text := by
    induction a generalizing table spelled with
    | nil => exact same
    | cons field a ih =>
      obtain ⟨⟨text, key'⟩, rest⟩ := List.forall_mem_cons.1 named
      obtain ⟨_, value⟩ := field
      cases key'
      apply ih rest
      rw [Table.get?_insert, Table.get?_insert_exact (Value.str_exact text) (Value.str_exact key), same]
      by_cases here : text = key <;> simp [Key.same, Value.alike, Value.text, here]
  exact along [] [] rfl

theorem Legible.spelled {a : Assignment} (legible : a.Legible) (named : Table.TextKeys a) (key : String) :
    (Inputs.qualifierPairs a.qualifier).get? key = ((Table.ofPairs a).get? (.str key)).map Value.text := by
  rw [qualifierPairs_qualifier, pieces_parts, ← get?_texts named, texts]
  · congr 2
    apply List.map_congr_left
    rintro ⟨k, v⟩ member
    obtain ⟨first, second⟩ := legible _ member
    exact Prod.ext (escape_eq_text_iff.2 first) (escape_eq_text_iff.2 second)
  · intro field member
    obtain ⟨first, second⟩ := legible field member
    exact ⟨fun comma => first _ comma (by simp), fun sign => first _ sign (by simp),
      fun comma => second _ comma (by simp)⟩

theorem legible_of_spelled {a : Assignment} (named : Table.TextKeys a) (distinct : (Table.keys a).Nodup)
    (spelled : ∀ key, (Inputs.qualifierPairs a.qualifier).get? key =
      ((Table.ofPairs a).get? (.str key)).map Value.text) : a.Legible := by
  have listed : ∀ field ∈ a, (field.1.text, field.2.text) ∈ pieces a.parts := by
    rintro ⟨key, value⟩ member
    obtain ⟨text, rfl⟩ := named _ member
    have found := spelled text
    rw [Table.ofPairs_of_nodup named.exact distinct, Table.get?_of_mem distinct (Value.str_exact text) member,
      qualifierPairs_qualifier] at found
    exact Table.mem_ofPairs (Table.exact _) (Table.mem_of_get? (Key.exact text) found)
  have clean : ∀ field ∈ a, ',' ∉ field.1.text.toList ∧ '=' ∉ field.1.text.toList ∧ ',' ∉ field.2.text.toList :=
    fun field member => mem_pieces (listed field member)
  have source : ∀ field ∈ a, ∃ other ∈ a, escape other.1 = field.1.text ∧ escape other.2 = field.2.text := by
    intro field member
    have cut := listed field member
    rw [pieces_parts clean] at cut
    obtain ⟨other, inside, same⟩ := List.mem_map.1 cut
    exact ⟨other, inside, Prod.ext_iff.1 same⟩
  -- A key with backslashes would be the escaped form of a key with half as many, and so on without end.
  have slashless (n : Nat) : ∀ field ∈ a, field.1.text.toList.count '\\' = n → n = 0 := by
    induction n using Nat.strongRecOn with
    | _ n ih =>
      intro field member count
      obtain ⟨other, inside, same, _⟩ := source field member
      have double := count_escaped (clean other inside).1 (clean other inside).2.1
      rw [← String.toList_ofList (l := other.1.text.toList.flatMap escapeChar), ← escape, same, count] at double
      by_contra positive
      have zero := ih _ (by omega) other inside rfl
      omega
  have bare : ∀ field ∈ a, Bare field.1.text := by
    rintro field member c inside (slash | comma | sign)
    · have none := slashless _ field member rfl
      rw [List.count_eq_zero] at none
      exact none (slash ▸ inside)
    · exact (clean field member).1 (comma ▸ inside)
    · exact (clean field member).2.1 (sign ▸ inside)
  intro field member
  refine ⟨bare field member, escape_eq_text_iff.1 ?_⟩
  obtain ⟨other, inside, key, value⟩ := source field member
  obtain ⟨text, first⟩ := named field member
  obtain ⟨text', second⟩ := named other inside
  have same : other.1 = field.1 := by
    rw [escape_eq_text_iff.2 (bare other inside), first, second] at key
    rw [first, second]
    exact congrArg Value.str key
  rwa [List.inj_on_of_nodup_map distinct inside member same] at value

end Assignment

namespace Job

/-- A filter has a value that cannot be written, and agrees with a job on all before it. -/
def MeetsUnwritable (j : Job) (filter : Mapping) : Prop :=
  ∃ before k v after, filter = before ++ (k, v) :: after ∧ j.fits before = true ∧ v.isUnwritable = true

theorem not_meetsUnwritable_nil {j : Job} : ¬ j.MeetsUnwritable [] := by
  simp [MeetsUnwritable]

theorem meetsUnwritable_cons {j : Job} {k v : Value} {rest : Mapping} : j.MeetsUnwritable ((k, v) :: rest) ↔
    v.isUnwritable = true ∨ (j.matrix.get? k).map Value.text = some v.text ∧ j.MeetsUnwritable rest := by
  constructor
  · rintro ⟨_ | ⟨first, before⟩, k', v', after, split, fits, unwritable⟩
    · cases split
      exact Or.inl unwritable
    · cases split
      rw [Job.fits, List.all_cons, Bool.and_eq_true, beq_iff_eq] at fits
      exact Or.inr ⟨fits.1, before, k', v', after, rfl, fits.2, unwritable⟩
  · rintro (unwritable | ⟨same, before, k', v', after, rfl, fits, unwritable⟩)
    · exact ⟨[], k, v, rest, rfl, rfl, unwritable⟩
    · refine ⟨(k, v) :: before, k', v', after, rfl, ?_, unwritable⟩
      rw [Job.fits, List.all_cons, Bool.and_eq_true, beq_iff_eq]
      exact ⟨same, fits⟩

theorem qualifierAccepts_str {pairs : Table String String} {key : String} {v : Value}
    (writable : v.isUnwritable = false) (rest : Mapping) :
    Inputs.qualifierAccepts pairs ((.str key, v) :: rest) =
      if pairs.get? key = some v.text then Inputs.qualifierAccepts pairs rest else .ok false := by
  rw [Inputs.qualifierAccepts, Value.written_ok writable]
  rfl

theorem qualifierAccepts_text {pairs : Table String String} {key text : String} :
    Inputs.qualifierAccepts pairs [(.str key, .str text)] = .ok (decide (pairs.get? key = some text)) := by
  rw [qualifierAccepts_str rfl, Value.text, Inputs.qualifierAccepts]
  split <;> simp [*]

/-- For a filter with text keys it is the same to ask a job and to ask its qualifier, if that spells out the values of
the job; but the qualifier has each value of the filter written before it looks for the key. -/
theorem qualifierAccepts_cases {j : Job} (spelled : ∀ key, (Inputs.qualifierPairs j.qualifier).get? key =
    (j.matrix.get? (.str key)).map Value.text) {filter : Mapping} (named : filter.TextKeys) :
    Inputs.qualifierAccepts (Inputs.qualifierPairs j.qualifier) filter = .error .unwritable ∧ j.MeetsUnwritable filter ∨
      Inputs.qualifierAccepts (Inputs.qualifierPairs j.qualifier) filter = .ok (j.fits filter) ∧
        ¬ j.MeetsUnwritable filter := by
  induction filter with
  | nil => exact Or.inr ⟨rfl, not_meetsUnwritable_nil⟩
  | cons entry rest ih =>
    obtain ⟨k, v⟩ := entry
    obtain ⟨text, rfl⟩ : ∃ text, k = .str text := named _ List.mem_cons_self
    rw [meetsUnwritable_cons, fits, List.all_cons]
    by_cases unwritable : v.isUnwritable = true
    · exact Or.inl ⟨by rw [Inputs.qualifierAccepts, Value.written_error unwritable]; rfl, Or.inl unwritable⟩
    rw [qualifierAccepts_str (Bool.eq_false_iff.2 unwritable), spelled]
    by_cases same : (j.matrix.get? (.str text)).map Value.text = some v.text
    · rcases ih fun field member => named field (List.mem_cons_of_mem _ member) with ⟨failed, meets⟩ | ⟨done, fine⟩
      · exact Or.inl ⟨(if_pos same).trans failed, Or.inr ⟨same, meets⟩⟩
      · exact Or.inr ⟨(if_pos same).trans (done.trans (by simp [same, fits])), by simp [unwritable, fine]⟩
    · refine Or.inr ⟨(if_neg same).trans ?_, by simp [unwritable, same]⟩
      rw [beq_eq_false_iff_ne.2 same, Bool.false_and]

theorem spelled_of_qualifierAccepts {j : Job}
    (same : ∀ key text, Inputs.qualifierAccepts (Inputs.qualifierPairs j.qualifier) [(.str key, .str text)] = .ok true ↔
      j.fits [(.str key, .str text)] = true) (key : String) :
    (Inputs.qualifierPairs j.qualifier).get? key = (j.matrix.get? (.str key)).map Value.text := by
  apply Option.ext
  intro text
  have asked := same key text
  rw [qualifierAccepts_text, fits, List.all_cons, List.all_nil, Bool.and_true, beq_iff_eq, Value.text,
    Except.ok.injEq, decide_eq_true_eq] at asked
  exact asked

end Job
end Conveyor

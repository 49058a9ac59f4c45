import Conveyor.Glob
import Mathlib.Data.List.Chain
import Mathlib.Data.List.Forall2

/-! What glob patterns match. A pattern is read into items in one way only, and it matches a text exactly if the text can
be cut into consecutive pieces, one for each item, such that every item takes its piece. -/

namespace Conveyor.Glob

def Item.written : Item → List Char
  | .char c => [c]
  | .one => ['?']
  | .segment => ['*']
  | .anything => ['*', '*']

def Item.Takes : Item → List Char → Prop
  | .char c, piece => piece = [c]
  | .one, piece => ∃ c, piece = [c] ∧ c ≠ '/'
  | .segment, piece => '/' ∉ piece
  | .anything, piece => '\n' ∉ piece

/-- The items spell the pattern. No single star stands before another star, which it would be joined with. -/
structure Reads (pattern : List Char) (reading : List Item) : Prop where
  spelled : reading.flatMap Item.written = pattern
  literal : ∀ c, .char c ∈ reading → c ≠ '*' ∧ c ≠ '?'
  joined : reading.IsChain fun item next => item = .segment → next ≠ .segment ∧ next ≠ .anything

/-! ### Reading patterns -/

theorem Reads.tail {pattern : List Char} {item : Item} {reading : List Item} (reads : Reads pattern (item :: reading)) :
    Reads (reading.flatMap Item.written) reading := by
  refine ⟨rfl, ?_, reads.joined.tail⟩
  intro c member
  exact reads.literal c (List.mem_cons_of_mem _ member)

variable {pattern : List Char} {reading : List Item}

theorem Reads.starred (reads : Reads pattern reading) {item : Item} (first : item ∈ reading.head?)
    (star : item = .segment ∨ item = .anything) : pattern.head? = some '*' := by
  obtain ⟨rest, rfl⟩ := List.head?_eq_some_iff.1 first
  rw [← reads.spelled]
  rcases star with rfl | rfl <;> rfl

theorem Reads.cons {pattern : List Char} {reading : List Item} (reads : Reads pattern reading) (item : Item)
    (literal : ∀ c, item = .char c → c ≠ '*' ∧ c ≠ '?') (single : item = .segment → pattern.head? ≠ some '*') :
    Reads (item.written ++ pattern) (item :: reading) := by
  refine ⟨by rw [List.flatMap_cons, reads.spelled], ?_, ?_⟩
  · intro c member
    rcases List.mem_cons.1 member with here | later
    · exact literal c here.symm
    · exact reads.literal c later
  · rw [List.isChain_cons]
    refine ⟨fun next first segment => ?_, reads.joined⟩
    exact ⟨fun same => single segment (reads.starred first (Or.inl same)),
      fun same => single segment (reads.starred first (Or.inr same))⟩

theorem items_reads (pattern : List Char) : Reads pattern (items pattern) := by
  fun_induction items pattern with
  | case1 => exact ⟨rfl, by simp, .nil⟩
  | case2 rest ih => exact ih.cons .anything (by simp) (by simp)
  | case3 rest single ih =>
    refine ih.cons .segment (by simp) fun _ star => ?_
    obtain ⟨more, rfl⟩ := List.head?_eq_some_iff.1 star
    exact single more rfl
  | case4 rest ih => exact ih.cons .one (by simp) (by simp)
  | case5 c rest _ star mark ih =>
    refine ih.cons (.char c) (fun d same => ?_) (by simp)
    cases same
    exact ⟨star, mark⟩

theorem Reads.items_eq (reads : Reads pattern reading) :
    items pattern = reading := by
  induction reading generalizing pattern with
  | nil =>
    cases reads.spelled
    rfl
  | cons item reading ih =>
    have rest := ih reads.tail
    have pattern_eq := reads.spelled
    rw [List.flatMap_cons] at pattern_eq
    subst pattern_eq
    cases item with
    | char c =>
      obtain ⟨star, mark⟩ := reads.literal c List.mem_cons_self
      simpa [Item.written, items, star, mark] using rest
    | one => simpa [Item.written, items] using rest
    | anything => simpa [Item.written, items] using rest
    | segment =>
      -- A star after the single one would belong to an item that may not stand there.
      have plain : (reading.flatMap Item.written).head? ≠ some '*' := by
        intro star
        cases reading with
        | nil => cases star
        | cons next reading =>
          have apart := (List.isChain_cons_cons.1 reads.joined).1 rfl
          cases next with
          | char c =>
            cases star
            exact (reads.literal '*' (by simp)).1 rfl
          | one => cases star
          | segment => exact apart.1 rfl
          | anything => exact apart.2 rfl
      generalize reading.flatMap Item.written = more at rest plain
      cases more with
      | nil => simpa [Item.written, items] using rest
      | cons c more =>
        have other : c ≠ '*' := by simpa using plain
        simpa [Item.written, items, other] using rest

theorem reads_iff : Reads pattern reading ↔ reading = items pattern := by
  constructor
  · intro reads
    exact reads.items_eq.symm
  · rintro rfl
    exact items_reads pattern

/-! ### Cutting texts -/

/-- A star takes any run of characters up to the one that it does not cross. -/
theorem accepts_star {item : Item} {rest : List Item} {barrier : Char}
    (last : accepts (item :: rest) [] = accepts rest [])
    (next : ∀ c cs, accepts (item :: rest) (c :: cs) =
      (accepts rest (c :: cs) || (c != barrier && accepts (item :: rest) cs))) (cs : List Char) :
    accepts (item :: rest) cs = true ↔
      ∃ piece after, cs = piece ++ after ∧ barrier ∉ piece ∧ accepts rest after = true := by
  induction cs with
  | nil =>
    rw [last]
    constructor
    · intro accepted
      exact ⟨[], [], rfl, List.not_mem_nil, accepted⟩
    · rintro ⟨piece, after, cut, _, accepted⟩
      obtain ⟨rfl, rfl⟩ := List.append_eq_nil_iff.1 cut.symm
      exact accepted
  | cons c cs ih =>
    rw [next, Bool.or_eq_true, Bool.and_eq_true, bne_iff_ne, ih]
    constructor
    · rintro (accepted | ⟨other, piece, after, rfl, within, accepted⟩)
      · exact ⟨[], c :: cs, rfl, List.not_mem_nil, accepted⟩
      · refine ⟨c :: piece, after, rfl, ?_, accepted⟩
        simp [other.symm, within]
    · rintro ⟨piece, after, cut, within, accepted⟩
      cases piece with
      | nil =>
        rw [List.nil_append] at cut
        subst cut
        exact Or.inl accepted
      | cons d piece =>
        obtain ⟨rfl, rfl⟩ := List.cons.inj cut
        rw [List.mem_cons, not_or] at within
        exact Or.inr ⟨Ne.symm within.1, piece, after, rfl, within.2, accepted⟩

theorem accepts_cons (item : Item) (rest : List Item) (cs : List Char) :
    accepts (item :: rest) cs = true ↔
      ∃ piece after, cs = piece ++ after ∧ item.Takes piece ∧ accepts rest after = true := by
  cases item with
  | segment => exact accepts_star (by simp [accepts]) (by simp [accepts]) cs
  | anything => exact accepts_star (by simp [accepts]) (by simp [accepts]) cs
  | char d =>
    constructor
    · intro accepted
      cases cs with
      | nil => simp [accepts] at accepted
      | cons c cs =>
        rw [accepts, Bool.and_eq_true, beq_iff_eq] at accepted
        exact ⟨[c], cs, rfl, by rw [accepted.1]; rfl, accepted.2⟩
    · rintro ⟨_, after, rfl, rfl, accepted⟩
      simpa [accepts] using accepted
  | one =>
    constructor
    · intro accepted
      cases cs with
      | nil => simp [accepts] at accepted
      | cons c cs =>
        rw [accepts, Bool.and_eq_true, bne_iff_ne] at accepted
        exact ⟨[c], cs, rfl, ⟨c, rfl, accepted.1⟩, accepted.2⟩
    · rintro ⟨_, after, rfl, ⟨c, rfl, other⟩, accepted⟩
      simpa [accepts, other] using accepted

theorem accepts_iff {cs : List Char} :
    accepts reading cs = true ↔ ∃ pieces, cs = pieces.flatten ∧ List.Forall₂ Item.Takes reading pieces := by
  induction reading generalizing cs with
  | nil => simp [accepts]
  | cons item reading ih =>
    rw [accepts_cons]
    constructor
    · rintro ⟨piece, after, rfl, takes, accepted⟩
      obtain ⟨pieces, rfl, rest⟩ := ih.1 accepted
      exact ⟨piece :: pieces, rfl, .cons takes rest⟩
    · rintro ⟨_, rfl, takes⟩
      cases takes with
      | cons first rest => exact ⟨_, _, List.flatten_cons, first, ih.2 ⟨_, rfl, rest⟩⟩

theorem accepts_literal {cs value : List Char} : accepts (cs.map .char) value = true ↔ value = cs := by
  induction cs generalizing value with
  | nil => simp [accepts]
  | cons c cs ih =>
    cases value with
    | nil => simp [accepts]
    | cons d value => simp [accepts, ih]

theorem reads_literal (plain : ∀ c ∈ pattern, c ≠ '*' ∧ c ≠ '?') :
    Reads pattern (pattern.map .char) := by
  induction pattern with
  | nil => exact ⟨rfl, by simp, .nil⟩
  | cons c pattern ih =>
    rw [List.forall_mem_cons] at plain
    refine (ih plain.2).cons (.char c) (fun d same => ?_) (by simp)
    cases same
    exact plain.1

/-- A pattern has one reading, and it matches the texts that can be cut into pieces that the items of the reading take one
by one. A pattern without wildcards matches itself and nothing else. -/
theorem matches_iff_cut (pattern : String) :
    ∃ reading, (∀ other, Reads pattern.toList other ↔ other = reading) ∧
      (∀ value, globMatches pattern value = true ↔
        ∃ pieces, value.toList = pieces.flatten ∧ List.Forall₂ Item.Takes reading pieces) ∧
      ((∀ c ∈ pattern.toList, c ≠ '*' ∧ c ≠ '?') → ∀ value, globMatches pattern value = true ↔ value = pattern) := by
  refine ⟨items pattern.toList, fun _ => reads_iff, fun _ => accepts_iff, ?_⟩
  intro plain value
  rw [globMatches, (reads_literal plain).items_eq, accepts_literal, String.toList_inj]

example : items "a***?".toList = [.char 'a', .anything, .segment, .one] := by decide

end Conveyor.Glob

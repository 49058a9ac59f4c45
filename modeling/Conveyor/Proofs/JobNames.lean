import Conveyor.Proofs.MatrixExpansion
import Conveyor.Proofs.QualifierText

/-! The names of jobs. An escaped text ends at the first separator without a backslash of its own, whatever comes after
it, so a name can be read in only one way: two assignments with one name have the same texts in the same order. No two
combinations of a stage are spelled alike, even in another order, and so no two of its jobs share a name. -/

namespace Conveyor

namespace Assignment

/-- What can stand behind an escaped text: a separator, or nothing. -/
def Halts (rest : List Char) : Prop := ∀ c ∈ rest.head?, c = ',' ∨ c = '='

theorem escapeChar_not_halts (c : Char) (rest : List Char) : ¬ Halts (escapeChar c ++ rest) := by
  intro halts
  unfold escapeChar at halts
  split at halts
  next => simpa using halts '\\' rfl
  next plain =>
    apply plain
    exact Or.inr (halts c rfl)

theorem escapeChar_cancel {c d : Char} {r s : List Char} (same : escapeChar c ++ r = escapeChar d ++ s) :
    c = d ∧ r = s := by
  unfold escapeChar at same
  split at same
  next =>
    split at same
    next => simpa using same
    next plain =>
      have slash : '\\' = d := (List.cons.inj same).1
      exact (plain (Or.inl slash.symm)).elim
  next plain =>
    split at same
    next =>
      have slash : c = '\\' := (List.cons.inj same).1
      exact (plain (Or.inl slash)).elim
    next => simpa using same

/-- Escaped texts that stand in front of a separator or at the end are read in one way. -/
theorem escaped_cancel {first second r s : List Char} (here : Halts r) (there : Halts s)
    (same : first.flatMap escapeChar ++ r = second.flatMap escapeChar ++ s) : first = second ∧ r = s := by
  induction first generalizing second with
  | nil =>
    cases second with
    | nil => exact ⟨rfl, same⟩
    | cons d second =>
      rw [List.flatMap_nil, List.nil_append, List.flatMap_cons, List.append_assoc] at same
      exact (escapeChar_not_halts d _ (same ▸ here)).elim
  | cons c first ih =>
    rw [List.flatMap_cons, List.append_assoc] at same
    cases second with
    | nil =>
      rw [List.flatMap_nil, List.nil_append] at same
      exact (escapeChar_not_halts c _ (same.symm ▸ there)).elim
    | cons d second =>
      rw [List.flatMap_cons, List.append_assoc] at same
      obtain ⟨rfl, rest⟩ := escapeChar_cancel same
      obtain ⟨rfl, rfl⟩ := ih rest
      exact ⟨rfl, rfl⟩

def fieldChars (field : String × String) : List Char :=
  field.1.toList.flatMap escapeChar ++ '=' :: field.2.toList.flatMap escapeChar

theorem fieldChars_cancel {field other : String × String} {r s : List Char} (here : Halts r) (there : Halts s)
    (same : fieldChars field ++ r = fieldChars other ++ s) : field = other ∧ r = s := by
  unfold fieldChars at same
  rw [List.append_assoc, List.append_assoc] at same
  obtain ⟨key, rest⟩ := escaped_cancel (by simp [Halts]) (by simp [Halts]) same
  obtain ⟨value, rest⟩ := escaped_cancel here there (List.cons.inj rest).2
  exact ⟨Prod.ext (String.toList_inj.1 key) (String.toList_inj.1 value), rest⟩

section

variable (gap : List Char)

def furtherChars (fields : List (String × String)) : List Char :=
  fields.flatMap fun field => ',' :: gap ++ fieldChars field

theorem furtherChars_halts (fields : List (String × String)) : Halts (furtherChars gap fields) := by
  cases fields <;> simp [Halts, furtherChars]

theorem furtherChars_inj {a b : List (String × String)} (same : furtherChars gap a = furtherChars gap b) : a = b := by
  induction a generalizing b with
  | nil =>
    cases b with
    | nil => rfl
    | cons other b => simp [furtherChars] at same
  | cons field a ih =>
    cases b with
    | nil => simp [furtherChars] at same
    | cons other b =>
      simp only [furtherChars, List.flatMap_cons, List.cons_append, List.append_assoc, List.cons.injEq, true_and,
        List.append_cancel_left_eq] at same
      obtain ⟨rfl, rest⟩ := fieldChars_cancel (furtherChars_halts gap a) (furtherChars_halts gap b) same
      rw [ih rest]

theorem intercalate_fields (field : String × String) (fields : List (String × String)) :
    (',' :: gap).intercalate ((field :: fields).map fieldChars) = fieldChars field ++ furtherChars gap fields := by
  induction fields generalizing field with
  | nil => simp [furtherChars]
  | cons next fields ih =>
    rw [List.map_cons, List.map_cons, List.intercalate_cons_cons, ← List.map_cons, ih]
    simp [furtherChars]

/-- Fields that are joined by commas are read in one way, with any gap behind the commas. -/
theorem intercalate_inj {a b : List (String × String)}
    (same : (',' :: gap).intercalate (a.map fieldChars) = (',' :: gap).intercalate (b.map fieldChars)) : a = b := by
  cases a with
  | nil =>
    cases b with
    | nil => rfl
    | cons other b =>
      rw [intercalate_fields] at same
      simp [fieldChars] at same
  | cons field a =>
    rw [intercalate_fields] at same
    cases b with
    | nil => simp [fieldChars] at same
    | cons other b =>
      rw [intercalate_fields] at same
      obtain ⟨rfl, rest⟩ := fieldChars_cancel (furtherChars_halts gap a) (furtherChars_halts gap b) same
      rw [furtherChars_inj gap rest]

end

theorem parts_chars (a : Assignment) : a.parts.map String.toList = a.texts.map fieldChars := by
  simp [parts, texts, fieldChars, escape]

theorem parts_of_texts {a b : Assignment} (same : a.texts = b.texts) : a.parts = b.parts := by
  apply List.map_injective_iff.2 (fun _ _ => String.toList_inj.1)
  rw [parts_chars, parts_chars, same]

theorem qualifier_eq_iff (a b : Assignment) : a.qualifier = b.qualifier ↔ a.texts = b.texts := by
  constructor
  · intro same
    have chars := congrArg String.toList same
    rw [qualifier, qualifier, String.toList_intercalate, String.toList_intercalate, parts_chars, parts_chars] at chars
    exact intercalate_inj [] chars
  · intro same
    rw [qualifier, qualifier, parts_of_texts same]

end Assignment

/-- Jobs of one stage have one name exactly if their assignments have the same texts. -/
theorem Job.id_eq_iff {a b : Job} (stage : a.stage = b.stage) : a.id = b.id ↔ a.assignment.texts = b.assignment.texts := by
  have alone (c : Job) : c.assignment.texts = [] ↔ c.assignment = [] := List.map_eq_nil_iff
  have longer (c : Job) (some : c.assignment ≠ []) : c.id ≠ c.stage := by
    intro same
    have lengths := congrArg String.length same
    rw [Job.id, if_neg (by simpa using some)] at lengths
    simp only [String.length_append] at lengths
    have mark : " (".length = 2 := rfl
    omega
  constructor
  · intro same
    by_cases first : a.assignment = []
    · by_cases second : b.assignment = []
      · rw [first, second]
      · rw [Job.id, if_pos (by simpa using first), stage] at same
        exact (longer b second same.symm).elim
    · by_cases second : b.assignment = []
      · rw [Job.id.eq_def b, if_pos (by simpa using second), ← stage] at same
        exact (longer a first same).elim
      · rw [Job.id, Job.id, if_neg (by simpa using first), if_neg (by simpa using second), stage] at same
        have chars := congrArg String.toList same
        simp only [String.toList_append, String.toList_intercalate, Assignment.parts_chars, List.append_assoc,
          List.append_cancel_left_eq, List.append_cancel_right_eq] at chars
        exact Assignment.intercalate_inj [' '] chars
  · intro same
    have both : a.assignment = [] ↔ b.assignment = [] := by rw [← alone, ← alone, same]
    rw [Job.id, Job.id, Assignment.parts_of_texts same, stage]
    simp only [List.isEmpty_iff, both]

namespace Matrix

theorem twins_of_texts {c d : Mapping} (first : c.TextKeys) (second : d.TextKeys)
    (same : Assignment.texts c = Assignment.texts d) : Twins c d := by
  have spelled {c : Mapping} (texts : c.TextKeys) :
      spelling c = (Assignment.texts c).map fun field => (.str field.1, field.2) := by
    rw [spelling, Assignment.texts, List.map_map]
    apply List.map_congr_left
    intro field member
    obtain ⟨text, key⟩ := texts field member
    simp [key, Value.text]
  intro pair
  rw [spelled first, spelled second, same]

theorem combinations_apart {m : Matrix} (regular : m.Regular) {found : List Mapping} (done : m.combinations = .ok found) :
    found.Pairwise fun c d => Assignment.texts c ≠ Assignment.texts d := by
  have named : ∀ c ∈ found, c.TextKeys := by
    intro c member
    rcases combinations_ok done with ⟨_, _, rfl⟩ | ⟨_, rfl, _⟩
    · cases List.mem_singleton.1 member
      exact List.forall_mem_nil _
    · exact merged_textKeys regular.texts member
  obtain ⟨declared, describes⟩ := m.exists_describes
  have outcome := combinations_outcome regular describes
  rw [done] at outcome
  cases outcome with
  | expanded sound _ =>
    have apart : found.Pairwise fun c d => ¬ Twins c d := by
      by_contra twice
      exact sound (.repeated twice)
    apply apart.imp_of_mem
    intro c d first second unlike same
    exact unlike (twins_of_texts (named c first) (named d second) same)

end Matrix

/-- An assignment is named by the texts of its keys and values in order. The jobs of a stage differ in their qualifiers, in
the producers of their artifacts and in their names. -/
theorem Stage.names_never_collide {s : Stage} (regular : s.ownMatrix.Regular) :
    (∀ a b : Assignment, a.qualifier = b.qualifier ↔ a.texts = b.texts) ∧
      ∀ context jobs, s.expand context = .ok jobs →
        (jobs.map Job.qualifier).Nodup ∧ (jobs.map Job.producer).Nodup ∧ (jobs.map Job.id).Nodup := by
  refine ⟨Assignment.qualifier_eq_iff, ?_⟩
  intro context jobs done
  have stage {job : Job} (member : job ∈ jobs) : job.stage = s.name := by
    obtain ⟨_, _, made⟩ := (Stage.expand_ok done).2 job member
    exact (Stage.job_ok made).1
  have combined := Stage.expand_combinations done
  rw [s.combinations_eq, Fallible.mapError_ok] at combined
  have apart := Matrix.combinations_apart regular combined
  rw [List.pairwise_map] at apart
  have qualifiers : (jobs.map Job.qualifier).Nodup := by
    apply List.pairwise_map.2
    apply apart.imp
    intro a b other same
    exact other ((Assignment.qualifier_eq_iff _ _).1 same)
  have producers : (jobs.map Job.producer).Nodup := by
    apply List.Nodup.of_map Producer.qualifier
    rw [List.map_map]
    exact qualifiers
  have ids : (jobs.map Job.id).Nodup := by
    apply List.pairwise_map.2
    apply apart.imp_of_mem
    intro a b first second other same
    exact other ((Job.id_eq_iff ((stage first).trans (stage second).symm)).1 same)
  exact ⟨qualifiers, producers, ids⟩

/-- A stage whose combinations would be called alike if separators were not escaped. -/
def entangled : Stage :=
  { name := "pack", steps := []
    matrix := some
      { included := [[(.str "a", .str "1,b=True")], [(.str "a", .str "1"), (.str "b", .bool true)],
          [(.str "a", .str "1, b=True")], [(.str "a=1,b", .bool true)], [(.str "a", .str "1\\,b=True")], []] } }

def entangledNames : List String :=
  ["pack (a=1\\,b\\=True)", "pack (a=1, b=True)", "pack (a=1\\, b\\=True)", "pack (a\\=1\\,b=True)",
    "pack (a=1\\\\\\,b\\=True)", "pack"]

theorem entangled_regular : entangled.ownMatrix.Regular := by
  refine ⟨?_, by decide, by decide⟩
  intro entry member field present
  simp only [entangled, Stage.ownMatrix, Option.getD_some, List.append_nil, List.mem_cons, List.not_mem_nil,
    or_false] at member
  rcases member with rfl | rfl | rfl | rfl | rfl | rfl <;> simp at present <;> grind

theorem entangled_named : (entangled.expand none).map (·.map Job.id) = .ok entangledNames := by
  cbv

theorem entangled_apart :
    entangled.ownMatrix.Regular ∧ ∃ jobs, entangled.expand none = .ok jobs ∧ jobs.map Job.id = entangledNames ∧
      (jobs.map Job.qualifier).Nodup ∧ (jobs.map Job.producer).Nodup ∧ (jobs.map Job.id).Nodup := by
  refine ⟨entangled_regular, ?_⟩
  have named := entangled_named
  cases done : entangled.expand none with
  | error fault =>
    rw [done] at named
    cases named
  | ok jobs =>
    rw [done] at named
    exact ⟨jobs, rfl, Except.ok.inj named, (Stage.names_never_collide entangled_regular).2 none jobs done⟩

end Conveyor

import Mathlib.Data.List.TakeWhile
import Conveyor.Proofs.ConditionSpelling
import Conveyor.Proofs.TemplateRendering

/-! What templates are replaced by. A text is cut at its leftmost templates in one way only, and what is put in their
place is not looked at again. Rendering a value changes its texts in this way and nothing else; it fails exactly if a
variable is not known or its value has no text, or if the value contains itself. -/

namespace Conveyor.Template

open Condition.Token (isNameStart isNameChar)
open Fallible

def Written (name : String) (written : List Char) : Prop :=
  ∃ before after, written = ['$', '\x7b', '\x7b'] ++ (before ++ (name.toList ++ (after ++ ['\x7d', '\x7d']))) ∧
    Condition.Token.Blanks before ∧ Condition.Token.Blanks after ∧ Condition.Token.IsName name.toList

def Piece.chars : Piece → List Char
  | .char c => [c]
  | .hole written _ => written

/-- The pieces spell the text, and no template starts at a character that stands for itself. -/
structure Leftmost (text : List Char) (parts : List Piece) : Prop where
  spelled : parts.flatMap Piece.chars = text
  holes : ∀ written name, .hole written name ∈ parts → Written name written
  leftmost : ∀ before c after, parts = before ++ .char c :: after → ∀ name written rest, Written name written →
    c :: after.flatMap Piece.chars ≠ written ++ rest

/-! ### Finding templates -/

variable {cs written : List Char} {name : String}

theorem exists_blanks {rest : List Char} (trimmed : Text.trimStart cs = rest) :
    ∃ gap, Condition.Token.Blanks gap ∧ cs = gap ++ rest := by
  refine ⟨cs.takeWhile Text.isBlank, fun c member => List.mem_takeWhile_imp member, ?_⟩
  rw [← trimmed]
  exact List.takeWhile_append_dropWhile.symm

theorem hole?_written {rest : List Char} (found : hole? cs = some (written, name, rest)) :
    cs = written ++ rest ∧ Written name written := by
  unfold hole? at found
  obtain ⟨inner, opened, found⟩ := Option.bind_eq_some_iff.1 found
  rw [Text.dropStart?_eq_some_iff] at opened
  split at found
  next => cases found
  next c tail begun =>
    split at found
    next start =>
      obtain ⟨after, closed, found⟩ := Option.bind_eq_some_iff.1 found
      rw [Text.dropStart?_eq_some_iff] at closed
      simp only [Option.pure_def, Option.some.injEq, Prod.mk.injEq] at found
      obtain ⟨taken, named, rfl⟩ := found
      obtain ⟨lead, blank, rfl⟩ := exists_blanks begun
      obtain ⟨trail, blank', ended⟩ := exists_blanks closed
      have spelled : name.toList ++ tail.dropWhile isNameChar = c :: tail := by
        rw [← named, String.toList_ofList, List.cons_append, List.takeWhile_append_dropWhile]
      have identifier : Condition.Token.IsName name.toList := by
        rw [← named, String.toList_ofList]
        exact ⟨c, _, rfl, start, fun d member => List.mem_takeWhile_imp member⟩
      -- The text is put together again from what was skipped and what was taken.
      have whole : cs = (['$', '\x7b', '\x7b'] ++ (lead ++ (name.toList ++ (trail ++ ['\x7d', '\x7d'])))) ++ after := by
        rw [opened, ← spelled, ended]
        simp only [List.append_assoc]
      have cut : written = ['$', '\x7b', '\x7b'] ++ (lead ++ (name.toList ++ (trail ++ ['\x7d', '\x7d']))) := by
        rw [← taken, whole, List.length_append, Nat.add_sub_cancel, List.take_left]
      rw [← cut] at whole
      exact ⟨whole, lead, trail, cut, blank, blank', identifier⟩
    next => cases found

theorem Written.hole?_eq (template : Written name written) (rest : List Char) :
    hole? (written ++ rest) = some (written, name, rest) := by
  obtain ⟨lead, trail, whole, blank, blank', first, more, chars, start, further⟩ := template
  have visible : Text.isBlank first = false :=
    Condition.Token.isNameChar_visible (Condition.Token.isNameChar_of_start start)
  have closing (after : List Char) : Text.trimStart (trail ++ (['\x7d', '\x7d'] ++ after)) = ['\x7d', '\x7d'] ++ after := by
    rw [Condition.Token.trimStart_blanks blank']
    rfl
  -- The name ends at a blank or at the closing braces, neither of which can continue it.
  have ended : ∀ c ∈ (trail ++ (['\x7d', '\x7d'] ++ rest)).head?, ¬ isNameChar c = true := by
    intro c head continued
    cases trail with
    | nil =>
      cases head
      cases continued
    | cons d trail =>
      cases head
      have seen := Condition.Token.isNameChar_visible continued
      rw [blank' c List.mem_cons_self] at seen
      cases seen
  obtain ⟨taken, left⟩ := Condition.Token.span_name further ended
  have begun : Text.trimStart (lead ++ (first :: more ++ (trail ++ (['\x7d', '\x7d'] ++ rest)))) =
      first :: (more ++ (trail ++ (['\x7d', '\x7d'] ++ rest))) := by
    rw [Condition.Token.trimStart_blanks blank]
    simp [Text.trimStart, visible]
  have spelled : written ++ rest =
      ['$', '\x7b', '\x7b'] ++ (lead ++ (first :: more ++ (trail ++ (['\x7d', '\x7d'] ++ rest)))) := by
    rw [whole, chars]
    simp only [List.append_assoc]
  have named : String.ofList (first :: more) = name := by rw [← chars, String.ofList_toList]
  unfold hole?
  rw [Text.dropStart?_eq_some_iff.2 spelled, Option.bind_eq_bind, Option.bind_some, begun]
  simp only [start, if_true, taken, left, closing, Text.dropStart?_eq_some_iff.2 rfl,
    Option.bind_some, Option.pure_def, named, List.length_append, Nat.add_sub_cancel, List.take_left]

theorem pieces_written (template : Written name written) (rest : List Char) :
    pieces (written ++ rest) = .hole written name :: pieces rest := by
  have found := template.hole?_eq rest
  obtain ⟨lead, trail, rfl, _⟩ := template
  rw [List.cons_append, List.cons_append, pieces]
  split
  next found' =>
    rw [← List.cons_append, ← List.cons_append, found] at found'
    cases found'
    rfl
  next missing =>
    rw [← List.cons_append, ← List.cons_append, found] at missing
    cases missing

theorem pieces_plain {c : Char} (plain : ∀ name written rest, Written name written → c :: cs ≠ written ++ rest) :
    pieces (c :: cs) = .char c :: pieces cs := by
  rw [pieces]
  split
  next written name rest found =>
    obtain ⟨spelled, template⟩ := hole?_written found
    exact (plain name written rest template spelled).elim
  next => rfl

namespace Leftmost

variable {text : List Char} {part : Piece} {parts : List Piece}

theorem tail (cut : Leftmost text (part :: parts)) : Leftmost (parts.flatMap Piece.chars) parts where
  spelled := rfl
  holes written name member := cut.holes written name (List.mem_cons_of_mem part member)
  leftmost before c after split := cut.leftmost (part :: before) c after (congrArg (part :: ·) split)

/-- A piece can be put in front of a cut text if it is a template, or a character at which none starts. -/
theorem cons (part : Piece) (cut : Leftmost text parts)
    (template : ∀ written name, part = .hole written name → Written name written)
    (plain : ∀ c, part = .char c → ∀ name written rest, Written name written → c :: text ≠ written ++ rest) :
    Leftmost (part.chars ++ text) (part :: parts) where
  spelled := by rw [List.flatMap_cons, cut.spelled]
  holes written name member := by
    rcases List.mem_cons.1 member with same | later
    · exact template written name same.symm
    · exact cut.holes written name later
  leftmost before c after split := by
    cases before with
    | nil =>
      obtain ⟨rfl, rfl⟩ := List.cons.inj split
      rw [cut.spelled]
      exact plain c rfl
    | cons first before => exact cut.leftmost before c after (List.cons.inj split).2

end Leftmost

theorem pieces_leftmost (cs : List Char) : Leftmost cs (pieces cs) := by
  fun_induction pieces cs with
  | case1 =>
    refine ⟨rfl, by simp, ?_⟩
    intro before c after split
    cases before <;> cases split
  | case2 c cs written name rest found ih =>
    obtain ⟨spelled, template⟩ := hole?_written found
    rw [spelled]
    refine ih.cons (.hole written name) ?_ ?_
    · intro _ _ same
      cases same
      exact template
    · intro _ same
      cases same
  | case3 c cs missing ih =>
    refine ih.cons (.char c) ?_ ?_
    · intro _ _ same
      cases same
    · intro _ same name written rest template spelled
      cases same
      rw [spelled, template.hole?_eq] at missing
      cases missing

theorem leftmost_iff {text : List Char} {parts : List Piece} : Leftmost text parts ↔ parts = pieces text := by
  constructor
  · intro cut
    induction parts generalizing text with
    | nil =>
      rw [← cut.spelled, List.flatMap_nil, pieces]
    | cons part parts ih =>
      have rest := ih cut.tail
      rw [← cut.spelled, List.flatMap_cons]
      cases part with
      | char c => rw [Piece.chars, List.cons_append, List.nil_append, pieces_plain (cut.leftmost [] c parts rfl), ← rest]
      | hole written name => rw [Piece.chars, pieces_written (cut.holes written name List.mem_cons_self), ← rest]
  · rintro rfl
    exact pieces_leftmost text

/-! ### Filling texts -/

namespace Scope

variable (scope : Scope)

/-- What is written in place of a piece. A variable without value leaves nothing, and a template for one that is not in
scope stays. -/
def replacement : Piece → List Char
  | .char c => [c]
  | .hole written name =>
    match scope.bindings.get? name with
    | none => written
    | some .null => []
    | some value => value.text.toList

/-- The text with its templates replaced, where the text is cut before anything is inserted. -/
def Fills (s t : String) : Prop := ∃ parts, Leftmost s.toList parts ∧ t.toList = parts.flatMap scope.replacement

variable {scope}

theorem fill_replacement {source : String} {written cs : List Char} {name : String}
    (done : scope.fill source written name = .ok cs) : cs = scope.replacement (.hole written name) := by
  unfold fill at done
  rw [replacement]
  split at done
  next found =>
    cases done
    rw [found]
  next value present found =>
    rw [mapError_ok, Value.written_eq] at done
    split at done
    next => cases done
    next =>
      cases done
      rw [found]
      cases value with
      | null => exact (present rfl).elim
      | _ => rfl
  next missing =>
    split at done
    next => cases done
    next =>
      cases done
      rw [missing]

theorem fillAll_replacement {source : String} {parts : List Piece} {cs : List Char}
    (done : scope.fillAll source parts = .ok cs) : cs = parts.flatMap scope.replacement := by
  induction parts generalizing cs with
  | nil =>
    cases done
    rfl
  | cons part parts ih =>
    cases part with
    | char c =>
      obtain ⟨rest, filled, rfl⟩ := map_ok.1 done
      rw [ih filled]
      rfl
    | hole written name =>
      obtain ⟨first, here, more⟩ := bind_ok.1 done
      obtain ⟨rest, filled, rfl⟩ := map_ok.1 more
      rw [ih filled, fill_replacement here]
      rfl

theorem text_ok {s t : String} :
    scope.text s = .ok t ↔ (∀ name ∈ textNames s, scope.Provides name) ∧ scope.Fills s t := by
  have filled {t : String} (done : scope.text s = .ok t) : t.toList = (pieces s.toList).flatMap scope.replacement := by
    obtain ⟨cs, written, rfl⟩ := map_ok.1 done
    rw [String.toList_ofList, fillAll_replacement written]
  constructor
  · intro done
    exact ⟨scope.text_succeeds.1 ⟨t, done⟩, pieces s.toList, pieces_leftmost _, filled done⟩
  · rintro ⟨known, parts, cut, spelled⟩
    obtain ⟨t', done⟩ := scope.text_succeeds.2 known
    have same : t' = t := by
      apply String.toList_injective
      rw [filled done, spelled, leftmost_iff.1 cut]
    rw [done, same]

end Scope

/-! ### Rendering values -/

def Untouched : Value → Prop
  | .str _ | .list _ | .tuple _ | .map _ | .knot .. | .again .. => False
  | _ => True

/-- The second value has the shape of the first and the same keys, and its texts are those of the first with their
templates replaced. -/
inductive Rendered (scope : Scope) : Value → Value → Prop
  | text {s t : String} (filled : scope.Fills s t) : Rendered scope (.str s) (.str t)
  | list {vs ws : List Value} (items : List.Forall₂ (Rendered scope) vs ws) : Rendered scope (.list vs) (.list ws)
  | tuple {vs ws : List Value} (items : List.Forall₂ (Rendered scope) vs ws) : Rendered scope (.tuple vs) (.tuple ws)
  | map {es fs : List (Value × Value)} (keys : es.map Prod.fst = fs.map Prod.fst)
      (values : List.Forall₂ (Rendered scope) (es.map Prod.snd) (fs.map Prod.snd)) : Rendered scope (.map es) (.map fs)
  | knot {label : Nat} {v w : Value} (inside : Rendered scope v w) : Rendered scope (.knot label v) (.knot label w)
  | other {v : Value} (untouched : Untouched v) : Rendered scope v v

namespace Scope

variable {scope : Scope}

mutual
theorem value_ok : (v : Value) → {w : Value} →
    (scope.value v = .ok w ↔ (∀ name ∈ names v, scope.Provides name) ∧ Rendered scope v w)
  | .str s, w => by
    rw [value, map_ok, names]
    constructor
    · rintro ⟨t, done, rfl⟩
      obtain ⟨known, filled⟩ := text_ok.1 done
      exact ⟨known, .text filled⟩
    · rintro ⟨known, rendered⟩
      cases rendered with
      | text filled => exact ⟨_, text_ok.2 ⟨known, filled⟩, rfl⟩
      | other untouched => exact untouched.elim
  | .list vs, w => by
    rw [value, map_ok, names]
    constructor
    · rintro ⟨ws, done, rfl⟩
      obtain ⟨known, items⟩ := (items_ok vs).1 done
      exact ⟨known, .list items⟩
    · rintro ⟨known, rendered⟩
      cases rendered with
      | list items => exact ⟨_, (items_ok vs).2 ⟨known, items⟩, rfl⟩
      | other untouched => exact untouched.elim
  | .tuple vs, w => by
    rw [value, map_ok, names]
    constructor
    · rintro ⟨ws, done, rfl⟩
      obtain ⟨known, items⟩ := (items_ok vs).1 done
      exact ⟨known, .tuple items⟩
    · rintro ⟨known, rendered⟩
      cases rendered with
      | tuple items => exact ⟨_, (items_ok vs).2 ⟨known, items⟩, rfl⟩
      | other untouched => exact untouched.elim
  | .map es, w => by
    rw [value, map_ok, names]
    constructor
    · rintro ⟨fs, done, rfl⟩
      obtain ⟨known, keys, values⟩ := (entries_ok es).1 done
      exact ⟨known, .map keys values⟩
    · rintro ⟨known, rendered⟩
      cases rendered with
      | map keys values => exact ⟨_, (entries_ok es).2 ⟨known, keys, values⟩, rfl⟩
      | other untouched => exact untouched.elim
  | .knot label v, w => by
    rw [value, map_ok, names]
    constructor
    · rintro ⟨w, done, rfl⟩
      obtain ⟨known, rendered⟩ := (value_ok v).1 done
      exact ⟨known, .knot rendered⟩
    · rintro ⟨known, rendered⟩
      cases rendered with
      | knot inside => exact ⟨_, (value_ok v).2 ⟨known, inside⟩, rfl⟩
      | other untouched => exact untouched.elim
  | .again .., w => by
    refine iff_of_false (fun done => by cases done) ?_
    rintro ⟨-, rendered⟩
    cases rendered with
    | other untouched => exact untouched.elim
  | .null, w | .bool _, w | .int _, w | .float _, w | .bytes _, w | .date _, w | .timestamp _, w | .set _, w => by
    constructor
    · intro done
      cases done
      exact ⟨List.forall_mem_nil _, .other trivial⟩
    · rintro ⟨-, rendered⟩
      cases rendered
      rfl

theorem items_ok : (vs : List Value) → {ws : List Value} → (scope.items vs = .ok ws ↔
    (∀ name ∈ namesOfItems vs, scope.Provides name) ∧ List.Forall₂ (Rendered scope) vs ws)
  | [], ws => by
    constructor
    · intro done
      cases done
      exact ⟨List.forall_mem_nil _, .nil⟩
    · rintro ⟨-, none⟩
      cases none
      rfl
  | v :: vs, ws => by
    rw [items, bind_ok, namesOfItems, List.forall_mem_append]
    constructor
    · rintro ⟨w, first, rest⟩
      obtain ⟨ws, second, rfl⟩ := map_ok.1 rest
      obtain ⟨here, rendered⟩ := (value_ok v).1 first
      obtain ⟨later, items⟩ := (items_ok vs).1 second
      exact ⟨⟨here, later⟩, .cons rendered items⟩
    · rintro ⟨⟨here, later⟩, all⟩
      cases all with
      | cons rendered items =>
        exact ⟨_, (value_ok v).2 ⟨here, rendered⟩, map_ok.2 ⟨_, (items_ok vs).2 ⟨later, items⟩, rfl⟩⟩

theorem entries_ok : (es : List (Value × Value)) → {fs : List (Value × Value)} → (scope.entries es = .ok fs ↔
    (∀ name ∈ namesOfEntries es, scope.Provides name) ∧ es.map Prod.fst = fs.map Prod.fst ∧
      List.Forall₂ (Rendered scope) (es.map Prod.snd) (fs.map Prod.snd))
  | [], fs => by
    constructor
    · intro done
      cases done
      exact ⟨List.forall_mem_nil _, rfl, .nil⟩
    · rintro ⟨-, none, -⟩
      cases List.map_eq_nil_iff.1 none.symm
      rfl
  | (key, v) :: es, fs => by
    rw [entries, bind_ok, namesOfEntries, List.forall_mem_append]
    constructor
    · rintro ⟨w, first, rest⟩
      obtain ⟨fs, second, rfl⟩ := map_ok.1 rest
      obtain ⟨here, rendered⟩ := (value_ok v).1 first
      obtain ⟨later, keys, values⟩ := (entries_ok es).1 second
      exact ⟨⟨here, later⟩, congrArg (key :: ·) keys, .cons rendered values⟩
    · rintro ⟨⟨here, later⟩, keys, values⟩
      cases fs with
      | nil => cases keys
      | cons f fs =>
        obtain ⟨key', w⟩ := f
        obtain ⟨rfl, others⟩ := List.cons.inj keys
        obtain ⟨rendered, values⟩ := List.forall₂_cons.1 values
        exact ⟨w, (value_ok v).2 ⟨here, rendered⟩, map_ok.2 ⟨fs, (entries_ok es).2 ⟨later, others, values⟩, rfl⟩⟩
end

/-! ### What is refused -/

/-- Why a variable of a text cannot be replaced. -/
inductive Lacks (scope : Scope) (source name : String) : Fault → Prop
  | unknown (missing : ¬ scope.Knows name) : Lacks scope source name (.unknown name source)
  | unwritten {v : Value} (bound : scope.bindings.get? name = some v) (long : v.isUnwritable = true) :
      Lacks scope source name (.unusable .unwritable)

/-- Why a value cannot be rendered: because of the first variable that cannot be replaced, in a text that mentions it,
or because it contains itself. -/
inductive Blames (scope : Scope) (mentioned : List String) (endless : Bool) : Fault → Prop
  | lacking {before after : List String} {name source : String} {fault : Fault}
      (place : mentioned = before ++ name :: after) (first : ∀ other ∈ before, scope.Provides other)
      (quoted : name ∈ textNames source) (lacks : scope.Lacks source name fault) : Blames scope mentioned endless fault
  | endless (is : endless = true) : Blames scope mentioned endless (.unusable .endless)

variable {first later : List String} {fault : Fault}

theorem Blames.before {now : Bool} (blamed : scope.Blames first now fault) (later : List String) (next : Bool) :
    scope.Blames (first ++ later) (now || next) fault := by
  cases blamed with
  | lacking place known quoted lacks =>
    subst place
    exact .lacking (List.append_assoc ..) known quoted lacks
  | endless is => exact .endless (by rw [is, Bool.true_or])

theorem Blames.after {next : Bool} (blamed : scope.Blames later next fault) (known : ∀ name ∈ first, scope.Provides name)
    (now : Bool) : scope.Blames (first ++ later) (now || next) fault := by
  cases blamed with
  | lacking place known' quoted lacks =>
    subst place
    exact .lacking (List.append_assoc ..).symm (List.forall_mem_append.2 ⟨known, known'⟩) quoted lacks
  | endless is => exact .endless (by rw [is, Bool.or_true])

theorem fill_error {source : String} {written : List Char} {name : String}
    (failed : scope.fill source written name = .error fault) : scope.Lacks source name fault := by
  have lacking := mt scope.fill_succeeds.2 (failed ▸ not_succeeds_error fault)
  unfold fill at failed
  split at failed
  next => cases failed
  next v _ found =>
    rw [Value.written_eq] at failed
    split at failed
    next long =>
      cases failed
      exact .unwritten found long
    next => cases failed
  next none =>
    split at failed
    next =>
      cases failed
      refine .unknown fun known => lacking ⟨known, fun v found => ?_⟩
      rw [none] at found
      cases found
    next => cases failed

theorem fillAll_error {source : String} {parts : List Piece} (failed : scope.fillAll source parts = .error fault) :
    ∃ before written name after, parts = before ++ .hole written name :: after ∧ scope.Lacks source name fault ∧
      ∀ part ∈ before, ∀ written name, part = .hole written name → scope.Provides name := by
  induction parts with
  | nil => cases failed
  | cons part parts ih =>
    cases part with
    | char c =>
      obtain ⟨before, written, name, after, rfl, lacks, known⟩ := ih (map_error.1 failed)
      refine ⟨.char c :: before, written, name, after, rfl, lacks, List.forall_mem_cons.2 ⟨?_, known⟩⟩
      intro _ _ same
      cases same
    | hole written name =>
      rcases bind_error.1 failed with here | ⟨filled, done, rest⟩
      · exact ⟨[], written, name, parts, rfl, fill_error here, List.forall_mem_nil _⟩
      · have replaced : scope.Provides name := scope.fill_succeeds.1 ⟨filled, done⟩
        obtain ⟨before, written', name', after, rfl, lacks, known⟩ := ih (map_error.1 rest)
        refine ⟨.hole written name :: before, written', name', after, rfl, lacks,
          List.forall_mem_cons.2 ⟨?_, known⟩⟩
        intro _ _ same
        cases same
        exact replaced

theorem text_error {s : String} (failed : scope.text s = .error fault) : scope.Blames (textNames s) false fault := by
  obtain ⟨before, written, name, after, cut, lacks, known⟩ := fillAll_error (map_error.1 failed)
  refine .lacking (by rw [textNames, cut, List.filterMap_append]; rfl) ?_ ?_ lacks
  · intro name member
    obtain ⟨part, inside, named⟩ := List.mem_filterMap.1 member
    cases part with
    | char c => cases named
    | hole written' name' =>
      cases named
      exact known _ inside written' _ rfl
  · rw [mem_textNames, cut]
    exact ⟨written, List.mem_append_right _ List.mem_cons_self⟩

mutual
theorem value_error : (v : Value) → scope.value v = .error fault → scope.Blames (names v) v.isEndless fault
  | .str s, failed => text_error (map_error.1 failed)
  | .list vs, failed => items_error vs (map_error.1 failed)
  | .tuple vs, failed => items_error vs (map_error.1 failed)
  | .map es, failed => entries_error es (map_error.1 failed)
  | .knot _ v, failed => value_error v (map_error.1 failed)
  | .again .., failed => by
    cases failed
    exact .endless rfl
  | .null, failed | .bool _, failed | .int _, failed | .float _, failed | .bytes _, failed | .date _, failed
  | .timestamp _, failed | .set _, failed => by cases failed

theorem items_error : (vs : List Value) → scope.items vs = .error fault →
    scope.Blames (namesOfItems vs) (Value.anyEndless vs) fault
  | [], failed => by cases failed
  | v :: vs, failed => by
    rcases bind_error.1 failed with here | ⟨w, done, rest⟩
    · exact (value_error v here).before _ _
    · exact (items_error vs (map_error.1 rest)).after ((value_ok v).1 done).1 _

theorem entries_error : (es : List (Value × Value)) → scope.entries es = .error fault →
    scope.Blames (namesOfEntries es) (Value.anyEntryEndless es) fault
  | [], failed => by cases failed
  | (_, v) :: es, failed => by
    rcases bind_error.1 failed with here | ⟨w, done, rest⟩
    · exact (value_error v here).before _ _
    · exact (entries_error es (map_error.1 rest)).after ((value_ok v).1 done).1 _
end

theorem provides_iff {name : String} : scope.Provides name ↔
    (name ∈ scope.bindings.keys ∨ scope.strict = false ∧ name ∈ Context.knownVariables) ∧
      ∀ v, scope.bindings.get? name = some v → v.isUnwritable = false := by
  apply and_congr_left'
  apply or_congr_right
  apply and_congr_right
  intro _
  exact and_iff_left_of_imp (known_unprefixed name)

end Scope

/-- A value is rendered exactly if it does not contain itself and every variable that it mentions is in scope with a
value that has a text, or belongs to an event and may stay. Then it has the same shape and keys, and each of its texts is
what was written with the leftmost templates replaced. Otherwise the first variable that cannot be replaced is to blame,
or that the value contains itself. -/
theorem value_rendered_iff (scope : Scope) (v : Value) :
    (Succeeds (scope.value v) ↔ v.isEndless = false ∧ ∀ name ∈ names v,
      (name ∈ scope.bindings.keys ∨ scope.strict = false ∧ name ∈ Context.knownVariables) ∧
        ∀ w, scope.bindings.get? name = some w → w.isUnwritable = false) ∧
    (∀ w, scope.value v = .ok w ↔ Succeeds (scope.value v) ∧ Rendered scope v w) ∧
    (∀ fault, scope.value v = .error fault → scope.Blames (names v) v.isEndless fault) := by
  refine ⟨?_, ?_, fun _ => Scope.value_error v⟩
  · simp only [← Scope.provides_iff]
    rw [and_comm]
    exact scope.value_succeeds v
  · intro w
    constructor
    · intro done
      exact ⟨⟨w, done⟩, ((Scope.value_ok v).1 done).2⟩
    · rintro ⟨done, rendered⟩
      exact (Scope.value_ok v).2 ⟨((scope.value_succeeds v).1 done).1, rendered⟩

/-- A number with too many digits: its variable is in scope, and yet the text cannot be rendered. -/
theorem immense_unrendered :
    let scope : Scope := { bindings := [("n", .int (.ofNat (Nat.pow 10 5000)))] }
    (∀ name ∈ names (.str "$\x7b\x7b n \x7d\x7d"), name ∈ scope.bindings.keys) ∧
      scope.value (.str "$\x7b\x7b n \x7d\x7d") = .error (.unusable .unwritable) := by
  decide +kernel

end Conveyor.Template

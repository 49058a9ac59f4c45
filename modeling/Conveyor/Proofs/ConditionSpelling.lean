import Mathlib.Data.List.Chain
import Mathlib.Data.List.Forall2
import Conveyor.Condition.Token

/-! How tokens are written. A token is read back from what is written for it, unless the next character would go on with
it: a name is continued by further characters of names, a text in single quotes by another single quote, and a negation
by an equals sign. Tokens that stand next to each other without such characters are read back one by one, whatever
blanks are put between them. -/

namespace Conveyor.Condition.Token

def doubled (text : List Char) : List Char := text.flatMap fun c => if c = '\x27' then ['\x27', '\x27'] else [c]

def escaped (text : List Char) : List Char := text.flatMap fun c => if c = '"' ∨ c = '\\' then ['\\', c] else [c]

theorem doubled_cons (c : Char) (text : List Char) :
    doubled (c :: text) = (if c = '\x27' then ['\x27', '\x27'] else [c]) ++ doubled text :=
  List.flatMap_cons

theorem escaped_cons (c : Char) (text : List Char) :
    escaped (c :: text) = (if c = '"' ∨ c = '\\' then ['\\', c] else [c]) ++ escaped text :=
  List.flatMap_cons

theorem collapsePairs_doubled (text : List Char) : collapsePairs (doubled text) = text := by
  induction text with
  | nil => rfl
  | cons c text ih =>
    rw [doubled_cons]
    by_cases quote : c = '\x27'
    · simp [quote, collapsePairs, ih]
    · simp [quote, collapsePairs, ih]

theorem dropEscapes_escaped (text : List Char) : dropEscapes (escaped text) = text := by
  induction text with
  | nil => rfl
  | cons c text ih =>
    rw [escaped_cons]
    by_cases special : c = '"' ∨ c = '\\'
    · simp [special, dropEscapes, ih]
    · have slash : c ≠ '\\' := fun same => special (Or.inr same)
      rw [if_neg special]
      simp [slash, dropEscapes, ih]

variable {rest more written gap : List Char} {first c : Char} {token : Token} {tokens : List Token}

theorem singleBody?_doubled (text : List Char) (ended : rest.head? ≠ some '\x27') :
    singleBody? (doubled text ++ '\x27' :: rest) = some (doubled text, rest) := by
  induction text with
  | nil =>
    cases rest with
    | nil => rfl
    | cons c rest =>
      have other : c ≠ '\x27' := by simpa using ended
      simp [doubled, singleBody?, other]
  | cons c text ih =>
    rw [doubled_cons]
    by_cases quote : c = '\x27'
    · simp [quote, singleBody?, ih]
    · simp [quote, singleBody?, ih]

theorem doubleBody?_escaped (text rest : List Char) :
    doubleBody? (escaped text ++ '"' :: rest) = some (escaped text, rest) := by
  induction text with
  | nil => simp [escaped, doubleBody?]
  | cons c text ih =>
    rw [escaped_cons]
    by_cases special : c = '"' ∨ c = '\\'
    · have visible : c ≠ '\n' := by
        rintro rfl
        simp at special
      simp [special, visible, doubleBody?, ih]
    · have slash : c ≠ '\\' := fun same => special (Or.inr same)
      have quote : c ≠ '"' := fun same => special (Or.inl same)
      simp [slash, quote, doubleBody?, ih]

def IsName (chars : List Char) : Prop :=
  ∃ first more, chars = first :: more ∧ isNameStart first = true ∧ ∀ c ∈ more, isNameChar c = true

theorem isName_cons (start : isNameStart first = true) (further : more.all isNameChar = true) :
    IsName (first :: more) :=
  ⟨first, more, rfl, start, List.all_eq_true.1 further⟩

inductive Lexeme : Token → List Char → Prop
  | operator (o : Operator) : Lexeme (.operator o) o.text.toList
  | name {s : String} (named : IsName s.toList) : Lexeme (.name s) s.toList
  | single (text : List Char) : Lexeme (.single (doubled text)) ('\x27' :: doubled text ++ ['\x27'])
  | double (text : List Char) : Lexeme (.double (escaped text)) ('"' :: escaped text ++ ['"'])

/-- A token would be read differently with the character behind it. -/
def Continues : Token → Char → Prop
  | .operator o, c => o = .not ∧ c = '='
  | .name _, c => isNameChar c = true
  | .single _, c => c = '\x27'
  | .double _, _ => False

theorem span_name (further : ∀ c ∈ more, isNameChar c = true) (ended : ∀ c ∈ rest.head?, ¬ isNameChar c = true) :
    (more ++ rest).takeWhile isNameChar = more ∧ (more ++ rest).dropWhile isNameChar = rest := by
  have stopped : rest.takeWhile isNameChar = [] ∧ rest.dropWhile isNameChar = rest := by
    cases rest with
    | nil => exact ⟨rfl, rfl⟩
    | cons c rest =>
      have other : ¬ isNameChar c = true := ended c rfl
      simp [other]
  rw [List.takeWhile_append_of_pos further, List.dropWhile_append_of_pos further, stopped.1, stopped.2, List.append_nil]
  exact ⟨rfl, rfl⟩

theorem scan?_name (start : isNameStart first = true) (further : ∀ c ∈ more, isNameChar c = true)
    (ended : ∀ c ∈ rest.head?, ¬ isNameChar c = true) :
    scan? (first :: more ++ rest) = some (.name (String.ofList (first :: more)), rest) := by
  obtain ⟨taken, left⟩ := span_name further ended
  rw [List.cons_append]
  unfold scan?
  split
  case h_11 c cs _ _ _ _ _ _ _ _ _ _ same =>
    cases same
    rw [if_pos start, taken, left]
  case h_12 same => cases same
  all_goals
    rename_i same
    exact absurd ((List.cons.inj same).1 ▸ start) (by decide)

/-- What is written for a token is read back, if what follows does not continue it. -/
theorem Lexeme.scan (lexeme : Lexeme token written) (ended : ∀ c ∈ rest.head?, ¬ Continues token c) :
    scan? (written ++ rest) = some (token, rest) := by
  cases lexeme with
  | operator o =>
    cases o
    case not =>
      cases rest with
      | nil => rfl
      | cons c rest =>
        have other : c ≠ '=' := fun same => ended c rfl ⟨rfl, same⟩
        simp [Operator.text, scan?, other]
    all_goals rfl
  | name named =>
    obtain ⟨first, more, chars, start, further⟩ := named
    rw [chars, scan?_name start further ended, ← chars, String.ofList_toList]
  | single text =>
    have next : rest.head? ≠ some '\x27' := fun quote => ended _ quote rfl
    simp [scan?, singleBody?_doubled text next]
  | double text => simp [scan?, doubleBody?_escaped]

theorem isNameChar_range (further : isNameChar c = true) : 45 ≤ c.toNat ∧ c.toNat ≤ 122 := by
  have alpha : c.isAlpha =
      (decide (c.val ≥ 'A'.val ∧ c.val ≤ 'Z'.val) || (decide (c.val ≥ 'a'.val) && decide (c.val ≤ 'z'.val))) := rfl
  simp only [isNameChar, Char.isAlphanum, alpha, Char.isDigit, Bool.or_eq_true, Bool.and_eq_true,
    decide_eq_true_eq] at further
  rcases further with ((((⟨low, high⟩ | ⟨low, high⟩) | ⟨low, high⟩) | rfl) | rfl) | rfl
  · exact ⟨Nat.le_trans (by decide) low, Nat.le_trans high (by decide)⟩
  · exact ⟨Nat.le_trans (by decide) low, high⟩
  · exact ⟨Nat.le_trans (by decide) low, Nat.le_trans high (by decide)⟩
  all_goals decide

theorem isNameChar_visible (further : isNameChar c = true) : Text.isBlank c = false := by
  have range := isNameChar_range further
  simp only [Text.isBlank, Text.isSpace, Bool.or_eq_false_iff, Bool.and_eq_false_iff, decide_eq_false_iff_not,
    beq_eq_false_iff_ne]
  omega

theorem isNameChar_of_start (start : isNameStart c = true) : isNameChar c = true := by
  simp only [isNameStart, isNameChar, Char.isAlphanum, Bool.or_eq_true] at start ⊢
  tauto

/-- Every token begins with a character that is neither blank nor a dollar sign. -/
theorem Lexeme.begins (lexeme : Lexeme token written) :
    ∃ first more, written = first :: more ∧ Text.isBlank first = false ∧ first ≠ '$' := by
  cases lexeme with
  | operator o => cases o <;> exact ⟨_, _, rfl, by decide, by decide⟩
  | name named =>
    obtain ⟨first, more, chars, start, _⟩ := named
    refine ⟨first, more, chars, isNameChar_visible (isNameChar_of_start start), ?_⟩
    intro dollar
    rw [dollar] at start
    cases start
  | single text => exact ⟨_, _, rfl, by decide, by decide⟩
  | double text => exact ⟨_, _, rfl, by decide, by decide⟩

theorem Continues.visible (continues : Continues token c) : Text.isBlank c = false := by
  cases token with
  | operator o =>
    rw [continues.2]
    decide
  | name s => exact isNameChar_visible continues
  | single body =>
    rw [show c = '\x27' from continues]
    decide
  | double body => cases continues

def Follows (token next : Token) : Prop :=
  ((∃ o, token = .operator o) ∨ ∃ o, next = .operator o) ∧ ¬ (token = .operator .not ∧ next = .operator .equal)

theorem operator_begins {o : Operator} (written : o.text.toList = first :: more) :
    isNameChar first = false ∧ first ≠ '\x27' := by
  cases o <;> cases written <;> decide

theorem equal_of_begins (lexeme : Lexeme token written) (sign : written = '=' :: more) : token = .operator .equal := by
  cases lexeme with
  | operator o =>
    cases o
    case equal => rfl
    all_goals cases sign
  | name named =>
    obtain ⟨first, rest, chars, start, _⟩ := named
    cases chars.symm.trans sign
    cases start
  | single text => cases sign
  | double text => cases sign

theorem Follows.apart {next : Token} (follows : Follows token next) (lexeme : Lexeme next written)
    (begins : written = first :: more) : ¬ Continues token first := by
  intro continues
  obtain ⟨kinds, unlike⟩ := follows
  have behind (other : ∀ o, token ≠ .operator o) : isNameChar first = false ∧ first ≠ '\x27' := by
    rcases kinds with ⟨o, same⟩ | ⟨o, same⟩
    · exact (other o same).elim
    · subst same
      cases lexeme
      exact operator_begins begins
  cases token with
  | operator o =>
    obtain ⟨rfl, rfl⟩ := continues
    exact unlike ⟨rfl, equal_of_begins lexeme begins⟩
  | name s =>
    have ended := (behind fun o same => by cases same).1
    cases ended.symm.trans continues
  | single body => exact (behind fun o same => by cases same).2 continues
  | double body => exact continues

def Blanks (gap : List Char) : Prop := ∀ c ∈ gap, Text.isBlank c = true

/-- Written tokens, with blanks before, between and behind them. -/
inductive Spaced : List (List Char) → List Char → Prop
  | ended {gap : List Char} (blank : Blanks gap) : Spaced [] gap
  | next {gap lexeme rest : List Char} {lexemes : List (List Char)} (blank : Blanks gap) (others : Spaced lexemes rest) :
      Spaced (lexeme :: lexemes) (gap ++ (lexeme ++ rest))

theorem trimStart_blanks (blank : Blanks gap) (rest : List Char) :
    Text.trimStart (gap ++ rest) = Text.trimStart rest :=
  List.dropWhile_append_of_pos blank

theorem spaced_evenly (blank : Blanks gap) (lexemes : List (List Char)) :
    Spaced lexemes (lexemes.flatMap (gap ++ ·) ++ gap) := by
  induction lexemes with
  | nil => exact .ended blank
  | cons lexeme lexemes ih =>
    rw [List.flatMap_cons, List.append_assoc, List.append_assoc]
    exact .next blank ih

theorem trimStart_lexeme (lexeme : Lexeme token written) :
    Text.trimStart (written ++ rest) = written ++ rest := by
  obtain ⟨first, more, rfl, visible, _⟩ := lexeme.begins
  simp [Text.trimStart, visible]

theorem all_blanks (blank : Blanks gap) : all gap = .ok [] := by
  have nothing : Text.trimStart gap = [] := by
    have trimmed := trimStart_blanks blank []
    rwa [List.append_nil] at trimmed
  unfold all
  split
  next => rfl
  next c rest blanks =>
    rw [nothing] at blanks
    cases blanks

theorem all_lexeme (blank : Blanks gap) (lexeme : Lexeme token written)
    (ended : ∀ c ∈ rest.head?, ¬ Continues token c) (others : all rest = .ok tokens) :
    all (gap ++ (written ++ rest)) = .ok (token :: tokens) := by
  have start : Text.trimStart (gap ++ (written ++ rest)) = written ++ rest := by
    rw [trimStart_blanks blank, trimStart_lexeme lexeme]
  have scanned := lexeme.scan ended
  rw [all]
  split
  next nothing =>
    rw [start] at nothing
    rw [nothing] at scanned
    cases scanned
  next c cs blanks =>
    rw [start] at blanks
    rw [blanks] at scanned
    split
    next none => cases none.symm.trans scanned
    next found =>
      cases found.symm.trans scanned
      rw [others]
      rfl

/-- What comes behind a token does not continue it: there is a blank, a token that can follow it, or nothing. -/
theorem Spaced.apart {lexemes : List (List Char)} {chars : List Char} (spaced : Spaced lexemes chars)
    (written : List.Forall₂ Lexeme tokens lexemes) (follows : ∀ next ∈ tokens.head?, Follows token next) :
    ∀ c ∈ chars.head?, ¬ Continues token c := by
  have unblank {gap : List Char} (blank : Blanks gap) {c : Char} (member : c ∈ gap) : ¬ Continues token c := by
    intro continues
    have visible := continues.visible
    rw [blank c member] at visible
    cases visible
  intro c head
  cases spaced with
  | ended blank => exact unblank blank (List.mem_of_mem_head? head)
  | @next gap lexeme rest _ blank others =>
    cases gap with
    | cons d gap =>
      cases head
      exact unblank blank List.mem_cons_self
    | nil =>
      cases written with
      | cons here _ =>
        obtain ⟨first, more, begins, _⟩ := here.begins
        rw [List.nil_append, begins] at head
        cases head
        exact (follows _ rfl).apart here begins

/-- Tokens that can stand next to each other are read back from what is written, with any blanks between them. -/
theorem all_spaced {lexemes : List (List Char)} {chars : List Char} (written : List.Forall₂ Lexeme tokens lexemes)
    (chain : tokens.IsChain Follows) (spaced : Spaced lexemes chars) :
    all chars = .ok tokens := by
  induction spaced generalizing tokens with
  | ended blank =>
    cases written
    exact all_blanks blank
  | next blank others ih =>
    cases written with
    | cons lexeme written =>
      obtain ⟨follows, chain⟩ := List.isChain_cons.1 chain
      exact all_lexeme blank lexeme (others.apart written follows) (ih written chain)

end Conveyor.Condition.Token

import Conveyor.Json.Printer
import Conveyor.Json.Reader
import Conveyor.Proofs.TableContents

/-! Files of one object whose fields are texts and whole numbers are read as they were written: the text of such an object
is that of its fields, one after the other, and each is read up to where the next one begins. -/

namespace Conveyor

/-! ### Bytes -/

theorem Blob.toList_eq (bytes : ByteArray) : bytes.toList = bytes.data.toList := by
  have along (i : Nat) (done : List UInt8) (inside : i ≤ bytes.size) :
      ByteArray.toList.loop bytes i done = done.reverse ++ bytes.data.toList.drop i := by
    induction rest : bytes.size - i generalizing i done with
    | zero =>
      have ended : bytes.size = i := by omega
      rw [ByteArray.toList.loop, if_neg (by omega), List.drop_eq_nil_of_le, List.append_nil]
      exact Nat.le_of_eq ended
    | succ n ih =>
      have more : i < bytes.data.toList.length := by
        change i < bytes.size
        omega
      have byte : bytes.get! i = bytes.data.toList[i] := by
        cases bytes with
        | mk data => exact getElem!_pos data i more
      rw [ByteArray.toList.loop, if_pos (by omega), ih (i + 1) _ (by omega) (by omega), List.drop_eq_getElem_cons more,
        List.reverse_cons, List.append_assoc, byte]
      rfl
  exact along 0 [] (Nat.zero_le _)

theorem Blob.toText?_ofText (s : String) : Blob.toText? (Blob.ofText s) = some s := by
  have bytes : (⟨(Blob.ofText s).toArray⟩ : ByteArray) = s.toUTF8 := by
    rw [Blob.ofText, Blob.toList_eq, Array.toArray_toList]
  rw [Blob.toText?, bytes, String.fromUTF8?, String.toUTF8_eq_toByteArray, dif_pos s.isValidUTF8]
  rfl

namespace Json

/-! ### Texts -/

theorem hexValue?_digit : ∀ n < 16, Blob.hexValue? (Nat.digitChar n) = some n := by decide

theorem hexDigits_control : ∀ n < 32, Text.hexDigits 4 n = ['0', '0', Nat.digitChar (n / 16), Nat.digitChar (n % 16)] := by
  decide

theorem textChar_cases (c : Char) :
    (∃ cs, textChar false c = '\\' :: cs ∧ ∀ rest, unescape? (cs ++ rest) = some (c, rest)) ∨
      (textChar false c = [c] ∧ c ≠ '"' ∧ c ≠ '\\') := by
  have known {n : Nat} (code : c.toNat = n) : c = Char.ofNat n := by rw [← code, Char.ofNat_toNat]
  unfold textChar
  split
  next here => exact Or.inl ⟨_, rfl, fun rest => by rw [here]; rfl⟩
  next quote =>
  split
  next here => exact Or.inl ⟨_, rfl, fun rest => by rw [here]; rfl⟩
  next backslash =>
  split
  next here => exact Or.inl ⟨_, rfl, fun rest => by rw [here]; rfl⟩
  split
  next here => exact Or.inl ⟨_, rfl, fun rest => by rw [here]; rfl⟩
  split
  next here => exact Or.inl ⟨_, rfl, fun rest => by rw [here]; rfl⟩
  split
  next code => exact Or.inl ⟨_, rfl, fun rest => by rw [known code]; rfl⟩
  split
  next code => exact Or.inl ⟨_, rfl, fun rest => by rw [known code]; rfl⟩
  split
  next control =>
    refine Or.inl ⟨'u' :: Text.hexDigits 4 c.toNat, ?_, ?_⟩
    · rw [escape, if_pos (by omega)]
      rfl
    · intro rest
      have high := hexValue?_digit (c.toNat / 16) (by omega)
      have low := hexValue?_digit (c.toNat % 16) (by omega)
      have zero : Blob.hexValue? '0' = some 0 := by decide
      have unit : hexUnit? (Text.hexDigits 4 c.toNat ++ rest) = some (c.toNat, rest) := by
        simp only [hexDigits_control c.toNat control, List.cons_append, List.nil_append, hexUnit?, high, low, zero,
          Option.bind_eq_bind, Option.bind_some, Option.pure_def, Option.some.injEq, Prod.mk.injEq, and_true]
        omega
      rw [List.cons_append, unescape?, unit, Option.bind_eq_bind, Option.bind_some]
      dsimp only
      rw [if_neg (by omega), Char.ofNat_toNat]
      rfl
  next =>
    rw [if_neg (by simp)]
    exact Or.inr ⟨rfl, quote, backslash⟩

theorem textBody?_char (fuel : Nat) (c : Char) (rest : List Char) :
    textBody? (fuel + 1) (textChar false c ++ rest) = (textBody? fuel rest).map fun body => (c :: body.1, body.2) := by
  rcases textChar_cases c with ⟨cs, written, read⟩ | ⟨written, quote, backslash⟩
  · rw [written, List.cons_append, textBody?, read, Option.bind_eq_bind, Option.bind_some]
    dsimp only
    cases textBody? fuel rest <;> rfl
  · rw [written, List.singleton_append, textBody?]
    · cases textBody? fuel rest <;> rfl
    · exact quote
    · exact backslash

theorem length_written (cs : List Char) : cs.length ≤ (cs.flatMap (textChar false)).length := by
  induction cs with
  | nil => exact Nat.le_refl 0
  | cons c cs ih =>
    have some : 0 < (textChar false c).length := by
      rcases textChar_cases c with ⟨_, written, _⟩ | ⟨written, _⟩ <;> simp [written]
    rw [List.flatMap_cons, List.length_append, List.length_cons]
    omega

theorem textBody?_written {fuel : Nat} (cs : List Char) (rest : List Char) (enough : cs.length < fuel) :
    textBody? fuel (cs.flatMap (textChar false) ++ '"' :: rest) = some (cs, rest) := by
  induction cs generalizing fuel with
  | nil =>
    obtain ⟨fuel, rfl⟩ := Nat.exists_eq_add_of_lt enough
    rfl
  | cons c cs ih =>
    obtain ⟨fuel, rfl⟩ : ∃ n, fuel = n + 1 := ⟨fuel - 1, by omega⟩
    rw [List.flatMap_cons, List.append_assoc, textBody?_char, ih (by simpa using enough)]
    rfl

/-! ### Whole numbers -/

variable {c : Char} {cs : List Char} {fields : List (String × Json)}

theorem digitTo?_digit (digit : c.isDigit = true) : Number.digitTo? 10 c = some (c.toNat - 48) := by
  have range : 48 ≤ c.toNat ∧ c.toNat ≤ 57 := Char.isDigit_iff_toNat.1 digit
  have value : Text.digitValue? c = some (c.toNat - 48) := by
    rw [Text.digitValue?, if_pos (by omega), if_pos digit]
  have small : c.toNat - 48 < 10 := by omega
  simp [Number.digitTo?, value, small]

theorem takeDigits_digits (digits : ∀ c ∈ cs, c.isDigit = true) :
    Number.takeDigits 10 cs = (cs.map fun c => c.toNat - 48, []) := by
  induction cs with
  | nil => rfl
  | cons c cs ih =>
    obtain ⟨digit, others⟩ := List.forall_mem_cons.1 digits
    have plain : c ≠ '_' := by
      rintro rfl
      cases digit
    rw [Number.takeDigits, digitTo?_digit digit, ih others]
    · rfl
    · intro d rest same
      exact (plain same).elim

theorem dropWhile_none {p : Char → Bool} (none : ∀ c ∈ cs, p c = false) : cs.dropWhile p = cs := by
  cases cs with
  | nil => rfl
  | cons c cs => rw [List.dropWhile_cons_of_neg (by simp [none c])]

theorem readSign_digits (digits : ∀ c ∈ cs, c.isDigit = true) : Number.readSign cs = (false, cs) := by
  unfold Number.readSign
  split
  next => cases digits _ List.mem_cons_self
  next => cases digits _ List.mem_cons_self
  next => rfl

theorem afterMark_decimal (cs : List Char) : Number.afterMark 10 cs = cs := by
  unfold Number.afterMark
  split
  next => rw [if_neg (by simp [Number.baseMark?])]
  next => rfl

theorem readWhole_digits (digits : ∀ c ∈ cs, c.isDigit = true) (some : cs ≠ [])
    (short : cs.length ≤ Number.digitLimit) :
    Number.readWhole 10 cs = .ok (Number.digitsTo 10 (cs.map fun c => c.toNat - 48)) := by
  have visible : ∀ c ∈ cs, Text.isSpace c = false := by
    intro c member
    have range : 48 ≤ c.toNat ∧ c.toNat ≤ 57 := Char.isDigit_iff_toNat.1 (digits c member)
    simp only [Text.isSpace, Bool.or_eq_false_iff, Bool.and_eq_false_iff, decide_eq_false_iff_not, beq_eq_false_iff_ne]
    omega
  have trimmed : Text.trimSpace cs = cs := by
    rw [Text.trimSpace, dropWhile_none visible, dropWhile_none (by simpa using visible), List.reverse_reverse]
  unfold Number.readWhole
  rw [trimmed, readSign_digits digits]
  dsimp only
  rw [afterMark_decimal]
  cases cs with
  | nil => exact (some rfl).elim
  | cons c cs =>
    have plain : ¬ (c :: cs).head? = Option.some '_' := by
      rintro same
      cases same
      cases digits _ List.mem_cons_self
    rw [if_neg plain, takeDigits_digits digits]
    have fits : ¬ (10 = 10 ∧ Number.digitLimit < (cs.map fun c => c.toNat - 48).length + 1) := by simpa using short
    rw [List.map_cons]
    dsimp only
    rw [if_neg fits]
    rfl

/-- A whole number that can be read again has not too many digits. -/
def Short (n : Nat) : Prop := (Nat.toDigits 10 n).length ≤ Number.digitLimit

instance (n : Nat) : Decidable (Short n) := Nat.decLe _ _

theorem readInt?_digits {n : Nat} (short : Short n) :
    Number.readInt? (String.ofList (Nat.toDigits 10 n)) = some (n : Int) := by
  have digits : ∀ c ∈ Nat.toDigits 10 n, c.isDigit = true := fun c member =>
    Nat.isDigit_of_mem_toDigits (by decide) (by decide) member
  have value : Number.digitsTo 10 ((Nat.toDigits 10 n).map fun c => c.toNat - 48) = n := by
    rw [Number.digitsTo, List.foldl_map]
    exact Nat.ofDigitChars_ten_toDigits
  rw [Number.readInt?, String.toList_ofList, readWhole_digits digits Nat.toDigits_ne_nil short, value]
  rfl

/-- The characters after a number do not continue it. -/
def Ended (rest : List Char) : Prop := ∀ c ∈ rest.head?, isNumberChar c = false

theorem number?_digits {n : Nat} (short : Short n) {rest : List Char} (ended : Ended rest) :
    number? (Nat.toDigits 10 n ++ rest) = some (.int n, rest) := by
  have digits : ∀ c ∈ Nat.toDigits 10 n, isNumberChar c = true := by
    intro c member
    simp [isNumberChar, Nat.isDigit_of_mem_toDigits (by decide) (by decide) member]
  have first : rest.takeWhile isNumberChar = [] := by
    cases rest with
    | nil => rfl
    | cons c rest => rw [List.takeWhile_cons_of_neg (by simpa using ended c rfl)]
  have last : rest.dropWhile isNumberChar = rest := by
    cases rest with
    | nil => rfl
    | cons c rest => rw [List.dropWhile_cons_of_neg (by simpa using ended c rfl)]
  unfold number?
  rw [List.takeWhile_append_of_pos digits, List.dropWhile_append_of_pos digits, first, last, List.append_nil]
  dsimp only
  rw [readInt?_digits short]

/-! ### Fields -/

inductive Flat : Json → Prop
  | text (s : String) : Flat (.str s)
  | size (n : Nat) (short : Short n) : Flat (.int n)

theorem skipBlanks_blank (blank : c = ' ' ∨ c = '\n') (cs : List Char) : skipBlanks (c :: cs) = skipBlanks cs := by
  rcases blank with rfl | rfl <;> rfl

theorem skipBlanks_lineBreak (level : Nat) (cs : List Char) :
    skipBlanks ((lineBreak level).toList ++ cs) = skipBlanks cs := by
  have blanks (n : Nat) : skipBlanks (List.replicate n ' ' ++ cs) = skipBlanks cs := by
    induction n with
    | zero => rfl
    | succ n ih => rw [List.replicate_succ, List.cons_append, skipBlanks_blank (Or.inl rfl), ih]
  have text : (lineBreak level).toList = '\n' :: List.replicate (2 * level) ' ' := by simp [lineBreak]
  rw [text, List.cons_append, skipBlanks_blank (Or.inr rfl), blanks]

theorem textLiteral_append (s : String) (rest : List Char) :
    (textLiteral false s).toList ++ rest = '"' :: (s.toList.flatMap (textChar false) ++ '"' :: rest) := by
  simp [textLiteral]

theorem textBody?_literal (s : String) (rest : List Char) :
    textBody? ((s.toList.flatMap (textChar false) ++ '"' :: rest).length + 1)
      (s.toList.flatMap (textChar false) ++ '"' :: rest) = some (s.toList, rest) := by
  apply textBody?_written
  have written := length_written s.toList
  rw [List.length_append]
  omega

theorem skipBlanks_digit (digit : c.isDigit = true) (cs : List Char) : skipBlanks (c :: cs) = c :: cs := by
  rw [skipBlanks, List.dropWhile_cons_of_neg]
  simp only [Bool.or_eq_true, decide_eq_true_eq]
  rintro (((rfl | rfl) | rfl) | rfl) <;> cases digit

theorem value?_digit (digit : c.isDigit = true) (fuel : Nat) (cs : List Char) :
    value? (fuel + 1) (c :: cs) = number? (c :: cs) := by
  rw [value?, skipBlanks_digit digit]
  split
  case h_1 same => cases same
  case h_8 => rfl
  all_goals
    rename_i same
    obtain ⟨rfl, _⟩ := List.cons.inj same
    cases digit

theorem value?_blank (fuel : Nat) (cs : List Char) : value? (fuel + 1) (' ' :: cs) = value? (fuel + 1) cs := by
  rw [value?, value?, skipBlanks_blank (Or.inl rfl)]

theorem skipBlanks_quote (cs : List Char) : skipBlanks ('"' :: cs) = '"' :: cs := rfl

theorem skipBlanks_colon (cs : List Char) : skipBlanks (':' :: cs) = ':' :: cs := rfl

theorem value?_flat {j : Json} (flat : Flat j) (fuel level : Nat) {rest : List Char} (ended : Ended rest) :
    value? (fuel + 1) ((j.pretty false level).toList ++ rest) = some (j, rest) := by
  cases flat with
  | text s =>
    rw [pretty, textLiteral_append, value?]
    simp only [skipBlanks_quote, textBody?_literal, Option.bind_eq_bind, Option.bind_some, String.ofList_toList]
    rfl
  | size n short =>
    have digits : ((Json.int n).pretty false level).toList = Nat.toDigits 10 n := by
      rw [pretty]
      exact Nat.toList_repr
    rw [digits]
    cases spelled : Nat.toDigits 10 n with
    | nil => exact (Nat.toDigits_ne_nil spelled).elim
    | cons c cs =>
      have digit : c.isDigit = true :=
        Nat.isDigit_of_mem_toDigits (by decide) (by decide) (spelled ▸ List.mem_cons_self)
      rw [List.cons_append, value?_digit digit, ← List.cons_append, ← spelled]
      exact number?_digits short ended

def fieldText (level : Nat) (name : String) (j : Json) : String := textLiteral false name ++ ": " ++ j.pretty false level

section

variable {j : Json} {rest after : List Char}

theorem fieldText_append (level : Nat) (name : String) (j : Json) (rest : List Char) :
    (fieldText level name j).toList ++ rest = '"' :: (name.toList.flatMap (textChar false) ++
      '"' :: ':' :: ' ' :: ((j.pretty false level).toList ++ rest)) := by
  rw [← textLiteral_append]
  simp [fieldText]

theorem fields?_last (flat : Flat j) (name : String) (fuel level : Nat) (ended : Ended rest)
    (closed : skipBlanks rest = '\x7d' :: after) :
    fields? (fuel + 2) ((fieldText level name j).toList ++ rest) = some ([(name, j)], after) := by
  rw [fieldText_append, fields?]
  simp only [skipBlanks_quote, textBody?_literal, skipBlanks_colon, value?_blank, value?_flat flat fuel level ended,
    closed, Option.bind_eq_bind, Option.bind_some, String.ofList_toList]
  rfl

theorem fields?_more (flat : Flat j) (name : String) (fuel level : Nat) {others : List (String × Json)}
    (later : fields? (fuel + 1) rest = some (others, after)) :
    fields? (fuel + 2) ((fieldText level name j).toList ++ ',' :: rest) = some ((name, j) :: others, after) := by
  have comma (cs : List Char) : skipBlanks (',' :: cs) = ',' :: cs := rfl
  have ended : Ended (',' :: rest) := by
    rintro c ⟨rfl⟩
    rfl
  rw [fieldText_append, fields?]
  simp only [skipBlanks_quote, textBody?_literal, skipBlanks_colon, value?_blank, value?_flat flat fuel level ended,
    comma, later, Option.bind_eq_bind, Option.bind_some, String.ofList_toList]
  rfl

theorem fields?_lineBreak (fuel level : Nat) (cs : List Char) :
    fields? (fuel + 1) ((lineBreak level).toList ++ cs) = fields? (fuel + 1) cs := by
  rw [fields?, fields?, skipBlanks_lineBreak]

end

theorem ended_lineBreak (level : Nat) (rest : List Char) : Ended ((lineBreak level).toList ++ rest) := by
  have first : (lineBreak level).toList = '\n' :: List.replicate (2 * level) ' ' := by simp [lineBreak]
  rw [first]
  rintro c ⟨rfl⟩
  rfl

def fieldsText (level : Nat) (fields : List (String × Json)) : String :=
  ("," ++ lineBreak level).intercalate (prettyFields false level fields)

theorem fieldsText_single (level : Nat) (name : String) (j : Json) :
    fieldsText level [(name, j)] = fieldText level name j := by
  rw [fieldsText, prettyFields, prettyFields, String.intercalate_singleton]
  rfl

theorem fieldsText_cons (level : Nat) (name : String) (j : Json) (next : String × Json) (fields : List (String × Json)) :
    (fieldsText level ((name, j) :: next :: fields)).toList = (fieldText level name j).toList ++
      ',' :: ((lineBreak level).toList ++ (fieldsText level (next :: fields)).toList) := by
  rw [fieldsText, fieldsText, prettyFields, prettyFields, String.intercalate_cons_cons]
  simp [fieldText]

theorem length_fieldsText (level : Nat) (fields : List (String × Json)) :
    fields.length ≤ (fieldsText level fields).toList.length := by
  induction fields with
  | nil => exact Nat.zero_le _
  | cons field fields ih =>
    obtain ⟨name, j⟩ := field
    cases fields with
    | nil =>
      have first := congrArg List.length (fieldText_append level name j [])
      rw [List.append_nil] at first
      rw [fieldsText_single, first]
      simp
    | cons next fields =>
      rw [fieldsText_cons]
      simp only [List.length_cons, List.length_append] at ih ⊢
      omega

theorem fieldsText_begins (some : fields ≠ []) (level : Nat) (rest : List Char) :
    ∃ cs, (fieldsText level fields).toList ++ rest = '"' :: cs := by
  obtain ⟨⟨name, j⟩, fields, rfl⟩ := List.exists_cons_of_ne_nil some
  cases fields with
  | nil => exact ⟨_, by rw [fieldsText_single, fieldText_append]⟩
  | cons next fields => exact ⟨_, by rw [fieldsText_cons, List.append_assoc, fieldText_append]⟩

theorem fields?_written (some : fields ≠ []) (flat : ∀ field ∈ fields, Flat field.2) (fuel level : Nat)
    (enough : fields.length ≤ fuel) (outer : Nat) (rest : List Char) :
    fields? (fuel + 1) ((fieldsText level fields).toList ++ ((lineBreak outer).toList ++ '\x7d' :: rest)) =
      Option.some (fields, rest) := by
  induction fields generalizing fuel with
  | nil => exact (some rfl).elim
  | cons field fields ih =>
    obtain ⟨name, j⟩ := field
    obtain ⟨here, others⟩ := List.forall_mem_cons.1 flat
    obtain ⟨fuel, rfl⟩ : ∃ n, fuel = n + 1 := ⟨fuel - 1, by rw [List.length_cons] at enough; omega⟩
    cases fields with
    | nil =>
      rw [fieldsText_single]
      exact fields?_last here name fuel _ (ended_lineBreak _ _) (skipBlanks_lineBreak _ _)
    | cons next fields =>
      rw [fieldsText_cons, List.append_assoc, List.cons_append]
      apply fields?_more here
      rw [List.append_assoc, fields?_lineBreak]
      exact ih (List.cons_ne_nil _ _) others fuel (by simpa using enough)

theorem read?_object (some : fields ≠ []) (flat : ∀ field ∈ fields, Flat field.2)
    (distinct : (Table.keys fields).Nodup) : read? ((Json.obj fields).pretty false 0) = Option.some (.obj fields) := by
  have printed : ((Json.obj fields).pretty false 0).toList = '\x7b' :: ((lineBreak 1).toList ++
      ((fieldsText 1 fields).toList ++ ((lineBreak 0).toList ++ ['\x7d']))) := by
    obtain ⟨⟨name, j⟩, fields, rfl⟩ := List.exists_cons_of_ne_nil some
    simp [pretty, block, prettyFields, fieldsText]
  obtain ⟨cs, first⟩ := fieldsText_begins some 1 ((lineBreak 0).toList ++ ['\x7d'])
  have length : fields.length ≤ 2 * ((Json.obj fields).pretty false 0).toList.length := by
    have inner := length_fieldsText 1 fields
    rw [printed, List.length_cons, List.length_append, List.length_append]
    omega
  have brace (cs : List Char) : skipBlanks ('\x7b' :: cs) = '\x7b' :: cs := rfl
  have inside := fields?_written some flat (2 * ((Json.obj fields).pretty false 0).toList.length) 1 length 0 []
  rw [first] at inside
  have value : value? (2 * ((Json.obj fields).pretty false 0).toList.length + 2) ((Json.obj fields).pretty false 0).toList =
      Option.some (.obj fields, []) := by
    rw [value?]
    nth_rewrite 1 [printed]
    simp only [brace, skipBlanks_lineBreak, first, skipBlanks_quote]
    split
    next same => cases same
    next => rw [inside, Option.bind_eq_bind, Option.bind_some, Table.ofPairs_of_nodup (Table.exact fields) distinct]; rfl
  rw [read?]
  simp only [value, Option.bind_eq_bind, Option.bind_some]
  rfl

end Json
end Conveyor

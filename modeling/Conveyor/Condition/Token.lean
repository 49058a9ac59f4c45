import Conveyor.Text.Blank
import Conveyor.Text.Quoted
import Conveyor.Text.Split

/-! Tokens of the condition language: operators, names, and texts in single or double quotes. A
single quote inside single quotes is written twice; a backslash inside double quotes takes the next
character as it is. -/

namespace Conveyor.Condition

inductive Operator where
  | equal
  | notEqual
  | and
  | or
  | not
  | open
  | close
  | comma
  deriving DecidableEq, Repr

def Operator.text : Operator → String
  | .equal => "=="
  | .notEqual => "!="
  | .and => "&&"
  | .or => "||"
  | .not => "!"
  | .open => "("
  | .close => ")"
  | .comma => ","

/-- A token. The body of a quoted text is kept as it was written, without its quotes. -/
inductive Token where
  | operator (o : Operator)
  | name (s : String)
  | single (body : List Char)
  | double (body : List Char)
  deriving DecidableEq, Repr

namespace Token

def written : Token → String
  | .operator o => o.text
  | .name s => s
  | .single body => String.ofList ('\x27' :: body ++ ['\x27'])
  | .double body => String.ofList ('"' :: body ++ ['"'])

def collapsePairs : List Char → List Char
  | '\x27' :: '\x27' :: rest => '\x27' :: collapsePairs rest
  | c :: rest => c :: collapsePairs rest
  | [] => []

def dropEscapes : List Char → List Char
  | '\\' :: c :: rest => c :: dropEscapes rest
  | c :: rest => c :: dropEscapes rest
  | [] => []

def isNameStart (c : Char) : Bool := c.isAlpha || c = '_'

def isNameChar (c : Char) : Bool := c.isAlphanum || c = '_' || c = '.' || c = '-'

/-- The body of a text in single quotes, after the opening quote, and what follows the closing one.
The closing quote is the first that is not part of a pair; if there is none, the last pair gives up
its first quote. -/
def singleBody? : List Char → Option (List Char × List Char)
  | [] => none
  | '\x27' :: '\x27' :: rest =>
    match singleBody? rest with
    | some (body, after) => some ('\x27' :: '\x27' :: body, after)
    | none => some ([], '\x27' :: rest)
  | '\x27' :: rest => some ([], rest)
  | c :: rest => (singleBody? rest).map fun (body, after) => (c :: body, after)

/-- The body of a text in double quotes, after the opening quote, and what follows the closing one.
A backslash does not escape a line feed. -/
def doubleBody? : List Char → Option (List Char × List Char)
  | [] => none
  | '"' :: rest => some ([], rest)
  | ['\\'] => none
  | '\\' :: c :: rest =>
    if c = '\n' then none
    else (doubleBody? rest).map fun (body, after) => ('\\' :: c :: body, after)
  | c :: rest => (doubleBody? rest).map fun (body, after) => (c :: body, after)

def scan? : List Char → Option (Token × List Char)
  | '\x27' :: rest => (singleBody? rest).map fun (body, after) => (.single body, after)
  | '"' :: rest => (doubleBody? rest).map fun (body, after) => (.double body, after)
  | '=' :: '=' :: rest => some (.operator .equal, rest)
  | '!' :: '=' :: rest => some (.operator .notEqual, rest)
  | '&' :: '&' :: rest => some (.operator .and, rest)
  | '|' :: '|' :: rest => some (.operator .or, rest)
  | '!' :: rest => some (.operator .not, rest)
  | '(' :: rest => some (.operator .open, rest)
  | ')' :: rest => some (.operator .close, rest)
  | ',' :: rest => some (.operator .comma, rest)
  | c :: rest =>
    if isNameStart c then
      some (.name (String.ofList (c :: rest.takeWhile isNameChar)), rest.dropWhile isNameChar)
    else none
  | [] => none

theorem length_dropWhile_le {α : Type} (p : α → Bool) (cs : List α) :
    (cs.dropWhile p).length ≤ cs.length :=
  (List.dropWhile_suffix p).length_le

theorem singleBody?_length {cs body after : List Char} (found : singleBody? cs = some (body, after)) :
    after.length < cs.length := by
  fun_induction singleBody? cs generalizing body after with
  | case1 => simp at found
  | case2 rest body' after' inner ih =>
    simp only [Option.some.injEq, Prod.mk.injEq] at found
    have := ih inner
    simp only [List.length_cons, ← found.2]
    omega
  | case3 rest inner ih =>
    simp only [Option.some.injEq, Prod.mk.injEq] at found
    simp [← found.2]
  | case4 rest _ =>
    simp only [Option.some.injEq, Prod.mk.injEq] at found
    simp [← found.2]
  | case5 c rest _ _ ih =>
    obtain ⟨⟨body', after'⟩, inner, same⟩ := Option.map_eq_some_iff.1 found
    simp only [Prod.mk.injEq] at same
    have := ih inner
    simp only [List.length_cons, ← same.2]
    omega

theorem doubleBody?_length {cs body after : List Char} (found : doubleBody? cs = some (body, after)) :
    after.length < cs.length := by
  fun_induction doubleBody? cs generalizing body after with
  | case1 => simp at found
  | case2 rest =>
    simp only [Option.some.injEq, Prod.mk.injEq] at found
    simp [← found.2]
  | case3 => simp at found
  | case4 => simp at found
  | case5 c rest _ ih =>
    obtain ⟨⟨body', after'⟩, inner, same⟩ := Option.map_eq_some_iff.1 found
    simp only [Prod.mk.injEq] at same
    have := ih inner
    simp only [List.length_cons, ← same.2]
    omega
  | case6 c rest _ _ _ ih =>
    obtain ⟨⟨body', after'⟩, inner, same⟩ := Option.map_eq_some_iff.1 found
    simp only [Prod.mk.injEq] at same
    have := ih inner
    simp only [List.length_cons, ← same.2]
    omega

theorem scan?_length {cs after : List Char} {token : Token} (found : scan? cs = some (token, after)) :
    after.length < cs.length := by
  unfold scan? at found
  split at found
  case h_1 rest =>
    obtain ⟨⟨body, after'⟩, inner, same⟩ := Option.map_eq_some_iff.1 found
    simp only [Prod.mk.injEq] at same
    have := singleBody?_length inner
    simp only [List.length_cons, ← same.2]
    omega
  case h_2 rest =>
    obtain ⟨⟨body, after'⟩, inner, same⟩ := Option.map_eq_some_iff.1 found
    simp only [Prod.mk.injEq] at same
    have := doubleBody?_length inner
    simp only [List.length_cons, ← same.2]
    omega
  case h_11 c rest _ _ _ _ _ _ _ _ _ _ =>
    split at found
    · simp only [Option.some.injEq, Prod.mk.injEq] at found
      have := length_dropWhile_le isNameChar rest
      simp only [List.length_cons, ← found.2]
      omega
    · simp at found
  case h_12 => simp at found
  all_goals
    simp only [Option.some.injEq, Prod.mk.injEq] at found
    simp only [List.length_cons, ← found.2]
    omega

def all (cs : List Char) : Except Char (List Token) :=
  match _ : Text.trimStart cs with
  | [] => .ok []
  | c :: rest =>
    match _ : scan? (c :: rest) with
    | none => .error c
    | some (token, after) => do
      let tokens ← all after
      return token :: tokens
termination_by cs.length
decreasing_by
  rename_i blanks found
  have shorter := scan?_length found
  have trimmed := Text.length_trimStart_le cs
  rw [← blanks] at shorter
  exact Nat.lt_of_lt_of_le shorter trimmed

end Token
end Conveyor.Condition

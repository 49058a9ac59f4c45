import Conveyor.Proofs.ConditionParsing
import Conveyor.Proofs.ConditionSpelling

/-! Conditions as text. The tokens of a derivation can stand next to each other as they are, so whatever blanks are put
between them, the text is read as the expression that the derivation denotes. An expression that is printed with all of
its operands closed has such a derivation, and is read back. -/

namespace Conveyor.Condition

namespace Grammar

open Token (Follows Lexeme Spaced Blanks)

/-! ### The tokens of a derivation next to each other -/

def Parted (rest : List Token) : Prop := ∀ next ∈ rest.head?, ∃ o, next = .operator o

section

variable {rest : List Token}

theorem parted_operator (o : Operator) : Parted (.operator o :: rest) := by
  intro next head
  cases head
  exact ⟨o, rfl⟩

theorem chain_operator {o : Operator} (other : o ≠ .not) (chain : rest.IsChain Follows) :
    (Token.operator o :: rest).IsChain Follows := by
  apply List.isChain_cons.2
  refine ⟨?_, chain⟩
  intro next _
  refine ⟨Or.inl ⟨o, rfl⟩, ?_⟩
  intro both
  exact other (Token.operator.inj both.1)

theorem chain_not (unequal : Ends [.equal] rest) (chain : rest.IsChain Follows) :
    (Token.operator .not :: rest).IsChain Follows := by
  apply List.isChain_cons.2
  refine ⟨?_, chain⟩
  intro next head
  refine ⟨Or.inl ⟨.not, rfl⟩, ?_⟩
  intro both
  obtain ⟨after, split⟩ := List.head?_eq_some_iff.1 head
  rw [both.2] at split
  exact unequal .equal (by simp) after split

theorem chain_operand {token : Token} (plain : ∀ o, token ≠ .operator o) (parted : Parted rest)
    (chain : rest.IsChain Follows) : (token :: rest).IsChain Follows := by
  apply List.isChain_cons.2
  refine ⟨?_, chain⟩
  intro next head
  refine ⟨Or.inr (parted next head), ?_⟩
  intro both
  exact plain .not both.1

theorem Disjuncts.parted (more : Disjuncts) (parted : Parted rest) : Parted (more.tokens ++ rest) := by
  cases more with
  | none => exact parted
  | or next more => exact parted_operator .or

theorem Conjuncts.parted (more : Conjuncts) (parted : Parted rest) : Parted (more.tokens ++ rest) := by
  cases more with
  | none => exact parted
  | and next more => exact parted_operator .and

theorem Comparand.parted (more : Comparand) (parted : Parted rest) : Parted (more.tokens ++ rest) := by
  cases more with
  | none => exact parted
  | equal right => exact parted_operator .equal
  | notEqual right => exact parted_operator .notEqual

theorem Negation.unequal (n : Negation) (rest : List Token) : Ends [.equal] (n.tokens ++ rest) := by
  cases n with
  | not operand => exact ends_operator (by decide) _
  | plain comparison =>
    obtain ⟨left, more⟩ := comparison
    cases left <;> simp [Ends, Negation.tokens, Comparison.tokens, Primary.tokens]

end

mutual

theorem Disjunction.chained : (d : Disjunction) → {rest : List Token} → Parted rest → rest.IsChain Follows →
    (d.tokens ++ rest).IsChain Follows
  | .mk first more, rest, parted, chain => by
    rw [Disjunction.tokens, List.append_assoc]
    exact first.chained (more.parted parted) (more.chained parted chain)

theorem Disjuncts.chained : (more : Disjuncts) → {rest : List Token} → Parted rest → rest.IsChain Follows →
    (more.tokens ++ rest).IsChain Follows
  | .none, rest, parted, chain => chain
  | .or next more, rest, parted, chain => by
    rw [Disjuncts.tokens, List.cons_append, List.append_assoc]
    exact chain_operator (by decide) (next.chained (more.parted parted) (more.chained parted chain))

theorem Conjunction.chained : (c : Conjunction) → {rest : List Token} → Parted rest → rest.IsChain Follows →
    (c.tokens ++ rest).IsChain Follows
  | .mk first more, rest, parted, chain => by
    rw [Conjunction.tokens, List.append_assoc]
    exact first.chained (more.parted parted) (more.chained parted chain)

theorem Conjuncts.chained : (more : Conjuncts) → {rest : List Token} → Parted rest → rest.IsChain Follows →
    (more.tokens ++ rest).IsChain Follows
  | .none, rest, parted, chain => chain
  | .and next more, rest, parted, chain => by
    rw [Conjuncts.tokens, List.cons_append, List.append_assoc]
    exact chain_operator (by decide) (next.chained (more.parted parted) (more.chained parted chain))

theorem Negation.chained : (n : Negation) → {rest : List Token} → Parted rest → rest.IsChain Follows →
    (n.tokens ++ rest).IsChain Follows
  | .not operand, rest, parted, chain => chain_not (operand.unequal rest) (operand.chained parted chain)
  | .plain comparison, _, parted, chain => comparison.chained parted chain

theorem Comparison.chained : (c : Comparison) → {rest : List Token} → Parted rest → rest.IsChain Follows →
    (c.tokens ++ rest).IsChain Follows
  | .mk left more, rest, parted, chain => by
    rw [Comparison.tokens, List.append_assoc]
    exact left.chained (more.parted parted) (more.chained parted chain)

theorem Comparand.chained : (more : Comparand) → {rest : List Token} → Parted rest → rest.IsChain Follows →
    (more.tokens ++ rest).IsChain Follows
  | .none, rest, parted, chain => chain
  | .equal right, rest, parted, chain => chain_operator (by decide) (right.chained parted chain)
  | .notEqual right, rest, parted, chain => chain_operator (by decide) (right.chained parted chain)

theorem Primary.chained : (p : Primary) → {rest : List Token} → Parted rest → rest.IsChain Follows →
    (p.tokens ++ rest).IsChain Follows
  | .group inner, rest, parted, chain => by
    rw [Primary.tokens, List.cons_append, List.append_assoc]
    apply chain_operator (by decide)
    exact inner.chained (parted_operator .close) (chain_operator (by decide) chain)
  | .boolean b, rest, parted, chain => chain_operand (fun o => Token.noConfusion) parted chain
  | .single body, rest, parted, chain => chain_operand (fun o => Token.noConfusion) parted chain
  | .double body, rest, parted, chain => chain_operand (fun o => Token.noConfusion) parted chain
  | .named identifier, rest, parted, chain => chain_operand (fun o => Token.noConfusion) parted chain
  | .call function left right, rest, parted, chain => by
    simp only [Primary.tokens, List.cons_append, List.append_assoc, List.nil_append]
    have second := right.chained (parted_operator .close) (chain_operator (by decide) chain)
    have first := left.chained (parted_operator .comma) (chain_operator (by decide) second)
    exact chain_operand (fun o => Token.noConfusion) (parted_operator .open) (chain_operator (by decide) first)

end

variable {lexemes : List (List Char)} {chars : List Char} {tokens : List Token}

theorem Disjunction.all_spaced (d : Disjunction) (written : List.Forall₂ Lexeme d.tokens lexemes)
    (spaced : Spaced lexemes chars) : Token.all chars = .ok d.tokens := by
  apply Token.all_spaced written _ spaced
  have parted : Parted [] := by
    intro next head
    cases head
  have chain := d.chained parted List.isChain_nil
  rwa [List.append_nil] at chain

/-! ### A derivation in a text -/

/-- Written tokens as a text: with any blanks, and possibly in the wrapper of a dollar sign and double braces. -/
inductive Laid (lexemes : List (List Char)) : List Char → Prop
  | bare {chars : List Char} (spaced : Spaced lexemes chars) : Laid lexemes chars
  | wrapped {before chars after : List Char} (blank : Blanks before) (spaced : Spaced lexemes chars)
      (blank' : Blanks after) :
      Laid lexemes (before ++ (['$', '\x7b', '\x7b'] ++ (chars ++ (['\x7d', '\x7d'] ++ after))))

theorem trimStart_spaced (written : List.Forall₂ Lexeme tokens lexemes) (spaced : Spaced lexemes chars) :
    ∀ c ∈ (Text.trimStart chars).head?, c ≠ '$' := by
  intro c head
  cases spaced with
  | ended blank =>
    have nothing := Token.trimStart_blanks blank []
    rw [List.append_nil] at nothing
    rw [nothing] at head
    cases head
  | next blank others =>
    cases written with
    | cons lexeme written =>
      rw [Token.trimStart_blanks blank, Token.trimStart_lexeme lexeme] at head
      obtain ⟨first, more, begins, _, undollared⟩ := lexeme.begins
      rw [begins] at head
      cases head
      exact undollared

theorem unwrap?_spaced (written : List.Forall₂ Lexeme tokens lexemes) (spaced : Spaced lexemes chars) :
    unwrap? chars = none := by
  have unopened : Text.dropStart? ['$', '\x7b', '\x7b'] (Text.trimStart chars) = none := by
    rw [Option.eq_none_iff_forall_ne_some]
    intro inner dropped
    have opened := Text.dropStart?_eq_some_iff.1 dropped
    exact trimStart_spaced written spaced '$' (by rw [opened]; rfl) rfl
  rw [unwrap?, unopened]
  rfl

theorem unwrap?_wrapped {before after : List Char} (blank : Blanks before) (chars : List Char) (blank' : Blanks after) :
    unwrap? (before ++ (['$', '\x7b', '\x7b'] ++ (chars ++ (['\x7d', '\x7d'] ++ after)))) = some chars := by
  have start (inner : List Char) : Text.trimStart (before ++ (['$', '\x7b', '\x7b'] ++ inner)) =
      ['$', '\x7b', '\x7b'] ++ inner := by
    rw [Token.trimStart_blanks blank]
    exact List.dropWhile_cons_of_neg (by decide)
  have finish : (Text.trimEnd (chars ++ (['\x7d', '\x7d'] ++ after))).reverse = ['\x7d', '\x7d'] ++ chars.reverse := by
    have blanks : ∀ c ∈ after.reverse, Text.isBlank c = true := by
      intro c member
      exact blank' c (List.mem_reverse.1 member)
    rw [Text.trimEnd, List.reverse_reverse, List.reverse_append, List.reverse_append, List.append_assoc,
      List.dropWhile_append_of_pos blanks]
    exact List.dropWhile_cons_of_neg (by decide)
  have opened := Text.dropStart?_eq_some_iff.2 (start (chars ++ (['\x7d', '\x7d'] ++ after)))
  have closed := Text.dropStart?_eq_some_iff.2 finish
  simp only [unwrap?, opened, closed, bind, Option.bind, pure, List.reverse_reverse]

theorem Laid.body (laid : Laid lexemes chars) (written : List.Forall₂ Lexeme tokens lexemes) :
    Spaced lexemes ((unwrap? chars).getD chars) := by
  cases laid with
  | bare spaced =>
    rw [unwrap?_spaced written spaced]
    exact spaced
  | wrapped blank spaced blank' =>
    rw [unwrap?_wrapped blank _ blank']
    exact spaced

theorem Disjunction.parse_laid (d : Disjunction) {text : String} (written : List.Forall₂ Lexeme d.tokens lexemes)
    (laid : Laid lexemes text.toList) : parse text = .ok d.tree := by
  have scanned := d.all_spaced written (laid.body written)
  have parsed : parseTokens d.tokens = .ok d.tree := by
    have read := d.read (ends_nil afterDisjunction)
    rw [List.append_nil] at read
    exact parseTokens_ok.2 read
  simp only [parse, scanned, parsed]

/-- A negation that is neither part of a conjunction nor of a disjunction. -/
def Negation.alone (n : Negation) : Disjunction := .mk (.mk n .none) .none

def Primary.alone (p : Primary) : Negation := .plain (.mk p .none)

theorem Negation.tokens_alone (n : Negation) : n.alone.tokens = n.tokens := by
  simp [alone, Disjunction.tokens, Conjunction.tokens, Disjuncts.tokens, Conjuncts.tokens]

theorem Primary.tokens_alone (p : Primary) : p.alone.tokens = p.tokens := by
  simp [alone, Negation.tokens, Comparison.tokens, Comparand.tokens]

end Grammar

/-! ### Printing -/

open Grammar
open Token (IsName Lexeme)

/-- Every variable has a name that can be written, and not as a word for a boolean. -/
def Expr.WellNamed (e : Expr) : Prop := ∀ name ∈ e.names, IsName name.toList ∧ name ≠ "true" ∧ name ≠ "false"

/-- The operators between two operands, and the expressions that they make. -/
inductive Joins : Operator → (Expr → Expr → Expr) → Prop
  | and : Joins .and .and
  | or : Joins .or .or
  | equal : Joins .equal .equal
  | notEqual : Joins .notEqual .notEqual

/-- Where an expression is printed. An operand has to be closed; a whole text, argument or group does not. -/
inductive Place where
  | operand
  | whole

/-- What is printed for an expression, token by token. A text is put in either kind of quotes. -/
inductive Prints : Place → Expr → List (List Char) → Prop
  | boolean (b : Bool) : Prints .operand (.boolean b) [(word b).toList]
  | single (s : String) : Prints .operand (.text s) ['\x27' :: Token.doubled s.toList ++ ['\x27']]
  | double (s : String) : Prints .operand (.text s) ['"' :: Token.escaped s.toList ++ ['"']]
  | named (name : String) : Prints .operand (.variable name) [name.toList]
  | call (function : Function) {left right : Expr} {ls rs : List (List Char)} (first : Prints .whole left ls)
      (second : Prints .whole right rs) :
      Prints .operand (.call function left right) (function.name.toList :: ['('] :: (ls ++ [','] :: (rs ++ [[')']])))
  | group {e : Expr} {ls : List (List Char)} (inner : Prints .whole e ls) : Prints .operand e (['('] :: (ls ++ [[')']]))
  | closed {e : Expr} {ls : List (List Char)} (operand : Prints .operand e ls) : Prints .whole e ls
  | not {e : Expr} {ls : List (List Char)} (operand : Prints .operand e ls) : Prints .whole (.not e) (['!'] :: ls)
  | join {o : Operator} {make : Expr → Expr → Expr} (joins : Joins o make) {left right : Expr}
      {ls rs : List (List Char)} (first : Prints .operand left ls) (second : Prints .operand right rs) :
      Prints .whole (make left right) (ls ++ o.text.toList :: rs)

/-- Written tokens have a derivation that denotes an expression, of the kind that stands in a place. -/
def Derives : Place → Expr → List (List Char) → Prop
  | .operand, e, lexemes => ∃ p : Primary, p.tree = e ∧ List.Forall₂ Lexeme p.tokens lexemes
  | .whole, e, lexemes => ∃ d : Disjunction, d.tree = e ∧ List.Forall₂ Lexeme d.tokens lexemes

theorem Joins.names {o : Operator} {make : Expr → Expr → Expr} (joins : Joins o make) (left right : Expr) :
    (make left right).names = left.names ++ right.names := by
  cases joins <;> rfl

theorem Joins.derivation {o : Operator} {make : Expr → Expr → Expr} (joins : Joins o make) (p q : Primary) :
    ∃ d : Disjunction, d.tree = make p.tree q.tree ∧ d.tokens = p.tokens ++ .operator o :: q.tokens := by
  cases joins with
  | and =>
    refine ⟨.mk (.mk p.alone (.and q.alone .none)) .none, rfl, ?_⟩
    simp [Disjunction.tokens, Disjuncts.tokens, Conjunction.tokens, Conjuncts.tokens, Primary.tokens_alone]
  | or =>
    refine ⟨.mk (.mk p.alone .none) (.or (.mk q.alone .none) .none), rfl, ?_⟩
    simp [Disjunction.tokens, Disjuncts.tokens, Conjunction.tokens, Conjuncts.tokens, Primary.tokens_alone]
  | equal =>
    refine ⟨Negation.alone (.plain (.mk p (.equal q))), rfl, ?_⟩
    rw [Negation.tokens_alone, Negation.tokens, Comparison.tokens, Comparand.tokens]
  | notEqual =>
    refine ⟨Negation.alone (.plain (.mk p (.notEqual q))), rfl, ?_⟩
    rw [Negation.tokens_alone, Negation.tokens, Comparison.tokens, Comparand.tokens]

theorem isName_word (b : Bool) : IsName (word b).toList := by
  cases b <;> exact Token.isName_cons (by decide) (by decide)

theorem isName_function (function : Function) : IsName function.name.toList := by
  cases function <;> exact Token.isName_cons (by decide) (by decide)

theorem Prints.derives {place : Place} {e : Expr} {lexemes : List (List Char)} (printed : Prints place e lexemes)
    (named : e.WellNamed) : Derives place e lexemes := by
  induction printed with
  | boolean b => exact ⟨.boolean b, rfl, .cons (.name (isName_word b)) .nil⟩
  | single s =>
    refine ⟨.single (Token.doubled s.toList), ?_, .cons (.single s.toList) .nil⟩
    rw [Primary.tree, Token.collapsePairs_doubled, String.ofList_toList]
  | double s =>
    refine ⟨.double (Token.escaped s.toList), ?_, .cons (.double s.toList) .nil⟩
    rw [Primary.tree, Token.dropEscapes_escaped, String.ofList_toList]
  | named name =>
    obtain ⟨written, notTrue, notFalse⟩ := named name (List.mem_singleton.2 rfl)
    exact ⟨.named ⟨name, notTrue, notFalse⟩, rfl, .cons (.name written) .nil⟩
  | call function first second left right =>
    obtain ⟨l, rfl, ls⟩ := left fun name member => named name (List.mem_append_left _ member)
    obtain ⟨r, rfl, rs⟩ := right fun name member => named name (List.mem_append_right _ member)
    refine ⟨.call function l r, rfl, ?_⟩
    have second := List.rel_append rs (.cons (.operator .close) .nil)
    have arguments := List.rel_append ls (.cons (.operator .comma) second)
    exact .cons (.name (isName_function function)) (.cons (.operator .open) arguments)
  | group inner ih =>
    obtain ⟨d, tree, ls⟩ := ih named
    exact ⟨.group d, tree, .cons (.operator .open) (List.rel_append ls (.cons (.operator .close) .nil))⟩
  | closed operand ih =>
    obtain ⟨p, tree, ls⟩ := ih named
    refine ⟨p.alone.alone, tree, ?_⟩
    rwa [Negation.tokens_alone, Primary.tokens_alone]
  | not operand ih =>
    obtain ⟨p, rfl, ls⟩ := ih named
    refine ⟨Negation.alone (.not p.alone), rfl, ?_⟩
    rw [Negation.tokens_alone, Negation.tokens, Primary.tokens_alone]
    exact .cons (.operator .not) ls
  | @join o make joins left right _ _ first second ihl ihr =>
    have names := joins.names left right
    obtain ⟨p, rfl, ls⟩ := ihl fun name member => named name (names ▸ List.mem_append_left _ member)
    obtain ⟨q, rfl, rs⟩ := ihr fun name member => named name (names ▸ List.mem_append_right _ member)
    obtain ⟨d, tree, tokens⟩ := joins.derivation p q
    refine ⟨d, tree, ?_⟩
    rw [tokens]
    exact List.rel_append ls (.cons (.operator o) rs)

theorem exists_prints (e : Expr) : ∃ lexemes, Prints .operand e lexemes := by
  have join {o : Operator} {make : Expr → Expr → Expr} (joins : Joins o make) {left right : Expr}
      (first : ∃ ls, Prints .operand left ls) (second : ∃ rs, Prints .operand right rs) :
      ∃ lexemes, Prints .operand (make left right) lexemes := by
    obtain ⟨ls, first⟩ := first
    obtain ⟨rs, second⟩ := second
    exact ⟨_, .group (.join joins first second)⟩
  induction e with
  | boolean b => exact ⟨_, .boolean b⟩
  | text s => exact ⟨_, .single s⟩
  | «variable» name => exact ⟨_, .named name⟩
  | not operand ih =>
    obtain ⟨ls, printed⟩ := ih
    exact ⟨_, .group (.not printed)⟩
  | and left right first second => exact join .and first second
  | or left right first second => exact join .or first second
  | equal left right first second => exact join .equal first second
  | notEqual left right first second => exact join .notEqual first second
  | call function left right first second =>
    obtain ⟨ls, first⟩ := first
    obtain ⟨rs, second⟩ := second
    exact ⟨_, .call function (.closed first) (.closed second)⟩

/-- An expression whose variables can be written has a printed text, and is read back from each of them. -/
theorem parse_printed {e : Expr} (named : e.WellNamed) :
    (∃ lexemes, ∃ text : String, Prints .whole e lexemes ∧ Laid lexemes text.toList) ∧
      ∀ lexemes text, Prints .whole e lexemes → Laid lexemes text.toList → parse text = .ok e := by
  constructor
  · obtain ⟨lexemes, printed⟩ := exists_prints e
    have blank : Token.Blanks [] := List.forall_mem_nil _
    refine ⟨lexemes, String.ofList (lexemes.flatMap ([] ++ ·) ++ []), .closed printed, ?_⟩
    rw [String.toList_ofList]
    exact .bare (Token.spaced_evenly blank lexemes)
  · intro lexemes text printed laid
    obtain ⟨d, rfl, written⟩ := printed.derives named
    exact d.parse_laid written laid

/-- A condition with quotes, a backslash, a line break and closing braces inside of its texts. -/
def quotedCondition : Expr :=
  .and (.not (.equal (.variable "git.ref") (.text "it's \x7d\x7d"))) (.call .contains (.text "a\"\\\n") (.boolean true))

theorem quotedCondition_read : quotedCondition.WellNamed ∧
    parse "\u3000$\x7b\x7b(!(git.ref=='it''s \x7d\x7d'))&&contains(\"a\\\"\\\\\n\",true)\x7d\x7d\n" =
      .ok quotedCondition := by
  have named : quotedCondition.WellNamed := by
    intro name member
    cases List.mem_singleton.1 member
    exact ⟨Token.isName_cons (by decide) (by decide), by decide, by decide⟩
  have compared := Prints.join .equal (.named "git.ref") (.single "it's \x7d\x7d")
  have called := Prints.call .contains (.closed (.double "a\"\\\n")) (.closed (.boolean true))
  have printed := Prints.join .and (.group (.not (.group compared))) called
  have blank (gap : List Char) (blanks : gap.all Text.isBlank = true) : Token.Blanks gap := List.all_eq_true.1 blanks
  have laid (lexemes : List (List Char)) :=
    Laid.wrapped (blank ['\u3000'] rfl) (Token.spaced_evenly (blank [] rfl) lexemes) (blank ['\n'] rfl)
  refine ⟨named, (parse_printed named).2 _ _ printed ?_⟩
  exact (congrArg (Laid _) (by decide +kernel)).mpr (laid _)

end Conveyor.Condition

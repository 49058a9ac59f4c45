import Conveyor.Proofs.ConditionGrammar

/-! The parser of conditions accepts the lists of tokens that have a derivation, each of which has only one, and returns
what it denotes. A derivation is read from the front of a list as far as it goes, if the rest does not begin with an
operator that would continue it. Two derivations of one list are read alike, which makes their parts agree in turn. -/

namespace Conveyor.Condition.Grammar

open Fallible

/-- A parser reads an expression from the front of a list and leaves the rest. -/
def Reads (parser : (tokens : List Token) → Except SyntaxFault (Parsed tokens)) (tokens : List Token) (tree : Expr)
    (rest : List Token) : Prop := ∃ shorter, parser tokens = .ok ⟨tree, rest, shorter⟩

/-- A list does not begin with one of some operators. -/
def Ends (operators : List Operator) (rest : List Token) : Prop :=
  ∀ o ∈ operators, ∀ after, rest ≠ .operator o :: after

/-- The operators after which a name, a comparison, a conjunction or a disjunction would go on. -/
def afterPrimary : List Operator := [.open]
def afterComparison : List Operator := .equal :: .notEqual :: afterPrimary
def afterConjunction : List Operator := .and :: afterComparison
def afterDisjunction : List Operator := .or :: afterConjunction

theorem Ends.of_cons {o : Operator} {operators : List Operator} {rest : List Token} (ended : Ends (o :: operators) rest) :
    Ends operators rest := fun other member => ended other (List.mem_cons_of_mem o member)

theorem ends_operator {operators : List Operator} {o : Operator} (other : o ∉ operators) (rest : List Token) :
    Ends operators (.operator o :: rest) := by
  rintro o' member after same
  cases same
  exact other member

theorem Disjuncts.ends (more : Disjuncts) {rest : List Token} (ended : Ends afterDisjunction rest) :
    Ends afterConjunction (more.tokens ++ rest) := by
  cases more with
  | none => exact ended.of_cons
  | or next more => exact ends_operator (by decide) _

theorem Conjuncts.ends (more : Conjuncts) {rest : List Token} (ended : Ends afterConjunction rest) :
    Ends afterComparison (more.tokens ++ rest) := by
  cases more with
  | none => exact ended.of_cons
  | and next more => exact ends_operator (by decide) _

theorem Comparand.ends (more : Comparand) {rest : List Token} (ended : Ends afterComparison rest) :
    Ends afterPrimary (more.tokens ++ rest) := by
  cases more with
  | none => exact ended.of_cons.of_cons
  | equal right | notEqual right => exact ends_operator (by decide) _

/-- A primary expression begins with a token that is neither a negation nor a closing parenthesis. -/
theorem Primary.begins (p : Primary) (rest : List Token) : Ends [.not, .close] (p.tokens ++ rest) := by
  cases p <;> simp [Ends, Primary.tokens]

theorem Comparison.begins (c : Comparison) (rest : List Token) : Ends [.not, .close] (c.tokens ++ rest) := by
  obtain ⟨left, more⟩ := c
  rw [Comparison.tokens, List.append_assoc]
  exact left.begins _

theorem Negation.begins (n : Negation) (rest : List Token) : Ends [.close] (n.tokens ++ rest) := by
  cases n with
  | not operand => exact ends_operator (by decide) _
  | plain comparison => exact (comparison.begins rest).of_cons

theorem Disjunction.begins (d : Disjunction) (rest : List Token) : Ends [.close] (d.tokens ++ rest) := by
  obtain ⟨⟨first, more⟩, others⟩ := d
  rw [Disjunction.tokens, Conjunction.tokens, List.append_assoc, List.append_assoc]
  exact first.begins _

section

variable {tokens rest : List Token} {tree : Expr}

theorem reads_alone (operand : Reads primary tokens tree rest) (ended : Ends afterComparison rest) :
    Reads comparison tokens tree rest := by
  obtain ⟨shorter, read⟩ := operand
  refine ⟨shorter, ?_⟩
  rw [comparison, read]
  simp only [bind, Except.bind]
  split
  next after => exact (ended .equal (by decide) after rfl).elim
  next after => exact (ended .notEqual (by decide) after rfl).elim
  next => rfl

variable {after : List Token} {right : Expr}

theorem reads_equal (left : Reads primary tokens tree (.operator .equal :: after))
    (read : Reads primary after right rest) : Reads comparison tokens (.equal tree right) rest := by
  obtain ⟨shorter, begun⟩ := left
  obtain ⟨shorter', ended⟩ := read
  refine ⟨?_, ?_⟩
  · simp only [List.length_cons] at shorter
    omega
  · rw [comparison, begun]
    simp only [bind, Except.bind, ended]
    rfl

theorem reads_notEqual (left : Reads primary tokens tree (.operator .notEqual :: after))
    (read : Reads primary after right rest) :
    Reads comparison tokens (.notEqual tree right) rest := by
  obtain ⟨shorter, begun⟩ := left
  obtain ⟨shorter', ended⟩ := read
  refine ⟨?_, ?_⟩
  · simp only [List.length_cons] at shorter
    omega
  · rw [comparison, begun]
    simp only [bind, Except.bind, ended]
    rfl

theorem reads_group (inner : Reads disjunction tokens tree (.operator .close :: rest)) :
    Reads primary (.operator .open :: tokens) tree rest := by
  obtain ⟨shorter, read⟩ := inner
  refine ⟨?_, ?_⟩
  · rw [List.length_cons] at shorter ⊢
    omega
  · rw [primary, read]
    rfl

theorem reads_arguments (some : Ends [.close] tokens)
    (first : Reads disjunction tokens tree (.operator .comma :: after))
    (second : Reads disjunction after right (.operator .close :: rest)) :
    ∃ shorter, arguments tokens = .ok ⟨[tree, right], rest, shorter⟩ := by
  obtain ⟨shorter, begun⟩ := first
  obtain ⟨shorter', ended⟩ := second
  rw [List.length_cons] at shorter shorter'
  have last : ∃ shorter, moreArguments (.operator .comma :: after) = .ok ⟨[right], rest, shorter⟩ := by
    refine ⟨?_, ?_⟩
    · rw [List.length_cons]
      omega
    · rw [moreArguments, ended]
      simp only [bind, Except.bind]
      rw [moreArguments]
      rfl
  obtain ⟨_, last⟩ := last
  refine ⟨by omega, ?_⟩
  unfold arguments
  split
  next => exact (some .close (by decide) _ rfl).elim
  next =>
    rw [begun]
    simp only [bind, Except.bind, last]
    rfl

theorem reads_call {function : Function} {left : Expr}
    (given : ∃ shorter, arguments tokens = .ok ⟨[left, right], rest, shorter⟩) :
    Reads primary (.name function.name :: .operator .open :: tokens) (.call function left right) rest := by
  obtain ⟨shorter, both⟩ := given
  have known : Function.ofName? function.name = some function := by cases function <;> rfl
  refine ⟨?_, ?_⟩
  · simp only [List.length_cons]
    omega
  · rw [primary, known, both]
    · rfl
    · cases function <;> decide
    · cases function <;> decide

theorem reads_boolean (b : Bool) : Reads primary (.name (word b) :: tokens) (.boolean b) tokens := by
  refine ⟨Nat.lt_succ_self _, ?_⟩
  cases b <;> simp [word, primary]

theorem reads_not (operand : Reads negation tokens tree rest) :
    Reads negation (.operator .not :: tokens) (.not tree) rest := by
  obtain ⟨shorter, read⟩ := operand
  refine ⟨Nat.lt_succ_of_lt shorter, ?_⟩
  rw [negation, read]
  rfl

theorem moreDisjuncts_or {left : Parsed tokens} (kept : left.rest = .operator .or :: after)
    (next : Reads conjunction after tree rest) :
    ∃ shorter, moreDisjuncts tokens left = moreDisjuncts tokens ⟨.or left.tree tree, rest, shorter⟩ := by
  obtain ⟨shorter, read⟩ := next
  have joined := left.shorter
  rw [kept, List.length_cons] at joined
  refine ⟨by omega, ?_⟩
  rw [moreDisjuncts]
  split
  next other =>
    cases kept.symm.trans other
    rw [read]
    rfl
  next other => exact (other _ kept).elim

theorem moreConjuncts_and {left : Parsed tokens} (kept : left.rest = .operator .and :: after)
    (next : Reads negation after tree rest) :
    ∃ shorter, moreConjuncts tokens left = moreConjuncts tokens ⟨.and left.tree tree, rest, shorter⟩ := by
  obtain ⟨shorter, read⟩ := next
  have joined := left.shorter
  rw [kept, List.length_cons] at joined
  refine ⟨by omega, ?_⟩
  rw [moreConjuncts]
  split
  next other =>
    cases kept.symm.trans other
    rw [read]
    rfl
  next other => exact (other _ kept).elim

end

mutual

theorem Disjunction.read : (d : Disjunction) → {rest : List Token} → Ends afterDisjunction rest →
    Reads disjunction (d.tokens ++ rest) d.tree rest
  | .mk first more, rest, ended => by
    rw [Disjunction.tokens, List.append_assoc]
    obtain ⟨shorter, begun⟩ := first.read (more.ends ended)
    obtain ⟨shorter', continued⟩ := more.read ⟨first.tree, more.tokens ++ rest, shorter⟩ rfl ended
    refine ⟨shorter', ?_⟩
    rw [disjunction, begun]
    exact continued

theorem Disjuncts.read : (more : Disjuncts) → {tokens rest : List Token} → (left : Parsed tokens) →
    left.rest = more.tokens ++ rest → Ends afterDisjunction rest →
    ∃ shorter, moreDisjuncts tokens left = .ok ⟨more.tree left.tree, rest, shorter⟩
  | .none, tokens, rest, left, kept, ended => by
    obtain ⟨tree, _, shorter⟩ := left
    cases kept
    exact ⟨shorter, moreDisjuncts_stopped (ended .or (by decide))⟩
  | .or next more, tokens, rest, left, kept, ended => by
    rw [Disjuncts.tokens, List.cons_append, List.append_assoc] at kept
    obtain ⟨shorter, joined⟩ := moreDisjuncts_or kept (next.read (more.ends ended))
    rw [joined]
    exact more.read _ rfl ended

theorem Conjunction.read : (c : Conjunction) → {rest : List Token} → Ends afterConjunction rest →
    Reads conjunction (c.tokens ++ rest) c.tree rest
  | .mk first more, rest, ended => by
    rw [Conjunction.tokens, List.append_assoc]
    obtain ⟨shorter, begun⟩ := first.read (more.ends ended)
    obtain ⟨shorter', continued⟩ := more.read ⟨first.tree, more.tokens ++ rest, shorter⟩ rfl ended
    refine ⟨shorter', ?_⟩
    rw [conjunction, begun]
    exact continued

theorem Conjuncts.read : (more : Conjuncts) → {tokens rest : List Token} → (left : Parsed tokens) →
    left.rest = more.tokens ++ rest → Ends afterConjunction rest →
    ∃ shorter, moreConjuncts tokens left = .ok ⟨more.tree left.tree, rest, shorter⟩
  | .none, tokens, rest, left, kept, ended => by
    obtain ⟨tree, _, shorter⟩ := left
    cases kept
    exact ⟨shorter, moreConjuncts_stopped (ended .and (by decide))⟩
  | .and next more, tokens, rest, left, kept, ended => by
    rw [Conjuncts.tokens, List.cons_append, List.append_assoc] at kept
    obtain ⟨shorter, joined⟩ := moreConjuncts_and kept (next.read (more.ends ended))
    rw [joined]
    exact more.read _ rfl ended

theorem Negation.read : (n : Negation) → {rest : List Token} → Ends afterComparison rest →
    Reads negation (n.tokens ++ rest) n.tree rest
  | .not operand, _, ended => reads_not (operand.read ended)
  | .plain comparison, rest, ended => by
    have plain : negation (comparison.tokens ++ rest) = _ := negation_plain (comparison.begins rest .not (by decide))
    obtain ⟨shorter, read⟩ := comparison.read ended
    exact ⟨shorter, plain.trans read⟩

theorem Comparison.read : (c : Comparison) → {rest : List Token} → Ends afterComparison rest →
    Reads comparison (c.tokens ++ rest) c.tree rest
  | .mk left more, rest, ended => by
    rw [Comparison.tokens, List.append_assoc]
    have begun := left.read (more.ends ended)
    cases more with
    | none => exact reads_alone begun ended
    | equal right => exact reads_equal begun (right.read ended.of_cons.of_cons)
    | notEqual right => exact reads_notEqual begun (right.read ended.of_cons.of_cons)

theorem Primary.read : (p : Primary) → {rest : List Token} → Ends afterPrimary rest →
    Reads primary (p.tokens ++ rest) p.tree rest
  | .group inner, _, _ => by
    rw [Primary.tokens, List.cons_append, List.append_assoc]
    exact reads_group (inner.read (ends_operator (by decide) _))
  | .boolean b, _, _ => reads_boolean b
  | .single body, _, _ => ⟨Nat.lt_succ_self _, by simp [Primary.tokens, Primary.tree, primary]⟩
  | .double body, _, _ => ⟨Nat.lt_succ_self _, by simp [Primary.tokens, Primary.tree, primary]⟩
  | .named name, _, ended =>
    ⟨Nat.lt_succ_self _, primary_variable name.notTrue name.notFalse (ended .open (by decide))⟩
  | .call function left right, _, _ => by
    simp only [Primary.tokens, List.cons_append, List.append_assoc]
    exact reads_call (reads_arguments (left.begins _) (left.read (ends_operator (by decide) _))
      (right.read (ends_operator (by decide) _)))

end

/-! ### A list has one derivation -/

section

variable {parser : (tokens : List Token) → Except SyntaxFault (Parsed tokens)}

theorem Reads.unique {tokens r s : List Token} {t u : Expr} (first : Reads parser tokens t r)
    (second : Reads parser tokens u s) : t = u ∧ r = s := by
  obtain ⟨_, read⟩ := first
  obtain ⟨_, again⟩ := second
  cases read.symm.trans again
  exact ⟨rfl, rfl⟩

/-- Of two derivations in front of one list, none spells more than the other: the parser stops at the end of both. -/
theorem Reads.split {a b r s : List Token} {t u : Expr} (first : Reads parser (a ++ r) t r)
    (second : Reads parser (b ++ s) u s) (same : a ++ r = b ++ s) : a = b ∧ r = s := by
  rw [← same] at second
  obtain ⟨_, rfl⟩ := first.unique second
  exact ⟨List.append_cancel_right same, rfl⟩

end

theorem word_inj {b c : Bool} (same : word b = word c) : b = c := by
  cases b <;> cases c <;> simp [word] at same ⊢

theorem Identifier.ne_word (name : Identifier) (b : Bool) : name.text ≠ word b := by
  cases b with
  | false => exact name.notFalse
  | true => exact name.notTrue

theorem Function.name_inj {f g : Function} (same : f.name = g.name) : f = g := by
  cases f <;> cases g <;> simp [Function.name] at same ⊢

theorem ends_nil (operators : List Operator) : Ends operators [] := by
  intro _ _ _ same
  cases same

mutual

theorem Disjunction.unique : (d e : Disjunction) → d.tokens = e.tokens → d = e
  | .mk first more, .mk first' more', same => by
    obtain ⟨front, back⟩ := (first.read (more.ends (ends_nil _))).split (first'.read (more'.ends (ends_nil _)))
      (by simpa [Disjunction.tokens] using same)
    rw [first.unique first' front, more.unique more' (by simpa using back)]

theorem Disjuncts.unique : (m n : Disjuncts) → m.tokens = n.tokens → m = n
  | .none, .none, _ => rfl
  | .none, .or _ _, same => by cases same
  | .or _ _, .none, same => by cases same
  | .or next more, .or next' more', same => by
    obtain ⟨front, back⟩ := (next.read (more.ends (ends_nil _))).split (next'.read (more'.ends (ends_nil _)))
      (by simpa [Disjuncts.tokens] using same)
    rw [next.unique next' front, more.unique more' (by simpa using back)]

theorem Conjunction.unique : (c e : Conjunction) → c.tokens = e.tokens → c = e
  | .mk first more, .mk first' more', same => by
    obtain ⟨front, back⟩ := (first.read (more.ends (ends_nil _))).split (first'.read (more'.ends (ends_nil _)))
      (by simpa [Conjunction.tokens] using same)
    rw [first.unique first' front, more.unique more' (by simpa using back)]

theorem Conjuncts.unique : (m n : Conjuncts) → m.tokens = n.tokens → m = n
  | .none, .none, _ => rfl
  | .none, .and _ _, same => by cases same
  | .and _ _, .none, same => by cases same
  | .and next more, .and next' more', same => by
    obtain ⟨front, back⟩ := (next.read (more.ends (ends_nil _))).split (next'.read (more'.ends (ends_nil _)))
      (by simpa [Conjuncts.tokens] using same)
    rw [next.unique next' front, more.unique more' (by simpa using back)]

theorem Negation.unique : (m n : Negation) → m.tokens = n.tokens → m = n
  | .not operand, .not operand', same => by
    rw [operand.unique operand' (List.cons.inj same).2]
  | .not operand, .plain comparison, same => by
    have plain := comparison.begins [] .not (by decide) operand.tokens
    rw [List.append_nil] at plain
    exact (plain same.symm).elim
  | .plain comparison, .not operand, same => by
    have plain := comparison.begins [] .not (by decide) operand.tokens
    rw [List.append_nil] at plain
    exact (plain same).elim
  | .plain comparison, .plain comparison', same => by rw [comparison.unique comparison' same]

theorem Comparison.unique : (c d : Comparison) → c.tokens = d.tokens → c = d
  | .mk left more, .mk left' more', same => by
    obtain ⟨front, back⟩ := (left.read (more.ends (ends_nil _))).split (left'.read (more'.ends (ends_nil _)))
      (by simpa [Comparison.tokens] using same)
    rw [left.unique left' front, more.unique more' (by simpa using back)]

theorem Comparand.unique : (m n : Comparand) → m.tokens = n.tokens → m = n
  | .none, .none, _ => rfl
  | .equal right, .equal right', same => by rw [right.unique right' (List.cons.inj same).2]
  | .notEqual right, .notEqual right', same => by rw [right.unique right' (List.cons.inj same).2]
  | .none, .equal _, same | .none, .notEqual _, same | .equal _, .none, same | .notEqual _, .none, same
  | .equal _, .notEqual _, same | .notEqual _, .equal _, same => by cases same

theorem Primary.unique : (p q : Primary) → p.tokens = q.tokens → p = q
  | .group inner, q, same => by
    cases q with
    | group inner' => rw [inner.unique inner' (List.append_cancel_right (List.cons.inj same).2)]
    | boolean | single | double | named | call => simp [Primary.tokens] at same
  | .boolean b, q, same => by
    cases q with
    | boolean b' => rw [word_inj (Token.name.inj (List.cons.inj same).1)]
    | named name => exact (name.ne_word b (Token.name.inj (List.cons.inj same).1).symm).elim
    | group | single | double | call => simp [Primary.tokens] at same
  | .single body, q, same => by
    cases q with
    | single => rw [Token.single.inj (List.cons.inj same).1]
    | group | boolean | double | named | call => simp [Primary.tokens] at same
  | .double body, q, same => by
    cases q with
    | double => rw [Token.double.inj (List.cons.inj same).1]
    | group | boolean | single | named | call => simp [Primary.tokens] at same
  | .named ⟨text, notTrue, notFalse⟩, q, same => by
    cases q with
    | boolean b => exact (Identifier.ne_word ⟨text, notTrue, notFalse⟩ b (Token.name.inj (List.cons.inj same).1)).elim
    | named name =>
      cases Token.name.inj (List.cons.inj same).1
      rfl
    | group | single | double | call => simp [Primary.tokens] at same
  | .call function left right, q, same => by
    cases q with
    | call function' left' right' =>
      obtain ⟨names, both⟩ := List.cons.inj same
      obtain ⟨first, comma⟩ := (left.read (ends_operator (by decide) _)).split
        (left'.read (ends_operator (by decide) _)) (List.cons.inj both).2
      have second := List.append_cancel_right (List.cons.inj comma).2
      rw [Function.name_inj (Token.name.inj names), left.unique left' first, right.unique right' second]
    | group | boolean | single | double | named => simp [Primary.tokens] at same

end

theorem parseTokens_ok {tokens : List Token} {tree : Expr} :
    parseTokens tokens = .ok tree ↔ Reads disjunction tokens tree [] := by
  unfold parseTokens
  split
  next none =>
    cases List.isEmpty_iff.1 none
    constructor
    · intro done
      cases done
    · rintro ⟨shorter, _⟩
      cases shorter
  next =>
    rw [bind_ok]
    constructor
    · rintro ⟨⟨tree', rest, shorter⟩, read, ended⟩
      cases rest with
      | nil =>
        cases ended
        exact ⟨shorter, read⟩
      | cons token after => cases ended
    · rintro ⟨shorter, read⟩
      exact ⟨_, read, rfl⟩

/-- The parser accepts the lists of tokens that have a derivation and returns the expression that it denotes, no list has
two derivations, and every other list is refused. -/
theorem parses_iff_derives (tokens : List Token) :
    (∀ tree, parseTokens tokens = .ok tree ↔ ∃ d : Disjunction, d.tokens = tokens ∧ d.tree = tree) ∧
      (∀ d e : Disjunction, d.tokens = tokens → e.tokens = tokens → d = e) ∧
      ((∃ fault, parseTokens tokens = .error fault) ↔ ∀ d : Disjunction, d.tokens ≠ tokens) := by
  have accepted (tree : Expr) :
      parseTokens tokens = .ok tree ↔ ∃ d : Disjunction, d.tokens = tokens ∧ d.tree = tree := by
    rw [parseTokens_ok]
    constructor
    · rintro ⟨shorter, read⟩
      obtain ⟨d, spelled, denoted⟩ := disjunction_derives _ read
      exact ⟨d, by rw [spelled, List.append_nil], denoted⟩
    · rintro ⟨d, rfl, rfl⟩
      have read := d.read (ends_nil _)
      rwa [List.append_nil] at read
  refine ⟨accepted, fun d e first second => d.unique e (first.trans second.symm), ?_⟩
  constructor
  · rintro ⟨fault, refused⟩ d spelled
    cases refused.symm.trans ((accepted d.tree).2 ⟨d, spelled, rfl⟩)
  · intro underived
    cases result : parseTokens tokens with
    | error fault => exact ⟨fault, rfl⟩
    | ok tree =>
      obtain ⟨d, spelled, _⟩ := (accepted tree).1 result
      exact (underived d spelled).elim

def ofName (name : Identifier) : Disjunction :=
  .mk (.mk (.plain (.mk (.named name) .none)) .none) .none

/-- The derivation of `!ref == 'main' || tagged && startsWith(ref, "v")`. -/
def tagCondition : Disjunction :=
  let ref : Identifier := ⟨"ref", by decide, by decide⟩
  let version : Disjunction := .mk (.mk (.plain (.mk (.double ['v']) .none)) .none) .none
  let branch : Negation := .not (.plain (.mk (.named ref) (.equal (.single ['m', 'a', 'i', 'n']))))
  let tagged : Negation := .plain (.mk (.named ⟨"tagged", by decide, by decide⟩) .none)
  let call : Negation := .plain (.mk (.call .startsWith (ofName ref) version) .none)
  .mk (.mk branch .none) (.or (.mk tagged (.and call .none)) .none)

theorem tagCondition_parses :
    parseTokens tagCondition.tokens =
        .ok (.or (.not (.equal (.variable "ref") (.text "main")))
          (.and (.variable "tagged") (.call .startsWith (.variable "ref") (.text "v")))) ∧
      ∀ d : Disjunction, d.tokens = tagCondition.tokens → d = tagCondition :=
  ⟨((parses_iff_derives _).1 _).2 ⟨tagCondition, rfl, by decide⟩,
    fun d spelled => (parses_iff_derives _).2.1 d tagCondition spelled rfl⟩

end Conveyor.Condition.Grammar

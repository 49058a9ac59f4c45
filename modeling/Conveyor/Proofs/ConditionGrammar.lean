import Conveyor.Condition.Parser
import Conveyor.Proofs.Fallible

/-! The grammar of conditions. A derivation spells a list of tokens and denotes an expression:

    or      := and ('||' and)*
    and     := unary ('&&' unary)*
    unary   := '!' unary | cmp
    cmp     := primary (('==' | '!=') primary)?
    primary := '(' or ')' | 'true' | 'false' | text | name | function '(' or ',' or ')'

Whatever the parser returns for a list is denoted by a derivation of it. -/

namespace Conveyor.Condition.Grammar

/-- A name that can stand for a variable: any but the words for the booleans. -/
structure Identifier where
  text : String
  notTrue : text ≠ "true"
  notFalse : text ≠ "false"

mutual

inductive Disjunction where
  | mk (first : Conjunction) (more : Disjuncts)

inductive Disjuncts where
  | none
  | or (next : Conjunction) (more : Disjuncts)

inductive Conjunction where
  | mk (first : Negation) (more : Conjuncts)

inductive Conjuncts where
  | none
  | and (next : Negation) (more : Conjuncts)

inductive Negation where
  | not (operand : Negation)
  | plain (comparison : Comparison)

/-- A primary expression, and possibly one that it is compared with. -/
inductive Comparison where
  | mk (left : Primary) (more : Comparand)

/-- At most one primary expression, after `==` or `!=`. -/
inductive Comparand where
  | none
  | equal (right : Primary)
  | notEqual (right : Primary)

inductive Primary where
  | group (inner : Disjunction)
  | boolean (b : Bool)
  | single (body : List Char)
  | double (body : List Char)
  | named (name : Identifier)
  | call (function : Function) (left right : Disjunction)

end

def word (b : Bool) : String := if b then "true" else "false"

mutual

def Disjunction.tokens : Disjunction → List Token
  | .mk first more => first.tokens ++ more.tokens

def Disjuncts.tokens : Disjuncts → List Token
  | .none => []
  | .or next more => .operator .or :: (next.tokens ++ more.tokens)

def Conjunction.tokens : Conjunction → List Token
  | .mk first more => first.tokens ++ more.tokens

def Conjuncts.tokens : Conjuncts → List Token
  | .none => []
  | .and next more => .operator .and :: (next.tokens ++ more.tokens)

def Negation.tokens : Negation → List Token
  | .not operand => .operator .not :: operand.tokens
  | .plain comparison => comparison.tokens

def Comparison.tokens : Comparison → List Token
  | .mk left more => left.tokens ++ more.tokens

def Comparand.tokens : Comparand → List Token
  | .none => []
  | .equal right => .operator .equal :: right.tokens
  | .notEqual right => .operator .notEqual :: right.tokens

def Primary.tokens : Primary → List Token
  | .group inner => .operator .open :: (inner.tokens ++ [.operator .close])
  | .boolean b => [.name (word b)]
  | .single body => [.single body]
  | .double body => [.double body]
  | .named name => [.name name.text]
  | .call function left right =>
    .name function.name :: .operator .open ::
      (left.tokens ++ .operator .comma :: (right.tokens ++ [.operator .close]))

end

mutual

def Disjunction.tree : Disjunction → Expr
  | .mk first more => more.tree first.tree

/-- What is joined by `||` is grouped to the left. -/
def Disjuncts.tree (left : Expr) : Disjuncts → Expr
  | .none => left
  | .or next more => more.tree (.or left next.tree)

def Conjunction.tree : Conjunction → Expr
  | .mk first more => more.tree first.tree

/-- What is joined by `&&` is grouped to the left. -/
def Conjuncts.tree (left : Expr) : Conjuncts → Expr
  | .none => left
  | .and next more => more.tree (.and left next.tree)

def Negation.tree : Negation → Expr
  | .not operand => .not operand.tree
  | .plain comparison => comparison.tree

def Comparison.tree : Comparison → Expr
  | .mk left more => more.tree left.tree

def Comparand.tree (left : Expr) : Comparand → Expr
  | .none => left
  | .equal right => .equal left right.tree
  | .notEqual right => .notEqual left right.tree

def Primary.tree : Primary → Expr
  | .group inner => inner.tree
  | .boolean b => .boolean b
  | .single body => .text (String.ofList (Token.collapsePairs body))
  | .double body => .text (String.ofList (Token.dropEscapes body))
  | .named name => .variable name.text
  | .call function left right => .call function left.tree right.tree

end

open Fallible

section

variable {tokens : List Token} {δ : Type}

/-- What a parser reads from the front of a list has a derivation of a kind. -/
def Sound (parser : (tokens : List Token) → Except SyntaxFault (Parsed tokens)) (spell : δ → List Token)
    (denote : δ → Expr) (tokens : List Token) : Prop :=
  ∀ parsed, parser tokens = .ok parsed → ∃ d, tokens = spell d ++ parsed.rest ∧ denote d = parsed.tree

/-- What a parser reads after a first operand has a derivation that goes on from it. -/
def SoundAfter (parser : (tokens : List Token) → Parsed tokens → Except SyntaxFault (Parsed tokens))
    (spell : δ → List Token) (denote : Expr → δ → Expr) (tokens : List Token) (left : Parsed tokens) : Prop :=
  ∀ parsed, parser tokens left = .ok parsed →
    ∃ more, left.rest = spell more ++ parsed.rest ∧ denote left.tree more = parsed.tree

/-- Arguments after the first, each after a comma, and the closing parenthesis. -/
def furtherTokens (others : List Disjunction) : List Token :=
  others.flatMap (fun d => .operator .comma :: d.tokens) ++ [.operator .close]

def argumentTokens : List Disjunction → List Token
  | [] => [.operator .close]
  | first :: others => first.tokens ++ furtherTokens others

def SoundArguments (parser : (tokens : List Token) → Except SyntaxFault (Arguments tokens))
    (spell : List Disjunction → List Token) (tokens : List Token) : Prop :=
  ∀ given, parser tokens = .ok given →
    ∃ ds, tokens = spell ds ++ given.rest ∧ ds.map Disjunction.tree = given.trees

theorem disjunction_sound (first : Sound conjunction Conjunction.tokens Conjunction.tree tokens)
    (after : ∀ left, SoundAfter moreDisjuncts Disjuncts.tokens Disjuncts.tree tokens left) :
    Sound disjunction Disjunction.tokens Disjunction.tree tokens := by
  intro parsed done
  rw [disjunction] at done
  obtain ⟨left, begun, continued⟩ := bind_ok.1 done
  obtain ⟨c, front, tree⟩ := first left begun
  obtain ⟨more, kept, grown⟩ := after left parsed continued
  refine ⟨.mk c more, ?_, by rw [Disjunction.tree, tree, grown]⟩
  rw [Disjunction.tokens, List.append_assoc, ← kept, ← front]

theorem moreDisjuncts_sound {left : Parsed tokens} {after : List Token} (kept : left.rest = .operator .or :: after)
    (next : Sound conjunction Conjunction.tokens Conjunction.tree after)
    (later : ∀ (right : Parsed after) shorter, SoundAfter moreDisjuncts Disjuncts.tokens Disjuncts.tree tokens
      ⟨.or left.tree right.tree, right.rest, shorter⟩) :
    SoundAfter moreDisjuncts Disjuncts.tokens Disjuncts.tree tokens left := by
  intro parsed done
  rw [moreDisjuncts] at done
  split at done
  next other =>
    cases kept.symm.trans other
    obtain ⟨right, read, continued⟩ := bind_ok.1 done
    obtain ⟨c, front, tree⟩ := next right read
    obtain ⟨more, rest, grown⟩ := later right _ parsed continued
    refine ⟨.or c more, ?_, by rw [Disjuncts.tree, tree, grown]⟩
    rw [kept, front, rest, Disjuncts.tokens, List.cons_append, List.append_assoc]
  next other => exact (other _ kept).elim

theorem moreDisjuncts_stopped {left : Parsed tokens} (ended : ∀ after, left.rest ≠ .operator .or :: after) :
    moreDisjuncts tokens left = .ok left := by
  rw [moreDisjuncts]
  split
  next after kept => exact (ended after kept).elim
  next => rfl

theorem conjunction_sound (first : Sound negation Negation.tokens Negation.tree tokens)
    (after : ∀ left, SoundAfter moreConjuncts Conjuncts.tokens Conjuncts.tree tokens left) :
    Sound conjunction Conjunction.tokens Conjunction.tree tokens := by
  intro parsed done
  rw [conjunction] at done
  obtain ⟨left, begun, continued⟩ := bind_ok.1 done
  obtain ⟨n, front, tree⟩ := first left begun
  obtain ⟨more, kept, grown⟩ := after left parsed continued
  refine ⟨.mk n more, ?_, by rw [Conjunction.tree, tree, grown]⟩
  rw [Conjunction.tokens, List.append_assoc, ← kept, ← front]

theorem moreConjuncts_sound {left : Parsed tokens} {after : List Token} (kept : left.rest = .operator .and :: after)
    (next : Sound negation Negation.tokens Negation.tree after)
    (later : ∀ (right : Parsed after) shorter, SoundAfter moreConjuncts Conjuncts.tokens Conjuncts.tree tokens
      ⟨.and left.tree right.tree, right.rest, shorter⟩) :
    SoundAfter moreConjuncts Conjuncts.tokens Conjuncts.tree tokens left := by
  intro parsed done
  rw [moreConjuncts] at done
  split at done
  next other =>
    cases kept.symm.trans other
    obtain ⟨right, read, continued⟩ := bind_ok.1 done
    obtain ⟨n, front, tree⟩ := next right read
    obtain ⟨more, rest, grown⟩ := later right _ parsed continued
    refine ⟨.and n more, ?_, by rw [Conjuncts.tree, tree, grown]⟩
    rw [kept, front, rest, Conjuncts.tokens, List.cons_append, List.append_assoc]
  next other => exact (other _ kept).elim

theorem moreConjuncts_stopped {left : Parsed tokens} (ended : ∀ after, left.rest ≠ .operator .and :: after) :
    moreConjuncts tokens left = .ok left := by
  rw [moreConjuncts]
  split
  next after kept => exact (ended after kept).elim
  next => rfl

theorem negation_sound (operand : Sound negation Negation.tokens Negation.tree tokens) :
    Sound negation Negation.tokens Negation.tree (.operator .not :: tokens) := by
  intro parsed done
  rw [negation] at done
  obtain ⟨inner, read, same⟩ := bind_ok.1 done
  cases same
  obtain ⟨n, front, tree⟩ := operand inner read
  exact ⟨.not n, congrArg (_ :: ·) front, congrArg Expr.not tree⟩

theorem negation_plain (plain : ∀ after, tokens ≠ .operator .not :: after) : negation tokens = comparison tokens := by
  unfold negation
  split
  next after => exact (plain after rfl).elim
  next => rfl

theorem comparison_sound (first : Sound primary Primary.tokens Primary.tree tokens)
    (equal : ∀ left : Parsed tokens, ∀ after, left.rest = .operator .equal :: after →
      Sound primary Primary.tokens Primary.tree after)
    (notEqual : ∀ left : Parsed tokens, ∀ after, left.rest = .operator .notEqual :: after →
      Sound primary Primary.tokens Primary.tree after) :
    Sound comparison Comparison.tokens Comparison.tree tokens := by
  intro parsed done
  rw [comparison] at done
  obtain ⟨left, begun, continued⟩ := bind_ok.1 done
  obtain ⟨l, front, tree⟩ := first left begun
  split at continued
  next after kept =>
    obtain ⟨right, read, same⟩ := bind_ok.1 continued
    obtain ⟨r, later, tree'⟩ := equal left after kept right read
    cases same
    refine ⟨.mk l (.equal r), ?_, by rw [Comparison.tree, Comparand.tree, tree, tree']⟩
    rw [Comparison.tokens, Comparand.tokens, List.append_assoc, List.cons_append, ← later, ← kept, ← front]
  next after kept =>
    obtain ⟨right, read, same⟩ := bind_ok.1 continued
    obtain ⟨r, later, tree'⟩ := notEqual left after kept right read
    cases same
    refine ⟨.mk l (.notEqual r), ?_, by rw [Comparison.tree, Comparand.tree, tree, tree']⟩
    rw [Comparison.tokens, Comparand.tokens, List.append_assoc, List.cons_append, ← later, ← kept, ← front]
  next =>
    cases continued
    exact ⟨.mk l .none, by rw [Comparison.tokens, Comparand.tokens, List.append_nil, ← front], tree⟩

theorem group_sound (inside : Sound disjunction Disjunction.tokens Disjunction.tree tokens) :
    Sound primary Primary.tokens Primary.tree (.operator .open :: tokens) := by
  intro parsed done
  rw [primary] at done
  obtain ⟨inner, read, closed⟩ := bind_ok.1 done
  obtain ⟨d, front, tree⟩ := inside inner read
  split at closed
  next rest kept =>
    cases closed
    refine ⟨.group d, ?_, tree⟩
    rw [kept] at front
    simp [Primary.tokens, ← front]
  next => cases closed

theorem callOf_ok {function : Function} {trees : List Expr} {tree : Expr} (called : callOf function trees = .ok tree) :
    ∃ left right, trees = [left, right] ∧ tree = .call function left right := by
  unfold callOf at called
  split at called
  next left right =>
    cases called
    exact ⟨left, right, rfl, rfl⟩
  next => cases called

theorem call_sound {name : String} {function : Function} (notTrue : name ≠ "true") (notFalse : name ≠ "false")
    (known : Function.ofName? name = some function) (given : SoundArguments arguments argumentTokens tokens) :
    Sound primary Primary.tokens Primary.tree (.name name :: .operator .open :: tokens) := by
  intro parsed done
  rw [primary, known] at done
  · obtain ⟨read, collected, rest⟩ := bind_ok.1 done
    obtain ⟨tree, called, same⟩ := bind_ok.1 rest
    cases same
    obtain ⟨ds, spelled, trees⟩ := given read collected
    obtain ⟨left, right, both, rfl⟩ := callOf_ok called
    rw [both] at trees
    obtain ⟨l, others, rfl, rfl, second⟩ := List.map_eq_cons_iff.1 trees
    obtain ⟨r, none, rfl, rfl, third⟩ := List.map_eq_cons_iff.1 second
    cases List.map_eq_nil_iff.1 third
    have named : function.name = name := by simpa using List.find?_some known
    refine ⟨.call function l r, ?_, rfl⟩
    rw [Primary.tokens, named]
    simpa [argumentTokens, furtherTokens] using spelled
  · exact notTrue
  · exact notFalse

theorem primary_unknown {name : String} (notTrue : name ≠ "true") (notFalse : name ≠ "false")
    (unknown : Function.ofName? name = none) :
    primary (.name name :: .operator .open :: tokens) = .error (.unknownFunction name) := by
  rw [primary, unknown]
  · exact notTrue
  · exact notFalse

theorem primary_variable {name : String} (notTrue : name ≠ "true") (notFalse : name ≠ "false")
    (ended : ∀ after, tokens ≠ .operator .open :: after) :
    primary (.name name :: tokens) = .ok ⟨.variable name, tokens, Nat.lt_succ_self _⟩ := by
  rw [primary]
  · exact notTrue
  · exact notFalse
  · exact ended

theorem arguments_sound (some : ∀ after, tokens ≠ .operator .close :: after)
    (first : Sound disjunction Disjunction.tokens Disjunction.tree tokens)
    (others : ∀ first : Parsed tokens, SoundArguments moreArguments furtherTokens first.rest) :
    SoundArguments arguments argumentTokens tokens := by
  intro given done
  unfold arguments at done
  split at done
  next after => exact (some after rfl).elim
  next =>
    obtain ⟨parsed, read, rest⟩ := bind_ok.1 done
    obtain ⟨more, continued, same⟩ := bind_ok.1 rest
    cases same
    obtain ⟨d, front, tree⟩ := first parsed read
    obtain ⟨ds, spelled, trees⟩ := others parsed more continued
    refine ⟨d :: ds, ?_, by rw [List.map_cons, tree, trees]⟩
    rw [argumentTokens, List.append_assoc, ← spelled, ← front]

theorem moreArguments_sound (next : Sound disjunction Disjunction.tokens Disjunction.tree tokens)
    (others : ∀ next : Parsed tokens, SoundArguments moreArguments furtherTokens next.rest) :
    SoundArguments moreArguments furtherTokens (.operator .comma :: tokens) := by
  intro given done
  rw [moreArguments] at done
  obtain ⟨parsed, read, rest⟩ := bind_ok.1 done
  obtain ⟨more, continued, same⟩ := bind_ok.1 rest
  cases same
  obtain ⟨d, front, tree⟩ := next parsed read
  obtain ⟨ds, spelled, trees⟩ := others parsed more continued
  refine ⟨d :: ds, ?_, by rw [List.map_cons, tree, trees]⟩
  simp only [furtherTokens, List.flatMap_cons, List.cons_append, List.append_assoc] at spelled ⊢
  rw [← spelled, ← front]

theorem moreArguments_malformed (separated : ∀ after, tokens ≠ .operator .comma :: after)
    (opened : ∀ after, tokens ≠ .operator .close :: after) :
    moreArguments tokens = .error (.expected .close tokens.head?) := by
  unfold moreArguments
  split
  next after => exact (separated after rfl).elim
  next after => exact (opened after rfl).elim
  next => rfl

end

theorem disjunction_derives {tokens : List Token} : Sound disjunction Disjunction.tokens Disjunction.tree tokens := by
  refine (disjunction.mutual_induct
    (Sound disjunction Disjunction.tokens Disjunction.tree) (SoundAfter moreDisjuncts Disjuncts.tokens Disjuncts.tree)
    (Sound conjunction Conjunction.tokens Conjunction.tree) (SoundAfter moreConjuncts Conjuncts.tokens Conjuncts.tree)
    (Sound negation Negation.tokens Negation.tree) (Sound comparison Comparison.tokens Comparison.tree)
    (Sound primary Primary.tokens Primary.tree) (SoundArguments arguments argumentTokens)
    (SoundArguments moreArguments furtherTokens)
    (fun _ => disjunction_sound) (fun _ _ _ kept next later => moreDisjuncts_sound kept next fun right _ => later right)
    ?_ (fun _ => conjunction_sound) (fun _ _ _ kept next later => moreConjuncts_sound kept next fun right _ => later right)
    ?_ (fun _ => negation_sound) ?_ (fun _ => comparison_sound) ?_ (fun _ => group_sound) ?_ ?_ ?_ ?_ ?_
    (fun _ _ notTrue notFalse _ known => call_sound notTrue notFalse known) ?_ ?_ ?_ (fun _ => arguments_sound)
    (fun _ => moreArguments_sound) ?_ ?_).1 tokens
  · intro tokens left ended parsed done
    cases (moreDisjuncts_stopped ended).symm.trans done
    exact ⟨.none, rfl, rfl⟩
  · intro tokens left ended parsed done
    cases (moreConjuncts_stopped ended).symm.trans done
    exact ⟨.none, rfl, rfl⟩
  · intro tokens plain compared parsed done
    rw [negation_plain plain] at done
    obtain ⟨c, front, tree⟩ := compared parsed done
    exact ⟨.plain c, front, tree⟩
  · intro parsed done
    rw [primary] at done
    cases done
  · intro body rest parsed done
    rw [primary] at done
    cases done
    exact ⟨.single body, rfl, rfl⟩
  · intro body rest parsed done
    rw [primary] at done
    cases done
    exact ⟨.double body, rfl, rfl⟩
  · intro rest parsed done
    rw [primary] at done
    cases done
    exact ⟨.boolean true, rfl, rfl⟩
  · intro rest parsed done
    rw [primary] at done
    cases done
    exact ⟨.boolean false, rfl, rfl⟩
  · intro name after notTrue notFalse unknown parsed done
    cases (primary_unknown notTrue notFalse unknown).symm.trans done
  · intro name rest notTrue notFalse ended parsed done
    cases (primary_variable notTrue notFalse ended).symm.trans done
    exact ⟨.named ⟨name, notTrue, notFalse⟩, rfl, rfl⟩
  · intro o rest other parsed done
    rw [primary] at done
    · cases done
    · exact other
  · intro rest given done
    rw [arguments] at done
    cases done
    exact ⟨[], rfl, rfl⟩
  · intro rest given done
    rw [moreArguments] at done
    cases done
    exact ⟨[], rfl, rfl⟩
  · intro tokens separated opened given done
    cases (moreArguments_malformed separated opened).symm.trans done

end Conveyor.Condition.Grammar

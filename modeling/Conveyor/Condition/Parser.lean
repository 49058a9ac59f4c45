import Conveyor.Condition.Expr
import Conveyor.Condition.Token

/-! Parsing conditions. From loosest to tightest: disjunction, conjunction, negation, one comparison,
and the primary expressions. Every parser returns the tokens it left, fewer than it was given. -/

namespace Conveyor.Condition

inductive SyntaxFault where
  | character (c : Char)
  | empty
  | unexpected (token : Token)
  | unexpectedEnd
  | expected (wanted : Operator) (found : Option Token)
  | unknownFunction (name : String)
  | argumentCount (function : Function) (given : Nat)
  deriving DecidableEq, Repr

def SyntaxFault.message : SyntaxFault → String
  | .character c => "unexpected character " ++ Text.quoted (String.ofList [c])
  | .empty => "empty expression"
  | .unexpected token => "unexpected " ++ Text.quoted token.written
  | .unexpectedEnd => "unexpected end of expression"
  | .expected wanted found =>
    let seen :=
      match found with
      | some token => token.written
      | none => "end of expression"
    "expected " ++ Text.quoted wanted.text ++ ", found " ++ Text.quoted seen
  | .unknownFunction name => "unknown function " ++ Text.quoted name
  | .argumentCount function given =>
    s!"{function.name}() takes {function.arity} arguments, got {given}"

structure Parsed (tokens : List Token) where
  tree : Expr
  rest : List Token
  shorter : rest.length < tokens.length

structure Arguments (tokens : List Token) where
  trees : List Expr
  rest : List Token
  shorter : rest.length < tokens.length

def callOf (function : Function) : List Expr → Except SyntaxFault Expr
  | [left, right] => .ok (.call function left right)
  | trees => .error (.argumentCount function trees.length)

mutual

def disjunction (tokens : List Token) : Except SyntaxFault (Parsed tokens) := do
  let first ← conjunction tokens
  moreDisjuncts tokens first
termination_by (tokens.length, 7)
decreasing_by
  · exact Prod.Lex.right _ (by decide)
  · exact Prod.Lex.left _ _ first.shorter

def moreDisjuncts (tokens : List Token) (left : Parsed tokens) :
    Except SyntaxFault (Parsed tokens) :=
  match kept : left.rest with
  | .operator .or :: more => do
    let right ← conjunction more
    moreDisjuncts tokens ⟨.or left.tree right.tree, right.rest, by
      have := left.shorter
      have := right.shorter
      simp only [kept, List.length_cons] at *
      omega⟩
  | _ => .ok left
termination_by (left.rest.length, 8)
decreasing_by
  · exact Prod.Lex.left _ _ (by simp [kept])
  · exact Prod.Lex.left _ _ (by
      have := right.shorter
      simp only [kept, List.length_cons]
      omega)

def conjunction (tokens : List Token) : Except SyntaxFault (Parsed tokens) := do
  let first ← negation tokens
  moreConjuncts tokens first
termination_by (tokens.length, 5)
decreasing_by
  · exact Prod.Lex.right _ (by decide)
  · exact Prod.Lex.left _ _ first.shorter

def moreConjuncts (tokens : List Token) (left : Parsed tokens) :
    Except SyntaxFault (Parsed tokens) :=
  match kept : left.rest with
  | .operator .and :: more => do
    let right ← negation more
    moreConjuncts tokens ⟨.and left.tree right.tree, right.rest, by
      have := left.shorter
      have := right.shorter
      simp only [kept, List.length_cons] at *
      omega⟩
  | _ => .ok left
termination_by (left.rest.length, 6)
decreasing_by
  · exact Prod.Lex.left _ _ (by simp [kept])
  · exact Prod.Lex.left _ _ (by
      have := right.shorter
      simp only [kept, List.length_cons]
      omega)

def negation (tokens : List Token) : Except SyntaxFault (Parsed tokens) :=
  match tokens with
  | .operator .not :: more => do
    let operand ← negation more
    return ⟨.not operand.tree, operand.rest, Nat.lt_succ_of_lt operand.shorter⟩
  | tokens => comparison tokens
termination_by (tokens.length, 4)
decreasing_by
  · exact Prod.Lex.left _ _ (by simp)
  · exact Prod.Lex.right _ (by decide)

def comparison (tokens : List Token) : Except SyntaxFault (Parsed tokens) := do
  let left ← primary tokens
  match kept : left.rest with
  | .operator .equal :: more =>
    let right ← primary more
    return ⟨.equal left.tree right.tree, right.rest, by
      have := left.shorter
      have := right.shorter
      simp only [kept, List.length_cons] at *
      omega⟩
  | .operator .notEqual :: more =>
    let right ← primary more
    return ⟨.notEqual left.tree right.tree, right.rest, by
      have := left.shorter
      have := right.shorter
      simp only [kept, List.length_cons] at *
      omega⟩
  | _ => return left
termination_by (tokens.length, 3)
decreasing_by
  · exact Prod.Lex.right _ (by decide)
  · exact Prod.Lex.left _ _ (by
      have := left.shorter
      simp only [kept, List.length_cons] at *
      omega)
  · exact Prod.Lex.left _ _ (by
      have := left.shorter
      simp only [kept, List.length_cons] at *
      omega)

def primary (tokens : List Token) : Except SyntaxFault (Parsed tokens) :=
  match tokens with
  | [] => .error .unexpectedEnd
  | .operator .open :: more => do
    let inner ← disjunction more
    match kept : inner.rest with
    | .operator .close :: rest =>
      return ⟨inner.tree, rest, by
        have := inner.shorter
        simp only [kept, List.length_cons] at *
        omega⟩
    | rest => .error (.expected .close rest.head?)
  | .single body :: rest =>
    .ok ⟨.text (String.ofList (Token.collapsePairs body)), rest, Nat.lt_succ_self _⟩
  | .double body :: rest =>
    .ok ⟨.text (String.ofList (Token.dropEscapes body)), rest, Nat.lt_succ_self _⟩
  | .name "true" :: rest => .ok ⟨.boolean true, rest, Nat.lt_succ_self _⟩
  | .name "false" :: rest => .ok ⟨.boolean false, rest, Nat.lt_succ_self _⟩
  | .name name :: .operator .open :: more =>
    match Function.ofName? name with
    | none => .error (.unknownFunction name)
    | some function => do
      let arguments ← arguments more
      let tree ← callOf function arguments.trees
      return ⟨tree, arguments.rest, by
        have := arguments.shorter
        simp only [List.length_cons]
        omega⟩
  | .name name :: rest => .ok ⟨.variable name, rest, Nat.lt_succ_self _⟩
  | .operator o :: _ => .error (.unexpected (.operator o))
termination_by (tokens.length, 2)
decreasing_by
  · exact Prod.Lex.left _ _ (by simp)
  · exact Prod.Lex.left _ _ (by simp only [List.length_cons]; omega)

def arguments (tokens : List Token) : Except SyntaxFault (Arguments tokens) :=
  match tokens with
  | .operator .close :: rest => .ok ⟨[], rest, Nat.lt_succ_self _⟩
  | tokens => do
    let first ← disjunction tokens
    let others ← moreArguments first.rest
    return ⟨first.tree :: others.trees, others.rest, Nat.lt_trans others.shorter first.shorter⟩
termination_by (tokens.length, 8)
decreasing_by
  · exact Prod.Lex.right _ (by decide)
  · exact Prod.Lex.left _ _ first.shorter

def moreArguments (tokens : List Token) : Except SyntaxFault (Arguments tokens) :=
  match tokens with
  | .operator .comma :: more => do
    let next ← disjunction more
    let others ← moreArguments next.rest
    return ⟨next.tree :: others.trees, others.rest,
      Nat.lt_succ_of_lt (Nat.lt_trans others.shorter next.shorter)⟩
  | .operator .close :: rest => .ok ⟨[], rest, Nat.lt_succ_self _⟩
  | tokens => .error (.expected .close tokens.head?)
termination_by (tokens.length, 8)
decreasing_by
  · exact Prod.Lex.left _ _ (by simp)
  · exact Prod.Lex.left _ _ (by
      have := next.shorter
      simp only [List.length_cons]
      omega)

end

def parseTokens (tokens : List Token) : Except SyntaxFault Expr :=
  if tokens.isEmpty then .error .empty
  else do
    let parsed ← disjunction tokens
    match parsed.rest with
    | [] => return parsed.tree
    | token :: _ => .error (.unexpected token)

def unwrap? (text : List Char) : Option (List Char) := do
  let inner ← Text.dropStart? ['$', '\x7b', '\x7b'] (Text.trimStart text)
  let body ← Text.dropStart? ['\x7d', '\x7d'] (Text.trimEnd inner).reverse
  return body.reverse

structure Failure (φ : Type) where
  expression : String
  fault : φ
  deriving DecidableEq, Repr

/-- Parses a condition. A character that starts no token is reported with the unwrapped body, every
other fault with the whole text. -/
def parse (expression : String) : Except (Failure SyntaxFault) Expr :=
  let body := (unwrap? expression.toList).getD expression.toList
  match Token.all body with
  | .error c => .error ⟨String.ofList body, .character c⟩
  | .ok tokens =>
    match parseTokens tokens with
    | .error fault => .error ⟨expression, fault⟩
    | .ok tree => .ok tree

end Conveyor.Condition

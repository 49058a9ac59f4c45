import Conveyor.Proofs.StageSemantics
import Conveyor.Proofs.TemplateRendering

/-! What conditions come to, and why they fail. The rules of the language say which operands an expression asks for: the
right side of a conjunction or disjunction only where it decides. An expression has no value exactly if one of the parts
that are asked for has none of its own accord, so what fails is foreseen by looking at the names. -/

namespace Conveyor.Condition

open Fallible

theorem resolve_ok {bindings : Fields} {name : String} {value : Value} :
    resolve bindings name = .ok value ↔ bindings.get? name = some value ∧ value ≠ .null := by
  unfold resolve
  split
  next absent => simp [absent]
  next empty => simp [empty, eq_comm]
  next other given found =>
    rw [found, Except.ok.injEq, Option.some.injEq]
    constructor
    · rintro rfl
      exact ⟨rfl, given⟩
    · exact And.left

theorem argumentText_ok {function : Function} {value : Value} {text : String} :
    argumentText function value = .ok text ↔ (∀ b, value ≠ .bool b) ∧ text = value.text := by
  cases value <;> simp [argumentText, eq_comm]

theorem argumentText_error {function : Function} {value : Value} {fault : EvalFault} :
    argumentText function value = .error fault ↔ (∃ b, value = .bool b) ∧ fault = .booleanArgument function := by
  cases value <;> simp [argumentText, eq_comm]

namespace Expr

/-- The value of an expression, by the rules of the language. -/
inductive Yields (bindings : Fields) : Expr → Value → Prop
  | boolean (b : Bool) : Yields bindings (.boolean b) (.bool b)
  | text (s : String) : Yields bindings (.text s) (.str s)
  | named {name : String} {value : Value} (bound : bindings.get? name = some value) (given : value ≠ .null) :
      Yields bindings (.variable name) value
  | not {operand : Expr} {value : Value} (inner : Yields bindings operand value) :
      Yields bindings (.not operand) (.bool (!value.truthy))
  | andFalse {left right : Expr} {value : Value} (first : Yields bindings left value) (settled : value.truthy = false) :
      Yields bindings (.and left right) (.bool false)
  | andNext {left right : Expr} {value value' : Value} (first : Yields bindings left value)
      (undecided : value.truthy = true) (second : Yields bindings right value') :
      Yields bindings (.and left right) (.bool value'.truthy)
  | orTrue {left right : Expr} {value : Value} (first : Yields bindings left value) (settled : value.truthy = true) :
      Yields bindings (.or left right) (.bool true)
  | orNext {left right : Expr} {value value' : Value} (first : Yields bindings left value)
      (undecided : value.truthy = false) (second : Yields bindings right value') :
      Yields bindings (.or left right) (.bool value'.truthy)
  | equal {left right : Expr} {value value' : Value} (first : Yields bindings left value)
      (second : Yields bindings right value') : Yields bindings (.equal left right) (.bool (value.same value'))
  | notEqual {left right : Expr} {value value' : Value} (first : Yields bindings left value)
      (second : Yields bindings right value') : Yields bindings (.notEqual left right) (.bool (!value.same value'))
  | call {function : Function} {left right : Expr} {value value' : Value} (first : Yields bindings left value)
      (second : Yields bindings right value') (subject : ∀ b, value ≠ .bool b) (argument : ∀ b, value' ≠ .bool b) :
      Yields bindings (.call function left right) (.bool (function.holds value.text value'.text))

inductive Prompts (bindings : Fields) : Expr → Expr → Prop
  | not (operand : Expr) : Prompts bindings (.not operand) operand
  | andLeft (left right : Expr) : Prompts bindings (.and left right) left
  | andRight {left right : Expr} {value : Value} (first : left.Yields bindings value) (undecided : value.truthy = true) :
      Prompts bindings (.and left right) right
  | orLeft (left right : Expr) : Prompts bindings (.or left right) left
  | orRight {left right : Expr} {value : Value} (first : left.Yields bindings value) (undecided : value.truthy = false) :
      Prompts bindings (.or left right) right
  | equalLeft (left right : Expr) : Prompts bindings (.equal left right) left
  | equalRight {left right : Expr} {value : Value} (first : left.Yields bindings value) :
      Prompts bindings (.equal left right) right
  | notEqualLeft (left right : Expr) : Prompts bindings (.notEqual left right) left
  | notEqualRight {left right : Expr} {value : Value} (first : left.Yields bindings value) :
      Prompts bindings (.notEqual left right) right
  | callLeft (function : Function) (left right : Expr) : Prompts bindings (.call function left right) left
  | callRight {function : Function} {left right : Expr} {value : Value} (first : left.Yields bindings value) :
      Prompts bindings (.call function left right) right

abbrev Reaches (bindings : Fields) : Expr → Expr → Prop := Relation.ReflTransGen (Prompts bindings)

/-- An expression that has no value although its operands have: a variable that is not known or has none for the event,
and a function that is applied to a boolean. -/
inductive Faulty (bindings : Fields) : Expr → EvalFault → Prop
  | unknown {name : String} (absent : bindings.get? name = none) :
      Faulty bindings (.variable name) (.unknownVariable name)
  | unset {name : String} (empty : bindings.get? name = some .null) : Faulty bindings (.variable name) (.noValue name)
  | misused {function : Function} {left right : Expr} {value value' : Value} (first : left.Yields bindings value)
      (second : right.Yields bindings value') (boolean : (∃ b, value = .bool b) ∨ ∃ b, value' = .bool b) :
      Faulty bindings (.call function left right) (.booleanArgument function)

variable {bindings bindings' : Fields} {e part : Expr} {value : Value} {fault : EvalFault}

theorem yields_of_eval (done : e.eval bindings = .ok value) : e.Yields bindings value := by
  induction e generalizing value with
  | boolean b =>
    cases done
    exact .boolean b
  | text s =>
    cases done
    exact .text s
  | «variable» name =>
    obtain ⟨bound, given⟩ := resolve_ok.1 done
    exact .named bound given
  | not operand ih =>
    obtain ⟨inner, found, rfl⟩ := map_ok.1 done
    exact .not (ih found)
  | and left right ihl ihr =>
    obtain ⟨first, found, rest⟩ := bind_ok.1 done
    split at rest
    next undecided =>
      obtain ⟨second, found', rfl⟩ := map_ok.1 rest
      exact .andNext (ihl found) undecided (ihr found')
    next settled =>
      cases rest
      exact .andFalse (ihl found) (by simpa using settled)
  | or left right ihl ihr =>
    obtain ⟨first, found, rest⟩ := bind_ok.1 done
    split at rest
    next settled =>
      cases rest
      exact .orTrue (ihl found) settled
    next undecided =>
      obtain ⟨second, found', rfl⟩ := map_ok.1 rest
      exact .orNext (ihl found) (by simpa using undecided) (ihr found')
  | equal left right ihl ihr =>
    obtain ⟨first, found, rest⟩ := bind_ok.1 done
    obtain ⟨second, found', rfl⟩ := map_ok.1 rest
    exact .equal (ihl found) (ihr found')
  | notEqual left right ihl ihr =>
    obtain ⟨first, found, rest⟩ := bind_ok.1 done
    obtain ⟨second, found', rfl⟩ := map_ok.1 rest
    exact .notEqual (ihl found) (ihr found')
  | call function left right ihl ihr =>
    obtain ⟨first, found, rest⟩ := bind_ok.1 done
    obtain ⟨second, found', rest⟩ := bind_ok.1 rest
    obtain ⟨_, written, rest⟩ := bind_ok.1 rest
    obtain ⟨_, written', rfl⟩ := map_ok.1 rest
    obtain ⟨subject, rfl⟩ := argumentText_ok.1 written
    obtain ⟨argument, rfl⟩ := argumentText_ok.1 written'
    exact .call (ihl found) (ihr found') subject argument

theorem Yields.eval_eq (yields : e.Yields bindings value) : e.eval bindings = .ok value := by
  induction yields with
  | boolean b => rfl
  | text s => rfl
  | named bound given => exact resolve_ok.2 ⟨bound, given⟩
  | not _ inner => exact bind_ok.2 ⟨_, inner, rfl⟩
  | andFalse _ settled first => exact bind_ok.2 ⟨_, first, by rw [settled]; rfl⟩
  | andNext _ undecided _ first second =>
    exact bind_ok.2 ⟨_, first, by rw [if_pos undecided]; exact bind_ok.2 ⟨_, second, rfl⟩⟩
  | orTrue _ settled first => exact bind_ok.2 ⟨_, first, by rw [settled]; rfl⟩
  | orNext _ undecided _ first second =>
    exact bind_ok.2 ⟨_, first, by rw [undecided]; exact bind_ok.2 ⟨_, second, rfl⟩⟩
  | equal _ _ first second => exact bind_ok.2 ⟨_, first, bind_ok.2 ⟨_, second, rfl⟩⟩
  | notEqual _ _ first second => exact bind_ok.2 ⟨_, first, bind_ok.2 ⟨_, second, rfl⟩⟩
  | @call function left right value value' _ _ subject argument first second =>
    have written : argumentText function value = .ok value.text := argumentText_ok.2 ⟨subject, rfl⟩
    have written' : argumentText function value' = .ok value'.text := argumentText_ok.2 ⟨argument, rfl⟩
    exact bind_ok.2 ⟨_, first, bind_ok.2 ⟨_, second, bind_ok.2 ⟨_, written, bind_ok.2 ⟨_, written', rfl⟩⟩⟩⟩

/-- What an expression asks for and does not get, it has not either. -/
theorem Prompts.eval_error (prompts : e.Prompts bindings part) (failed : part.eval bindings = .error fault) :
    e.eval bindings = .error fault := by
  cases prompts with
  | not | andLeft | orLeft | equalLeft | notEqualLeft | callLeft => exact bind_error.2 (Or.inl failed)
  | andRight first undecided =>
    exact bind_error.2 (Or.inr ⟨_, first.eval_eq, by rw [if_pos undecided]; exact bind_error.2 (Or.inl failed)⟩)
  | orRight first undecided =>
    exact bind_error.2 (Or.inr ⟨_, first.eval_eq, by rw [undecided]; exact bind_error.2 (Or.inl failed)⟩)
  | equalRight first | notEqualRight first | callRight first =>
    exact bind_error.2 (Or.inr ⟨_, first.eval_eq, bind_error.2 (Or.inl failed)⟩)

theorem Faulty.eval_error (faulty : e.Faulty bindings fault) : e.eval bindings = .error fault := by
  cases faulty with
  | unknown absent => simp [eval, resolve, absent]
  | unset empty => simp [eval, resolve, empty]
  | @misused function left right value value' first second boolean =>
    refine bind_error.2 (Or.inr ⟨_, first.eval_eq, bind_error.2 (Or.inr ⟨_, second.eval_eq, ?_⟩)⟩)
    by_cases subject : ∃ b, value = .bool b
    · exact bind_error.2 (Or.inl (argumentText_error.2 ⟨subject, rfl⟩))
    · have written : argumentText function value = .ok value.text :=
        argumentText_ok.2 ⟨fun b same => subject ⟨b, same⟩, rfl⟩
      have refused : argumentText function value' = .error (.booleanArgument function) :=
        argumentText_error.2 ⟨boolean.resolve_left subject, rfl⟩
      exact bind_error.2 (Or.inr ⟨_, written, bind_error.2 (Or.inl refused)⟩)

theorem reaches_faulty (failed : e.eval bindings = .error fault) :
    ∃ part, e.Reaches bindings part ∧ part.Faulty bindings fault := by
  -- The operand that fails is asked for, and what is faulty in it is reached through it.
  have through {e operand : Expr} (prompts : e.Prompts bindings operand)
      (inner : ∃ part, operand.Reaches bindings part ∧ part.Faulty bindings fault) :
      ∃ part, e.Reaches bindings part ∧ part.Faulty bindings fault := by
    obtain ⟨part, reached, faulty⟩ := inner
    exact ⟨part, .head prompts reached, faulty⟩
  induction e with
  | boolean b => cases failed
  | text s => cases failed
  | «variable» name =>
    simp only [eval, resolve] at failed
    split at failed
    next absent =>
      cases failed
      exact ⟨_, .refl, .unknown absent⟩
    next empty =>
      cases failed
      exact ⟨_, .refl, .unset empty⟩
    next => cases failed
  | not operand ih => exact through (.not operand) (ih (map_error.1 failed))
  | and left right ihl ihr =>
    rcases bind_error.1 failed with inner | ⟨value, found, rest⟩
    · exact through (.andLeft left right) (ihl inner)
    · split at rest
      next undecided => exact through (.andRight (yields_of_eval found) undecided) (ihr (map_error.1 rest))
      next => cases rest
  | or left right ihl ihr =>
    rcases bind_error.1 failed with inner | ⟨value, found, rest⟩
    · exact through (.orLeft left right) (ihl inner)
    · split at rest
      next => cases rest
      next undecided =>
        exact through (.orRight (yields_of_eval found) (by simpa using undecided)) (ihr (map_error.1 rest))
  | equal left right ihl ihr =>
    rcases bind_error.1 failed with inner | ⟨value, found, rest⟩
    · exact through (.equalLeft left right) (ihl inner)
    · exact through (.equalRight (yields_of_eval found)) (ihr (map_error.1 rest))
  | notEqual left right ihl ihr =>
    rcases bind_error.1 failed with inner | ⟨value, found, rest⟩
    · exact through (.notEqualLeft left right) (ihl inner)
    · exact through (.notEqualRight (yields_of_eval found)) (ihr (map_error.1 rest))
  | call function left right ihl ihr =>
    rcases bind_error.1 failed with inner | ⟨value, found, rest⟩
    · exact through (.callLeft function left right) (ihl inner)
    · rcases bind_error.1 rest with inner | ⟨value', found', rest⟩
      · exact through (.callRight (yields_of_eval found)) (ihr inner)
      · rcases bind_error.1 rest with refused | ⟨_, _, rest⟩
        · obtain ⟨boolean, rfl⟩ := argumentText_error.1 refused
          exact ⟨_, .refl, .misused (yields_of_eval found) (yields_of_eval found') (Or.inl boolean)⟩
        · obtain ⟨boolean, rfl⟩ := argumentText_error.1 (map_error.1 rest)
          exact ⟨_, .refl, .misused (yields_of_eval found) (yields_of_eval found') (Or.inr boolean)⟩

theorem eval_error_iff :
    e.eval bindings = .error fault ↔ ∃ part, e.Reaches bindings part ∧ part.Faulty bindings fault := by
  constructor
  · exact reaches_faulty
  · rintro ⟨part, reached, faulty⟩
    induction reached using Relation.ReflTransGen.head_induction_on with
    | refl => exact faulty.eval_error
    | head prompts _ ih => exact prompts.eval_error ih

/-! ### The names that matter -/

theorem Prompts.names_subset (prompts : e.Prompts bindings part) : part.names ⊆ e.names := by
  cases prompts <;> simp [names]

theorem Reaches.names_subset (reached : e.Reaches bindings part) : part.names ⊆ e.names := by
  induction reached with
  | refl => exact List.Subset.refl _
  | tail _ prompts ih => exact List.Subset.trans prompts.names_subset ih

theorem eval_congr (agree : ∀ name ∈ e.names, bindings.get? name = bindings'.get? name) :
    e.eval bindings = e.eval bindings' := by
  induction e with
  | boolean b => rfl
  | text s => rfl
  | «variable» name => simp only [eval, resolve, agree name List.mem_cons_self]
  | not operand ih => simp only [eval, ih agree]
  | and left right ihl ihr | or left right ihl ihr | equal left right ihl ihr | notEqual left right ihl ihr
  | call function left right ihl ihr =>
    have both := List.forall_mem_append.1 agree
    simp only [eval, ihl both.1, ihr both.2]

end Expr

theorem check_ok_iff {expression subject : String} {known : List String} :
    check expression known subject = .ok () ↔ ∃ tree, parse expression = .ok tree ∧ ∀ name ∈ tree.names, name ∈ known := by
  unfold check
  split
  next failed => simp [failed]
  next tree parsed =>
    have unknown : tree.unknownNames known = [] ↔ ∀ name ∈ tree.names, name ∈ known := by
      rw [Expr.unknownNames, Text.sortedSet, Text.sorted, List.eq_nil_iff_forall_not_mem]
      simp [List.mem_mergeSort, List.mem_eraseDups]
    rw [parsed]
    simp only [Except.ok.injEq, exists_eq_left', ← unknown]
    split <;> simp_all

/-- Every context says of the known names what they stand for, or that they stand for nothing. -/
theorem known_bound (context : Context) {name : String} (known : name ∈ Context.knownVariables) :
    context.bindings.get? name ≠ none := by
  rw [← Template.keys_bindings context, ← Table.has_iff (Key.exact name)] at known
  exact Option.isSome_iff_ne_none.1 known

section

variable {expression : String} {bindings : Fields}

theorem evaluate_ok_iff {b : Bool} : evaluate expression bindings = .ok b ↔
    ∃ tree value, parse expression = .ok tree ∧ tree.Yields bindings value ∧ b = value.truthy := by
  unfold evaluate
  split
  next malformed => simp [malformed]
  next tree parsed =>
    constructor
    · intro done
      split at done
      next => cases done
      next value found =>
        cases done
        exact ⟨tree, value, parsed, Expr.yields_of_eval found, rfl⟩
    · rintro ⟨_, value, again, yields, rfl⟩
      cases parsed.symm.trans again
      rw [yields.eval_eq]

theorem evaluate_error_iff {failure : Failure Fault} : evaluate expression bindings = .error failure ↔
    (∃ wrong, parse expression = .error wrong ∧ failure = ⟨wrong.expression, .malformed wrong.fault⟩) ∨
      ∃ tree part fault, parse expression = .ok tree ∧ tree.Reaches bindings part ∧ part.Faulty bindings fault ∧
        failure = ⟨expression, .undefined fault⟩ := by
  unfold evaluate
  split
  next malformed => simp [malformed, eq_comm]
  next tree parsed =>
    rw [parsed]
    simp only [reduceCtorEq, false_and, exists_false, false_or]
    constructor
    · intro failed
      split at failed
      next fault found =>
        obtain ⟨part, reached, faulty⟩ := Expr.reaches_faulty found
        cases failed
        exact ⟨tree, part, fault, rfl, reached, faulty, rfl⟩
      next => cases failed
    · rintro ⟨_, part, fault, same, reached, faulty, rfl⟩
      cases same
      rw [Expr.eval_error_iff.2 ⟨part, reached, faulty⟩]

theorem evaluate_congr {bindings' : Fields} (agree : ∀ tree, parse expression = .ok tree →
    ∀ name ∈ tree.names, bindings.get? name = bindings'.get? name) :
    evaluate expression bindings = evaluate expression bindings' := by
  unfold evaluate
  split
  next => rfl
  next tree parsed => rw [Expr.eval_congr (agree tree parsed)]

/-- A condition that has been checked fails for want of a value, or because a function is given a boolean. -/
theorem evaluate_checked {subject : String} (checked : check expression Context.knownVariables subject = .ok ())
    {context : Context} {failure : Failure Fault} (failed : evaluate expression context.bindings = .error failure) :
    ∃ tree, parse expression = .ok tree ∧
      ((∃ name ∈ tree.names, context.bindings.get? name = some .null ∧
          failure = ⟨expression, .undefined (.noValue name)⟩) ∨
        ∃ function left right b, tree.Reaches context.bindings (.call function left right) ∧
          (left.Yields context.bindings (.bool b) ∨ right.Yields context.bindings (.bool b)) ∧
          failure = ⟨expression, .undefined (.booleanArgument function)⟩) := by
  obtain ⟨tree, parsed, known⟩ := check_ok_iff.1 checked
  refine ⟨tree, parsed, ?_⟩
  rcases evaluate_error_iff.1 failed with ⟨_, malformed, _⟩ | ⟨_, part, fault, again, reached, faulty, rfl⟩
  · cases parsed.symm.trans malformed
  · cases parsed.symm.trans again
    cases faulty with
    | @unknown name absent =>
      have listed : name ∈ tree.names := reached.names_subset (by simp [Expr.names])
      exact (known_bound context (known name listed) absent).elim
    | @unset name empty =>
      have listed : name ∈ tree.names := reached.names_subset (by simp [Expr.names])
      exact Or.inl ⟨name, listed, empty, rfl⟩
    | misused first second boolean =>
      rcases boolean with ⟨b, rfl⟩ | ⟨b, rfl⟩
      · exact Or.inr ⟨_, _, _, b, reached, Or.inl first, rfl⟩
      · exact Or.inr ⟨_, _, _, b, reached, Or.inr second, rfl⟩

end

/-- A condition that does not hold, or has no value, closes the gate of its stage; the run goes on. -/
theorem gate_evaluated {expression : String} {c : Coordinator} {s : Stage} (condition : s.condition = some expression)
    (given : expression ≠ "") :
    (evaluate expression c.setup.context.bindings = .ok true → c.gate s = .ok c) ∧
      (evaluate expression c.setup.context.bindings ≠ .ok true → ∃ log why, c.gate s = .error ({ c with log }, why)) := by
  constructor
  · intro passed
    simp [Coordinator.gate, condition, given, passed]
  · intro barred
    have shut : s.Shut c.setup.context := by
      refine ⟨expression, condition, given, ?_⟩
      cases outcome : evaluate expression c.setup.context.bindings with
      | error failure => exact Or.inr ⟨failure, rfl⟩
      | ok b =>
        rw [outcome] at barred
        cases b with
        | true => exact (barred rfl).elim
        | false => exact Or.inl rfl
    obtain ⟨⟨noted, why⟩, closed⟩ := Coordinator.gate_shut shut
    obtain ⟨log, rfl⟩ := Coordinator.gate_error closed
    exact ⟨log, why, closed⟩

/-- What can be said of a condition before it is evaluated. -/
structure Predictable (expression : String) : Prop where
  holds : ∀ bindings b, evaluate expression bindings = .ok b ↔
    ∃ tree value, parse expression = .ok tree ∧ tree.Yields bindings value ∧ b = value.truthy
  fails : ∀ bindings failure, evaluate expression bindings = .error failure ↔
    (∃ wrong, parse expression = .error wrong ∧ failure = ⟨wrong.expression, .malformed wrong.fault⟩) ∨
      ∃ tree part fault, parse expression = .ok tree ∧ tree.Reaches bindings part ∧ part.Faulty bindings fault ∧
        failure = ⟨expression, .undefined fault⟩
  relevant : ∀ bindings bindings', (∀ tree, parse expression = .ok tree →
    ∀ name ∈ tree.names, bindings.get? name = bindings'.get? name) →
      evaluate expression bindings = evaluate expression bindings'
  checked : ∀ subject, check expression Context.knownVariables subject = .ok () →
    ∀ (context : Context) failure, evaluate expression context.bindings = .error failure →
      ∃ tree, parse expression = .ok tree ∧
        ((∃ name ∈ tree.names, context.bindings.get? name = some .null ∧
            failure = ⟨expression, .undefined (.noValue name)⟩) ∨
          ∃ function left right b, tree.Reaches context.bindings (.call function left right) ∧
            (left.Yields context.bindings (.bool b) ∨ right.Yields context.bindings (.bool b)) ∧
            failure = ⟨expression, .undefined (.booleanArgument function)⟩)
  gate : ∀ (c : Coordinator) (s : Stage), s.condition = some expression → expression ≠ "" →
    (evaluate expression c.setup.context.bindings = .ok true → c.gate s = .ok c) ∧
      (evaluate expression c.setup.context.bindings ≠ .ok true → ∃ log why, c.gate s = .error ({ c with log }, why))

/-- Every condition is predictable. -/
theorem predictable (expression : String) : Predictable expression where
  holds _ _ := evaluate_ok_iff
  fails _ _ := evaluate_error_iff
  relevant _ _ agree := evaluate_congr agree
  checked _ checked _ _ failed := evaluate_checked checked failed
  gate _ _ condition given := gate_evaluated condition given

end Conveyor.Condition

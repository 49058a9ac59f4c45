import Conveyor.Proofs.SpellingChanges

/-! Stages that are spelled in several ways. The matrix and the mode of failing are the settings of a stage: they may stand
on the stage or under its strategy, and what they come to does not depend on where they stand. -/

namespace Conveyor.Document

open Checked Record

variable {entries : Mapping}

/-! ### Stages -/

theorem accepted_asRecord {α : Type} (shape : String) (check : Record → Checked α) {v : Value}
    (opened : v.opened = .map entries) : (asRecord shape check v).accepted = (check ⟨entries⟩).accepted := by
  rw [asRecord, opened]

theorem accepted_asOptional {α : Type} (check : Value → Checked α) {v : Value} (opened : v.opened = .map entries) :
    (asOptional check v).accepted = some <$> (check v).accepted := by
  cases v with
  | null => cases opened
  | _ => exact accepted_map _ _

/-- A change in one item of a list that is not seen in the item is not seen in the list. -/
theorem InItem.blind {α : Type} {check : Value → Checked α} {change : Value → Value → Prop}
    (blind : ∀ x y, change x y → (check x).accepted = (check y).accepted) {v w : Value} (changed : InItem change v w) :
    (asListOf check v).accepted = (asListOf check w).accepted := by
  have middle (front back : List Value) {x y : Value} (changed : change x y) :
      (items check (front ++ x :: back)).accepted = (items check (front ++ y :: back)).accepted := by
    rw [accepted_items, accepted_items, List.mapM_append, List.mapM_append, List.mapM_cons, List.mapM_cons,
      blind x y changed]
  cases changed with
  | list front back opened opened' changed =>
    rw [asListOf, asListOf, opened, opened']
    exact middle front back changed
  | tuple front back opened opened' changed =>
    rw [asListOf, asListOf, opened, opened']
    exact middle front back changed

theorem InMap.record {α : Type} (shape : String) {check : Record → Checked α} {related : Mapping → Mapping → Prop}
    (blind : ∀ a b, related a b → (check ⟨a⟩).accepted = (check ⟨b⟩).accepted) {v w : Value}
    (changed : InMap related v w) :
    (asRecord shape check v).accepted = (asRecord shape check w).accepted := by
  obtain ⟨a, b, opened, opened', changed⟩ := changed
  rw [accepted_asRecord shape check opened, accepted_asRecord shape check opened', blind a b changed]

theorem InMap.optional {α : Type} {check : Value → Checked α} {related : Mapping → Mapping → Prop} {v w : Value}
    (changed : InMap related v w) (blind : (check v).accepted = (check w).accepted) :
    (asOptional check v).accepted = (asOptional check w).accepted := by
  obtain ⟨a, b, opened, opened', _⟩ := changed
  rw [accepted_asOptional check opened, accepted_asOptional check opened', blind]

namespace PartChange

variable {spellings : List String} {v w : Value}

theorem plain (changed : PartChange spellings v w) (other : spellings ∉ [StageEntry.needsKeys, StageEntry.producesKeys,
    StageEntry.consumesKeys, StageEntry.strategyKeys, StageEntry.stepsKeys]) : v = w := by
  cases changed with
  | same equal => exact equal
  | wrapped listed _ => exact absurd (List.mem_append_left [_, _] listed) other
  | strategy field _ => simp [field] at other
  | steps field _ => simp [field] at other

/-- Where a single text may stand for a list, it does not matter which is given. -/
theorem single {α : Type} {check : Value → Checked α} (single : ∀ s, check (.str s) = check (.list [.str s]))
    (other : spellings ≠ StageEntry.strategyKeys ∧ spellings ≠ StageEntry.stepsKeys)
    (changed : PartChange spellings v w) : (check v).accepted = (check w).accepted := by
  cases changed with
  | same equal => rw [equal]
  | wrapped _ wrapped =>
    cases wrapped
    rw [single]
  | strategy field _ => exact absurd field other.1
  | steps field _ => exact absurd field other.2

theorem strategies (changed : PartChange StageEntry.strategyKeys v w) :
    (asOptional (asRecord "StrategyDoc" StrategyEntry.check) v).accepted =
      (asOptional (asRecord "StrategyDoc" StrategyEntry.check) w).accepted := by
  cases changed with
  | same equal => rw [equal]
  | wrapped listed _ => exact absurd listed (by decide)
  | strategy _ changed => exact changed.optional (changed.record _ fun a b => accepted_strategy)
  | steps field _ => exact absurd field (by decide)

theorem steps_accepted (changed : PartChange StageEntry.stepsKeys v w) :
    (asListOf (asRecord "StepDoc" StepEntry.check) v).accepted =
      (asListOf (asRecord "StepDoc" StepEntry.check) w).accepted := by
  cases changed with
  | same equal => rw [equal]
  | wrapped listed _ => exact absurd listed (by decide)
  | strategy field _ => exact absurd field (by decide)
  | steps _ changed => exact changed.blind fun x y changed => changed.record _ fun a b => accepted_step

end PartChange

namespace StageEntry

theorem accepted_part {a b : Mapping} (changed : RecordChange allKeys PartChange a b) :
    (check ⟨a⟩).accepted = (check ⟨b⟩).accepted := by
  have alike := changed.alike (by decide)
  have field {α : Type} (spellings : List String) (listed : spellings ∈ allKeys)
      (other : spellings ∉ [needsKeys, producesKeys, consumesKeys, strategyKeys, stepsKeys]) (default : α)
      (check : Value → Checked α) :=
    alike.field listed (fun v w changed => congrArg (fun v => (check v).accepted) (changed.plain other)) default
  have list {α : Type} (spellings : List String) (listed : spellings ∈ allKeys)
      (other : spellings ≠ strategyKeys ∧ spellings ≠ stepsKeys) (default : α) (check : Value → Checked α)
      (single : ∀ s, check (.str s) = check (.list [.str s])) :=
    alike.field listed (fun _ _ => PartChange.single single other) default
  simp only [check, accepted_andThen, accepted_seqLeft, accepted_seq, accepted_functor]
  rw [field titleKeys (by decide) (by decide), list needsKeys (by decide) (by decide) [] asNames fun _ => rfl,
    field conditionKeys (by decide) (by decide), alike.field (by decide) (fun v w changed => changed.strategies),
    field matrixKeys (by decide) (by decide), field failFastKeys (by decide) (by decide),
    field timeoutKeys (by decide) (by decide), field timeoutMinutesKeys (by decide) (by decide),
    field runsOnKeys (by decide) (by decide),
    list producesKeys (by decide) (by decide) none (asOptional asNames) fun _ => rfl,
    list consumesKeys (by decide) (by decide) none asConsumes fun _ => rfl, field envKeys (by decide) (by decide),
    alike.required (by decide) (fun v w changed => changed.steps_accepted), alike.accepted_closed]

/-! ### Settings -/

def declared (e : StageEntry) (key : String) : Except Refusal Stage := e.toStage key

/-- What may be set on the stage or under its strategy. -/
structure Settings where
  strategy : Option StrategyEntry
  matrix : Option Fields
  failFast : Option Bool

namespace Settings

def strategyMatrix (s : Settings) : Option Fields := s.strategy.bind (·.matrix)

/-- The matrix and the mode of failing that the settings come to, unless they set the matrix twice. -/
def outlook (s : Settings) : Option (Option Fields × Bool) :=
  if s.matrix.isSome ∧ s.strategyMatrix.isSome then none
  else some (s.matrix <|> s.strategyMatrix, (s.failFast <|> s.strategy.bind (·.failFast)).getD true)

def flat (outlook : Option Fields × Bool) : Settings := ⟨none, outlook.1, some outlook.2⟩

end Settings

def settings (r : Record) : Option Settings :=
  Settings.mk <$> (r.field strategyKeys none (asOptional (asRecord "StrategyDoc" StrategyEntry.check))).accepted
    <*> (r.field matrixKeys none (asOptional asFields)).accepted
    <*> (r.field failFastKeys none (asOptional asBoolean)).accepted

def outlook (r : Record) : Option (Option Fields × Bool) := (settings r).bind Settings.outlook

def set (e : StageEntry) (s : Settings) : StageEntry :=
  { e with strategy := s.strategy, matrix := s.matrix, failFast := s.failFast }

/-- All of a stage but its settings. -/
def base (r : Record) : Checked StageEntry :=
  StageEntry.mk <$> r.field titleKeys none (asOptional asText)
    <*> r.field needsKeys [] asNames
    <*> r.field conditionKeys none asCondition
    <*> pure none <*> pure none <*> pure none
    <*> r.field timeoutKeys none (asOptional asNumber)
    <*> r.field timeoutMinutesKeys none (asOptional asNumber)
    <*> r.field runsOnKeys none (asOptional asText)
    <*> r.field producesKeys none (asOptional asNames)
    <*> r.field consumesKeys none asConsumes
    <*> r.field envKeys [] asFields
    <*> r.required stepsKeys (asListOf (asRecord "StepDoc" StepEntry.check))
    <* r.closed allKeys

theorem seq_none {α β : Type} (f : Option (α → β)) : f <*> none = none := by
  cases f <;> rfl

/-- The settings are checked among the other fields, but it does not matter where: a stage is accepted if its settings and
the rest of it are. -/
theorem accepted_check (r : Record) : (check r).accepted =
    (base r).accepted.bind fun e => (settings r).bind fun s => (unambiguous (e.set s)).accepted := by
  simp only [check, base, settings, accepted_andThen, accepted_seqLeft, accepted_seq, accepted_functor]
  rcases (r.field strategyKeys none (asOptional (asRecord "StrategyDoc" StrategyEntry.check))).accepted with _ | strategy
  · rw [seq_none]
    exact (Option.bind_fun_none _).symm
  rcases (r.field matrixKeys none (asOptional asFields)).accepted with _ | matrix
  · rw [seq_none]
    exact (Option.bind_fun_none _).symm
  rcases (r.field failFastKeys none (asOptional asBoolean)).accepted with _ | failFast
  · rw [seq_none]
    exact (Option.bind_fun_none _).symm
  -- With the settings given, both sides stop at the first field that is not accepted.
  cases (r.field titleKeys none (asOptional asText)).accepted <;> try rfl
  cases (r.field needsKeys [] asNames).accepted <;> try rfl
  cases (r.field conditionKeys none asCondition).accepted <;> try rfl
  cases (r.field timeoutKeys none (asOptional asNumber)).accepted <;> try rfl
  cases (r.field timeoutMinutesKeys none (asOptional asNumber)).accepted <;> try rfl
  cases (r.field runsOnKeys none (asOptional asText)).accepted <;> try rfl
  cases (r.field producesKeys none (asOptional asNames)).accepted <;> try rfl
  cases (r.field consumesKeys none asConsumes).accepted <;> try rfl
  cases (r.field envKeys [] asFields).accepted <;> try rfl
  cases (r.required stepsKeys (asListOf (asRecord "StepDoc" StepEntry.check))).accepted <;> try rfl
  cases (r.closed allKeys).accepted <;> rfl

/-- It does not matter where settings stand that come to the same. -/
theorem declared_set (e : StageEntry) (s : Settings) : (unambiguous (e.set s)).accepted.map declared =
    s.outlook.bind fun o => (unambiguous (e.set (.flat o))).accepted.map declared := by
  by_cases twice : (e.set s).matrix.isSome ∧ (e.set s).strategyMatrix.isSome
  · have nowhere : s.outlook = none := if_pos twice
    rw [nowhere, unambiguous, if_pos twice]
    rfl
  · have clear : s.outlook = some (s.matrix <|> s.strategyMatrix, _) := if_neg twice
    have rest (s : Settings) (once : ¬ ((e.set s).matrix.isSome ∧ (e.set s).strategyMatrix.isSome)) :
        unambiguous (e.set s) = if e.timeout.isSome ∧ e.timeoutMinutes.isSome then
          refused "use either 'timeout' (seconds) or 'timeout-minutes'" else .valid (e.set s) := if_neg once
    rw [clear, Option.bind_some, rest s twice, rest (.flat _) fun both => Bool.false_ne_true both.2]
    split
    · rfl
    · refine congrArg some (funext fun key => ?_)
      simp only [declared, toStage, toMatrix, cancelsSiblings, strategyMatrix, set, Settings.flat, seconds]
      simp [Settings.strategyMatrix]

theorem declared_check (r : Record) : (check r).accepted.map declared = (base r).accepted.bind fun e =>
    (outlook r).bind fun o => (unambiguous (e.set (.flat o))).accepted.map declared := by
  rw [accepted_check, outlook, Option.map_bind]
  congr 1
  funext e
  rw [Function.comp_apply, Option.map_bind, Option.bind_assoc]
  congr 1
  exact funext (declared_set e)

section

variable {matrix : Option (Option Fields)} {failFast outer : Option (Option Bool)} {closed : Option Unit}

theorem outlook_matrix :
    (Settings.mk <$> (some <$> (StrategyEntry.mk <$> failFast <*> matrix <* closed)) <*> some none <*> outer).bind
        Settings.outlook =
      (Settings.mk <$> (some <$> (StrategyEntry.mk <$> failFast <*> some none <* closed)) <*> matrix <*> outer).bind
        Settings.outlook := by
  rcases failFast with _ | failFast
  · rfl
  rcases matrix with _ | matrix
  · cases closed <;> rfl
  rcases closed with _ | closed
  · rfl
  rcases outer with _ | outer
  · rfl
  cases matrix <;> rfl

theorem outlook_failFast {above : Option (Option Fields)} :
    (Settings.mk <$> (some <$> (StrategyEntry.mk <$> failFast <*> matrix <* closed)) <*> above <*> some none).bind
        Settings.outlook =
      (Settings.mk <$> (some <$> (StrategyEntry.mk <$> some none <*> matrix <* closed)) <*> above <*> failFast).bind
        Settings.outlook := by
  rcases failFast with _ | failFast
  · rw [seq_none]
    rfl
  rcases matrix with _ | matrix
  · rfl
  rcases closed with _ | closed
  · rfl
  rcases above with _ | above
  · rfl
  cases failFast <;> rfl

end

def settingKeys : List (List String) := [strategyKeys, matrixKeys, failFastKeys]

theorem base_extends {spellings : List String} (listed : spellings ∈ settingKeys) {v : Value} {r s : Record}
    (longer : Extends allKeys spellings v r s) : (base r).accepted = (base s).accepted := by
  have same (other : List String) (member : other ∈ allKeys) (plain : other ∉ settingKeys) :
      r.given? other = s.given? other := by
    apply longer.others other member
    rintro rfl
    exact plain listed
  simp only [base, accepted_seqLeft, accepted_seq, accepted_functor, Record.accepted_field, Record.accepted_required,
    Record.accepted_closed]
  rw [same titleKeys (by decide) (by decide), same needsKeys (by decide) (by decide),
    same conditionKeys (by decide) (by decide), same timeoutKeys (by decide) (by decide),
    same timeoutMinutesKeys (by decide) (by decide), same runsOnKeys (by decide) (by decide),
    same producesKeys (by decide) (by decide), same consumesKeys (by decide) (by decide),
    same envKeys (by decide) (by decide), same stepsKeys (by decide) (by decide)]
  simp only [longer.closed]

/-- A field that is moved is first taken from the strategy and then added to the stage. -/
structure Relocated (spellings : List String) (x : Value) (inner outer : Mapping) (a b : Record) : Prop where
  taken : Extends strategyFields spellings x ⟨inner⟩ ⟨outer⟩
  before : ∃ v, a.given? strategyKeys = some v ∧ v.opened = .map inner
  after : ∃ w, b.given? strategyKeys = some w ∧ w.opened = .map outer
  lacking : a.given? spellings = none
  added : b.given? spellings = some x
  others : ∀ other ∈ strategyFields, other ≠ spellings → a.given? other = b.given? other
  bases : (base a).accepted = (base b).accepted

theorem relocated {spellings : List String} (listed : spellings ∈ strategyFields) {a b : Mapping}
    (moved : Moved spellings a b) : ∃ x inner outer, Relocated spellings x inner outer ⟨a⟩ ⟨b⟩ := by
  obtain @⟨before, after, inner, outer, front, back, v, w, x, key, key', old, new, opened, opened', once, none, place⟩ :=
    moved
  have known : ∀ spellings ∈ strategyFields, spellings ∈ allKeys ∧ spellings ∈ settingKeys ∧
      spellings ≠ strategyKeys ∧ "strategy" ∉ spellings := by decide
  obtain ⟨field, setting, apart, foreign⟩ := known spellings listed
  have sole : Unspelled strategyKeys (before ++ after) := by
    intro key member
    cases List.mem_singleton.1 member
    exact none _ List.mem_cons_self
  have absent : Unspelled spellings (front ++ back) := by
    intro key member present
    rw [← place, Table.keys, List.map_append, List.map_cons, List.mem_append, List.mem_cons] at present
    have others := none key (List.mem_cons_of_mem _ member)
    rw [Table.keys, List.map_append, List.mem_append, not_or] at others
    rcases present with first | own | last
    · exact others.1 first
    · cases own
      exact foreign member
    · exact others.2 last
  have strategy (u : Value) : Extends allKeys strategyKeys u ⟨before ++ (.str "strategy", u) :: after⟩
      ⟨before ++ after⟩ := extends_sole (by decide) (by decide) List.mem_cons_self sole
  have first := strategy v
  have second := strategy w
  have added : Extends allKeys spellings x ⟨front ++ (.str key', x) :: back⟩ _ :=
    place ▸ extends_sole (by decide) field new absent
  refine ⟨_, _, _, {
    taken := extends_sole (by decide) listed old once
    before := ⟨_, first.given, opened⟩
    after := ⟨_, (added.others strategyKeys (by decide) apart.symm).trans second.given, opened'⟩
    lacking := (first.others spellings field apart).trans ((second.others spellings field apart).symm.trans added.lacking)
    added := added.given
    others := fun other member apart' => ?_
    bases := (base_extends (by decide) first).trans
      ((base_extends (by decide) second).symm.trans (base_extends setting added).symm) }⟩
  obtain ⟨field', _, apart, _⟩ := known other member
  rw [first.others other field' apart, ← second.others other field' apart, added.others other field' apart']

theorem Relocated.strategies {spellings : List String} {x : Value} {inner outer : Mapping} {a b : Record}
    (relocated : Relocated spellings x inner outer a b) :
    (a.field strategyKeys none (asOptional (asRecord "StrategyDoc" StrategyEntry.check))).accepted =
        some <$> (StrategyEntry.check ⟨inner⟩).accepted ∧
      (b.field strategyKeys none (asOptional (asRecord "StrategyDoc" StrategyEntry.check))).accepted =
        some <$> (StrategyEntry.check ⟨outer⟩).accepted := by
  obtain ⟨v, given, opened⟩ := relocated.before
  obtain ⟨w, given', opened'⟩ := relocated.after
  rw [Record.accepted_field, Record.accepted_field, given, given']
  exact ⟨(accepted_asOptional _ opened).trans (congrArg _ (accepted_asRecord _ _ opened)),
    (accepted_asOptional _ opened').trans (congrArg _ (accepted_asRecord _ _ opened'))⟩

/-- Of the two settings that may stand under the strategy, one is moved and the other one stays. -/
theorem moved_setting {spellings other : List String}
    (both : (spellings, other) ∈ [(matrixKeys, failFastKeys), (failFastKeys, matrixKeys)]) {a b : Mapping}
    (moved : Moved spellings a b) : (check ⟨a⟩).accepted.map declared = (check ⟨b⟩).accepted.map declared := by
  have known : ∀ pair ∈ [(matrixKeys, failFastKeys), (failFastKeys, matrixKeys)], pair.1 ∈ strategyFields ∧
      pair.2 ∈ strategyFields ∧ pair.2 ≠ pair.1 := by decide
  obtain ⟨listed, beside, apart⟩ := known _ both
  obtain ⟨x, inner, outer, relocated⟩ := relocated listed moved
  have outside := relocated.others other beside apart
  have inside := relocated.taken.others other beside apart
  obtain ⟨first, second⟩ := relocated.strategies
  rw [declared_check, declared_check, relocated.bases, outlook, outlook, settings, settings, first, second,
    StrategyEntry.accepted_check, StrategyEntry.accepted_check]
  rcases List.mem_pair.1 both with same | same
  all_goals
    cases same
    simp only [Record.accepted_field, Record.accepted_closed, relocated.lacking, outside, inside, relocated.added,
      relocated.taken.given, relocated.taken.lacking, relocated.taken.closed, Option.elim_some, Option.elim_none]
  · rw [outlook_matrix]
  · rw [outlook_failFast]

/-- A setting that is dropped comes to nothing. -/
theorem outlook_dropped {spellings : List String} {v : Value} {r s : Record} (longer : Extends allKeys spellings v r s)
    (nothing : v = .null ∨ spellings = strategyKeys ∧ v.opened = .map []) : outlook r = outlook s := by
  unfold outlook settings
  rcases nothing with rfl | ⟨rfl, opened⟩
  · have field {α : Type} (check : Value → Checked (Option α)) (other : List String) (member : other ∈ allKeys)
        (null : (check .null).accepted = some none) :
        (r.field other none check).accepted = (s.field other none check).accepted := by
      rw [Record.accepted_field, Record.accepted_field]
      by_cases own : other = spellings
      · rw [own, longer.given, longer.lacking]
        exact null
      · rw [longer.others other member own]
    rw [field (asOptional (asRecord "StrategyDoc" StrategyEntry.check)) _ (by decide) rfl,
      field (asOptional asFields) _ (by decide) rfl, field (asOptional asBoolean) _ (by decide) rfl]
  · simp only [Record.accepted_field, longer.given, longer.lacking, longer.others matrixKeys (by decide) (by decide),
      longer.others failFastKeys (by decide) (by decide), Option.elim_some, Option.elim_none,
      accepted_asOptional _ opened, accepted_asRecord _ _ opened]
    cases (s.given? matrixKeys).elim (some none) fun v => (asOptional asFields v).accepted with
    | none => rfl
    | some matrix =>
      cases (s.given? failFastKeys).elim (some none) fun v => (asOptional asBoolean v).accepted with
      | none => rfl
      | some failFast => rfl

theorem dropped_setting {spellings : List String} (listed : spellings ∈ settingKeys) {v : Value} {r s : Record}
    (longer : Extends allKeys spellings v r s)
    (nothing : v = .null ∨ spellings = strategyKeys ∧ v.opened = .map []) :
    (check r).accepted.map declared = (check s).accepted.map declared := by
  rw [declared_check, declared_check, base_extends listed longer, outlook_dropped longer nothing]

theorem declared_changed {a b : Mapping} (changed : StageChange a b) :
    (check ⟨a⟩).accepted.map declared = (check ⟨b⟩).accepted.map declared := by
  cases changed with
  | part changed => rw [accepted_part changed]
  | matrix moved => exact moved_setting (.head _) moved
  | failFast moved => exact moved_setting (.tail _ (.head _)) moved
  | dropped dropped =>
    cases dropped with
    | strategy front back opened once =>
      exact dropped_setting (.head _) (extends_sole (by decide) (by decide) List.mem_cons_self once) (Or.inr ⟨rfl, opened⟩)
    | field front back listed member once =>
      have known : ∀ spellings ∈ [matrixKeys, failFastKeys], spellings ∈ allKeys := by decide
      exact dropped_setting (.tail _ listed) (extends_sole (by decide) (known _ listed) member once) (Or.inl rfl)

end StageEntry
end Conveyor.Document

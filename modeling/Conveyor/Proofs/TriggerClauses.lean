import Conveyor.Proofs.ConditionEvaluation
import Conveyor.Proofs.ConditionPrinting

/-! What starts a run. A clause fires on a pull request by its target and on a push by the reference, whose kind decides
which of its lists count. Everything else about a list of clauses follows from what one clause does. -/

namespace Conveyor

def RefKind.other : RefKind → RefKind
  | .branch => .tag
  | .tag => .branch

/-- The branch that a pull request is for: its base, if it has one. -/
inductive Context.Targets (c : Context) : String → Prop
  | base {name : String} (given : c.baseRef = some name) (named : name ≠ "") : Targets c name
  | ref (absent : ∀ name ∈ c.baseRef, name = "") : Targets c c.refName

namespace Trigger

/-- The patterns that a clause includes and ignores for one kind of reference. -/
def lists (t : Trigger) : RefKind → Option (List String) × Option (List String)
  | .branch => (t.branches, t.branchesIgnore)
  | .tag => (t.tags, t.tagsIgnore)

def Filters (t : Trigger) (kind : RefKind) : Prop := t.lists kind ≠ (none, none)

/-- One of the included patterns matches, unless they are left out, and none of the ignored ones does. -/
structure Passes (value : String) (filter : Option (List String) × Option (List String)) : Prop where
  included : ∀ patterns ∈ filter.1, ∃ pattern ∈ patterns, globMatches pattern value = true
  ignored : ∀ patterns ∈ filter.2, ∀ pattern ∈ patterns, globMatches pattern value = false

inductive Fires (t : Trigger) (c : Context) : Prop
  | pullRequest {target : String} (clause : t.event = "pull_request") (event : c.event = .pullRequest)
      (aimed : c.Targets target) (passes : Passes target (t.lists .branch))
  | push (clause : t.event = "push") (event : c.event = .push ∨ c.event = .tagPush)
      (passes : Passes c.refName (t.lists c.kind)) (meant : t.Filters c.kind ∨ ¬ t.Filters c.kind.other)

/-- The clause with what it says of branches said of tags, and the other way round. -/
def mirrored (t : Trigger) : Trigger where
  event := t.event
  branches := t.tags
  tags := t.branches
  branchesIgnore := t.tagsIgnore
  tagsIgnore := t.branchesIgnore

end Trigger

/-! ### The event as a condition sees it -/

namespace Condition

/-- The test whether a variable is a text, with a blank on either side of the operator. -/
def equation (name text : String) : List Char :=
  name.toList ++ ([' '] ++ (['=', '='] ++ ([' '] ++ ('\x27' :: Token.doubled text.toList ++ ['\x27'] ++ []))))

theorem parse_equation {expression name text : String} (spelled : expression.toList = equation name text)
    (named : (Expr.variable name).WellNamed) : parse expression = .ok (.equal (.variable name) (.text text)) := by
  have printed := Prints.join .equal (.named name) (.single text)
  obtain ⟨d, tree, written⟩ := printed.derives (by simpa [Expr.WellNamed, Expr.names] using named)
  have blank (gap : List Char) (blanks : gap.all Text.isBlank = true) : Token.Blanks gap := List.all_eq_true.1 blanks
  have spaced :
      Token.Spaced [name.toList, ['=', '='], '\x27' :: Token.doubled text.toList ++ ['\x27']] (equation name text) :=
    .next (blank [] rfl) (.next (blank [' '] rfl) (.next (blank [' '] rfl) (.ended (blank [] rfl))))
  rw [← tree]
  exact d.parse_laid written (.bare (spelled ▸ spaced))

theorem evaluate_equation {expression name text found : String} {bindings : Fields}
    (spelled : expression.toList = equation name text) (named : (Expr.variable name).WellNamed)
    (bound : bindings.get? name = some (.str found)) : evaluate expression bindings = .ok (found == text) := by
  have yields := Expr.Yields.equal (.named bound (by simp)) (.text text)
  exact evaluate_ok_iff.2 ⟨_, _, parse_equation spelled named, yields, by simp [Value.same, Value.alike, Value.truthy]⟩

theorem wellNamed_variable {name : String} (written : Token.IsName name.toList)
    (unreserved : name ≠ "true" ∧ name ≠ "false") : (Expr.variable name).WellNamed := by
  intro other member
  cases List.mem_singleton.1 member
  exact ⟨written, unreserved⟩

end Condition

namespace Trigger

theorem evaluate_pullRequest (c : Context) :
    Condition.evaluate isPullRequest c.bindings = .ok (c.event == .pullRequest) := by
  have named : (Condition.Expr.variable "event").WellNamed :=
    Condition.wellNamed_variable (Condition.Token.isName_cons (by decide) (by decide)) (by decide)
  have spelled : isPullRequest.toList = Condition.equation "event" "pull_request" := by decide +kernel
  rw [Condition.evaluate_equation spelled named rfl]
  cases c.event <;> rfl

theorem evaluate_push (c : Context) :
    Condition.evaluate isPush c.bindings = .ok (c.event == .push || c.event == .tagPush) := by
  have named : (Condition.Expr.variable "github.event_name").WellNamed :=
    Condition.wellNamed_variable (Condition.Token.isName_cons (by decide) (by decide)) (by decide)
  have spelled : isPush.toList = Condition.equation "github.event_name" "push" := by decide +kernel
  rw [Condition.evaluate_equation spelled named rfl]
  cases c.event <;> rfl

@[simp] theorem holds_pullRequest (c : Context) : holds isPullRequest c = (c.event == .pullRequest) := by
  rw [holds, evaluate_pullRequest]

@[simp] theorem holds_push (c : Context) : holds isPush c = (c.event == .push || c.event == .tagPush) := by
  rw [holds, evaluate_push]

theorem holds_push_iff {c : Context} : holds isPush c = true ↔ c.event ≠ .pullRequest := by
  rw [holds_push]
  cases c.event <;> decide

/-! ### One clause -/

theorem matchesAny_iff {value : String} {patterns : Option (List String)} :
    matchesAny value patterns = true ↔ ∃ list ∈ patterns, ∃ pattern ∈ list, globMatches pattern value = true := by
  cases patterns with
  | none => simp [matchesAny]
  | some list => simp [matchesAny]

theorem passes_iff {value : String} {included ignored : Option (List String)} :
    passes value included ignored = true ↔ Passes value (included, ignored) := by
  have listed : (included.isNone || matchesAny value included) = true ↔
      ∀ patterns ∈ included, ∃ pattern ∈ patterns, globMatches pattern value = true := by
    cases included with
    | none => simp
    | some list => simp [matchesAny_iff]
  have free : (!matchesAny value ignored) = true ↔
      ∀ patterns ∈ ignored, ∀ pattern ∈ patterns, globMatches pattern value = false := by
    rw [Bool.not_eq_true', ← Bool.not_eq_true, matchesAny_iff]
    simp
  rw [passes, Bool.and_eq_true, listed, free]
  exact ⟨fun both => ⟨both.1, both.2⟩, fun filter => ⟨filter.included, filter.ignored⟩⟩

variable {c : Context} {t : Trigger}

theorem targets_iff {name : String} : c.Targets name ↔ name = target c := by
  have aimed : c.Targets (target c) := by
    unfold target
    split
    next absent => exact .ref (by simp [absent])
    next base given =>
      split
      next empty => exact .ref (by simp [given, empty])
      next named => exact .base given named
  constructor
  · intro found
    cases found with
    | base given named => simp [target, given, named]
    | ref absent => cases given : c.baseRef <;> simp_all [target]
  · rintro rfl
    exact aimed

theorem filtersBranches_iff : t.filtersBranches = true ↔ t.Filters .branch := by
  simp [filtersBranches, Filters, lists, Option.isSome_iff_ne_none, ← not_and_or]

theorem filtersTags_iff : t.filtersTags = true ↔ t.Filters .tag := by
  simp [filtersTags, Filters, lists, Option.isSome_iff_ne_none, ← not_and_or]

theorem accepts_pullRequest (clause : t.event = Event.pullRequest.name) :
    t.accepts c = true ↔ c.event = .pullRequest ∧ Passes (target c) (t.lists .branch) := by
  rw [accepts, if_pos clause, holds_pullRequest, Bool.and_eq_true, beq_iff_eq, passes_iff]
  rfl

theorem accepts_push (clause : t.event = Event.push.name) (event : c.event ≠ .pullRequest) :
    t.accepts c = true ↔ (t.Filters c.kind ∨ ¬ t.Filters c.kind.other) ∧ Passes c.refName (t.lists c.kind) := by
  have pushed : ¬ (t.event ≠ Event.push.name ∨ (!holds isPush c) = true) := by
    rw [Bool.not_eq_true', ← Bool.not_eq_true, holds_push_iff, not_or, not_not, not_not]
    exact ⟨clause, event⟩
  rw [accepts, if_neg (by rw [clause]; decide), if_neg pushed]
  cases c.kind with
  | branch => simp [passes_iff, filtersBranches_iff, ← filtersTags_iff, RefKind.other, lists]
  | tag => simp [passes_iff, filtersTags_iff, ← filtersBranches_iff, RefKind.other, lists]

theorem accepts_iff : t.accepts c = true ↔ t.Fires c := by
  constructor
  · intro accepted
    by_cases clause : t.event = Event.pullRequest.name
    · obtain ⟨event, passes⟩ := (accepts_pullRequest clause).1 accepted
      exact .pullRequest clause event (targets_iff.2 rfl) passes
    · -- No clause for anything but a push is left, and no pull request passes one.
      have pushed : t.event = Event.push.name ∧ c.event ≠ .pullRequest := by
        by_contra other
        have refused : t.event ≠ Event.push.name ∨ (!holds isPush c) = true := by
          rwa [Bool.not_eq_true', ← Bool.not_eq_true, holds_push_iff, ← not_and_or]
        rw [accepts, if_neg clause, if_pos refused] at accepted
        cases accepted
      obtain ⟨meant, passes⟩ := (accepts_push pushed.1 pushed.2).1 accepted
      have event : c.event = .push ∨ c.event = .tagPush := by
        cases kind : c.event with
        | push => exact .inl rfl
        | tagPush => exact .inr rfl
        | pullRequest => exact (pushed.2 kind).elim
      exact .push pushed.1 event passes meant
  · intro fires
    cases fires with
    | pullRequest clause event aimed passes =>
      exact (accepts_pullRequest clause).2 ⟨event, targets_iff.1 aimed ▸ passes⟩
    | push clause event passes meant =>
      have pushed : c.event ≠ .pullRequest := by rcases event with event | event <;> simp [event]
      exact (accepts_push clause pushed).2 ⟨meant, passes⟩

theorem lists_mirrored (t : Trigger) (kind : RefKind) : t.mirrored.lists kind = t.lists kind.other := by
  cases kind <;> rfl

theorem other_other (kind : RefKind) : kind.other.other = kind := by cases kind <;> rfl

/-- On a push a clause looks at the lists for the kind of the reference first, whichever it is. -/
theorem accepts_mirrored (t : Trigger) {c' : Context} (event : c.event ≠ .pullRequest)
    (event' : c'.event ≠ .pullRequest) (name : c'.refName = c.refName) (kind : c'.kind = c.kind.other) :
    t.mirrored.accepts c' = t.accepts c := by
  have clause : t.mirrored.event = t.event := rfl
  by_cases pushed : t.event = "push"
  · rw [Bool.eq_iff_iff, accepts_push pushed event, accepts_push (clause.trans pushed) event', name, kind]
    simp only [Filters, lists_mirrored, other_other]
  · have quiet {t : Trigger} {c : Context} (other : t.event ≠ "push") (event : c.event ≠ .pullRequest) :
        t.accepts c = false := by
      rw [← Bool.not_eq_true, accepts_iff]
      rintro (⟨_, pulled, _, _⟩ | ⟨clause, _, _, _⟩)
      · exact event pulled
      · exact other clause
    rw [quiet pushed event, quiet (clause ▸ pushed) event']

/-! ### Any clause -/

theorem anyAccepts_iff {triggers : List Trigger} {c : Context} :
    anyAccepts triggers c = true ↔ ∃ t ∈ triggers, t.Fires c := by
  simp only [anyAccepts, List.any_eq_true, accepts_iff]

/-- A clause without patterns fires on every push. -/
theorem anyAccepts_unfiltered {c : Context} (event : c.event ≠ .pullRequest) :
    anyAccepts [{ event := "push" }] c = true := by
  have accepted : accepts { event := "push" } c = true := by
    refine (accepts_push rfl event).2 ⟨Or.inr ?_, ?_, ?_⟩
    all_goals cases c.kind <;> simp [Filters, lists, RefKind.other]
  simp [anyAccepts, accepted]

theorem anyAccepts_mono {triggers more : List Trigger} {c : Context} (subset : triggers ⊆ more)
    (accepted : anyAccepts triggers c = true) : anyAccepts more c = true := by
  obtain ⟨t, member, fires⟩ := anyAccepts_iff.1 accepted
  exact anyAccepts_iff.2 ⟨t, subset member, fires⟩

theorem matching_ne_nil_iff {triggers : List Trigger} {c : Context} :
    matching triggers c ≠ [] ↔ anyAccepts triggers c = true := by
  simp [matching, anyAccepts, List.filter_eq_nil_iff]

/-- A pipeline starts exactly if a clause fires, wherever it stands and whatever stands beside it. What holds of branches
holds of tags, and the two tests of the event are the conditions on it. -/
theorem starts_iff_fires (triggers : List Trigger) (c : Context) :
    (anyAccepts triggers c = true ↔ ∃ t ∈ triggers, t.Fires c) ∧
      (∀ others : List Trigger, others.Perm triggers → anyAccepts others c = anyAccepts triggers c) ∧
      (∀ before after t, triggers = before ++ after → anyAccepts triggers c = true →
        anyAccepts (before ++ t :: after) c = true) ∧
      (matching triggers c ≠ [] ↔ anyAccepts triggers c = true) ∧
      (∀ c' : Context, c.event ≠ .pullRequest → c'.event ≠ .pullRequest → c'.refName = c.refName →
        c'.kind = c.kind.other → anyAccepts (triggers.map mirrored) c' = anyAccepts triggers c) ∧
      Condition.evaluate "event == 'pull_request'" c.bindings = .ok (c.event == .pullRequest) ∧
      Condition.evaluate "github.event_name == 'push'" c.bindings = .ok (c.event == .push || c.event == .tagPush) := by
  refine ⟨anyAccepts_iff, ?_, ?_, matching_ne_nil_iff, ?_, evaluate_pullRequest c, evaluate_push c⟩
  · intro others same
    rw [Bool.eq_iff_iff, anyAccepts_iff, anyAccepts_iff]
    simp only [same.mem_iff]
  · rintro before after t rfl
    exact anyAccepts_mono (List.append_subset.2 ⟨List.subset_append_left _ _, fun _ member => by simp [member]⟩)
  · intro c' event event' name kind
    rw [anyAccepts, anyAccepts, List.any_map]
    exact congrArg triggers.any (funext fun t => accepts_mirrored t event event' name kind)

/-- Nothing but finished versions, and no pull request at all. -/
def versions : List Trigger :=
  [{ event := "pull_request", branches := some [] }, { event := "push", tags := some ["v*"], tagsIgnore := some ["*-rc"] }]

theorem versions_start : (∃ t ∈ versions, t.Fires ⟨.tagPush, "v1.2", .tag, none, none, none, fun _ => rfl⟩) ∧
    anyAccepts (versions.map mirrored) ⟨.push, "v1.2", .branch, none, none, none, by decide⟩ = true := by
  obtain ⟨fires, -, -, -, mirror, -, -⟩ :=
    starts_iff_fires versions ⟨.tagPush, "v1.2", .tag, none, none, none, fun _ => rfl⟩
  have accepted : anyAccepts versions ⟨.tagPush, "v1.2", .tag, none, none, none, fun _ => rfl⟩ = true := by
    simp only [anyAccepts, accepts, holds_pullRequest, holds_push]
    decide +kernel
  refine ⟨fires.1 accepted, ?_⟩
  rw [mirror ⟨.push, "v1.2", .branch, none, none, none, by decide⟩ (by decide) (by decide) rfl rfl]
  exact accepted

end Trigger
end Conveyor

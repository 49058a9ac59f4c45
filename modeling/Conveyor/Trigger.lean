import Conveyor.Condition.Eval

/-! Trigger clauses: which events start a pipeline. Without a matching clause nothing runs. -/

namespace Conveyor

/-- One clause: an event and patterns for the branch or tag. An absent list filters nothing. -/
structure Trigger where
  event : String
  branches : Option (List String) := none
  tags : Option (List String) := none
  branchesIgnore : Option (List String) := none
  tagsIgnore : Option (List String) := none
  deriving DecidableEq, Repr, Inhabited

namespace Trigger

def events : List String := [Event.push.name, Event.pullRequest.name]

def matchesAny (value : String) (patterns : Option (List String)) : Bool :=
  (patterns.getD []).any fun pattern => globMatches pattern value

def passes (value : String) (included ignored : Option (List String)) : Bool :=
  (included.isNone || matchesAny value included) && !matchesAny value ignored

def filtersBranches (t : Trigger) : Bool := t.branches.isSome || t.branchesIgnore.isSome

def filtersTags (t : Trigger) : Bool := t.tags.isSome || t.tagsIgnore.isSome

def target (c : Context) : String :=
  match c.baseRef with
  | none => c.refName
  | some base => if base = "" then c.refName else base

def isPullRequest : String := "event == 'pull_request'"

def isPush : String := "github.event_name == 'push'"

/-- Whether a condition is met by an event; one that cannot be evaluated is not. -/
def holds (condition : String) (c : Context) : Bool :=
  match Condition.evaluate condition c.bindings with
  | .ok met => met
  | .error _ => false

/-- Whether a clause matches an event. A push clause covers tags as well; one that filters only the
other kind of reference never matches. -/
def accepts (t : Trigger) (c : Context) : Bool :=
  if t.event = Event.pullRequest.name then
    holds isPullRequest c && passes (target c) t.branches t.branchesIgnore
  else if t.event ≠ Event.push.name ∨ !holds isPush c then false
  else
    match c.kind with
    | .tag => (t.filtersTags || !t.filtersBranches) && passes c.refName t.tags t.tagsIgnore
    | .branch =>
      (t.filtersBranches || !t.filtersTags) && passes c.refName t.branches t.branchesIgnore

def anyAccepts (triggers : List Trigger) (c : Context) : Bool := triggers.any (·.accepts c)

def matching (triggers : List Trigger) (c : Context) : List Trigger :=
  triggers.filter (·.accepts c)

end Trigger
end Conveyor

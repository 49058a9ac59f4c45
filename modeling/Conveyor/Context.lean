import Conveyor.Text.Quoted
import Conveyor.Text.Split
import Conveyor.Value.Basic

/-! The event that triggers a run: what happened, on which branch or tag, and by whom. -/

namespace Conveyor

inductive Event where
  | push
  | pullRequest
  | tagPush
  deriving DecidableEq, Repr, Inhabited

def Event.name : Event → String
  | .push => "push"
  | .pullRequest => "pull_request"
  | .tagPush => "tag_push"

def Event.all : List Event := [.push, .pullRequest, .tagPush]

def Event.ofName? (s : String) : Option Event := Event.all.find? (·.name == s)

inductive RefKind where
  | branch
  | tag
  deriving DecidableEq, Repr, Inhabited

def RefKind.name : RefKind → String
  | .branch => "branch"
  | .tag => "tag"

def RefKind.all : List RefKind := [.branch, .tag]

def RefKind.ofName? (s : String) : Option RefKind := RefKind.all.find? (·.name == s)

def RefKind.start : RefKind → String
  | .branch => "refs/heads/"
  | .tag => "refs/tags/"

/-- The facts about the event that triggered a run. A pushed tag is always a tag. -/
structure Context where
  event : Event
  refName : String
  kind : RefKind := .branch
  actor : Option String := none
  baseRef : Option String := none
  sha : Option String := none
  tagged : event = .tagPush → kind = .tag := by decide
  deriving DecidableEq, Repr

inductive ContextFault where
  | unknownEvent (name : String)
  | unknownKind (name : String)
  | untaggedTagPush
  deriving DecidableEq, Repr

def ContextFault.message : ContextFault → String
  | .unknownEvent name =>
    "Unknown event " ++ Text.quoted name ++ ". Expected one of " ++
      Text.quotedList (Event.all.map Event.name)
  | .unknownKind name =>
    "Unknown ref kind " ++ Text.quoted name ++ ". Expected one of " ++
      Text.quotedList (RefKind.all.map RefKind.name)
  | .untaggedTagPush => "tag_push events must carry a tag ref"

namespace Context

def make (event refName kind : String) (actor baseRef sha : Option String) :
    Except ContextFault Context :=
  match Event.ofName? event, RefKind.ofName? kind with
  | none, _ => .error (.unknownEvent event)
  | some _, none => .error (.unknownKind kind)
  | some event, some kind =>
    if tagged : event = .tagPush → kind = .tag then
      .ok { event, refName, kind, actor, baseRef, sha, tagged }
    else .error .untaggedTagPush

/-- Splits a full reference into its kind and name; any other text names a branch. -/
def splitRef (ref : String) : RefKind × String :=
  match Text.dropStart? RefKind.tag.start.toList ref.toList with
  | some name => (.tag, String.ofList name)
  | none =>
    match Text.dropStart? RefKind.branch.start.toList ref.toList with
    | some name => (.branch, String.ofList name)
    | none => (.branch, ref)

def ofRef (event ref : String) (actor baseRef sha : Option String) :
    Except ContextFault Context :=
  let (kind, name) := splitRef ref
  let event := if event = Event.push.name ∧ kind = .tag then Event.tagPush.name else event
  make event name kind.name actor baseRef sha

def ref (c : Context) : String := c.kind.start ++ c.refName

def optionalText : Option String → Value
  | some s => .str s
  | none => .null

def bindings (c : Context) : Fields :=
  let plainEvent := if c.event = .tagPush then Event.push else c.event
  [ ("event", .str c.event.name),
    ("ref", .str c.ref),
    ("ref_name", .str c.refName),
    ("ref_kind", .str c.kind.name),
    ("actor", optionalText c.actor),
    ("base_ref", optionalText c.baseRef),
    ("sha", optionalText c.sha),
    ("github.event_name", .str plainEvent.name),
    ("github.ref", .str c.ref),
    ("github.ref_name", .str c.refName),
    ("github.ref_type", .str c.kind.name),
    ("github.actor", optionalText c.actor),
    ("github.base_ref", optionalText c.baseRef),
    ("github.sha", optionalText c.sha) ]

def knownVariables : List String :=
  [ "event", "ref", "ref_name", "ref_kind", "actor", "base_ref", "sha", "github.event_name",
    "github.ref", "github.ref_name", "github.ref_type", "github.actor", "github.base_ref",
    "github.sha" ]

def quotedOptional : Option String → String
  | some s => Text.quoted s
  | none => "None"

def describe (c : Context) : String :=
  "RunContext(event=" ++ Text.quoted c.event.name ++ ", ref_name=" ++ Text.quoted c.refName ++
    ", ref_kind=" ++ Text.quoted c.kind.name ++ ", actor=" ++ quotedOptional c.actor ++
    ", base_ref=" ++ quotedOptional c.baseRef ++ ", sha=" ++ quotedOptional c.sha ++ ")"

end Context
end Conveyor

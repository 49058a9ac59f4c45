import Conveyor.Checkout
import Conveyor.CommandLine.Arguments
import Conveyor.Console.Notice
import Conveyor.Number.Text

/-! The commands and their options. -/

namespace Conveyor.CommandLine

inductive Verb where
  | run
  | validate
  | plan
  deriving DecidableEq, Repr

def Verb.ofName? : String → Option Verb
  | "run" => some .run
  | "validate" => some .validate
  | "plan" => some .plan
  | _ => none

/-! ### Events -/

structure EventOptions where
  event : Option String := none
  ref : Option String := none
  refKind : Option String := none
  actor : Option String := none
  baseRef : Option String := none
  sha : Option String := none
  deriving DecidableEq, Repr

inductive EventFault where
  | refMissing
  | checkout (f : CheckoutFault)
  | context (f : ContextFault)
  deriving DecidableEq, Repr

def EventFault.message : EventFault → String
  | .refMissing => "--event pull_request needs --ref (the PR head branch)"
  | .checkout f => f.message
  | .context f => f.message

def filled (s : Option String) : Option String := s.filter (· ≠ "")

namespace EventOptions

def fullRef (o : EventOptions) (ref : String) : String :=
  if ref.startsWith "refs/" then ref
  else if o.refKind = some RefKind.tag.name ∨ o.event = some Event.tagPush.name then
    RefKind.tag.start ++ ref
  else RefKind.branch.start ++ ref

/-- The event that the options describe; without a reference it is that of the checkout. -/
def context (o : EventOptions) (checkout : Checkout) : Except EventFault Context :=
  match o.ref with
  | some ref =>
    (Context.ofRef ((filled o.event).getD Event.push.name) (o.fullRef ref) o.actor o.baseRef
      o.sha).mapError .context
  | none =>
    if o.event = some Event.pullRequest.name then .error .refMissing
    else
      match checkout.event true with
      | .ok c => .ok { c with actor := filled o.actor <|> c.actor, sha := filled o.sha <|> c.sha }
      | .error f => .error (.checkout f)

end EventOptions

/-! ### Options -/

structure Options where
  pipeline : Option String := none
  event : EventOptions := {}
  stubActions : Bool := false
  workers : Option Int := none
  timeout : Option Double := none
  workspace : String := "."
  artifactDir : Option String := none
  keepArtifacts : Bool := true
  report : Option String := none
  deriving DecidableEq, Repr

def eventOptionNames : List String :=
  ["--event", "--ref", "--ref-kind", "--actor", "--base-ref", "--sha"]

def runOptionNames : List String :=
  ["--workers", "--timeout", "--workspace", "--artifact-dir", "--report"]

def Verb.arity (verb : Verb) (name : String) : Option Arity :=
  if name = "--pipeline" then some .valued
  else if name = "--stub-actions" then some .flag
  else if eventOptionNames.contains name then if verb = .validate then none else some .valued
  else if verb ≠ .run then none
  else if runOptionNames.contains name then some .valued
  else if name = "--keep-artifacts" ∨ name = "--discard-artifacts" then some .flag
  else none

def Options.set (o : Options) (g : Given) : Option Options :=
  match g.name with
  | "--pipeline" => some { o with pipeline := some g.value }
  | "--stub-actions" => some { o with stubActions := true }
  | "--event" =>
    (Event.ofName? g.value).map fun _ => { o with event := { o.event with event := some g.value } }
  | "--ref" => some { o with event := { o.event with ref := some g.value } }
  | "--ref-kind" =>
    (RefKind.ofName? g.value).map fun _ =>
      { o with event := { o.event with refKind := some g.value } }
  | "--actor" => some { o with event := { o.event with actor := some g.value } }
  | "--base-ref" => some { o with event := { o.event with baseRef := some g.value } }
  | "--sha" => some { o with event := { o.event with sha := some g.value } }
  | "--workers" => (Number.readInt? g.value).map fun n => { o with workers := some n }
  | "--timeout" => (Number.readDouble? g.value).map fun d => { o with timeout := some d }
  | "--workspace" => some { o with workspace := g.value }
  | "--artifact-dir" => some { o with artifactDir := some g.value }
  | "--keep-artifacts" => some { o with keepArtifacts := true }
  | "--discard-artifacts" => some { o with keepArtifacts := false }
  | "--report" => some { o with report := some g.value }
  | _ => none

def Options.read? (verb : Verb) (words : List String) : Option Options := do
  let arguments ← Arguments.split verb.arity false words
  let options ← (Arguments.latest arguments.given).foldlM Options.set {}
  if arguments.rest.isEmpty then some options else none

/-! ### The words before the command -/

structure Invocation where
  verbosity : Verbosity
  verb : Verb
  words : List String
  deriving DecidableEq, Repr

def leadingArity (name : String) : Option Arity :=
  if name = "--debug" ∨ name = "--quiet" then some .flag else none

def Invocation.read? (words : List String) : Option Invocation := do
  let arguments ← Arguments.split leadingArity true words
  let has := fun name => arguments.given.any (·.name == name)
  match arguments.rest with
  | [] => none
  | name :: words =>
    let verb ← Verb.ofName? name
    return { verbosity := { debug := has "--debug", quiet := has "--quiet" }, verb, words }

end Conveyor.CommandLine

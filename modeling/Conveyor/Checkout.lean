import Conveyor.Context
import Conveyor.Text.Blank
import Conveyor.Workspace.Path

/-! The state of a checkout, as the version control tool tells it, and the event that would start a
run for it. -/

namespace Conveyor

/-- What the version control tool prints, by its arguments. A command without an entry fails. -/
structure Checkout where
  answers : Table String String := []
  deriving Repr, Inhabited

inductive CheckoutFault where
  | failed (arguments : List String)
  | detached
  | context (f : ContextFault)
  deriving DecidableEq, Repr

def CheckoutFault.message : CheckoutFault → String
  | .failed arguments =>
    "Command '" ++ Text.quotedList ("git" :: arguments) ++ "' returned non-zero exit status 128."
  | .detached => "HEAD is detached and not tagged; pass --ref explicitly"
  | .context f => f.message

namespace Checkout

def ask (c : Checkout) (arguments : List String) : Except CheckoutFault String :=
  match c.answers.get? (" ".intercalate arguments) with
  | some text => .ok (Text.strip text)
  | none => .error (.failed arguments)

def root (c : Checkout) : Except CheckoutFault String := do
  return (Path.ofText (← c.ask ["rev-parse", "--show-toplevel"])).text

def sha (c : Checkout) : Except CheckoutFault String := c.ask ["rev-parse", "HEAD"]

def branch (c : Checkout) : Except CheckoutFault (Option String) := do
  let name ← c.ask ["rev-parse", "--abbrev-ref", "HEAD"]
  return if name = "HEAD" then none else some name

def tags (c : Checkout) : Except CheckoutFault (List String) := do
  return Text.sorted (Text.lines (← c.ask ["tag", "--points-at", "HEAD"]))

def userName (c : Checkout) : Option String :=
  match c.ask ["config", "user.name"] with
  | .ok name => if name = "" then none else some name
  | .error _ => none

/-- The event that would start a run: the push of the last tag of the commit, if tags are preferred
and there is one, or else of the branch. -/
def event (c : Checkout) (preferTag : Bool) : Except CheckoutFault Context := do
  let sha ← c.sha
  let tags ← if preferTag then c.tags else pure []
  let actor := c.userName
  match tags.getLast? with
  | some tag =>
    (Context.make Event.tagPush.name tag RefKind.tag.name actor none (some sha)).mapError .context
  | none =>
    match ← c.branch with
    | none => throw .detached
    | some branch =>
      (Context.make Event.push.name branch RefKind.branch.name actor none (some sha)).mapError
        .context

end Checkout
end Conveyor

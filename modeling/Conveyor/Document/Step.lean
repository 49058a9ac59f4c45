import Conveyor.Document.Checked
import Conveyor.Pipeline.Basic

/-! Steps and trigger clauses in documents. -/

namespace Conveyor.Document

open Checked

def envText : Value → Except Misuse String
  | .bool b => .ok (if b then "true" else "false")
  | v => textOf v

def envTexts : Fields → Except Misuse Fields
  | [] => .ok []
  | (k, v) :: rest => do
    let text ← envText v
    let others ← envTexts rest
    return (k, .str text) :: others

structure StepEntry where
  id : Option String
  name : String
  uses : Option String
  run : Option String
  params : Fields
  env : Fields
  workingDirectory : Option String
  deriving DecidableEq, Repr

def isGiven (s : Option String) : Bool := s.getD "" ≠ ""

namespace StepEntry

def idKeys : List String := ["id"]
def nameKeys : List String := ["name"]
def usesKeys : List String := ["uses"]
def runKeys : List String := ["run"]
def paramsKeys : List String := ["with", "params", "with_"]
def envKeys : List String := ["env"]
def directoryKeys : List String := ["working-directory", "working_directory", "cwd"]

def allKeys : List (List String) :=
  [idKeys, nameKeys, usesKeys, runKeys, paramsKeys, envKeys, directoryKeys]

def single (s : StepEntry) : Checked StepEntry :=
  if isGiven s.uses = isGiven s.run then refused "a step needs exactly one of 'uses' or 'run'"
  else .valid s

def check (r : Record) : Checked StepEntry :=
  (StepEntry.mk <$> r.field idKeys none (asOptional asText)
    <*> r.field nameKeys "" asText
    <*> r.field usesKeys none (asOptional asText)
    <*> r.field runKeys none (asOptional asText)
    <*> r.field paramsKeys [] asFields
    <*> r.field envKeys [] asFields
    <*> r.field directoryKeys none (asOptional asText)
    <* r.closed allKeys).andThen single

/-- The step that an entry declares. A command is a parameter of the shell executor. -/
def toStep (s : StepEntry) : Except Misuse Step := do
  let params :=
    match s.run with
    | some command => s.params.insert "command" (.str command)
    | none => s.params
  let params :=
    if isGiven s.workingDirectory then
      params.insert "cwd" (.str (s.workingDirectory.getD ""))
    else params
  let env ← envTexts s.env
  return { uses := if isGiven s.uses then s.uses.getD "" else "shell", name := s.name, params, env }

end StepEntry

/-- Patterns as a document gives them: a list, or a single one; everything is taken as text. -/
def asPatterns : Value → Checked (Option (List String))
  | .null => .valid none
  | v =>
    match iterate (wrapped v) with
    | .error misuse => .abandoned misuse
    | .ok values =>
      match values.mapM textOf with
      | .ok texts => .valid (some texts)
      | .error misuse => refused misuse.message

structure TriggerEntry where
  branches : Option (List String) := none
  tags : Option (List String) := none
  branchesIgnore : Option (List String) := none
  tagsIgnore : Option (List String) := none
  deriving DecidableEq, Repr

namespace TriggerEntry

def branchesKeys : List String := ["branches"]
def tagsKeys : List String := ["tags"]
def branchesIgnoreKeys : List String := ["branches-ignore", "branches_ignore"]
def tagsIgnoreKeys : List String := ["tags-ignore", "tags_ignore"]

def allKeys : List (List String) := [branchesKeys, tagsKeys, branchesIgnoreKeys, tagsIgnoreKeys]

def check (r : Record) : Checked TriggerEntry :=
  TriggerEntry.mk <$> r.field branchesKeys none asPatterns
    <*> r.field tagsKeys none asPatterns
    <*> r.field branchesIgnoreKeys none asPatterns
    <*> r.field tagsIgnoreKeys none asPatterns
    <* r.closed allKeys

def toTrigger (event : String) (t : TriggerEntry) : Trigger :=
  { event, branches := t.branches, tags := t.tags, branchesIgnore := t.branchesIgnore,
    tagsIgnore := t.tagsIgnore }

end TriggerEntry
end Conveyor.Document

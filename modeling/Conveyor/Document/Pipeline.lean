import Conveyor.Document.Stage

/-! Pipelines in documents. -/

namespace Conveyor.Document

open Checked

inductive TriggersEntry where
  | event (name : String)
  | events (names : List String)
  | filtered (clauses : Table String (Option TriggerEntry))
  deriving DecidableEq, Repr

namespace TriggersEntry

def problemsOf {α : Type} (name : String) (a : Checked α) : List Problem :=
  match a.under name with
  | .invalid problems => problems
  | _ => []

/-- One event, a list of events, or a mapping from events to filters. If none fits, the problems of
all three are listed. -/
def check (v : Value) : Checked TriggersEntry :=
  let one := asText v
  let many := asListOf asText v
  let filtered := asTableOf (asOptional (asRecord "TriggerDoc" TriggerEntry.check)) v
  match one, many, filtered with
  | .valid name, _, _ => .valid (.event name)
  | _, .valid names, _ => .valid (.events names)
  | _, _, .valid clauses => .valid (.filtered clauses)
  | _, _, .abandoned misuse => .abandoned misuse
  | _, _, _ =>
    .invalid (problemsOf "str" one ++ problemsOf "list[str]" many ++
      problemsOf "dict[str,nullable[TriggerDoc]]" filtered)

def toTriggers : TriggersEntry → List Trigger
  | .event name => [{ event := name }]
  | .events names => names.map fun name => { event := name }
  | .filtered clauses => clauses.map fun (name, entry) => (entry.getD {}).toTrigger name

end TriggersEntry

structure PipelineEntry where
  name : String
  triggers : TriggersEntry
  env : Fields
  stages : Table String StageEntry
  deriving DecidableEq, Repr

namespace PipelineEntry

def nameKeys : List String := ["name"]
def triggersKeys : List String := ["on", "triggers"]
def envKeys : List String := ["env"]
def stagesKeys : List String := ["stages", "jobs"]

def check (r : Record) : Checked PipelineEntry :=
  PipelineEntry.mk <$> r.field nameKeys "pipeline" asText
    <*> r.field triggersKeys (.filtered []) TriggersEntry.check
    <*> r.field envKeys [] asFields
    <*> r.required stagesKeys (asTableOf (asRecord "StageDoc" StageEntry.check))
    <* r.closed [nameKeys, triggersKeys, envKeys, stagesKeys]

def toPipeline (p : PipelineEntry) : Except Refusal Pipeline := do
  let stages ← p.stages.mapM fun (key, entry) => entry.toStage key
  let env ← (envTexts p.env).mapError Refusal.misuse
  return { name := p.name, stages, triggers := p.triggers.toTriggers, env }

end PipelineEntry

/-- A bare `on` is read as the boolean true; such a key counts as `on` if there is no other. -/
def restoreTriggers (entries : Mapping) : Mapping :=
  match entries.get? (.bool true) with
  | some v =>
    if entries.has (.str "on") then entries
    else (entries.erase (.bool true)).insert (.str "on") v
  | none => entries

def parsePipeline (source : String) (v : Value) : Except Refusal Pipeline :=
  match v.opened with
  | .map entries =>
    match PipelineEntry.check ⟨restoreTriggers entries⟩ with
    | .valid entry => entry.toPipeline
    | .invalid problems =>
      .error (.complaint ⟨source ++ ": invalid pipeline document", problems.map Problem.message⟩)
    | .abandoned misuse => .error (.misuse misuse)
  | _ =>
    .error (.complaint
      ⟨source ++ ": pipeline document must be a mapping, got " ++ v.kindName, []⟩)

end Conveyor.Document

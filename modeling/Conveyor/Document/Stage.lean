import Conveyor.Document.Step

/-! Stages in documents. A stage that does not say what it produces and consumes is taken to produce
what its upload steps publish and to consume what its download steps fetch. -/

namespace Conveyor.Document

open Checked

inductive Refusal where
  | complaint (c : Complaint)
  | misuse (m : Misuse)
  deriving DecidableEq, Repr

structure ConsumeEntry where
  stage : String
  name : String
  matrix : Option Fields
  deriving DecidableEq, Repr

namespace ConsumeEntry

def stageKeys : List String := ["stage"]
def nameKeys : List String := ["name"]
def matrixKeys : List String := ["matrix"]

def check (r : Record) : Checked ConsumeEntry :=
  ConsumeEntry.mk <$> r.required stageKeys asText
    <*> r.required nameKeys asText
    <*> r.field matrixKeys none (asOptional asFields)
    <* r.closed [stageKeys, nameKeys, matrixKeys]

def toRef (c : ConsumeEntry) : ArtifactRef :=
  let entries : Mapping := (c.matrix.getD []).map fun (k, v) => (.str k, v)
  { stage := c.stage, name := c.name, matrix := if entries.isEmpty then none else some entries }

end ConsumeEntry

structure StrategyEntry where
  failFast : Option Bool
  matrix : Option Fields
  deriving DecidableEq, Repr

def failFastKeys : List String := ["fail-fast", "fail_fast"]

def StrategyEntry.check (r : Record) : Checked StrategyEntry :=
  StrategyEntry.mk <$> r.field failFastKeys none (asOptional asBoolean)
    <*> r.field ["matrix"] none (asOptional asFields)
    <* r.closed [failFastKeys, ["matrix"]]

structure StageEntry where
  title : Option String
  needs : List String
  condition : Option String
  strategy : Option StrategyEntry
  matrix : Option Fields
  failFast : Option Bool
  timeout : Option Double
  timeoutMinutes : Option Double
  runsOn : Option String
  produces : Option (List String)
  consumes : Option (List ConsumeEntry)
  env : Fields
  steps : List StepEntry
  deriving DecidableEq, Repr

def asCondition : Value → Checked (Option String)
  | .bool b => .valid (some (if b then "true" else "false"))
  | v => asOptional asText v

def readReferences : List Value → Except String (List Value)
  | [] => .ok []
  | .str s :: rest =>
    match ArtifactRef.parse? s with
    | none => .error (ArtifactRef.malformed s)
    | some r => do
      let items ← readReferences rest
      return .map [(.str "stage", .str r.stage), (.str "name", .str r.name)] :: items
  | v :: rest => do
    let items ← readReferences rest
    return v :: items

def asConsumes : Value → Checked (Option (List ConsumeEntry))
  | .null => .valid none
  | v =>
    match iterate (wrapped v) with
    | .error misuse => .abandoned misuse
    | .ok values =>
      match readReferences values with
      | .error text => refused text
      | .ok values => (items (asRecord "ConsumeDoc" ConsumeEntry.check) values).map some

def asNames (v : Value) : Checked (List String) := asListOf asText (wrapped v)

namespace StageEntry

def titleKeys : List String := ["name"]
def needsKeys : List String := ["needs"]
def conditionKeys : List String := ["if", "condition", "if_"]
def strategyKeys : List String := ["strategy"]
def matrixKeys : List String := ["matrix"]
def timeoutKeys : List String := ["timeout"]
def timeoutMinutesKeys : List String := ["timeout-minutes", "timeout_minutes"]
def runsOnKeys : List String := ["runs-on", "runs_on"]
def producesKeys : List String := ["produces"]
def consumesKeys : List String := ["consumes"]
def envKeys : List String := ["env"]
def stepsKeys : List String := ["steps"]

def allKeys : List (List String) :=
  [titleKeys, needsKeys, conditionKeys, strategyKeys, matrixKeys, failFastKeys, timeoutKeys,
    timeoutMinutesKeys, runsOnKeys, producesKeys, consumesKeys, envKeys, stepsKeys]

def strategyMatrix (s : StageEntry) : Option Fields := s.strategy.bind (·.matrix)

/-- The matrix and the timeout may each be given in one way only. -/
def unambiguous (s : StageEntry) : Checked StageEntry :=
  if s.matrix.isSome ∧ s.strategyMatrix.isSome then
    refused "declare the matrix either at the top level or under 'strategy', not both"
  else if s.timeout.isSome ∧ s.timeoutMinutes.isSome then
    refused "use either 'timeout' (seconds) or 'timeout-minutes'"
  else .valid s

def check (r : Record) : Checked StageEntry :=
  (StageEntry.mk <$> r.field titleKeys none (asOptional asText)
    <*> r.field needsKeys [] asNames
    <*> r.field conditionKeys none asCondition
    <*> r.field strategyKeys none (asOptional (asRecord "StrategyDoc" StrategyEntry.check))
    <*> r.field matrixKeys none (asOptional asFields)
    <*> r.field failFastKeys none (asOptional asBoolean)
    <*> r.field timeoutKeys none (asOptional asNumber)
    <*> r.field timeoutMinutesKeys none (asOptional asNumber)
    <*> r.field runsOnKeys none (asOptional asText)
    <*> r.field producesKeys none (asOptional asNames)
    <*> r.field consumesKeys none asConsumes
    <*> r.field envKeys [] asFields
    <*> r.required stepsKeys (asListOf (asRecord "StepDoc" StepEntry.check))
    <* r.closed allKeys).andThen unambiguous

end StageEntry

def executorBase (uses : String) : String := Text.afterLast '/' (Text.before '@' uses)

def uploadName : String := "upload-artifact"

def downloadName : String := "download-artifact"

def givenParam? (s : Step) (name : String) : Option Value := (s.params.get? name).filter Value.truthy

def inferredProduces : List Step → Except Misuse (List String)
  | [] => .ok []
  | s :: rest =>
    match if executorBase s.uses = uploadName then givenParam? s "name" else none with
    | none => inferredProduces rest
    | some name => do
      let text ← textOf name
      let others ← inferredProduces rest
      return text :: others

/-- Whether two references are equal; none if the comparison of their filters has no end. -/
def sameRef (a b : ArtifactRef) : Option Bool :=
  if a.stage = b.stage ∧ a.name = b.name then
    match a.matrix, b.matrix with
    | none, none => some true
    | some m, some n => (Value.map m).equal? (.map n)
    | _, _ => some false
  else some false

def isKnown (ref : ArtifactRef) : List ArtifactRef → Except Misuse Bool
  | [] => .ok false
  | known :: rest =>
    match sameRef known ref with
    | none => .error .endless
    | some true => .ok true
    | some false => isKnown ref rest

def unknownProducer (stage : String) (needs : List String) (name : String) : Complaint :=
  ⟨s!"Stage '{stage}' downloads {name} without a 'stage' parameter",
    [s!"needs has {needs.length} stages; name the producer with 'stage' or declare 'consumes'"]⟩

/-- The stage that a download step fetches from: the one it names, or the single one that is
needed. -/
def producerOf (stage : String) (needs : List String) (s : Step) (name : Value) :
    Except Refusal Value :=
  match givenParam? s "stage", needs with
  | some producer, _ => .ok producer
  | none, [only] => .ok (.str only)
  | none, _ =>
    match quotedOf name with
    | .ok name => .error (.complaint (unknownProducer stage needs name))
    | .error misuse => .error (.misuse misuse)

def referenceTo (producer name : Value) (matrix : Option Value) : Except Misuse ArtifactRef := do
  let stage ← textOf producer
  let name ← textOf name
  match matrix with
  | none => return { stage, name, matrix := none }
  | some v =>
    let entries ← asMapping v
    return { stage, name, matrix := some entries }

def inferredRef (stage : String) (needs : List String) (s : Step) :
    Except Refusal (Option ArtifactRef) :=
  match if executorBase s.uses = downloadName then givenParam? s "name" else none with
  | none => .ok none
  | some name => do
    let producer ← producerOf stage needs s name
    let ref ← (referenceTo producer name (givenParam? s "matrix")).mapError Refusal.misuse
    return some ref

def inferredConsumes (stage : String) (needs : List String) :
    List Step → List ArtifactRef → Except Refusal (List ArtifactRef)
  | [], found => .ok found
  | s :: rest, found => do
    match ← inferredRef stage needs s with
    | none => inferredConsumes stage needs rest found
    | some ref =>
      if ← (isKnown ref found).mapError Refusal.misuse then inferredConsumes stage needs rest found
      else inferredConsumes stage needs rest (found ++ [ref])

def matrixComplaint {α : Type} (text : String) (v : Value) : Except Refusal α :=
  match quotedOf v with
  | .ok quoted => .error (.complaint ⟨text ++ ", got " ++ quoted, []⟩)
  | .error misuse => .error (.misuse misuse)

def axesOf : Fields → Except Refusal (Table String (List Value))
  | [] => .ok []
  | (axis, v) :: rest =>
    match v.opened with
    | .list values => do
      let axes ← axesOf rest
      return (axis, values) :: axes
    | _ => matrixComplaint s!"Matrix axis '{axis}' must be a list" v

def entriesOf : List Value → Except Refusal (List Mapping)
  | [] => .ok []
  | v :: rest =>
    match v.opened with
    | .map entries => do
      let others ← entriesOf rest
      return entries :: others
    | _ => matrixComplaint "Matrix include/exclude entries must be mappings" v

def entryValues (raw : Fields) (key : String) : Except Refusal (List Value) :=
  (iterate (wrapped ((raw.get? key).getD .null))).mapError Refusal.misuse

def matrixOf (raw : Fields) : Except Refusal Matrix := do
  let axes ← axesOf (raw.filter fun (k, _) => k ≠ "include" ∧ k ≠ "exclude")
  let includedValues ← entryValues raw "include"
  let excludedValues ← entryValues raw "exclude"
  let included ← entriesOf includedValues
  let excluded ← entriesOf excludedValues
  return { axes, included, excluded }

namespace StageEntry

def toMatrix (s : StageEntry) : Except Refusal (Option Matrix) :=
  match s.matrix <|> s.strategyMatrix with
  | none => .ok none
  | some raw => (matrixOf raw).map some

/-- Whether a failing job cancels its siblings: what the stage says, else its strategy. -/
def cancelsSiblings (s : StageEntry) : Bool :=
  (s.failFast <|> s.strategy.bind (·.failFast)).getD true

def seconds (s : StageEntry) : Option Double :=
  match s.timeoutMinutes with
  | some minutes => some (minutes.mul (.ofInt 60))
  | none => s.timeout

def toStage (key : String) (s : StageEntry) : Except Refusal Stage := do
  let steps ← (s.steps.mapM StepEntry.toStep).mapError Refusal.misuse
  let produces ←
    match s.produces with
    | some names => pure names
    | none => (inferredProduces steps).mapError Refusal.misuse
  let consumes ←
    match s.consumes with
    | some entries => pure (entries.map ConsumeEntry.toRef)
    | none => inferredConsumes key s.needs steps []
  let matrix ← s.toMatrix
  let env ← (envTexts s.env).mapError Refusal.misuse
  return { name := key, steps, needs := s.needs, matrix, condition := s.condition
           failFast := s.cancelsSiblings, timeout := s.seconds.map Number.float
           produces, consumes, env, runsOn := s.runsOn, title := s.title }

end StageEntry
end Conveyor.Document

import Conveyor.Executor.Registry
import Conveyor.Graph.Run

/-! Checking a pipeline before a run. All problems of a pipeline with a well-formed graph are listed
together. -/

namespace Conveyor.Validation

/-- Problems with the templates of a value: names that are unknown, or that only some combinations
give a value. -/
def templateProblems (subject : String) (names allowed : List String) (sometimes : List String) :
    List String :=
  (Text.sortedSet (names.filter fun name => !allowed.contains name)).map fun name =>
    if sometimes.contains name then
      subject ++ ": '" ++ name ++ "' is not set by every matrix combination"
    else subject ++ ": unknown template variable '" ++ name ++ "'"

def triggerProblems (triggers : List Trigger) : List String :=
  (triggers.filter fun t => !Trigger.events.contains t.event).map fun t =>
    "Unknown trigger event " ++ Text.quoted t.event ++ ". Expected one of " ++
      Text.quotedList Trigger.events

def subjectOf (s : Stage) : String := "Stage '" ++ s.name ++ "'"

def timeoutProblems (s : Stage) : Except ValueFault (List String) :=
  match s.timeout.filter Number.isNonPositive with
  | none => .ok []
  | some limit =>
    if limit.isUnwritable then .error .unwritable
    else .ok [subjectOf s ++ " timeout must be > 0, got " ++ limit.text]

/-- Whether a key that an included entry adds has no text, so that no variable can be named after it. -/
def hasUnwritableKey (s : Stage) : Bool :=
  (s.matrix.map (·.included)).getD [] |>.any fun entry => entry.keys.any Value.isUnwritable

/-- Problems with the matrix of a stage, and the template names that only some of its combinations
give a value. The keys are named whatever is wrong with the matrix. -/
def matrixProblems (s : Stage) : Except ValueFault (List String × List String) :=
  match s.combinations with
  | .error (.unusable f) => .error f
  | .error (.complaint c) =>
    if hasUnwritableKey s then .error .unwritable else .ok (c.message :: c.problems, [])
  | .ok combinations =>
    if hasUnwritableKey s then .error .unwritable
    else
    let common := (commonKeys combinations).map matrixVariable
    let all := combinations.flatMap fun c => c.keys.map matrixVariable
    .ok ([], all.filter fun name => !common.contains name)

def conditionProblems (s : Stage) : List String :=
  match s.condition with
  | none => []
  | some condition =>
    if condition = "" then []
    else
      let subject := "condition of stage '" ++ s.name ++ "'"
      match Condition.check condition Context.knownVariables subject with
      | .ok _ => []
      | .error c =>
        (if c.problems.isEmpty then [c.message] else c.problems).map (subjectOf s ++ ": " ++ ·)

def stepProblems {α : Type} (executors : Registry α) (s : Stage) (allowed sometimes : List String)
    (step : Step) (index : Nat) : List String :=
  let subject := subjectOf s ++ s!" step {index + 1} (" ++ step.displayName ++ ")"
  let unknown :=
    if executors.has step.uses then []
    else
      [subject ++ " uses unknown executor " ++ Text.quoted step.uses ++ ". Known: " ++
        Text.quotedList executors.known]
  let names := Template.textNames step.name ++ Template.namesOfFields step.params ++
    Template.namesOfFields step.env
  unknown ++ templateProblems subject names allowed sometimes

/-- The values of a stage in which templates are looked for, beside its texts. -/
def searched (s : Stage) : List Value :=
  (s.steps.flatMap fun step => step.params.values ++ step.env.values) ++ s.env.values ++
    s.consumes.flatMap fun r => r.filter.values

def checkEnds (values : List Value) : Except ValueFault Unit :=
  if values.any Value.isEndless then .error .endless else .ok ()

def stageProblems {α : Type} (executors : Registry α) (s : Stage) :
    Except ValueFault (List String) := do
  let subject := subjectOf s
  let noSteps := if s.steps.isEmpty then [subject ++ " has no steps"] else []
  let noTime ← timeoutProblems s
  let (matrix, sometimes) ← matrixProblems s
  checkEnds (searched s)
  let allowed := s.templateNames.filter fun name => !sometimes.contains name
  let ofNames := fun (part : String) (names : List String) =>
    templateProblems (subject ++ part) names allowed sometimes
  let steps := s.steps.zipIdx.flatMap fun (step, index) =>
    stepProblems executors s allowed sometimes step index
  return noSteps ++ noTime ++ matrix ++ conditionProblems s ++ steps
    ++ ofNames " produces" (s.produces.flatMap Template.textNames)
    ++ ofNames " env" (Template.namesOfFields s.env)
    ++ ofNames " runs-on" (Template.textNames (s.runsOn.getD ""))
    ++ s.consumes.flatMap fun r =>
      ofNames " consumes" (Template.textNames r.name ++ Template.names (.map r.filter))

def isLiteral (s : String) : Bool := (Template.textNames s).isEmpty

def consumeProblem (s : Stage) (r : ArtifactRef) (text : String) : Except ValueFault (List String) :=
  if Value.anyEntryUnwritable r.filter then .error .unwritable
  else .ok [subjectOf s ++ " consumes " ++ r.text ++ text]

def strangeKeys (producer : Stage) (r : ArtifactRef) : List Value :=
  let keys := (producer.matrix.map Matrix.keys).getD []
  r.filter.keys.filter fun k => !keys.any fun key => key.alike k

def isUnpublished (producer : Stage) (r : ArtifactRef) : Bool :=
  isLiteral r.name && producer.produces.all isLiteral && !producer.produces.contains r.name

def keyProblems (s : Stage) (r : ArtifactRef) (strangers : List Value) :
    Except ValueFault (List String) :=
  if strangers.isEmpty then .ok []
  else
    consumeProblem s r (" with matrix keys " ++ (Value.list strangers).quoted ++ " that stage '" ++
      r.stage ++ "' does not have")

def nameProblems (s producer : Stage) (r : ArtifactRef) : Except ValueFault (List String) :=
  if isUnpublished producer r then
    consumeProblem s r (" but '" ++ r.stage ++ "' only produces " ++
      Text.quotedList producer.produces)
  else .ok []

def consumeProblems (p : Pipeline) (s : Stage) (ancestors : List String) (r : ArtifactRef) :
    Except ValueFault (List String) :=
  if !ancestors.contains r.stage then
    consumeProblem s r (" but '" ++ r.stage ++ "' is not one of its prerequisites")
  else
    match p.stage? r.stage with
    | none => .ok []
    | some producer => do
      let strangers ← Value.sorted (strangeKeys producer r)
      let unknown ← keyProblems s r strangers
      let unpublished ← nameProblems s producer r
      return unknown ++ unpublished

def allStageProblems {α : Type} (executors : Registry α) (p : Pipeline) (g : StageGraph)
    (s : Stage) (index : Nat) : Except ValueFault (List String) := do
  let own ← stageProblems executors s
  let ancestors := (g.ancestors index).filterMap fun i => (g.stage? i).map (·.name)
  let consumed ← s.consumes.mapM (consumeProblems p s ancestors)
  return own ++ consumed.flatten

def check {α : Type} (executors : Registry α) (p : Pipeline) : Except Rejection Unit := do
  let g ← (StageGraph.build p.stages).mapError fun fault => Rejection.complaint fault.complaint
  let env :=
    templateProblems "pipeline env" (Template.namesOfFields p.env) Context.knownVariables []
  (checkEnds p.env.values).mapError Rejection.unusable
  let stages ← (g.stages.zipIdx.mapM fun (s, index) =>
    allStageProblems executors p g s index).mapError Rejection.unusable
  let problems := triggerProblems p.triggers ++ env ++ stages.flatten
  if problems.isEmpty then return ()
  else throw (.complaint ⟨"Invalid pipeline '" ++ p.name ++ "'", problems⟩)

end Conveyor.Validation

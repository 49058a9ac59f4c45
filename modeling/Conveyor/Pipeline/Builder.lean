import Conveyor.Pipeline.Basic

/-! Putting pipelines together from parts. -/

namespace Conveyor

namespace Step

def shell (name command : String) (folder : Option String) (env : Fields) : Step :=
  { uses := "shell", name, env
    params := ("command", .str command) :: (folder.map fun f => ("cwd", Value.str f)).toList }

def upload (name path : String) : Step :=
  { uses := "upload-artifact", name := "Upload " ++ name
    params := [("name", .str name), ("path", .str path)] }

def download (name path : String) (stage : Option String) (matrix : Mapping) : Step :=
  { uses := "download-artifact", name := "Download " ++ name
    params := [("name", .str name), ("path", .str path)]
      ++ (stage.map fun s => ("stage", Value.str s)).toList
      ++ (if matrix.isEmpty then [] else [("matrix", .map matrix)]) }

end Step

inductive BuildFault where
  | stageWithoutSteps (name : String)
  | draftWithoutSteps (name : String)
  | malformedRef (text : String)
  | axisWithoutValues (kind : String)
  deriving DecidableEq, Repr

def BuildFault.message : BuildFault → String
  | .stageWithoutSteps name => "stage(" ++ Text.quoted name ++ ") must have at least one step"
  | .draftWithoutSteps name => s!"Stage '{name}' has no steps"
  | .malformedRef text => ArtifactRef.malformed text
  | .axisWithoutValues kind => s!"'{kind}' object is not iterable"

def Matrix.axisValues : Value → Except BuildFault (List Value)
  | .list values => .ok values
  | .tuple values => .ok values
  | .map entries => .ok (entries.map (·.1))
  | .str s => .ok (s.toList.map fun c => .str (String.ofList [c]))
  | v => .error (.axisWithoutValues v.fullKindName)

def Matrix.declare (axes : Fields) (included excluded : List Mapping) :
    Except BuildFault Matrix := do
  let axes ← axes.mapM fun (k, v) => do return (k, ← Matrix.axisValues v)
  return { axes, included, excluded }

inductive ConsumeSource where
  | text (s : String)
  | ref (r : ArtifactRef)
  deriving DecidableEq, Repr

def ConsumeSource.resolve : ConsumeSource → Except BuildFault ArtifactRef
  | .ref r => .ok r
  | .text s =>
    match ArtifactRef.parse? s with
    | some r => .ok r
    | none => .error (.malformedRef s)

def Fields.texts (fields : Fields) : Fields := fields.map fun (k, v) => (k, .str v.text)

def Stage.declare (s : Stage) (consumes : List ConsumeSource) : Except BuildFault Stage := do
  if s.steps.isEmpty then throw (.stageWithoutSteps s.name)
  let consumes ← consumes.mapM ConsumeSource.resolve
  return { s with consumes, env := Fields.texts s.env }

structure StageDraft where
  stage : Stage
  deriving DecidableEq, Repr

namespace StageDraft

def new (name : String) : StageDraft := ⟨{ name, steps := [] }⟩

def dependsOn (d : StageDraft) (names : List String) : StageDraft :=
  ⟨{ d.stage with needs := d.stage.needs ++ names }⟩

def addStep (d : StageDraft) (s : Step) : StageDraft :=
  ⟨{ d.stage with steps := d.stage.steps ++ [s] }⟩

def defineStep (d : StageDraft) (name command : String) (folder : Option String) : StageDraft :=
  d.addStep (.shell name command folder [])

def withMatrix (d : StageDraft) (m : Matrix) : StageDraft := ⟨{ d.stage with matrix := some m }⟩

def onlyIf (d : StageDraft) (condition : String) : StageDraft :=
  ⟨{ d.stage with condition := some condition }⟩

def failFast (d : StageDraft) (enabled : Bool) : StageDraft :=
  ⟨{ d.stage with failFast := enabled }⟩

def withTimeout (d : StageDraft) (seconds : Number) : StageDraft :=
  ⟨{ d.stage with timeout := some seconds }⟩

def produces (d : StageDraft) (names : List String) : StageDraft :=
  ⟨{ d.stage with produces := d.stage.produces ++ names }⟩

/-- Adds consumed artifacts; a malformed one leaves the draft as it was. -/
def consumes (d : StageDraft) (sources : List ConsumeSource) : Except BuildFault StageDraft := do
  let refs ← sources.mapM ConsumeSource.resolve
  return ⟨{ d.stage with consumes := d.stage.consumes ++ refs }⟩

def withEnv (d : StageDraft) (env : Fields) : StageDraft :=
  ⟨{ d.stage with env := Table.update d.stage.env (Fields.texts env) }⟩

def runsOn (d : StageDraft) (label : String) : StageDraft :=
  ⟨{ d.stage with runsOn := some label }⟩

def build (d : StageDraft) : Except BuildFault Stage :=
  if d.stage.steps.isEmpty then .error (.draftWithoutSteps d.stage.name) else .ok d.stage

end StageDraft

def Pipeline.declare (name : String) (stages : List Stage) (triggers : List Trigger)
    (env : Fields) : Pipeline :=
  { name, stages, triggers, env := Fields.texts env }

end Conveyor

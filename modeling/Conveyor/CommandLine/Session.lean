import Conveyor.CommandLine.Command
import Conveyor.Document.Load
import Conveyor.Rehearsal.Run
import Conveyor.Report.File

/-! What the commands do: they find the pipeline file, run, check or lay out its pipeline, and tell
the user what came of it. -/

namespace Conveyor.CommandLine

structure Surroundings where
  workspace : Workspace
  environment : Table String String := []
  processors : Nat := 1
  checkout : Checkout := {}
  commands : Table String Rehearsal.Command := []

structure Ending where
  code : Nat
  verbosity : Verbosity := {}
  notices : List Notice := []
  scene : Rehearsal.Scene

inductive Trouble where
  | invalid (c : Complaint)
  | unstartable (message : String)
  | unexpected (message : String)
  | interrupted
  deriving DecidableEq, Repr

namespace Trouble

def ofLoad (f : Document.LoadFault) : Trouble :=
  match f with
  | .refused (.complaint c) => .invalid c
  | _ =>
    if ["ValueError", "UnicodeDecodeError", "FileNotFoundError"].contains f.kind then
      .unstartable f.message
    else .unexpected f.message

def ofRejection : Rejection → Trouble
  | .complaint c => .invalid c
  | .unusable f =>
    if f.kind = "ValueError" then .unstartable f.message else .unexpected f.message

def ofEvent : EventFault → Trouble
  | .refMissing => .unexpected EventFault.refMissing.message
  | f => .unstartable f.message

def ofRun : RunFault → Trouble
  | .rejected r => ofRejection r
  | .settings f => .unstartable f.message
  | .noContext => .unstartable RunFault.noContext.message
  | .broken .interrupted => .interrupted
  | .broken (.unusable f) => ofRejection (.unusable f)
  | .broken f => .unexpected f.message

def ofSave : SaveFault → Trouble
  | .unnamed path => .unstartable (SaveFault.unnamed path).message
  | .unusable f => ofRejection (.unusable f)
  | f => .unexpected f.message

def invalidNotice (c : Complaint) : Notice :=
  .error "Invalid pipeline" c.message c.problems
    "Fix the pipeline file and check it with:\n  matrixci validate"

def notice : Trouble → Notice
  | .invalid c => invalidNotice c
  | .unstartable message =>
    .error "Could not start the run" message []
      "Pass the event explicitly, e.g.:\n  matrixci run --ref refs/tags/v1.2.3"
  | .unexpected message => .exception message
  | .interrupted => .info "\nInterrupted by user"

def plainNotice : Trouble → Notice
  | .invalid c => invalidNotice c
  | .unstartable message => .exception message
  | .unexpected message => .exception message
  | .interrupted => .info "\nInterrupted by user"

def code : Trouble → Nat
  | .interrupted => 130
  | _ => 1

end Trouble

/-! ### Pipeline files -/

def defaultFiles : List String := ["matrixci.yml", "matrixci.yaml", "matrixci_pipeline.py"]

def isPipelineFile (name : String) : Bool :=
  defaultFiles.contains name || name.endsWith "_pipeline.py"

def pipelineFiles (w : Workspace) : List String :=
  let names := (w.files.map (·.1) ++ w.folders).filterMap fun
    | [name] => some name
    | _ => none
  Text.sortedSet (names.filter isPipelineFile)

def discover (w : Workspace) (given : Option String) : Except Notice Path :=
  match filled given with
  | some text =>
    if w.has (Path.ofText text) then .ok (Path.ofText text)
    else
      .error (.error "Pipeline file not found" ("Could not find pipeline file: " ++ text) []
        "Specify a different path:\n  matrixci run --pipeline matrixci.yml")
  | none =>
    match pipelineFiles w with
    | [name] => .ok (Path.ofText name)
    | [] =>
      .error (.error "No pipeline file found" "Could not find any pipeline files."
        ("Looked for:" :: (defaultFiles ++ ["*_pipeline.py"]).map ("  " ++ ·))
        ("Create matrixci.yml or specify a pipeline explicitly:\n" ++
          "  matrixci run --pipeline ci.yml"))
    | first :: others =>
      .error (.error "Multiple pipeline files found"
        "Found multiple pipeline files. Please specify which one to use:"
        ((first :: others).map ("  " ++ ·))
        ("Specify a pipeline explicitly:\n  matrixci run --pipeline " ++ first))

/-! ### Commands -/

/-- The executors of the commands. Stub actions do nothing for a step that none of them fits. -/
def executors (stubActions : Bool) : Registry Rehearsal.Executor :=
  { entries := [("shell", .shell), ("upload-artifact", .upload), ("download-artifact", .download),
      ("noop", .noop)]
    fallback := if stubActions then some .noop else none }

def defaultArtifactDir : String := ".matrixci/artifacts"

def runSettings (settings : Settings) (o : Options) : Except SettingsFault Settings := do
  let settings ← settings.override
    { maxWorkers := o.workers, jobTimeout := o.timeout.map .float
      keepArtifacts := some o.keepArtifacts }
  settings.override
    { artifactDir := filled o.artifactDir <|> filled settings.artifactDir <|>
        some defaultArtifactDir }

structure Assignment where
  settings : Settings
  pipeline : Pipeline
  context : Context

def assign (s : Surroundings) (settings : Settings) (o : Options) (file : Path) :
    Except Trouble Assignment := do
  let settings ← (runSettings settings o).mapError fun f => .unstartable f.message
  let pipeline ← (Document.ofFile s.workspace file).mapError .ofLoad
  let context ← (o.event.context s.checkout).mapError .ofEvent
  return ⟨settings, pipeline, context⟩

def fileReport (report : RunReport) (path : Option String) (scene : Rehearsal.Scene) :
    Rehearsal.Scene × Except Trouble (List Notice) :=
  match filled path with
  | none => (scene, .ok [])
  | some text =>
    let path := Path.ofText text
    let (w, result) := report.save scene.workspace path
    (scene.withWorkspace w, match result with
      | .ok () => .ok [.info ("Report written to " ++ path.text)]
      | .error f => .error (.ofSave f))

def props (s : Surroundings) (o : Options) : Rehearsal.Props :=
  { commands := s.commands, executors := executors o.stubActions, environment := s.environment
    folder := Path.ofText o.workspace, poll := .ofDecimal false 1 (-1), grace := .ofInt 5 }

def runFile (s : Surroundings) (v : Verbosity) (settings : Settings) (o : Options) (file : Path) :
    Ending :=
  let before : Rehearsal.Scene := { depot := { workspace := s.workspace } }
  let troubled := fun (told : List Notice) (scene : Rehearsal.Scene) (t : Trouble) =>
    ({ code := t.code, verbosity := v, notices := told ++ [t.notice], scene } : Ending)
  match assign s settings o file with
  | .error t => troubled [] before t
  | .ok a =>
    let told := [Notice.debug ("Event: " ++ a.context.describe)]
    match Depot.make s.workspace a.settings [] with
    | .error f => troubled told before (.unexpected f.message)
    | .ok depot =>
      let attempt :=
        Rehearsal.run (props s o) a.settings s.processors a.pipeline a.context { depot }
      let told := told ++ attempt.log
      match attempt.result with
      | .error f => troubled told attempt.world (.ofRun f)
      | .ok report =>
        let told := if report.triggered then told ++ [.results report.summary] else told
        match fileReport report o.report attempt.world with
        | (scene, .error t) => troubled told scene t
        | (scene, .ok more) =>
          { code := if report.triggered && !report.succeeded then 1 else 0
            verbosity := v, notices := told ++ more, scene }

def validateFile (s : Surroundings) (o : Options) (file : Path) : Except Trouble (List Notice) := do
  let p ← (Document.ofFile s.workspace file).mapError .ofLoad
  (Validation.check (executors o.stubActions) p).mapError .ofRejection
  return [.results [s!"OK: pipeline '{p.name}' ({p.stages.length} stages)"]]

def planFile (s : Surroundings) (o : Options) (file : Path) : Except Trouble (List Notice) := do
  let p ← (Document.ofFile s.workspace file).mapError .ofLoad
  let context ← (filled o.event.ref).mapM fun _ => (o.event.context s.checkout).mapError .ofEvent
  let (stages, levels) ← (Engine.plan (executors o.stubActions) p context).mapError .ofRejection
  return .header ("Plan: " ++ p.name) :: Engine.planNotices stages levels

def execute (s : Surroundings) (words : List String) : Ending :=
  let scene : Rehearsal.Scene := { depot := { workspace := s.workspace } }
  match Invocation.read? words with
  | none => { code := 2, scene }
  | some call =>
    let change : SettingsChange := { debug := if call.verbosity.debug then some true else none }
    match (Settings.ofVariables s.environment).bind (·.override change) with
    | .error f =>
      { code := 1, scene, verbosity := call.verbosity
        notices := [.error "Invalid engine setting" f.message []
          "Fix or unset the MATRIXCI_* environment variable"] }
    | .ok settings =>
      let verbosity := { call.verbosity with debug := settings.debug }
      match Options.read? call.verb call.words with
      | none => { code := 2, scene, verbosity }
      | some o =>
        let plain : Except Trouble (List Notice) → Ending
          | .ok notices => { code := 0, verbosity, notices, scene }
          | .error t => { code := t.code, verbosity, notices := [t.plainNotice], scene }
        match discover s.workspace o.pipeline with
        | .error notice => { code := 1, verbosity, notices := [notice], scene }
        | .ok file =>
          match call.verb with
          | .run => runFile s verbosity settings o file
          | .validate => plain (validateFile s o file)
          | .plan => plain (planFile s o file)

def Ending.output (e : Ending) : String := regularOutput e.verbosity e.notices

def Ending.errors (e : Ending) : String := errorOutput e.verbosity e.notices

end Conveyor.CommandLine

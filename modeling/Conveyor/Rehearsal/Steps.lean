import Conveyor.Rehearsal.Scene

/-! How steps run. A step runs until it has a reply or has to wait; then it says for how long, and
what comes after. -/

namespace Conveyor.Rehearsal

inductive Activity where
  | acting (rest : List Action) (logs : List String)
  /-- The end of a sleep that a request to stop may cut short. -/
  | woken (rest : List Action) (logs : List String)
  /-- The process has not ended within the time between two looks. -/
  | polled (p : Process)
  /-- The process has not ended within the time it was given. -/
  | graced (p : Process)
  | ended (p : Process) (cancelled : Bool)
  deriving Repr

inductive Move where
  | reply (r : Reply)
  | pause (seconds : Double) (interruptible : Bool) (next : Activity)
  deriving Repr

structure Floor where
  scene : Scene
  context : JobContext
  deriving Repr

def Floor.reply (f : Floor) (o : StepOutcome) : Floor × Move := (f, .reply (.outcome o))

def Floor.raise (f : Floor) (fault : StepFault) : Floor × Move := (f, .reply (.raised fault))

/-! ### Scripted steps -/

def stopped : StepOutcome := { exitStatus := 143, logs := "stopped", cancelled := true }

def blobLine (found : Table String Blob) : String :=
  ";".intercalate (found.map fun (qualifier, blob) => qualifier ++ ":" ++ blob.hex)

def act (cancelled : Bool) : List Action → List String → Floor → Floor × Move
  | [], logs, f => f.reply { exitStatus := 0, logs := "\n".intercalate logs }
  | .sleep seconds :: rest, logs, f =>
    if cancelled then f.reply stopped
    else if Double.zero.lt seconds then (f, .pause seconds true (.woken rest logs))
    else act cancelled rest logs f
  | .busy seconds :: rest, logs, f =>
    if Double.zero.lt seconds then (f, .pause seconds false (.acting rest logs))
    else act cancelled rest logs f
  | .publishAll :: rest, logs, f =>
    match publishAll f.context with
    | .ok context => act cancelled rest logs { f with context }
    | .error fault => f.raise fault
  | .publish name blob :: rest, logs, f =>
    match f.context.publish name blob with
    | .ok context => act cancelled rest logs { f with context }
    | .error fault => f.raise fault
  | .fetch stage name filter :: rest, logs, f =>
    match f.context.fetch stage name filter with
    | .ok blob => act cancelled rest (logs ++ [blob.hex]) f
    | .error fault => f.raise fault
  | .fetchAll stage name filter :: rest, logs, f =>
    match f.context.fetchAll stage name filter with
    | .ok found => act cancelled rest (logs ++ [blobLine found]) f
    | .error fault => f.raise fault
  | .log text :: rest, logs, f => act cancelled rest (logs ++ [text]) f
  | .raise kind message :: _, _, f => f.raise (.raised kind (raisedMessage kind message))
  | .outcome o :: _, _, f => f.reply o
  | .exit v :: _, _, f =>
    match exitStatus v with
    | .ok code => f.reply { exitStatus := code }
    | .error fault => f.raise fault

def beginScripted (props : Props) (step : Step) (cancelled : Bool) (f : Floor) : Floor × Move :=
  let job := f.context.job
  let call : Call :=
    { time := f.scene.now, job := job.id, step := step.displayName, params := step.params
      inputs := f.context.inputs }
  let f := { f with scene := { f.scene with calls := f.scene.calls ++ [call] } }
  act cancelled (props.script.actions job.id step.displayName) [] f

/-! ### Commands -/

/-- The outcome of a process that has ended. One that was made to end never has the status zero. -/
def processOutcome (p : Process) (cancelled : Bool) : StepOutcome :=
  { exitStatus := if cancelled ∧ p.code = 0 then -15 else p.code, logs := p.output, cancelled }

def await (p : Process) (limit : Option Double) (cancelled : Bool) (late : Activity) (f : Floor) :
    Floor × Move :=
  let left := p.left f.scene.now
  match limit with
  | some limit =>
    if p.command.interrupts then (f, .reply .interrupted)
    else if left.le limit then
      if Double.zero.lt left then (f, .pause left false (.ended p cancelled))
      else f.reply (processOutcome p cancelled)
    else (f, .pause limit false late)
  | none =>
    if Double.zero.lt left then (f, .pause left false (.ended p cancelled))
    else f.reply (processOutcome p cancelled)

def param? (step : Step) (name : String) : Option Value := (step.params.get? name).filter Value.truthy

def textOf (v : Value) : Except StepFault String := v.written.mapError .ofValue

/-- The text of a parameter, or another text if it is not given. -/
def paramText (step : Step) (name other : String) : Except StepFault String :=
  match param? step name with
  | none => .ok other
  | some v => textOf v

def writeFiles (w : Workspace) (folder : Place) (files : Table String String) : Workspace :=
  files.foldl
    (fun w (path, text) =>
      match Workspace.follow folder (Path.ofText path).parts with
      | some place => w.write place (Blob.ofText text)
      | none => w)
    w

def inOrder (env : Table String String) : Table String String :=
  env.mergeSort fun a b => Text.le a.1 b.1

/-- Starts a process, and looks for the first time whether it has ended. -/
def spawn (props : Props) (folder : Place) (command : String) (env : Table String String) (f : Floor) :
    Floor × Move :=
  let script := (props.commands.get? command).getD unknownCommand
  let spawn : Spawn :=
    { time := f.scene.now, command, folder, environment := inOrder (props.environment.update env) }
  let scene := { f.scene with spawns := f.scene.spawns ++ [spawn] }
  let scene := scene.withWorkspace (writeFiles scene.workspace folder script.writes)
  let p := Process.start script scene.now
  await p (some props.poll) false (.polled p) { f with scene }

def beginShell (props : Props) (step : Step) (f : Floor) : Floor × Move :=
  let subject := "[" ++ f.context.job.id ++ "] step '" ++ step.displayName ++ "'"
  match param? step "command" <|> param? step "run", paramText step "cwd" "." with
  | none, _ => f.reply { exitStatus := 2, logs := subject ++ " has no command" }
  | some _, .error fault => f.raise fault
  | some command, .ok cwd =>
    let path := props.folder.join (Path.ofText cwd)
    match (Workspace.locate? path).filter f.scene.workspace.occupied with
    | none =>
      f.reply { exitStatus := 2
                logs := subject ++ " cwd not found: " ++ f.scene.workspace.fullText path }
    | some folder =>
      match f.context.environment (some step), textOf command with
      | .error fault, _ => f.raise fault
      | .ok _, .error fault => f.raise fault
      | .ok env, .ok command => spawn props folder command env f

/-! ### Steps on artifacts -/

def upload (props : Props) (step : Step) (f : Floor) : Floor × Move :=
  match param? step "name", param? step "path" with
  | some name, some path =>
    match textOf path with
    | .error fault => f.raise fault
    | .ok path =>
      let path := props.folder.join (Path.ofText path)
      match (f.scene.workspace.reach? path).bind f.scene.workspace.read? with
      | none => f.reply { exitStatus := 1, logs := "upload-artifact: no file at " ++ path.text }
      | some blob =>
        match textOf name >>= fun name => f.context.publish name blob with
        | .error fault => f.raise fault
        | .ok context =>
          Floor.reply { f with context }
            { exitStatus := 0, logs := "uploaded " ++ name.text ++ s!" ({blob.length} bytes)" }
  | _, _ => f.reply { exitStatus := 2, logs := "upload-artifact needs 'name' and 'path'" }

/-- The stage that provides an artifact, if the step does not say it: the only one that does. -/
def providingStage (inputs : Inputs) (name : String) : Except StepFault String :=
  let stages := Text.sortedSet
    ((inputs.filter fun (key, _) => key.name = name).map fun (key, _) => key.producer.stage)
  match stages with
  | [stage] => .ok stage
  | [] => .error (.missing { stage := "*", name, reason := "no consumed stage provides it" })
  | stages =>
    .error (.missing
      { stage := "*", name
        reason := "provided by several stages " ++ Text.quotedList stages ++ "; set 'stage'" })

def filterParam (inputs : Inputs) (stage name : String) :
    Option Value → Except StepFault Mapping
  | none => .ok []
  | some (.map entries) => .ok entries
  | some v =>
    if (inputs.named stage name).isEmpty then (Document.asMapping v).mapError .badFilter
    else .error (.filterWithoutKeys v)

/-- The file that a fetched artifact is written to: the given path, or a file in that folder if the
path has no ending. -/
def destination (props : Props) (step : Step) (name : String) : Except StepFault Path := do
  let file ← paramText step "file" name
  let path := props.folder.join (Path.ofText (← paramText step "path" "."))
  return if path.suffix = "" then path.join (Path.ofText file) else path

def fetched (step : Step) (context : JobContext) (name : String) : Except StepFault (String × Blob) := do
  let stage ← match param? step "stage" with
    | some stage => textOf stage
    | none => providingStage context.inputs name
  let filter ← filterParam context.inputs stage name (param? step "matrix")
  return (stage, ← context.fetch stage name filter)

def deliver (props : Props) (step : Step) (stage name : String) (blob : Blob) (f : Floor) : Floor × Move :=
  match destination props step name with
  | .error fault => f.raise fault
  | .ok path =>
    match f.scene.workspace.save path blob with
    | .error fault => f.raise (.raised fault.kind fault.message)
    | .ok w =>
      Floor.reply { f with scene := f.scene.withWorkspace w }
        { exitStatus := 0, logs := "downloaded " ++ stage ++ "/" ++ name ++ " -> " ++ path.text }

def download (props : Props) (step : Step) (f : Floor) : Floor × Move :=
  match param? step "name" with
  | none => f.reply { exitStatus := 2, logs := "download-artifact needs 'name'" }
  | some name =>
    match textOf name >>= fun name => return (name, ← fetched step f.context name) with
    | .error fault => f.raise fault
    | .ok (name, stage, blob) => deliver props step stage name blob f

def noop (step : Step) (f : Floor) : Floor × Move :=
  match ((step.params.get? "message").map textOf).getD (.ok "") with
  | .error fault => f.raise fault
  | .ok logs => f.reply { exitStatus := 0, logs }

/-! ### All executors -/

def start (props : Props) (executor : Executor) (step : Step) (cancelled : Bool) (f : Floor) :
    Floor × Move :=
  match executor with
  | .scripted => beginScripted props step cancelled f
  | .noop => noop step f
  | .broken => (f, .reply .nothing)
  | .shell => beginShell props step f
  | .upload => upload props step f
  | .download => download props step f

def resume (props : Props) (cancelled : Bool) (f : Floor) : Activity → Floor × Move
  | .acting rest logs => act cancelled rest logs f
  | .woken rest logs => if cancelled then f.reply stopped else act cancelled rest logs f
  | .polled p =>
    if cancelled then
      let f := { f with scene := f.scene.signal .terminate }
      let p := p.terminated f.scene.now
      await p (some props.grace) true (.graced p) f
    else await p (some props.poll) false (.polled p) f
  | .graced p =>
    let f := { f with scene := f.scene.signal .kill }
    let p := p.killed f.scene.now
    await p none true (.graced p) f
  | .ended p wasCancelled => f.reply (processOutcome p wasCancelled)

end Conveyor.Rehearsal

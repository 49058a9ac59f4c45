import Conveyor.Artifact.Depot
import Conveyor.Executor.Registry
import Conveyor.Rehearsal.Command
import Conveyor.Rehearsal.Script

/-! What steps act on in a rehearsal: the time, the workspace and the store, and what has been
observed of them. -/

namespace Conveyor.Rehearsal

inductive Executor where
  | scripted
  | noop
  | broken
  | shell
  | upload
  | download
  deriving DecidableEq, Repr

namespace Executor

def all : Table String Executor :=
  [("fake", .scripted), ("noop", .noop), ("broken", .broken), ("shell", .shell),
    ("upload-artifact", .upload), ("download-artifact", .download)]

/-- The first of the names of the executor that a name means, unless it is the one for all other
names. A scripted executor has no second name, since every name has a script of its own. -/
def firstName? (r : Registry Executor) (name : String) : Option String := do
  let (own, executor) ← r.find? name
  if executor = .scripted then return own
  else if r.fallback = some executor then none
  else return (r.known.find? fun n => r.entries.get? n = some executor).getD own

end Executor

structure Props where
  script : Script := []
  commands : Table String Command := []
  executors : Registry Executor := {}
  environment : Table String String := []
  folder : Path := {}
  /-- How long to wait for a process before looking whether the job is asked to stop. -/
  poll : Double := .zero
  /-- How long a process that is asked to end is given. -/
  grace : Double := .zero

structure Spawn where
  time : Double
  command : String
  folder : Place
  environment : Table String String
  deriving Repr

inductive Signal where
  | terminate
  | kill
  deriving DecidableEq, Repr

def Signal.name : Signal → String
  | .terminate => "SIGTERM"
  | .kill => "SIGKILL"

structure Call where
  time : Double
  job : String
  step : String
  params : Fields
  inputs : Inputs
  deriving Repr

structure Scene where
  now : Double := .zero
  depot : Depot
  spawns : List Spawn := []
  signals : List (Double × Signal) := []
  calls : List Call := []
  deriving Repr

namespace Scene

def workspace (s : Scene) : Workspace := s.depot.workspace

def withWorkspace (s : Scene) (w : Workspace) : Scene :=
  { s with depot := { s.depot with workspace := w } }

def signal (s : Scene) (sig : Signal) : Scene := { s with signals := s.signals ++ [(s.now, sig)] }

def cleared (s : Scene) : Scene := { s with spawns := [], signals := [], calls := [] }

end Scene
end Conveyor.Rehearsal

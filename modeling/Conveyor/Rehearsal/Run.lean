import Conveyor.Engine
import Conveyor.Rehearsal.Crew

/-! Rehearsals: runs of pipelines on a scene, and steps by themselves. -/

namespace Conveyor.Rehearsal

def onScene {ε : Type} (a : Attempt Performance ε) : Attempt Scene ε :=
  { a with world := a.world.scene }

def run (props : Props) (settings : Settings) (processors : Nat) (p : Pipeline) (context : Context)
    (scene : Scene) : Attempt Scene RunFault :=
  onScene (Engine.run props.executors settings processors p context { props, scene : Performance })

def scheduleOnly (props : Props) (settings : Settings) (processors : Nat) (workers : Option Int)
    (p : Pipeline) (context early : Option Context) (scene : Scene) : Attempt Scene RunFault :=
  onScene (Engine.scheduleOnly settings processors workers p context early
    { props, scene : Performance })

/-- Lets the steps of one job run one after the other, each to its end, with nobody else at work.
The job counts as asked to stop from some time on. -/
def finishStep (props : Props) (cancelAt : Option Double) :
    Nat → Floor × Move → Floor × Reply
  | 0, (f, _) => (f, .interrupted)
  | _ + 1, (f, .reply r) => (f, r)
  | fuel + 1, (f, .pause seconds _ next) =>
    let f := { f with scene := { f.scene with now := f.scene.now.add seconds } }
    let cancelled := cancelAt.any fun t => t.le f.scene.now
    finishStep props cancelAt fuel (resume props cancelled f next)

def runStep (props : Props) (cancelAt : Option Double) (f : Floor) (step : Step) : Floor × Reply :=
  match props.executors.get step.uses with
  | .error fault => (f, .raised fault)
  | .ok executor =>
    let cancelled := cancelAt.any fun t => t.le f.scene.now
    finishStep props cancelAt Performance.budget (start props executor step cancelled f)

end Conveyor.Rehearsal

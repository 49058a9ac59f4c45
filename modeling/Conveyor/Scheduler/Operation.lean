import Conveyor.Report

/-! Runs under way. The coordinator decides; the world in which it acts keeps the time and the
artifacts and does the work of the jobs. All that the coordinator learns of the work is which workers
have ended, and how. -/

namespace Conveyor

/-- What a world gives back when it has been waited for: itself, what its workers have told, and
those that have ended. -/
structure Shift (ω : Type) where
  world : ω
  told : List Notice := []
  finished : List (Nat × Completion) := []

/-- A world in which jobs can be run. It is a store of artifacts with a clock; it takes requests, and
it can be waited for until workers have ended, up to a point in time. It may refuse to be waited for
longer than it can measure. -/
class World (ω : Type) extends ArtifactStore ω where
  now : ω → Double
  accept : ω → Request → ω
  await : ω → Option Double → Shift ω
  refuses : ω → Double → Bool := fun _ _ => false

structure Operation (ω : Type) where
  coord : Coordinator
  world : ω

namespace Operation

variable {ω : Type} [World ω]

def start (setup : Setup) (g : RunGraph) (world : ω) : Operation ω :=
  { coord := .start setup g, world }

def deliver (o : Operation ω) : Operation ω :=
  { coord := { o.coord with requests := [] }
    world := o.coord.requests.foldl World.accept o.world }

def inWorld {τ : Type} (world : ω) (result : Except (Halt Coordinator) τ) :
    Except (Halt (Operation ω)) τ :=
  result.mapError fun halt => ⟨halt.fault, ⟨halt.state, world⟩⟩

/-- Opens stages and starts jobs. Says whether there was something to do. -/
def advance (o : Operation ω) : Except (Halt (Operation ω)) (Operation ω × Bool) := do
  let now := World.now o.world
  let (c, changed) ← inWorld o.world (o.coord.resolveStages now)
  let (c, taken) ← inWorld o.world (c.dispatch o.world now)
  return ({ o with coord := c }.deliver, changed || taken != 0)

/-- Waits for workers, takes in those that have ended, and stops the jobs whose time is over. -/
def gather (o : Operation ω) : Except (Halt (Operation ω)) (Operation ω) :=
  let now := World.now o.world
  if (o.coord.patience now).any (World.refuses o.world) then .error ⟨.waitTooLong, o⟩
  else do
    let shift := World.await o.world ((o.coord.patience now).map now.add)
    let c := { o.coord with log := o.coord.log ++ shift.told }
    let (c, world) ← (c.settle shift.world (World.now shift.world) shift.finished).mapError
      fun halt => ⟨halt.fault, ⟨halt.state.1, halt.state.2⟩⟩
    return { coord := c, world : Operation ω }.deliver

/-- One turn: what can be started is started, and if work is under way, it is waited for. Says
whether there is more to do. -/
def turn (o : Operation ω) : Except (Halt (Operation ω)) (Operation ω × Bool) := do
  let (o, busy) ← o.advance
  if o.coord.inFlight.isEmpty then return (o, busy || !o.coord.ready.isEmpty)
  else return (← o.gather, true)

/-- Turn after turn, until there is nothing more to do. Nothing bounds the number of turns: a world
in which a worker never ends keeps the run going. -/
def perform [Nonempty (Operation ω)] (o : Operation ω) : Except (Halt (Operation ω)) (Operation ω) :=
  o |> repeatM fun o => do
    let (o, more) ← o.turn
    return if more then .inl o else .inr o

/-- The whole run. All jobs have to have come to an end. -/
def run (o : Operation ω) : Except (Halt (Operation ω)) (Operation ω) := do
  have : Nonempty (Operation ω) := ⟨o⟩
  let o ← o.perform
  let unfinished := o.coord.unfinished
  if unfinished.isEmpty then return o else throw ⟨.unfinished unfinished, o⟩

end Operation
end Conveyor

import Conveyor.Rehearsal.Steps
import Conveyor.Scheduler.Operation

/-! The workers of a rehearsal, in virtual time. A worker runs without interruption until it has to
wait; then a wake-up is entered for it. Wake-ups happen in the order of their times, and those of
one time in the order in which they were entered. -/

namespace Conveyor.Rehearsal

/-- A worker that waits: what it does, and with which step, and whether it is asked to stop. -/
structure Hand where
  worker : Worker
  doing : Option (Step × Activity) := none
  stopping : Bool := false
  deriving Repr

structure WakeUp where
  time : Double
  number : Nat
  slot : Nat
  interruptible : Bool := false
  deriving Repr

def WakeUp.before (a b : WakeUp) : Bool :=
  a.time.lt b.time || (!b.time.lt a.time && a.number < b.number)

structure Crew where
  hands : Table Nat Hand := []
  queue : List WakeUp := []
  entered : Nat := 0
  deriving Repr

namespace Crew

def enter (c : Crew) (time : Double) (slot : Nat) (interruptible : Bool) : Crew :=
  { c with
    queue := c.queue ++ [{ time, number := c.entered, slot, interruptible }]
    entered := c.entered + 1 }

def next? (c : Crew) : Option WakeUp :=
  match c.queue with
  | [] => none
  | first :: rest => some (rest.foldl (fun a b => if b.before a then b else a) first)

def drop (c : Crew) (w : WakeUp) : Crew :=
  { c with queue := c.queue.filter (·.number ≠ w.number) }

def hire (c : Crew) (now : Double) (slot : Nat) (worker : Worker) : Crew :=
  { c with hands := c.hands.insert slot { worker } }.enter now slot false

/-- Asks a worker to stop, and wakes it if it sleeps until then. -/
def stop (c : Crew) (now : Double) (slot : Nat) : Crew :=
  let asked := fun hand : Hand => { hand with stopping := true }
  let c := { c with hands := c.hands.map fun (s, hand) => (s, if s = slot then asked hand else hand) }
  match c.queue.find? fun w => w.slot = slot && w.interruptible with
  | some w => (c.drop w).enter now slot false
  | none => c

def obey (now : Double) (c : Crew) : Request → Crew
  | .launch slot worker => c.hire now slot worker
  | .cancel slot => c.stop now slot

end Crew

structure Performance where
  props : Props
  scene : Scene
  crew : Crew := {}

inductive Progress where
  | waiting (hand : Hand) (seconds : Double) (interruptible : Bool)
  | ended (completion : Completion)
  deriving Repr

mutual
def proceed (props : Props) (cancelled : Bool) :
    Nat → Scene → List Notice → Worker → Scene × List Notice × Progress
  | 0, scene, log, _ => (scene, log, .ended .interrupted)
  | fuel + 1, scene, log, w =>
    match w.turn cancelled with
    | .finish completion => (scene, log, .ended completion)
    | .attempt step =>
      let log := log ++ [.step w.context.job.id step.displayName]
      match props.executors.get step.uses with
      | .error fault =>
        take props cancelled fuel w step log
          ({ scene, context := w.context }, .reply (.raised fault))
      | .ok executor =>
        take props cancelled fuel w step log
          (start props executor step cancelled { scene, context := w.context })

def take (props : Props) (cancelled : Bool) :
    Nat → Worker → Step → List Notice → Floor × Move → Scene × List Notice × Progress
  | 0, _, _, log, (f, _) => (f.scene, log, .ended .interrupted)
  | fuel + 1, w, step, log, (f, move) =>
    let w := { w with context := f.context }
    match move with
    | .pause seconds interruptible next =>
      (f.scene, log, .waiting { worker := w, doing := some (step, next) } seconds interruptible)
    | .reply reply =>
      match w.receive step f.context.staged reply cancelled with
      | .error completion => (f.scene, log, .ended completion)
      | .ok w => proceed props cancelled fuel f.scene log w
end

namespace Performance

def wake (p : Performance) (slot : Nat) : Performance × List Notice × Option Completion :=
  match p.crew.hands.get? slot with
  | none => (p, [], none)
  | some hand =>
    let fuel := 2 * hand.worker.remaining.length + 4
    let (scene, told, progress) :=
      match hand.doing with
      | none => proceed p.props hand.stopping fuel p.scene [] hand.worker
      | some (step, activity) =>
        take p.props hand.stopping fuel hand.worker step []
          (resume p.props hand.stopping { scene := p.scene, context := hand.worker.context } activity)
    match progress with
    | .waiting next seconds interruptible =>
      let hands := p.crew.hands.insert slot { next with stopping := hand.stopping }
      let crew := { p.crew with hands }.enter (scene.now.add seconds) slot interruptible
      ({ p with scene, crew }, told, none)
    | .ended completion =>
      ({ p with scene, crew := { p.crew with hands := p.crew.hands.erase slot } }, told,
        some completion)

def runDue : Nat → Shift Performance → Shift Performance
  | 0, s => s
  | fuel + 1, s =>
    match s.world.crew.next? with
    | none => s
    | some w =>
      if w.time.le s.world.scene.now then
        let (p, told, ended) := { s.world with crew := s.world.crew.drop w }.wake w.slot
        runDue fuel
          { world := p, told := s.told ++ told
            finished := s.finished ++ (ended.map fun completion => (w.slot, completion)).toList }
      else s

def budget : Nat := 1000000

/-- Waits until workers have ended, up to a point in time, after what has been told. -/
def awaitFrom (limit : Option Double) : Nat → Performance → List Notice → Shift Performance
  | 0, p, told => { world := p, told }
  | fuel + 1, p, told =>
    let late := fun (t : Double) => limit.any fun limit => limit.lt t
    let giveUp := { p with scene := { p.scene with now := limit.getD p.scene.now } }
    match p.crew.next? with
    | none => { world := giveUp, told }
    | some w =>
      if late w.time then { world := giveUp, told }
      else
        let shift := runDue budget
          { world := { p with scene := { p.scene with now := w.time } }, told }
        if shift.finished.isEmpty then awaitFrom limit fuel shift.world shift.told else shift

def withDepot (p : Performance) (depot : Depot) : Performance :=
  { p with scene := { p.scene with depot } }

instance : World Performance where
  put p key blob := (p.scene.depot.put key blob).map fun (entry, depot) => (entry, p.withDepot depot)
  get? p := p.scene.depot.get?
  discard p producer := p.withDepot (p.scene.depot.discard producer)
  entries p := p.scene.depot.entries
  now p := p.scene.now
  accept p request := { p with crew := p.crew.obey p.scene.now request }
  await p limit := awaitFrom limit budget p []

end Performance
end Conveyor.Rehearsal

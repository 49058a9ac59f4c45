import Conveyor.Number.Double
import Conveyor.Table

/-! Scripted commands: how long they run, what they print and write, and how they take being asked
to end. -/

namespace Conveyor.Rehearsal

inductive Reaction where
  /-- It ends after a time with an exit status. -/
  | ends (delay : Double) (code : Int)
  /-- It goes on. -/
  | ignores
  /-- It has just ended by itself. -/
  | gone
  deriving DecidableEq, Repr

structure Command where
  code : Int := 0
  out : String := ""
  duration : Double := .zero
  writes : Table String String := []
  onTerminate : Reaction := .ends .zero (-15)
  /-- Whether waiting for the command interrupts the whole run. -/
  interrupts : Bool := false
  deriving DecidableEq, Repr

def unknownCommand : Command := { code := 127, out := "sh: not found\n" }

/-- A command that has been started: when it will end, and with which exit status. -/
structure Process where
  command : Command
  finish : Double
  code : Int
  deriving DecidableEq, Repr

namespace Process

def start (c : Command) (now : Double) : Process :=
  { command := c, finish := now.add c.duration, code := c.code }

def terminated (p : Process) (now : Double) : Process :=
  match p.command.onTerminate with
  | .ends delay code => { p with finish := now.add delay, code }
  | .ignores => p
  | .gone => { p with finish := now }

def killed (p : Process) (now : Double) : Process := { p with finish := now, code := -9 }

def left (p : Process) (now : Double) : Double := p.finish.sub now

def outputLimit : Nat := 4000

def output (p : Process) : String :=
  let cs := p.command.out.toList
  String.ofList (cs.drop (cs.length - outputLimit))

end Process
end Conveyor.Rehearsal

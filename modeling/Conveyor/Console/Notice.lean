import Conveyor.Text.Quoted
import Conveyor.Text.Split

/-! What a run tells its user, and how it is written. -/

namespace Conveyor

inductive Notice where
  | header (title : String)
  | runStarted (pipeline event : String) (stages jobs : Int)
  | notTriggered (pipeline event : String)
  | wave (number : Nat) (stages : List String)
  | planJob (name reason : String)
  | jobStarted (name : String)
  | step (job name : String)
  | succeeded (name : String)
  | failed (name reason : String) (exitStatus : Option Int) (hint : String) (isJob : Bool)
  | skipped (name reason : String)
  | cancelled (name reason : String)
  | cancelRequested (name : String)
  | artifact (job name : String) (size : Int)
  | info (message : String)
  | results (lines : List String)
  | error (title message : String) (details : List String) (suggestion : String)
  | exception (message : String)
  | debug (message : String)
  deriving DecidableEq, Repr

structure Verbosity where
  debug : Bool := false
  quiet : Bool := false
  deriving DecidableEq, Repr, Inhabited

namespace Notice

/-- The lines of a failure. Without details only the first line of the reason is shown. -/
def failureLines (debug : Bool) (name reason : String) (exitStatus : Option Int) (hint : String)
    (isJob : Bool) : List String :=
  [(if isJob then "JOB FAILED: " else "STEP FAILED: ") ++ name]
    ++ (exitStatus.map fun code => "Exit code: " ++ toString code).toList
    ++ (if hint = "" then [] else ["Hint: " ++ hint])
    ++ [if debug then "Error details: " ++ reason
        else "Error: " ++ (if reason = "" then "Unknown error" else Text.before '\n' reason)]

def isError : Notice → Bool
  | .error _ _ _ _ => true
  | .exception _ => true
  | .debug _ => true
  | _ => false

def lines (v : Verbosity) : Notice → List String
  | .header title => ["\n" ++ title, String.ofList (List.replicate title.length '-')]
  | .runStarted pipeline event stages jobs =>
    ["\nRUN STARTED", "Pipeline: " ++ pipeline, "Event: " ++ event, s!"Stages: {stages}",
      s!"Jobs: {jobs}", ""]
  | .notTriggered pipeline event =>
    ["\nNOT TRIGGERED: " ++ pipeline, "No trigger matches " ++ event]
  | .wave number stages => [s!"=== Wave {number}: " ++ Text.quotedList stages ++ " ==="]
  | .planJob name reason => ["  " ++ name ++ " (" ++ reason ++ ")"]
  | .jobStarted name => ["\nJOB STARTED: " ++ name]
  | .step job name => ["[" ++ job ++ "] STEP: " ++ name]
  | .succeeded name => ["[" ++ name ++ "] STATUS: success"]
  | .failed name reason exitStatus hint isJob =>
    failureLines v.debug name reason exitStatus hint isJob
  | .skipped name reason => ["[" ++ name ++ "] STATUS: skipped (" ++ reason ++ ")"]
  | .cancelled name reason => ["[" ++ name ++ "] STATUS: cancelled (" ++ reason ++ ")"]
  | .cancelRequested name => ["[" ++ name ++ "] cancellation requested"]
  | .artifact job name size => ["[" ++ job ++ "] ARTIFACT: " ++ name ++ s!" ({size} bytes)"]
  | .info message => [message]
  | .results lines => lines
  | .error title message details suggestion =>
    ["\nERROR: " ++ title, message] ++ details.map ("  " ++ ·)
      ++ (if suggestion = "" then [] else ["\n" ++ suggestion])
  | .exception message => ["Error: " ++ message]
  | .debug message => if v.debug then ["[DEBUG] " ++ message] else []

def isShown (v : Verbosity) (n : Notice) : Bool :=
  match n with
  | .results _ => true
  | n => n.isError || !v.quiet

end Notice

def textOfLines (lines : List String) : String := String.join (lines.map (· ++ "\n"))

def regularOutput (v : Verbosity) (notices : List Notice) : String :=
  textOfLines ((notices.filter fun n => !n.isError && n.isShown v).flatMap (·.lines v))

def errorOutput (v : Verbosity) (notices : List Notice) : String :=
  textOfLines ((notices.filter (·.isError)).flatMap (·.lines v))

end Conveyor

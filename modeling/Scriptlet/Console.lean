import Scriptlet.Console.Draft
import Scriptlet.Diagnostic.Printer
import Scriptlet.Session

/-!
# The console

The console takes lines from a user, joins them to complete inputs and evaluates each of them in one
session. Results go to the output and findings to the error stream.
-/

namespace Scriptlet

/-- What was written to the two streams of a command. -/
structure Printed where
  out : Text := []
  err : Text := []
  deriving DecidableEq, Repr

namespace Printed

/-- One after the other. -/
def append (a b : Printed) : Printed := ⟨a.out ++ b.out, a.err ++ b.err⟩

instance : Append Printed := ⟨append⟩

end Printed

/-- What a command knows about time. -/
structure Clock where
  /-- The seconds that programs see. -/
  seconds : Float := 0
  /-- The time of day before each line of the log. -/
  stamp : Text
  /-- How long a step took, for the log. -/
  duration : Text

/-- The lines of the log for some events. -/
def Clock.log (clock : Clock) (events : List TraceEvent) : Text :=
  events.flatMap fun e => ("fail: " ++ clock.stamp ++ " " ++ e.text clock.duration : Text).line

/-- What a user does at the console. -/
inductive Console.Input where
  | line (text : Text)
  /-- The line is given up before it is complete. -/
  | interrupt
  deriving DecidableEq, Repr

/-- The inputs in a text that is typed from a line on, which lists its bytes last first. -/
def inputsFrom (typed : Text) : Text → List Console.Input
  | [] => if typed = [] then [] else [.line typed.reverse]
  | b :: rest =>
    if b = Text.byte '\n' then .line typed.reverse :: inputsFrom [] rest
    else if b = 3 then .interrupt :: inputsFrom [] rest
    else inputsFrom (b :: typed) rest

/-- The inputs in a text. A last line needs no line feed. -/
def inputs (text : Text) : List Console.Input := inputsFrom [] text

/-- A console that waits for input. -/
structure Console where
  session : Session
  draft : Draft := {}
  palette : Palette
  /-- Whether the steps of the session are logged. -/
  verbose : Bool
  clock : Clock

/-- What comes after an input. -/
inductive Console.Next where
  | waiting (printed : Printed) (console : Console)
  | closed

namespace Console

/-- What has been printed and logged since the last time. -/
def flush (c : Console) : Printed × Console :=
  let (out, session) := c.session.takeOutput
  let (events, session) := session.takeTrace
  (⟨out, if c.verbose then c.clock.log events else []⟩, { c with session := session })

/-- A console at its start, and what it prints. -/
def start (settings : Settings) (verbose : Bool) (clock : Clock) : Printed × Console :=
  let palette : Palette := ⟨settings.color⟩
  let hello : Text :=
    palette.paint [.bold, .cyan] "fail REPL" ++ " " ++
      palette.paint [.gray] "(type 'exit' or Ctrl+D to quit)" ++ "\n\n"
  let console : Console :=
    ⟨.start settings clock.seconds false, {}, palette, verbose, clock⟩
  let (printed, console) := console.flush
  (⟨hello, []⟩ ++ printed, console)

/-- Evaluates a complete input. -/
def evaluate (fuel : Nat) (c : Console) (source : Text) : Option Next := do
  let (result, session) ← c.session.eval fuel source
  let (printed, c) := { c with session := session }.flush
  return .waiting (printed ++ ⟨[], result.report.painted c.palette⟩) c

/-- Takes an input. An interrupt drops the lines of an incomplete input; `exit` closes the console. -/
def step (fuel : Nat) (c : Console) : Console.Input → Option Next
  | .interrupt =>
    if c.draft.isPending then some (.waiting {} { c with draft := {} })
    else
      let advice := c.palette.paint [.gray] "(use 'exit' or Ctrl+D to quit)"
      some (.waiting ⟨"\n" ++ advice ++ "\n", []⟩ c)
  | .line text =>
    if !c.draft.isPending && text.trim = ("exit" : Text) then some .closed
    else
      let (source, draft) := c.draft.add text
      let c := { c with draft := draft }
      match source with
      | none => some (.waiting {} c)
      | some source => if source.trim = [] then some (.waiting {} c) else c.evaluate fuel source

/-- What is printed at the end of the input. -/
def farewell : Text := "\n"

/-- Takes inputs until the console is closed or there are no more. -/
def run (fuel : Nat) (c : Console) : List Console.Input → Option Printed
  | [] => some ⟨farewell, []⟩
  | input :: rest => do
    match ← c.step fuel input with
    | .closed => return {}
    | .waiting printed c => return printed ++ (← run fuel c rest)

end Console

end Scriptlet

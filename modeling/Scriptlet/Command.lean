import Scriptlet.Command.Options
import Scriptlet.Console
import Scriptlet.Settings.File
import Scriptlet.Tree.Dump

/-!
# Commands

A command shows the tokens or the tree of a source file, runs it, or opens the console. It sees the
file system only through a workspace, and all that it does is its exit status and what it prints.
-/

namespace Scriptlet

/-- The end of a command. -/
structure Reply where
  exit : Nat
  printed : Printed
  deriving DecidableEq, Repr

namespace Command

/-- The exit status of a command that was used in the wrong way. -/
def misuse : Nat := 1

/-- How commands are used. -/
def usage : Text :=
  .join "\n" ["Usage:",
    "  fail tokens <file> [--json]   Tokenize and print tokens",
    "  fail parse  <file>            Parse and print AST (JSON)",
    "  fail run    <file> [--json]   Run a source file",
    "  fail repl                     Start interactive REPL",
    "Flags for run and repl:",
    "  --config <file>   configuration file (default ./" ++ Settings.fileName ++ " if present)",
    "  --verbose         trace pipeline phases to stderr"]

/-- A reply that only complains. -/
def complain (message : Text) : Reply :=
  ⟨misuse, ⟨[], ("error: " ++ message : Text).line⟩⟩

/-- A reply that complains and explains. -/
def explain (message : Text) : Reply :=
  ⟨misuse, ⟨[], ("error: " ++ message : Text).line ++ usage.line⟩⟩

/-- The complaint about data that cannot be written. -/
def unwritable (message : Text) : Text := ("error: JSON encoding failed: " ++ message : Text).line

/-- The exit status of a report. -/
def statusOf (report : Report) : Nat :=
  if report.hasErrors then Verdict.staticError.exitStatus else Verdict.ok.exitStatus

/-- A token on a line of its own: kind, text and place in columns. -/
def tokenLine (t : Token) : Text :=
  let shown : Text := if t.kind = .endOfInput then "<eof>" else t.lexeme
  (t.kind.text.padRight 12 ++ " " ++ shown.padRight 20 ++ " " ++ t.span.start.text : Text).line

/-- A token as data. -/
def tokenData (t : Token) : Json :=
  .object ([("kind", .text t.kind.text), ("lexeme", .text t.lexeme)] ++
    Json.optional "literal" (t.literal.map Literal.dump) ++
    [("line", .int t.span.start.line), ("column", .int t.span.start.column),
      ("offset", .int t.span.start.offset)])

/-- Shows the tokens of a source. -/
def showTokens (options : Options) (source : Text) : Reply :=
  let found := tokenize source
  let printed : Printed :=
    if options.json then
      match (Json.sorted [("tokens", .list (found.tokens.map tokenData)),
          ("diagnostics", found.report.data)]).document with
      | .ok text => ⟨text, []⟩
      | .error message => ⟨[], unwritable message⟩
    else ⟨found.tokens.flatMap tokenLine, found.report.lines⟩
  ⟨statusOf found.report, printed⟩

/-- Shows the tree of a source. -/
def showTree (source : Text) : Reply :=
  let found := tokenize source
  let (program, faults) := parseProgram found.tokens
  let report := found.report ++ faults
  match (Json.sorted [("ast", program.dump), ("diagnostics", report.data)]).document with
  | .ok text => ⟨statusOf report, ⟨text, []⟩⟩
  | .error message => ⟨misuse, ⟨[], unwritable message⟩⟩

/-- The settings that hold for a command. -/
def settings (w : Workspace) (options : Options) : Except Settings.LoadFault Settings :=
  if options.config = [] then Settings.discover w w.directoryPath
  else Settings.load w options.config

/-- Runs a source. -/
def runProgram (fuel : Nat) (w : Workspace) (clock : Clock) (options : Options)
    (source file : Text) : Option Reply := do
  match settings w options with
  | .error fault => return complain fault.message
  | .ok settings =>
    let (result, session) ← (Session.start settings clock.seconds false).run fuel source file
    let (out, session) := session.takeOutput
    let log := if options.verbose then clock.log session.takeTrace.1 else []
    if options.json then
      match (Json.sorted [("outcome", .text result.verdict.text),
          ("diagnostics", result.report.data)]).document with
      | .ok text => return ⟨result.verdict.exitStatus, ⟨out, log ++ text⟩⟩
      | .error message => return ⟨misuse, ⟨out, log ++ unwritable message⟩⟩
    else return ⟨result.verdict.exitStatus, ⟨out, log ++ result.report.lines⟩⟩

/-- A command that has been started: it has ended, or its console waits for input. -/
inductive Started where
  | ended (reply : Reply)
  | waiting (printed : Printed) (console : Console)

/-- Opens the console. -/
def openConsole (w : Workspace) (clock : Clock) (options : Options) : Started :=
  match settings w options with
  | .error fault => .ended (complain fault.message)
  | .ok settings =>
    let warning : Text :=
      if (settings.historyPath? w.home).isSome then []
      else ("warning: history disabled: " ++ Settings.homeMissing : Text).line
    let (printed, console) := Console.start settings options.verbose clock
    .waiting (⟨[], warning⟩ ++ printed) console

/-- The commands that take a file. -/
inductive FileCommand where
  | tokens
  | parse
  | run
  deriving DecidableEq, Repr

/-- The command of a name. -/
def FileCommand.ofName? (name : Text) : Option FileCommand :=
  if name = ("tokens" : Text) then some .tokens
  else if name = ("parse" : Text) then some .parse
  else if name = ("run" : Text) then some .run
  else none

/-- Carries out a command on the file that its arguments name. -/
def onFile (fuel : Nat) (w : Workspace) (clock : Clock) (command : FileCommand)
    (options : Options) : Option Reply :=
  match options.arguments with
  | [] => some (complain "missing file argument")
  | file :: _ =>
    match w.read file with
    | .error error => some (complain ("cannot read file " ++ file ++ ": " ++ error.message))
    | .ok source =>
      match command with
      | .tokens => some (showTokens options source)
      | .parse => some (showTree source)
      | .run => runProgram fuel w clock options source file

/-- Starts the command that a list of arguments asks for. -/
def start (fuel : Nat) (w : Workspace) (clock : Clock) : List Text → Option Started
  | [] => some (.ended ⟨misuse, ⟨[], usage.line⟩⟩)
  | name :: arguments =>
    match Options.read arguments with
    | .error fault => some (.ended (explain fault.message))
    | .ok options =>
      match FileCommand.ofName? name with
      | some command => (onFile fuel w clock command options).map .ended
      | none =>
        if name = ("repl" : Text) then some (openConsole w clock options)
        else some (.ended (explain ("unknown command '" ++ name ++ "'")))

/-- Carries out a command to its end, with a text for the console. -/
def run (fuel : Nat) (w : Workspace) (clock : Clock) (arguments : List Text) (input : Text) :
    Option Reply := do
  match ← start fuel w clock arguments with
  | .ended reply => return reply
  | .waiting printed console =>
    return ⟨Verdict.ok.exitStatus, printed ++ (← console.run fuel (inputs input))⟩

end Command

end Scriptlet

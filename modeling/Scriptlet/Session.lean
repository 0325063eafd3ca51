import Scriptlet.Evaluator
import Scriptlet.Settings
import Scriptlet.Token.Lexer
import Scriptlet.Tree.Parser

/-!
# Sessions

A session runs one source after the other on one machine, so that later sources see the globals of
earlier ones. A source is read, resolved and run, and each of these steps is taken only if the ones
before it found no error: a source with a static error changes nothing.
-/

namespace Scriptlet

/-- How a source ended. -/
inductive Verdict where
  | ok
  /-- The source was not run. -/
  | staticError
  /-- The run stopped at an error. -/
  | runtimeError
  | other (n : Int)
  deriving DecidableEq, Repr

namespace Verdict

/-- The verdict with a number. -/
def ofNumber : Int → Verdict
  | 0 => .ok
  | 1 => .staticError
  | 2 => .runtimeError
  | n => .other n

/-- A verdict in words. -/
def text : Verdict → Text
  | .ok => "ok"
  | .staticError => "static error"
  | .runtimeError => "runtime error"
  | .other _ => "unknown"

/-- The exit status of a program that ended so. -/
def exitStatus : Verdict → Nat
  | .staticError => 65
  | .runtimeError => 70
  | _ => 0

end Verdict

/-- What one source produced. -/
structure Result where
  verdict : Verdict
  report : Report
  /-- The value of an expression that stood alone. -/
  value : Option Value := none

/-- A step of a session, for those who want to follow it. -/
inductive TraceEvent where
  | ready (natives : List Text)
  | tokenized (file : Text) (tokens found : Nat)
  | parsed (statements found : Nat)
  | resolved (found : Nat)
  | ran
  | resultLost
  | ended (verdict : Verdict) (found : Nat)

namespace TraceEvent

/-- The error of a sink that cannot be written to. -/
def brokenSink : Text := "output is broken"

/-- An event on one line; steps that take time say how long they took. -/
def text (duration : Text) : TraceEvent → Text
  | .ready natives => "session ready, natives [" ++ .join " " natives ++ "]"
  | .tokenized file tokens found =>
    "lex " ++ file ++ ": " ++ .ofNat tokens ++ " tokens, " ++ .ofNat found ++ " diagnostics in " ++
      duration
  | .parsed statements found =>
    "parse: " ++ .ofNat statements ++ " statements, " ++ .ofNat found ++ " diagnostics in " ++
      duration
  | .resolved found => "resolve: " ++ .ofNat found ++ " diagnostics in " ++ duration
  | .ran => "interpret: done in " ++ duration
  | .resultLost => "write result: " ++ brokenSink
  | .ended verdict found => verdict.text ++ " with " ++ .ofNat found ++ " diagnostics"

end TraceEvent

/-- A session. -/
structure Session where
  settings : Settings
  machine : Machine
  /-- The links of the sources that were run, in the order in which they were made. -/
  links : List LinkRecord := []
  /-- What happened, the latest first. -/
  trace : List TraceEvent

/-- Whether tokens hold nothing that only a statement has. -/
def isBareExpression (tokens : List Token) : Bool :=
  tokens.all fun t =>
    match t.kind with
    | .semicolon | .leftBrace | .rightBrace | .kwClass | .kwFun | .kwVar | .kwFor | .kwIf | .kwWhile
    | .kwDo | .kwBreak | .kwContinue | .kwPrint | .kwReturn => false
    | _ => true

namespace Session

/-- A session at its start. -/
def start (settings : Settings) (clock : Float) (broken : Bool) : Session where
  settings := settings
  machine := .start (settings.natives.filterMap Native.ofName?) clock broken
  trace := [.ready settings.natives]

/-- The global names, in ascending order. -/
def names (s : Session) : List Text := s.machine.globalNames

/-- What was printed since the last time, and the session without it. -/
def takeOutput (s : Session) : Text × Session :=
  (s.machine.sink.text,
    { s with machine := { s.machine with sink := { s.machine.sink with printed := [] } } })

/-- What happened since the last time, in order, and the session without it. -/
def takeTrace (s : Session) : List TraceEvent × Session := (s.trace.reverse, { s with trace := [] })

/-- Notes an event. -/
def note (s : Session) (event : TraceEvent) : Session := { s with trace := event :: s.trace }

/-- The end of a source. Warnings are left out if the settings say so. -/
def finish (s : Session) (verdict : Verdict) (report : Report) (value : Option Value) :
    Result × Session :=
  let shown := if s.settings.warnings then report else report.withSeverity .error
  let s := if verdict = .ok then s else s.note (.ended verdict shown.length)
  (⟨verdict, shown, value⟩, s)

/-- Reads the tokens of a source. -/
def readTokens (s : Session) (source file : Text) : Tokens × Session :=
  let found := tokenize source
  (⟨found.tokens, found.report.attributed .syntactic⟩,
    s.note (.tokenized file found.tokens.length found.report.length))

/-- Resolves and runs statements. There is no answer if the fuel runs out. -/
def execute (fuel : Nat) (s : Session) (stmts : List (Stmt Unit)) (report : Report) :
    Option (Result × Session) :=
  let resolved := resolveStmts (s.machine.heap.names Heap.globals) stmts s.links.length
  let report := report ++ resolved.report
  let s := s.note (.resolved report.length)
  if report.hasErrors then some (s.finish .staticError report none)
  else
    let s := { s with links := s.links ++ resolved.links }
    match Machine.run fuel resolved.tree s.machine with
    | .ok _ m => some (({ s with machine := m }.note .ran).finish .ok report none)
    | .error e m =>
      some (({ s with machine := m }.note .ran).finish .runtimeError (report ++ [e.report]) none)
    | .outOfFuel => none

/-- Runs a complete program. -/
def run (fuel : Nat) (s : Session) (source file : Text) : Option (Result × Session) :=
  let (found, s) := s.readTokens source file
  if found.report.hasErrors then some (s.finish .staticError found.report none)
  else
    let (program, faults) := parseProgram found.tokens
    let report := found.report ++ Report.attributed .syntactic faults
    let s := s.note (.parsed program.stmts.length faults.length)
    if report.hasErrors then some (s.finish .staticError report none)
    else s.execute fuel program.stmts report

/-- Evaluates an expression that stands alone and prints its value. -/
def evaluateExpression (fuel : Nat) (s : Session) (expr : Expr Unit) (report : Report) :
    Option (Result × Session) :=
  let resolved := resolveExpr (s.machine.heap.names Heap.globals) expr s.links.length
  let report := report ++ resolved.report
  if report.hasErrors then some (s.finish .staticError report none)
  else
    let s := { s with links := s.links ++ resolved.links }
    match Machine.evaluate fuel resolved.tree s.machine with
    | .ok v m =>
      let s := { s with machine := { m with sink := m.sink.write v.shown.line } }
      let s := if m.sink.broken then s.note .resultLost else s
      some (s.finish .ok report (some v))
    | .error e m =>
      some ({ s with machine := m }.finish .runtimeError (report ++ [e.report]) none)
    | .outOfFuel => none

/-- Takes one input of the console: an expression, whose value is printed, or statements. -/
def eval (fuel : Nat) (s : Session) (source : Text) : Option (Result × Session) :=
  let (found, s) := s.readTokens source "<repl>"
  if found.report.hasErrors then some (s.finish .staticError found.report none)
  else if found.tokens.head?.all fun t => t.kind = .endOfInput then
    some (s.finish .ok found.report none)
  else if isBareExpression found.tokens then
    let (expr, faults) := parseExpression found.tokens
    let report := found.report ++ Report.attributed .syntactic faults
    match expr with
    | none => some (s.finish .staticError report none)
    | some expr =>
      if report.hasErrors then some (s.finish .staticError report none)
      else s.evaluateExpression fuel expr report
  else
    let (program, faults) := parseProgram found.tokens
    let report := found.report ++ Report.attributed .syntactic faults
    if report.hasErrors then some (s.finish .staticError report none)
    else s.execute fuel program.stmts report

end Session

end Scriptlet

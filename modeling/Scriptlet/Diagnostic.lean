import Scriptlet.Span

/-!
# Diagnostics

A diagnostic is one finding about a program: a code that never changes, a severity, the stage that
made it, a message and a place. A report is the list of the findings of one run, in order.
-/

namespace Scriptlet

/-- How much a finding matters. Only errors stop a program. -/
inductive Severity where
  | error
  | warning
  | other (n : Int)
  deriving DecidableEq, Repr

namespace Severity

/-- The severity with a number. -/
def ofNumber : Int → Severity
  | 0 => .error
  | 1 => .warning
  | n => .other n

/-- The name of a severity. -/
def text : Severity → Text
  | .error => "error"
  | .warning => "warning"
  | .other _ => "unknown"

end Severity

/-- The part of the work that made a finding: reading the source, resolving names, or running. -/
inductive Stage where
  | syntactic
  | resolve
  | runtime
  | other (n : Int)
  deriving DecidableEq, Repr

namespace Stage

/-- The stage with a number. -/
def ofNumber : Int → Stage
  | 0 => .syntactic
  | 1 => .resolve
  | 2 => .runtime
  | n => .other n

/-- The name of a stage. -/
def text : Stage → Text
  | .syntactic => "syntax"
  | .resolve => "resolve"
  | .runtime => "runtime"
  | .other _ => "unknown"

end Stage

/-- A finding. -/
structure Diagnostic where
  code : Text
  severity : Severity
  stage : Stage
  message : Text
  span : Span
  /-- The text of the token at fault, empty when there is none. -/
  lexeme : Text := []
  /-- Advice, empty when there is none. -/
  hint : Text := []
  deriving DecidableEq, Repr

namespace Diagnostic

/-- Whether a finding is an error. -/
def isError (d : Diagnostic) : Bool := d.severity = .error

/-- A finding on one line. -/
def text (d : Diagnostic) : Text :=
  let near : Text := if d.lexeme = [] then [] else " near '" ++ d.lexeme ++ "'"
  let hint : Text := if d.hint = [] then [] else " (hint: " ++ d.hint ++ ")"
  "[" ++ d.code ++ "] " ++ d.severity.text ++ " at " ++ d.span.start.text ++ near ++ ": " ++
    d.message ++ hint

end Diagnostic

/-- The findings of one run, in the order in which they were made. -/
abbrev Report := List Diagnostic

namespace Report

/-- The same findings, all attributed to one stage. -/
def attributed (stage : Stage) (r : Report) : Report := r.map fun d => { d with stage := stage }

/-- Whether there is an error. Warnings never count. -/
def hasErrors (r : Report) : Bool := r.any Diagnostic.isError

/-- Whether a stage found an error. -/
def hasStageErrors (stage : Stage) (r : Report) : Bool :=
  r.any fun d => d.isError && d.stage = stage

/-- The findings of one severity. -/
def withSeverity (severity : Severity) (r : Report) : Report :=
  r.filter fun d => d.severity = severity

end Report

end Scriptlet

import Scriptlet.Console.Palette
import Scriptlet.Diagnostic
import Scriptlet.Json

/-!
# Reports for people and programs

A report is printed with one finding on each line, plain or in colour, or handed on as data.
-/

namespace Scriptlet

/-- A finding as data. Its place is where it starts; an empty lexeme or hint has no field. -/
def Diagnostic.data (d : Diagnostic) : Json :=
  let unlessEmpty (t : Text) : Option Json := if t = [] then none else some (.text t)
  .sorted
    ([("code", .text d.code), ("severity", .text d.severity.text), ("stage", .text d.stage.text),
      ("message", .text d.message), ("line", .int d.span.start.line),
      ("column", .int d.span.start.column), ("offset", .int d.span.start.offset)] ++
      Json.optional "lexeme" (unlessEmpty d.lexeme) ++ Json.optional "hint" (unlessEmpty d.hint))

/-- The ink of a severity. -/
def Severity.ink : Severity → Ink
  | .warning => .yellow
  | _ => .red

namespace Report

/-- A report with one finding on each line. -/
def lines (r : Report) : Text := r.flatMap fun d => d.text.line

/-- A report with one finding on each line, in the ink of its severity. -/
def painted (p : Palette) (r : Report) : Text :=
  r.flatMap fun d => (p.paint [d.severity.ink] d.text).line

/-- A report as data. -/
def data (r : Report) : Json := .list (r.map Diagnostic.data)

end Report

end Scriptlet

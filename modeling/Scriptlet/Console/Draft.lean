import Scriptlet.Text

/-!
# Inputs of several lines

The console joins lines until as many braces are closed as are open. Braces are counted wherever
they stand, also in strings and comments.
-/

namespace Scriptlet

/-- The lines of an input that is not complete yet. -/
structure Draft where
  text : Text := []
  /-- How many more braces are open than closed. -/
  depth : Int := 0

namespace Draft

/-- Whether an input has been begun and not completed. -/
def isPending (d : Draft) : Bool := d.depth > 0

/-- How many more braces a line opens than it closes. -/
def balance (line : Text) : Int :=
  (line.count (Text.byte '\x7b') : Int) - (line.count (Text.byte '\x7d') : Int)

/-- Adds a line. A complete input is handed out and leaves an empty draft. -/
def add (d : Draft) (line : Text) : Option Text × Draft :=
  let depth := d.depth + balance line
  let text := d.text ++ line.line
  if depth > 0 then (none, ⟨text, depth⟩) else (some text, {})

end Draft

end Scriptlet

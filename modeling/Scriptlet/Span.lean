import Scriptlet.Text

/-!
# Positions and spans

A position is a place between two bytes of a source, and a span the half-open stretch between two
positions. Lines and columns count from one, offsets from zero; columns count bytes.
-/

namespace Scriptlet

/-- A place in a source. The coordinates are integers because a finding may be placed anywhere. -/
structure Position where
  offset : Int
  line : Int
  column : Int
  deriving DecidableEq, Repr, Inhabited

namespace Position

/-- Where a source begins. -/
def start : Position := ⟨0, 1, 1⟩

/-- Where no source is: the place of tokens that stand for nothing written. -/
def nowhere : Position := ⟨0, 0, 0⟩

/-- The position after one more byte. -/
def next (p : Position) (b : UInt8) : Position :=
  if b = Text.byte '\n' then ⟨p.offset + 1, p.line + 1, 1⟩ else ⟨p.offset + 1, p.line, p.column + 1⟩

/-- The position after a text that begins at `p`. -/
def after (p : Position) (t : Text) : Position := t.foldl next p

/-- Line and column. -/
def text (p : Position) : Text := .ofInt p.line ++ ":" ++ .ofInt p.column

end Position

/-- The stretch from `start` up to `stop`. -/
structure Span where
  start : Position
  stop : Position
  deriving DecidableEq, Repr, Inhabited

namespace Span

/-- The span of what was never written. -/
def nowhere : Span := ⟨.nowhere, .nowhere⟩

/-- The two ends. -/
def text (s : Span) : Text := s.start.text ++ ".." ++ s.stop.text

/-- The smallest span that covers both. -/
def join (a b : Span) : Span where
  start := if b.start.offset < a.start.offset then b.start else a.start
  stop := if a.stop.offset < b.stop.offset then b.stop else a.stop

end Span

end Scriptlet

import Scriptlet.Document.Token

/-!
# Plain texts

A plain text has no quotes. It ends before a colon and a gap, before a comment, before a sign of
a flow collection if it is inside one, and before a line that is indented too little.
-/

namespace Scriptlet.Document

/-- Signs that end a plain text inside a flow collection. -/
def isFlowSign (c : Char) : Bool := [',', '?', '[', ']', '\x7b', '\x7d'].contains c

/-- A plain text that has been read. -/
structure Plain where
  text : Text
  /-- Whether a line ended between the last word and the rest. -/
  crossedLine : Bool
  rest : List Glyph

/-- Reads on in a plain text that starts at a place. The characters so far, and the gap after them,
are listed last first. -/
def plainFrom (flow : Bool) (margin : Int) (start : Mark) (chars : List Char) (gap : List Glyph) :
    List Glyph → Except Fault Plain
  | [] => .ok ⟨textOf chars.reverse, gap.any Glyph.isBreak, []⟩
  | g :: rest =>
    let crossed := gap.any Glyph.isBreak
    if g.isGap then
      if crossed ∧ g.char = '\t' ∧ (g.mark.column : Int) < margin then
        .error (.lexical .tabInText start g.mark)
      else plainFrom flow margin start chars (g :: gap) rest
    else
      let outside := gap ≠ [] ∧ ((¬flow ∧ (g.mark.column : Int) < margin) ∨ g.char = '#')
      let ends := (g.char = ':' ∧ rest.head?.all Glyph.isGap) ∨ (flow ∧ isFlowSign g.char)
      if outside ∨ isAnySeparator (g :: rest) ∨ ends then
        .ok ⟨textOf chars.reverse, crossed, g :: rest⟩
      else plainFrom flow margin start (g.char :: (foldGap gap.reverse).reverse ++ chars) [] rest

end Scriptlet.Document

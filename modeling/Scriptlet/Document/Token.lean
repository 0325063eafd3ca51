import Scriptlet.Document.Glyph

/-!
# Tokens of a document

Tokens are the signs, names and texts of a document, and the places at which nested blocks begin
and end, which only the indentation shows.
-/

namespace Scriptlet.Document

/-- What a token is. -/
inductive Sign where
  | documentStart
  | documentEnd
  | streamEnd
  | blockSequence
  | blockMapping
  | blockEnd
  | flowSequence
  | flowSequenceEnd
  | flowMapping
  | flowMappingEnd
  /-- The hyphen before an item of a block sequence. -/
  | entry
  /-- The comma of a flow collection. -/
  | comma
  | key
  | value
  | reference (name : Text)
  | anchor (name : Text)
  | tag (handle suffix : Text)
  /-- A text; a plain one stands without quotes and may mean something else than itself. -/
  | scalar (text : Text) (plain : Bool)
  deriving DecidableEq, Repr

/-- A token and the place where it starts. -/
structure Token where
  sign : Sign
  mark : Mark
  deriving DecidableEq, Repr

/-- The text of characters. -/
def textOf (chars : List Char) : Text := chars.flatMap String.utf8EncodeChar

/-- What a gap between two words of a text is worth. Blanks stand for themselves; a single line feed
counts as a blank, and of several the first one is dropped. -/
def foldGap (gap : List Glyph) : List Char :=
  match gap.filter Glyph.isBreak with
  | [] => gap.map Glyph.char
  | [first] => if first.char = '\n' then [' '] else [first.char]
  | first :: others =>
    if first.char = '\n' then others.map Glyph.char else first.char :: others.map Glyph.char

end Scriptlet.Document

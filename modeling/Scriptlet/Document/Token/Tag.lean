import Scriptlet.Document.Token
import Scriptlet.Text.Table

/-!
# Anchors, aliases and tags

An anchor names a node, an alias stands for a node with a name, and a tag says what kind of value
a node is.
-/

namespace Scriptlet.Document

/-- Signs that may directly follow the name of an anchor or alias. -/
def endsName (c : Char) : Bool := ['?', ':', ',', ']', '\x7d', '%', '@', '\x60'].contains c

/-- Reads the name of an anchor or alias after its indicator. -/
def anchorName (start finish : Mark) (glyphs : List Glyph) : Except Fault (Text × List Glyph) :=
  let name := glyphs.takeWhile Glyph.isName
  let rest := glyphs.dropWhile Glyph.isName
  if name = [] ∨ rest.head?.any (fun g => !g.isGap && !endsName g.char) then
    .error (.lexical .nameExpected start (rest.head?.elim finish Glyph.mark))
  else .ok (textOf (name.map Glyph.char), rest)

/-- Characters that tags are made of. -/
def isTagChar (g : Glyph) : Bool :=
  g.isName || [';', '/', '?', ':', '@', '&', '=', '+', '$', '.', '!', '~', '*', '\'', '(', ')', '[',
    ']', '%'].contains g.char

/-- The bytes of the characters of a tag. A percent sign and two hexadecimal digits are one byte. -/
def tagBytes : List Char → Text
  | '%' :: a :: b :: rest =>
    match Table.hexDigit? a, Table.hexDigit? b with
    | some x, some y => (x * 16 + y).toUInt8 :: tagBytes rest
    | _, _ => Text.byte '%' :: tagBytes (a :: b :: rest)
  | c :: rest => String.utf8EncodeChar c ++ tagBytes rest
  | [] => []

/-- Splits a tag into the handle that abbreviates its beginning and the rest. A tag that is an
exclamation mark alone has no handle. -/
def splitTag (chars : List Char) : Text × Text :=
  let isName (c : Char) : Bool := c.isAlphanum || c = '_' || c = '-'
  let body := chars.drop 1
  match body.dropWhile isName with
  | '!' :: suffix => (textOf ('!' :: body.takeWhile isName ++ ['!']), tagBytes suffix)
  | _ => if body = [] then ([], "!") else ("!", tagBytes body)

/-- Reads a tag that starts here. -/
def tag (start finish : Mark) (glyphs : List Glyph) : Except Fault (Sign × List Glyph) := do
  let place (rest : List Glyph) : Mark := rest.head?.elim finish Glyph.mark
  let verbatim := (glyphs.drop 1).head?.any fun g => g.char = '<'
  let (sign, rest) ←
    if verbatim then
      let body := glyphs.drop 2
      let rest := body.dropWhile isTagChar
      let chars := (body.takeWhile isTagChar).map Glyph.char
      if chars = [] then throw (Fault.lexical .tagExpected start (place rest))
      else if rest.head?.all fun g => g.char ≠ '>' then
        throw (Fault.lexical .tagClosingExpected start (place rest))
      else pure (Sign.tag [] (tagBytes chars), rest.drop 1)
    else
      let rest := glyphs.dropWhile isTagChar
      let (handle, suffix) := splitTag ((glyphs.takeWhile isTagChar).map Glyph.char)
      if suffix = [] then throw (Fault.lexical .tagExpected start (place rest))
      else pure (Sign.tag handle suffix, rest)
  if rest.head?.all Glyph.isGap then return (sign, rest)
  else throw (.lexical .tagEndExpected start (place rest))

end Scriptlet.Document

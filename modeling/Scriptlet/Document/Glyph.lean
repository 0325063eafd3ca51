import Scriptlet.Document

/-!
# The characters of a document

A document is a list of glyphs: characters, each with its place. All it takes to know where a token
starts is then its first glyph. Line breaks of every system are read as a line feed.
-/

namespace Scriptlet.Document

/-- A character of a document with its place. -/
structure Glyph where
  char : Char
  mark : Mark
  deriving DecidableEq, Repr

namespace Glyph

/-- Blanks and tabs. -/
def isBlank (g : Glyph) : Bool := g.char = ' ' || g.char = '\t'

/-- Characters that end a line. -/
def isBreak (g : Glyph) : Bool := g.char = '\n' || g.char = '\u2028' || g.char = '\u2029'

/-- Characters that separate words. -/
def isGap (g : Glyph) : Bool := g.isBlank || g.isBreak

/-- Characters that names are made of. -/
def isName (g : Glyph) : Bool := g.char.isAlphanum || g.char = '_' || g.char = '-'

end Glyph

/-- How many bytes the first byte of a character announces. -/
def announcedLength? (b : UInt8) : Option Nat :=
  if b < 0x80 then some 1
  else if b < 0xC0 then none
  else if b < 0xE0 then some 2
  else if b < 0xF0 then some 3
  else if b < 0xF8 then some 4
  else none

/-- The smallest code that needs a number of bytes. -/
def leastCode : Nat → Nat
  | 2 => 0x80
  | 3 => 0x800
  | 4 => 0x10000
  | _ => 0

/-- Whether a code stands for a character that a document may hold. -/
def isAllowed (n : Nat) : Bool :=
  n = 0x09 || n = 0x0A || n = 0x0D || (0x20 ≤ n && n ≤ 0x7E) || n = 0x85 ||
  (0xA0 ≤ n && n ≤ 0xD7FF) || (0xE000 ≤ n && n ≤ 0xFFFD) || (0x10000 ≤ n && n ≤ 0x10FFFF)

/-- The character of a first byte and the bytes after it that belong to it. -/
def decode (length : Nat) (first : UInt8) (others : Text) : Except Cause Char :=
  if others.length + 1 < length then .error .shortCharacter
  else if others.any fun b => b < 0x80 || b ≥ 0xC0 then .error .badTrailingByte
  else
    let lead := first.toNat % (if length = 1 then 0x80 else Nat.pow 2 (7 - length))
    let code := others.foldl (fun (n : Nat) (b : UInt8) => n * 64 + b.toNat % 64) lead
    if code < leastCode length then .error .overlongCharacter
    else if (0xD800 ≤ code ∧ code ≤ 0xDFFF) ∨ 0x10FFFF < code then .error .noCharacter
    else if isAllowed code then .ok (Char.ofNat code)
    else .error .controlCharacter

/-- The characters of a text after a number of bytes that are already accounted for. -/
def decodeAfter : (skip : Nat) → Text → Except Cause (List Char)
  | _, [] => .ok []
  | skip + 1, _ :: rest => decodeAfter skip rest
  | 0, b :: rest =>
    match announcedLength? b with
    | none => .error .badLeadingByte
    | some length => do
      let c ← decode length b (rest.take (length - 1))
      let cs ← decodeAfter (length - 1) rest
      return c :: cs

/-- The same characters with a line feed for each line break, apart from the two separators of
lines and paragraphs. -/
def unifyBreaks : List Char → List Char
  | '\r' :: '\n' :: rest => '\n' :: unifyBreaks rest
  | c :: rest => (if c = '\r' ∨ c = '\u0085' then '\n' else c) :: unifyBreaks rest
  | [] => []

/-- The glyphs of characters from a place on, and the place after them. -/
def placed (mark : Mark) : List Char → List Glyph × Mark
  | [] => ([], mark)
  | c :: rest =>
    let glyph : Glyph := ⟨c, mark⟩
    let (glyphs, finish) :=
      placed (if glyph.isBreak then ⟨mark.line + 1, 0⟩ else ⟨mark.line, mark.column + 1⟩) rest
    (glyph :: glyphs, finish)

/-- The glyphs of a text and the place after them. A byte order mark at the start is left out. -/
def glyphs (source : Text) : Except Fault (List Glyph × Mark) :=
  let source := (Text.dropBeginning? [0xEF, 0xBB, 0xBF] source).getD source
  match decodeAfter 0 source with
  | .ok chars => .ok (placed {} (unifyBreaks chars))
  | .error cause => .error (.broken cause 0)

/-- Whether a mark between documents stands here, at the start of a line: three equal signs and
then a gap or the end. -/
def isSeparator (sign : Char) : List Glyph → Bool
  | a :: b :: c :: rest =>
    a.mark.column = 0 && a.char = sign && b.char = sign && c.char = sign &&
      rest.head?.all Glyph.isGap
  | _ => false

/-- Whether the start or the end of a document is marked here. -/
def isAnySeparator (glyphs : List Glyph) : Bool := isSeparator '-' glyphs || isSeparator '.' glyphs

end Scriptlet.Document

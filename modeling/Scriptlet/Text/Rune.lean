import Scriptlet.Text

/-!
# Characters of a text

A text is read as UTF-8 wherever characters matter: quoting, padding, lengths and patterns. Reading
never fails: a byte that does not belong to an encoded character stands for itself as a stray
byte, and writing the runes of a text back gives the text again.
-/

namespace Scriptlet

/-- One unit of a text read as UTF-8: a character, or a byte that is part of none. -/
inductive Rune where
  | char (c : Char)
  | stray (b : UInt8)
  deriving DecidableEq, Repr

namespace Rune

/-- The bytes of a rune. -/
def encode : Rune → Text
  | .char c => String.utf8EncodeChar c
  | .stray b => [b]

/-- The code point of a rune, where a stray byte counts as the replacement character. -/
def code : Rune → Nat
  | .char c => c.toNat
  | .stray _ => 0xFFFD

/-- Characters that are white space. -/
def isSpace : Rune → Bool
  | .stray _ => false
  | .char c =>
    let n := c.toNat
    (0x09 ≤ n && n ≤ 0x0D) || n == 0x20 || n == 0x85 || n == 0xA0 || n == 0x1680 ||
    (0x2000 ≤ n && n ≤ 0x200A) || n == 0x2028 || n == 0x2029 || n == 0x202F || n == 0x205F ||
    n == 0x3000

end Rune

namespace Text

/-- The payload of a continuation byte. -/
def continuation? (b : UInt8) : Option Nat :=
  if 0x80 ≤ b ∧ b ≤ 0xBF then some (b.toNat - 0x80) else none

/-- The character with a code point between two bounds, the surrogates apart. -/
def charWithin? (low high n : Nat) : Option Char :=
  if low ≤ n ∧ n ≤ high ∧ n.isValidChar then some (Char.ofNat n) else none

/-- The character that a byte and those after it encode, with the number of continuation bytes.
Overlong forms, surrogates and codes above the last plane encode nothing. -/
def leadingChar? (b : UInt8) (rest : Text) : Option (Char × Nat) :=
  if b < 0x80 then some (Char.ofNat b.toNat, 0)
  else if b < 0xC0 then none
  else if b < 0xE0 then
    match rest with
    | b₁ :: _ => do
      let x ← continuation? b₁
      let c ← charWithin? 0x80 0x7FF ((b.toNat - 0xC0) * 64 + x)
      return (c, 1)
    | _ => none
  else if b < 0xF0 then
    match rest with
    | b₁ :: b₂ :: _ => do
      let x ← continuation? b₁
      let y ← continuation? b₂
      let c ← charWithin? 0x800 0xFFFF (((b.toNat - 0xE0) * 64 + x) * 64 + y)
      return (c, 2)
    | _ => none
  else
    match rest with
    | b₁ :: b₂ :: b₃ :: _ => do
      let x ← continuation? b₁
      let y ← continuation? b₂
      let z ← continuation? b₃
      let c ← charWithin? 0x10000 0x10FFFF ((((b.toNat - 0xF0) * 64 + x) * 64 + y) * 64 + z)
      return (c, 3)
    | _ => none

/-- The runes of a text after a number of bytes that are already accounted for. -/
def runesAfter : (skip : Nat) → Text → List Rune
  | _, [] => []
  | skip + 1, _ :: rest => runesAfter skip rest
  | 0, b :: rest =>
    match leadingChar? b rest with
    | some (c, n) => .char c :: runesAfter n rest
    | none => .stray b :: runesAfter 0 rest

/-- The runes of a text. -/
def runes (t : Text) : List Rune := runesAfter 0 t

/-- The text of a list of runes. -/
def ofRunes (rs : List Rune) : Text := rs.flatMap Rune.encode

/-- The text of a list of code points; a number that is no character is left out. -/
def ofCodes (codes : List Nat) : Text :=
  codes.flatMap fun n => if n.isValidChar then String.utf8EncodeChar (Char.ofNat n) else []

/-- A text without the white space around it. -/
def trim (t : Text) : Text :=
  ofRunes (((t.runes.dropWhile Rune.isSpace).reverse.dropWhile Rune.isSpace).reverse)

/-- A text filled up with spaces to a least number of runes. -/
def padRight (width : Nat) (t : Text) : Text :=
  t ++ List.replicate (width - t.runes.length) (byte ' ')

end Text

end Scriptlet

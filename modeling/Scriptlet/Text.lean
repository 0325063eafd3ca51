/-!
# Texts

A text is a sequence of bytes. Sources, lexemes, string values and messages are all texts: the
language counts offsets and columns in bytes, compares strings byte by byte, and lets a program
hold bytes that are no characters at all. What a reader sees as characters is a view of a text
(`Text.runes`), never its representation.
-/

namespace Scriptlet

/-- A sequence of bytes. -/
abbrev Text := List UInt8

namespace Text

/-- The bytes that encode a string. -/
def ofString (s : String) : Text := s.toUTF8.data.toList

instance : Coe String Text := ⟨ofString⟩

/-- A byte of an ASCII character. -/
abbrev byte (c : Char) : UInt8 := c.toNat.toUInt8

/-- A natural number in decimal digits. -/
def ofNat (n : Nat) : Text := (Nat.toDigits 10 n).map byte

/-- An integer in decimal digits, with a minus sign when it is negative. -/
def ofInt : Int → Text
  | .ofNat n => ofNat n
  | .negSucc n => byte '-' :: ofNat (n + 1)

/-- A number in lower-case hexadecimal digits, padded with zeros to a least width. -/
def ofHex (width n : Nat) : Text :=
  let digits := (Nat.toDigits 16 n).map byte
  List.replicate (width - digits.length) (byte '0') ++ digits

/-- The given texts with a separator between neighbours. -/
def join (separator : Text) : List Text → Text
  | [] => []
  | [t] => t
  | t :: rest => t ++ separator ++ join separator rest

/-- A text written a number of times. -/
def times (n : Nat) (t : Text) : Text := (List.replicate n t).flatten

/-- The line of a text, ended by a line feed. -/
def line (t : Text) : Text := t ++ [byte '\n']

/-- Texts are ordered byte by byte, a proper initial part before the whole. -/
def le : Text → Text → Bool
  | [], _ => true
  | _ :: _, [] => false
  | a :: s, b :: t => if a = b then le s t else a < b

/-- The given texts in ascending order. -/
def sort (ts : List Text) : List Text := ts.mergeSort le

/-- What is left of a text after a given beginning, if it begins so. -/
def dropBeginning? : (beginning : Text) → Text → Option Text
  | [], t => some t
  | _ :: _, [] => none
  | a :: s, b :: t => if a = b then dropBeginning? s t else none

/-- Whether a text begins with another. -/
def beginsWith (beginning t : Text) : Bool := (dropBeginning? beginning t).isSome

/-- The pieces of a text between occurrences of a byte; the empty text has one empty piece. -/
def splitOn (separator : UInt8) : Text → List Text
  | [] => [[]]
  | b :: rest =>
    match splitOn separator rest with
    | [] => [[b]]
    | piece :: pieces => if b = separator then [] :: piece :: pieces else (b :: piece) :: pieces

end Text

end Scriptlet

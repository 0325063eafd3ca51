import Scriptlet.Text.Printable
import Scriptlet.Text.Rune

/-!
# Quoted texts

A quoted text stands between double quotes and holds printable characters only: quotes and
backslashes are escaped, control characters have short or hexadecimal escapes, and so have stray
bytes and characters that cannot be shown.
-/

namespace Scriptlet.Text

/-- The letter that names a control character after a backslash. -/
def controlLetter? (n : Nat) : Option Char :=
  match n with
  | 0x07 => some 'a'
  | 0x08 => some 'b'
  | 0x09 => some 't'
  | 0x0A => some 'n'
  | 0x0B => some 'v'
  | 0x0C => some 'f'
  | 0x0D => some 'r'
  | _ => none

/-- One rune inside quotes. -/
def quoteRune : Rune → Text
  | .stray b => "\\x" ++ ofHex 2 b.toNat
  | .char c =>
    if c = '"' ∨ c = '\\' then [byte '\\', byte c]
    else if isPrintable c then String.utf8EncodeChar c
    else
      let n := c.toNat
      match controlLetter? n with
      | some letter => [byte '\\', byte letter]
      | none =>
        if n < 0x20 ∨ n = 0x7F then "\\x" ++ ofHex 2 n
        else if n < 0x10000 then "\\u" ++ ofHex 4 n
        else "\\U" ++ ofHex 8 n

/-- A text between double quotes. -/
def quoted (t : Text) : Text := "\"" ++ t.runes.flatMap quoteRune ++ "\""

end Scriptlet.Text

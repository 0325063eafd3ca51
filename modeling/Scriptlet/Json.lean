import Scriptlet.Number
import Scriptlet.Text.Rune

/-!
# Data for other programs

Reports and trees are handed to other programs as JSON, with two blanks of indentation for each
level. Characters that mean something in markup are escaped, stray bytes become the replacement
character, and numbers without a decimal form cannot be written at all.
-/

namespace Scriptlet

/-- A JSON value. The fields of an object keep the order in which they are given. -/
inductive Json where
  | null
  | bool (b : Bool)
  | int (n : Int)
  | number (x : Float)
  | text (t : Text)
  | list (items : List Json)
  | object (fields : List (String × Json))

namespace Json

/-- An object with its fields in ascending order of their names. -/
def sorted (fields : List (String × Json)) : Json :=
  .object (fields.mergeSort fun a b => Text.le a.1 b.1)

/-- The field of an optional value, if there is one. -/
def optional (name : String) (value : Option Json) : List (String × Json) :=
  (value.map fun v => (name, v)).toList

/-- One rune inside a JSON string. -/
def escapeRune : Rune → Text
  | .stray _ => Text.ofCodes [0xFFFD]
  | .char c =>
    match c with
    | '"' => "\\\""
    | '\\' => "\\\\"
    | '\n' => "\\n"
    | '\r' => "\\r"
    | '\t' => "\\t"
    | '\x08' => "\\b"
    | '\x0C' => "\\f"
    | '<' | '>' | '&' | '\u2028' | '\u2029' => "\\u" ++ .ofHex 4 c.toNat
    | c => if c.toNat < 0x20 then "\\u" ++ .ofHex 4 c.toNat else String.utf8EncodeChar c

/-- A JSON string. -/
def escape (t : Text) : Text := "\"" ++ t.runes.flatMap escapeRune ++ "\""

/-- A new line at a level of indentation. -/
def newline (level : Nat) : Text := Text.byte '\n' :: List.replicate (2 * level) (Text.byte ' ')

mutual

/-- A value at a level of indentation. -/
def render (level : Nat) : Json → Text
  | .null => "null"
  | .bool b => if b then "true" else "false"
  | .int n => .ofInt n
  | .number x => NumberLayout.data.format x
  | .text t => escape t
  | .list [] => "[]"
  | .list (item :: items) =>
    "[" ++ newline (level + 1) ++ render (level + 1) item ++ renderItems (level + 1) items ++
      newline level ++ "]"
  | .object [] => "\x7b\x7d"
  | .object ((name, value) :: fields) =>
    "\x7b" ++ newline (level + 1) ++ escape name ++ ": " ++ render (level + 1) value ++
      renderFields (level + 1) fields ++ newline level ++ "\x7d"

/-- The further items of a list. -/
def renderItems (level : Nat) : List Json → Text
  | [] => []
  | item :: items => "," ++ newline level ++ render level item ++ renderItems level items

/-- The further fields of an object. -/
def renderFields (level : Nat) : List (String × Json) → Text
  | [] => []
  | (name, value) :: fields =>
    "," ++ newline level ++ escape name ++ ": " ++ render level value ++ renderFields level fields

end

mutual

/-- The first number of a value that has no decimal form. -/
def nonFinite? : Json → Option Float
  | .number x => if x.isFinite then none else some x
  | .list items => nonFiniteItem? items
  | .object fields => nonFiniteField? fields
  | _ => none

/-- The first number of some values that has no decimal form. -/
def nonFiniteItem? : List Json → Option Float
  | [] => none
  | item :: items => item.nonFinite?.orElse fun _ => nonFiniteItem? items

/-- The first number of some fields that has no decimal form. -/
def nonFiniteField? : List (String × Json) → Option Float
  | [] => none
  | (_, value) :: fields => value.nonFinite?.orElse fun _ => nonFiniteField? fields

end

/-- The document of a value, ended by a line feed, or why there is none. -/
def document (j : Json) : Except Text Text :=
  match j.nonFinite? with
  | none => .ok (.line (j.render 0))
  | some x =>
    let shown : Text := if x.isNaN then "NaN" else if x < 0 then "-Inf" else "+Inf"
    .error ("json: unsupported value: " ++ shown)

end Json

end Scriptlet

import Scriptlet.Document.Token
import Scriptlet.Text.Table

/-!
# Quoted texts

Between single quotes only the quote itself is special: two of them stand for one. Between double
quotes a backslash introduces escapes, and at the end of a line it joins the next line without
a blank.
-/

namespace Scriptlet.Document

/-- What a character after a backslash means. -/
inductive Escape where
  | char (c : Char)
  /-- A code of a number of hexadecimal digits follows. -/
  | code (digits : Nat)

/-- The meaning of a character after a backslash, if it has one. -/
def escape? (c : Char) : Option Escape :=
  match c with
  | '0' => some (.char '\x00')
  | 'a' => some (.char '\x07')
  | 'b' => some (.char '\x08')
  | 't' | '\t' => some (.char '\t')
  | 'n' => some (.char '\n')
  | 'v' => some (.char '\x0b')
  | 'f' => some (.char '\x0c')
  | 'r' => some (.char '\r')
  | 'e' => some (.char '\x1b')
  | ' ' => some (.char ' ')
  | '"' => some (.char '"')
  | '\'' => some (.char '\'')
  | '\\' => some (.char '\\')
  | 'N' => some (.char '\u0085')
  | '_' => some (.char '\u00a0')
  | 'L' => some (.char '\u2028')
  | 'P' => some (.char '\u2029')
  | 'x' => some (.code 2)
  | 'u' => some (.code 4)
  | 'U' => some (.code 8)
  | _ => none

/-- What the reader of a quoted text is in the middle of. -/
inductive QuotedState where
  /-- A gap, last character first, which may come after an escaped line break. -/
  | words (joined : Bool) (gap : List Glyph)
  /-- A backslash has been read. -/
  | escape
  /-- Some digits of a code are still to come. -/
  | code (digits value : Nat)

/-- What a gap is worth. After an escaped line break all blanks are dropped. -/
def quotedGap (joined : Bool) (gap : List Glyph) : List Char :=
  if joined then (gap.filter Glyph.isBreak).map Glyph.char else foldGap gap

/-- Reads on in a text between quotes. The characters so far are listed last first. -/
def quotedFrom (quote : Char) (start finish : Mark) (chars : List Char) (state : QuotedState) :
    List Glyph → Except Fault (Text × List Glyph)
  | [] =>
    match state with
    | .words .. => .error (.lexical .endInQuotes start finish)
    | .escape => .error (.lexical .unknownEscape start finish)
    | .code .. => .error (.lexical .hexExpected start finish)
  | g :: rest =>
    match state with
    | .words joined gap =>
      if g.isGap then quotedFrom quote start finish chars (.words joined (g :: gap)) rest
      else if isAnySeparator (g :: rest) then .error (.lexical .separatorInQuotes start g.mark)
      else
        let chars := (quotedGap joined gap.reverse).reverse ++ chars
        if g.char = quote then
          match rest with
          | next :: rest =>
            if quote = '\'' ∧ next.char = '\'' then
              quotedFrom quote start finish ('\'' :: chars) (.words false []) rest
            else .ok (textOf chars.reverse, next :: rest)
          | [] => .ok (textOf chars.reverse, [])
        else if g.char = '\\' ∧ quote = '"' then
          quotedFrom quote start finish chars .escape rest
        else quotedFrom quote start finish (g.char :: chars) (.words false []) rest
    | .escape =>
      if g.isBreak then quotedFrom quote start finish chars (.words true []) rest
      else
        match escape? g.char with
        | none => .error (.lexical .unknownEscape start g.mark)
        | some (.char c) => quotedFrom quote start finish (c :: chars) (.words false []) rest
        | some (.code digits) => quotedFrom quote start finish chars (.code digits 0) rest
    | .code digits value =>
      match Table.hexDigit? g.char with
      | none => .error (.lexical .hexExpected start g.mark)
      | some digit =>
        let value := value * 16 + digit
        if digits > 1 then quotedFrom quote start finish chars (.code (digits - 1) value) rest
        else if value.isValidChar then
          quotedFrom quote start finish (Char.ofNat value :: chars) (.words false []) rest
        else .error (.lexical .badEscapeCode start g.mark)

end Scriptlet.Document

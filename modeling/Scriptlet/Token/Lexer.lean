import Scriptlet.Diagnostic
import Scriptlet.Number
import Scriptlet.Text.Rune
import Scriptlet.Token

/-!
# Reading tokens

A source is cut into pieces, one after the other, each as long as its form allows: blanks, line
comments, nested block comments, strings, numbers, words and operators. Every byte belongs to
exactly one piece, and a byte that can begin nothing is a piece of its own. `tokenize` places the
pieces, drops the blanks and comments and reports what is wrong with the others.
-/

namespace Scriptlet

/-- A piece of source. -/
inductive Piece where
  | blank
  | lineComment
  | blockComment (closed : Bool)
  | string (value : Text) (closed : Bool)
  | number (value : Float)
  | word
  | operator (kind : Kind)
  | illegal (b : UInt8)
  deriving Repr

/-- A form of piece that begins a source: what it is, its bytes and the bytes after it. -/
structure Cut where
  piece : Piece
  bytes : Text
  rest : Text
  deriving Repr

namespace Lexer

/-- Spaces, tabs and line ends. -/
def isBlank (b : UInt8) : Bool := b = 0x20 || b = 0x09 || b = 0x0D || b = 0x0A

/-- Decimal digits. -/
def isDigit (b : UInt8) : Bool := 0x30 ≤ b && b ≤ 0x39

/-- Letters and the underscore. -/
def isWordStart (b : UInt8) : Bool :=
  b = 0x5F || (0x61 ≤ b && b ≤ 0x7A) || (0x41 ≤ b && b ≤ 0x5A)

/-- Letters, digits and the underscore. -/
def isWordPart (b : UInt8) : Bool := isWordStart b || isDigit b

/-- A block comment after its opener, inside a number of further open comments: its bytes, the rest
of the source, and whether all comments were closed. -/
def blockBody : (depth : Nat) → Text → Text × Text × Bool
  | _, [] => ([], [], false)
  | depth, 0x2F :: 0x2A :: rest =>
    let (bytes, rest, closed) := blockBody (depth + 1) rest
    (0x2F :: 0x2A :: bytes, rest, closed)
  | depth, 0x2A :: 0x2F :: rest =>
    match depth with
    | 0 => ([0x2A, 0x2F], rest, true)
    | depth + 1 =>
      let (bytes, rest, closed) := blockBody depth rest
      (0x2A :: 0x2F :: bytes, rest, closed)
  | depth, b :: rest =>
    let (bytes, rest, closed) := blockBody depth rest
    (b :: bytes, rest, closed)

/-- The bytes that a backslash and the byte after it stand for. An unknown escape stands for
itself. -/
def unescape (b : UInt8) : Text :=
  match b with
  | 0x6E => [0x0A]
  | 0x74 => [0x09]
  | 0x72 => [0x0D]
  | 0x62 => [0x08]
  | 0x5C => [0x5C]
  | 0x22 => [0x22]
  | b => [0x5C, b]

/-- A string after its opening quote: its value, its bytes, the rest of the source, and whether a
closing quote was found. -/
def stringBody : Text → Text × Text × Text × Bool
  | [] => ([], [], [], false)
  | 0x22 :: rest => ([], [0x22], rest, true)
  | 0x5C :: [] => ([], [0x5C], [], false)
  | 0x5C :: b :: rest =>
    let (value, bytes, rest, closed) := stringBody rest
    (unescape b ++ value, 0x5C :: b :: bytes, rest, closed)
  | b :: rest =>
    let (value, bytes, rest, closed) := stringBody rest
    (b :: value, b :: bytes, rest, closed)

/-- The operator that begins with a byte, the longest one that the bytes after it allow, and the
number of further bytes it takes. -/
def operator? (b : UInt8) (rest : Text) : Option (Kind × Nat) :=
  match b, rest with
  | 0x28, _ => some (.leftParen, 0)
  | 0x29, _ => some (.rightParen, 0)
  | 0x7B, _ => some (.leftBrace, 0)
  | 0x7D, _ => some (.rightBrace, 0)
  | 0x2C, _ => some (.comma, 0)
  | 0x2E, _ => some (.dot, 0)
  | 0x3B, _ => some (.semicolon, 0)
  | 0x3A, _ => some (.colon, 0)
  | 0x3F, _ => some (.question, 0)
  | 0x2D, 0x2D :: _ => some (.minusMinus, 1)
  | 0x2D, 0x3D :: _ => some (.minusAssign, 1)
  | 0x2D, _ => some (.minus, 0)
  | 0x2B, 0x2B :: _ => some (.plusPlus, 1)
  | 0x2B, 0x3D :: _ => some (.plusAssign, 1)
  | 0x2B, _ => some (.plus, 0)
  | 0x2A, 0x2A :: 0x3D :: _ => some (.starStarAssign, 2)
  | 0x2A, 0x2A :: _ => some (.starStar, 1)
  | 0x2A, 0x3D :: _ => some (.starAssign, 1)
  | 0x2A, _ => some (.star, 0)
  | 0x2F, 0x3D :: _ => some (.slashAssign, 1)
  | 0x2F, _ => some (.slash, 0)
  | 0x21, 0x3D :: _ => some (.notEqual, 1)
  | 0x21, _ => some (.bang, 0)
  | 0x3D, 0x3D :: _ => some (.equal, 1)
  | 0x3D, _ => some (.assign, 0)
  | 0x3C, 0x3D :: _ => some (.lessEqual, 1)
  | 0x3C, _ => some (.less, 0)
  | 0x3E, 0x3D :: _ => some (.greaterEqual, 1)
  | 0x3E, _ => some (.greater, 0)
  | _, _ => none

/-- A number after its first digit: digits, and a fraction if a point is followed by a digit. -/
def cutNumber (first : UInt8) (rest : Text) : Cut :=
  let whole := first :: rest.takeWhile isDigit
  let rest := rest.dropWhile isDigit
  match rest with
  | 0x2E :: d :: after =>
    if isDigit d then
      let fraction := d :: after.takeWhile isDigit
      ⟨.number (readDecimal whole fraction), whole ++ 0x2E :: fraction, after.dropWhile isDigit⟩
    else ⟨.number (readDecimal whole []), whole, rest⟩
  | _ => ⟨.number (readDecimal whole []), whole, rest⟩

/-- The first piece of a source that begins with a byte. -/
def cut (b : UInt8) (rest : Text) : Cut :=
  if isBlank b then ⟨.blank, [b], rest⟩
  else
    match b, rest with
    | 0x2F, 0x2F :: _ =>
      ⟨.lineComment, b :: rest.takeWhile (· ≠ 0x0A), rest.dropWhile (· ≠ 0x0A)⟩
    | 0x2F, 0x2A :: rest =>
      let (bytes, rest, closed) := blockBody 0 rest
      ⟨.blockComment closed, 0x2F :: 0x2A :: bytes, rest⟩
    | 0x22, _ =>
      let (value, bytes, rest, closed) := stringBody rest
      ⟨.string value closed, 0x22 :: bytes, rest⟩
    | _, _ =>
      if isDigit b then cutNumber b rest
      else if isWordStart b then
        ⟨.word, b :: rest.takeWhile isWordPart, rest.dropWhile isWordPart⟩
      else
        match operator? b rest with
        | some (kind, n) => ⟨.operator kind, b :: rest.take n, rest.drop n⟩
        | none => ⟨.illegal b, [b], rest⟩

end Lexer

/-- What can be wrong with a piece of source. -/
inductive LexicalFault where
  | unterminatedString
  | unexpectedByte (b : UInt8)
  | unterminatedComment
  | numberTooLarge (lexeme : Text)
  deriving DecidableEq, Repr

namespace LexicalFault

/-- The code of a fault. -/
def code : LexicalFault → Text
  | .unterminatedString => "E1001"
  | .unexpectedByte _ => "E1003"
  | .unterminatedComment => "E1004"
  | .numberTooLarge _ => "E1005"

/-- The message of a fault. A byte is shown as the character with its number. -/
def message : LexicalFault → Text
  | .unterminatedString => "unterminated string literal"
  | .unexpectedByte b => "unexpected character: '" ++ Text.ofCodes [b.toNat] ++ "'"
  | .unterminatedComment => "unterminated block comment"
  | .numberTooLarge lexeme => "invalid number literal '" ++ lexeme ++ "'"

/-- The finding that a fault makes. -/
def report (f : LexicalFault) (span : Span) : Diagnostic :=
  ⟨f.code, .error, .syntactic, f.message, span, [], []⟩

end LexicalFault

namespace Piece

/-- The kind and the value of the token that a piece makes; blanks and comments make none. -/
def token? (bytes : Text) : Piece → Option (Kind × Option Literal)
  | .blank | .lineComment | .blockComment _ => none
  | .string value _ => some (.string, some (.text value))
  | .number x => some (.number, some (.number x))
  | .word => some (Kind.ofWord bytes, none)
  | .operator kind => some (kind, none)
  | .illegal _ => some (.illegal, none)

/-- What is wrong with a piece. -/
def fault? (bytes : Text) : Piece → Option LexicalFault
  | .blockComment closed => if closed then none else some .unterminatedComment
  | .string _ closed => if closed then none else some .unterminatedString
  | .number x => if x.isFinite then none else some (.numberTooLarge bytes)
  | .illegal b => some (.unexpectedByte b)
  | _ => none

end Piece

/-- Tokens and findings of a source. -/
structure Tokens where
  tokens : List Token
  report : Report

namespace Lexer

/-- The pieces of a source with their bytes. The fuel is one more than there are bytes, and each
piece takes at least one of them. -/
def pieces : (fuel : Nat) → Text → List (Piece × Text)
  | 0, _ => []
  | _, [] => []
  | fuel + 1, b :: rest =>
    let c := cut b rest
    (c.piece, c.bytes) :: pieces fuel c.rest

/-- The tokens and findings of placed pieces, and the end of the source. -/
def place : Position → List (Piece × Text) → Tokens
  | p, [] => ⟨[⟨.endOfInput, [], none, ⟨p, p⟩⟩], []⟩
  | p, (piece, bytes) :: rest =>
    let q := p.after bytes
    let span : Span := ⟨p, q⟩
    let later := place q rest
    let found := (piece.fault? bytes).map (·.report span)
    let token := (piece.token? bytes).map fun (kind, literal) => ⟨kind, bytes, literal, span⟩
    ⟨token.toList ++ later.tokens, found.toList ++ later.report⟩

end Lexer

/-- The tokens of a source, the last of which is the end of input, and what is wrong with it. -/
def tokenize (source : Text) : Tokens :=
  Lexer.place .start (Lexer.pieces (source.length + 1) source)

end Scriptlet

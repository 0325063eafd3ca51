import Scriptlet.Span
import Scriptlet.Text.Quoted

/-!
# Tokens

A token is a stretch of source with a kind. Operators, delimiters and keywords have one spelling
each, which is also the name of their kind; identifiers, numbers and strings have many. Numbers and
strings carry the value they denote.
-/

namespace Scriptlet

/-- What a token is. -/
inductive Kind where
  | illegal
  | endOfInput
  | identifier
  | number
  | string
  | leftParen
  | rightParen
  | leftBrace
  | rightBrace
  | comma
  | dot
  | semicolon
  | colon
  | question
  | minus
  | plus
  | slash
  | star
  | bang
  | assign
  | less
  | greater
  | notEqual
  | equal
  | lessEqual
  | greaterEqual
  | plusPlus
  | minusMinus
  | starStar
  | plusAssign
  | minusAssign
  | starAssign
  | slashAssign
  | starStarAssign
  | kwAnd
  | kwClass
  | kwElse
  | kwFalse
  | kwFun
  | kwFor
  | kwIf
  | kwNone
  | kwOr
  | kwPrint
  | kwReturn
  | kwSuper
  | kwThis
  | kwTrue
  | kwVar
  | kwDo
  | kwWhile
  | kwBreak
  | kwContinue
  deriving DecidableEq, Repr, Inhabited

namespace Kind

/-- The kinds of keywords, in the order of the kinds. -/
def keywords : List Kind :=
  [.kwAnd, .kwClass, .kwElse, .kwFalse, .kwFun, .kwFor, .kwIf, .kwNone, .kwOr, .kwPrint, .kwReturn,
    .kwSuper, .kwThis, .kwTrue, .kwVar, .kwDo, .kwWhile, .kwBreak, .kwContinue]

/-- Every kind, in order. -/
def all : List Kind :=
  [.illegal, .endOfInput, .identifier, .number, .string, .leftParen, .rightParen, .leftBrace,
    .rightBrace, .comma, .dot, .semicolon, .colon, .question, .minus, .plus, .slash, .star, .bang,
    .assign, .less, .greater, .notEqual, .equal, .lessEqual, .greaterEqual, .plusPlus, .minusMinus,
    .starStar, .plusAssign, .minusAssign, .starAssign, .slashAssign, .starStarAssign] ++ keywords

/-- The place of a kind in `all`. -/
def index (k : Kind) : Nat := all.idxOf k

/-- The spelling of an operator, a delimiter or a keyword, and a name for the other kinds. -/
def spelling : Kind → String
  | .illegal => "ILLEGAL"
  | .endOfInput => "EOF"
  | .identifier => "IDENT"
  | .number => "NUMBER"
  | .string => "STRING"
  | .leftParen => "("
  | .rightParen => ")"
  | .leftBrace => "\x7b"
  | .rightBrace => "\x7d"
  | .comma => ","
  | .dot => "."
  | .semicolon => ";"
  | .colon => ":"
  | .question => "?"
  | .minus => "-"
  | .plus => "+"
  | .slash => "/"
  | .star => "*"
  | .bang => "!"
  | .assign => "="
  | .less => "<"
  | .greater => ">"
  | .notEqual => "!="
  | .equal => "=="
  | .lessEqual => "<="
  | .greaterEqual => ">="
  | .plusPlus => "++"
  | .minusMinus => "--"
  | .starStar => "**"
  | .plusAssign => "+="
  | .minusAssign => "-="
  | .starAssign => "*="
  | .slashAssign => "/="
  | .starStarAssign => "**="
  | .kwAnd => "and"
  | .kwClass => "class"
  | .kwElse => "else"
  | .kwFalse => "false"
  | .kwFun => "fun"
  | .kwFor => "for"
  | .kwIf => "if"
  | .kwNone => "none"
  | .kwOr => "or"
  | .kwPrint => "print"
  | .kwReturn => "return"
  | .kwSuper => "super"
  | .kwThis => "this"
  | .kwTrue => "true"
  | .kwVar => "var"
  | .kwDo => "do"
  | .kwWhile => "while"
  | .kwBreak => "break"
  | .kwContinue => "continue"

/-- The spelling as a text. -/
def text (k : Kind) : Text := k.spelling

/-- Whether a kind is a keyword. -/
def isKeyword (k : Kind) : Bool := keywords.contains k

/-- Whether tokens of a kind stand for a name or a value of their own. -/
def isLiteral (k : Kind) : Bool := [.identifier, .number, .string].contains k

/-- The binary operator that a compound assignment combines with, and any other kind itself. -/
def binary : Kind → Kind
  | .plusAssign => .plus
  | .minusAssign => .minus
  | .starAssign => .star
  | .slashAssign => .slash
  | .starStarAssign => .starStar
  | k => k

/-- Whether a kind is an assignment that combines with an operator. -/
def isCompoundAssign : Kind → Bool
  | .plusAssign | .minusAssign | .starAssign | .slashAssign | .starStarAssign => true
  | _ => false

/-- The kind of a word: a keyword, or an identifier. -/
def ofWord (word : Text) : Kind := (keywords.find? fun k => k.text == word).getD .identifier

/-- The kind with a number, if there is one. -/
def ofNumber? : Int → Option Kind
  | .ofNat n => all[n]?
  | .negSucc _ => none

/-- The name of the kind with a number; a number without a kind is shown as such. -/
def describe (n : Int) : Text :=
  match ofNumber? n with
  | some k => k.text
  | none => "Kind(" ++ .ofInt n ++ ")"

/-- Every reserved word, in ascending order. -/
def reservedWords : List Text := Text.sort (keywords.map text)

end Kind

/-- A constant of the language. -/
inductive Literal where
  | none
  | bool (b : Bool)
  | number (x : Float)
  | text (t : Text)
  deriving Repr, Inhabited

/-- A token of a source. -/
structure Token where
  kind : Kind
  lexeme : Text
  /-- The value of a number or a string. -/
  literal : Option Literal
  span : Span
  deriving Repr, Inhabited

namespace Token

/-- A token that was not written, at the place of something that was. -/
def synthetic (kind : Kind) (lexeme : Text) (span : Span) : Token := ⟨kind, lexeme, none, span⟩

/-- The end of a list of tokens that has none of its own. -/
def missingEnd : Token := ⟨.endOfInput, [], none, .nowhere⟩

/-- Kind, quoted lexeme and position. -/
def text (t : Token) : Text :=
  t.kind.text ++ " " ++ t.lexeme.quoted ++ " " ++ t.span.start.text

end Token

end Scriptlet

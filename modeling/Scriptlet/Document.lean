import Scriptlet.Text

/-!
# Documents

Settings are written in YAML. This module holds what all parts of reading such a document share:
places in it, and the faults that end the reading. A message names a line only if it is not the
first one.
-/

namespace Scriptlet.Document

/-- A place in a document: how many lines, and how many characters of its line, are before it. -/
structure Mark where
  line : Nat := 0
  column : Nat := 0
  deriving DecidableEq, Repr

/-- What is wrong with a document. -/
inductive Cause where
  | badLeadingByte
  | badTrailingByte
  | shortCharacter
  | overlongCharacter
  | noCharacter
  | controlCharacter
  | unknownDirective
  | noTokenStart
  | entryNotAllowed
  | keyNotAllowed
  | valueNotAllowed
  | colonExpected
  | nameExpected
  | tagExpected
  | tagEndExpected
  | tagClosingExpected
  | unknownTagHandle
  | zeroIndentation
  | lineEndExpected
  | tabInIndentation
  | tabInText
  | separatorInQuotes
  | endInQuotes
  | unknownEscape
  | hexExpected
  | badEscapeCode
  | tooDeep
  | contentExpected
  | entryExpected
  | keyExpected
  | sequenceEndExpected
  | mappingEndExpected
  deriving DecidableEq, Repr

/-- What a cause says. -/
def Cause.message : Cause → Text
  | .badLeadingByte => "invalid leading UTF-8 octet"
  | .badTrailingByte => "invalid trailing UTF-8 octet"
  | .shortCharacter => "incomplete UTF-8 octet sequence"
  | .overlongCharacter => "invalid length of a UTF-8 sequence"
  | .noCharacter => "invalid Unicode character"
  | .controlCharacter => "control characters are not allowed"
  | .unknownDirective => "found unknown directive name"
  | .noTokenStart => "found character that cannot start any token"
  | .entryNotAllowed => "block sequence entries are not allowed in this context"
  | .keyNotAllowed => "mapping keys are not allowed in this context"
  | .valueNotAllowed => "mapping values are not allowed in this context"
  | .colonExpected => "could not find expected ':'"
  | .nameExpected => "did not find expected alphabetic or numeric character"
  | .tagExpected => "did not find expected tag URI"
  | .tagEndExpected => "did not find expected whitespace or line break"
  | .tagClosingExpected => "did not find the expected '>'"
  | .unknownTagHandle => "found undefined tag handle"
  | .zeroIndentation => "found an indentation indicator equal to 0"
  | .lineEndExpected => "did not find expected comment or line break"
  | .tabInIndentation => "found a tab character where an indentation space is expected"
  | .tabInText => "found a tab character that violates indentation"
  | .separatorInQuotes => "found unexpected document indicator"
  | .endInQuotes => "found unexpected end of stream"
  | .unknownEscape => "found unknown escape character"
  | .hexExpected => "did not find expected hexdecimal number"
  | .badEscapeCode => "found invalid Unicode character escape code"
  | .tooDeep => "exceeded max depth of 10000"
  | .contentExpected => "did not find expected node content"
  | .entryExpected => "did not find expected '-' indicator"
  | .keyExpected => "did not find expected key"
  | .sequenceEndExpected => "did not find expected ',' or ']'"
  | .mappingEndExpected => "did not find expected ',' or '\x7d'"

/-- Why a document cannot be read. -/
inductive Fault where
  /-- A cause, with the number of the line that its message names; zero names none. -/
  | broken (cause : Cause) (line : Nat)
  | unknownAnchor (name : Text)
  deriving DecidableEq, Repr

namespace Fault

/-- The first of two places that is not on the first line, or else the first line. -/
def decisiveLine (context problem : Mark) : Nat :=
  if context.line = 0 then problem.line else context.line

/-- A fault in the characters of a token. The token starts at the first place and the fault is at
the second; the message counts lines from one. -/
def lexical (cause : Cause) (context problem : Mark) : Fault :=
  match decisiveLine context problem with
  | 0 => .broken cause 0
  | line => .broken cause (line + 1)

/-- A fault in the order of tokens. The construct starts at the first place and the fault is at the
second; the message names the line before. -/
def structural (cause : Cause) (context problem : Mark) : Fault :=
  .broken cause (decisiveLine context problem)

/-- What a fault says. -/
def message : Fault → Text
  | .broken cause 0 => "yaml: " ++ cause.message
  | .broken cause line => "yaml: line " ++ .ofNat line ++ ": " ++ cause.message
  | .unknownAnchor name => "yaml: unknown anchor '" ++ name ++ "' referenced"

end Fault

end Scriptlet.Document

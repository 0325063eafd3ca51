import Scriptlet.Text.Rune

/-!
# Patterns

A pattern describes texts: characters and sets of them, one after the other, alternatives,
repetitions, groups that remember what they matched, references to them, and conditions on what
stands around a place. Patterns work on code points; a stray byte is the replacement character.
-/

namespace Scriptlet

/-- A set of code points: the given ranges, or everything outside of them. -/
structure CharSet where
  ranges : List (Nat × Nat)
  negated : Bool := false
  deriving DecidableEq, Repr

namespace CharSet

/-- The last code point. -/
def lastCode : Nat := 0x10FFFF

/-- The ASCII digits. -/
def digits : List (Nat × Nat) := [(0x30, 0x39)]

/-- The ASCII white space. -/
def spaces : List (Nat × Nat) := [(0x09, 0x0D), (0x20, 0x20)]

/-- The ASCII letters and digits, and the underscore. -/
def wordParts : List (Nat × Nat) := [(0x30, 0x39), (0x41, 0x5A), (0x5F, 0x5F), (0x61, 0x7A)]

/-- The two characters that end a line. -/
def lineEnds : List (Nat × Nat) := [(0x0A, 0x0A), (0x0D, 0x0D)]

/-- What lies between ascending ranges, from a code point on. -/
def gaps (start : Nat) : List (Nat × Nat) → List (Nat × Nat)
  | [] => if start ≤ lastCode then [(start, lastCode)] else []
  | (low, high) :: rest =>
    if start < low then (start, low - 1) :: gaps (high + 1) rest else gaps (high + 1) rest

/-- Whether ranges hold a code point. -/
def holds (ranges : List (Nat × Nat)) (c : Nat) : Bool :=
  ranges.any fun (low, high) => low ≤ c && c ≤ high

/-- Whether a set has a code point. -/
def has (s : CharSet) (c : Nat) : Bool := holds s.ranges c != s.negated

end CharSet

/-- A pattern. -/
inductive Pattern where
  /-- The empty text. -/
  | empty
  /-- One character of a set, possibly without regard to case. -/
  | set (chars : CharSet) (ignoreCase : Bool)
  | sequence (first second : Pattern)
  | choice (first second : Pattern)
  /-- A number of rounds, as many as possible or, if `lazy`, as few. -/
  | rounds (body : Pattern) (least : Nat) (most : Option Nat) (lazy : Bool)
  /-- A group that remembers what it matched. -/
  | capture (group : Nat) (body : Pattern)
  /-- What a group matched; a group that matched nothing stands for the empty text. -/
  | reference (group : Nat)
  /-- A condition on what follows or precedes. -/
  | look (behind : Bool) (wanted : Bool) (body : Pattern)
  /-- A part that is never tried in another way once it has matched. -/
  | committed (body : Pattern)
  | textStart
  | textEnd
  | lineStart
  | lineEnd
  /-- A place between a word character and another, or not. -/
  | wordEdge (wanted : Bool)
  deriving Repr

/-- What is wrong with the text of a pattern. -/
inductive PatternFault where
  | missingParen
  | unexpectedParen
  | unterminatedSet
  | unterminatedComment
  | missingArgument
  | nestedRepetition
  | repeatCount
  | numberTooLarge
  | endsInBackslash
  | unknownGroup (codes : List Nat)
  | invalidGroupName
  | groupZero
  | reversedRange (low high : Nat)
  | classInRange (code : Nat)
  | malformedReference
  | undefinedReference (name : List Nat)
  deriving DecidableEq, Repr

namespace PatternFault

/-- What a fault says. -/
def description : PatternFault → Text
  | .missingParen => "missing closing )"
  | .unexpectedParen => "unexpected )"
  | .unterminatedSet => "unterminated [] set"
  | .unterminatedComment => "unterminated comment"
  | .missingArgument => "missing argument to repetition operator"
  | .nestedRepetition => "invalid nested repetition operator"
  | .repeatCount => "invalid repeat count"
  | .numberTooLarge => "capture group number out of range"
  | .endsInBackslash => "illegal \\ at end of pattern"
  | .unknownGroup codes => "unrecognized grouping construct: (" ++ .ofCodes codes
  | .invalidGroupName =>
    "invalid group name: group names must begin with a word character and have a matching terminator"
  | .groupZero => "capture number cannot be zero"
  | .reversedRange low high =>
    "[" ++ .ofCodes [low] ++ "-" ++ .ofCodes [high] ++ "] range in reverse order"
  | .classInRange code => "cannot include class \\" ++ .ofNat code ++ " in character range"
  | .malformedReference => "malformed named back reference <...>"
  | .undefinedReference name => "reference to undefined group name " ++ .ofCodes name

/-- The message about a pattern that cannot be read. -/
def message (f : PatternFault) (pattern : Text) : Text :=
  let tick : Text := [0x60]
  "error parsing regexp: " ++ f.description ++ " in " ++ tick ++ pattern ++ tick

end PatternFault

end Scriptlet

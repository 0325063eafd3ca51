import Scriptlet.Text.CanonicalTable
import Scriptlet.Text.Rune

/-!
# Canonical composition

Texts that differ only in how accents are attached are the same to a reader. Canonical composition
chooses one form: every character is taken apart, marks are put into order, and what can combine
is combined again. A run of more than thirty marks is broken by a joiner, so that no text has a
segment of unbounded length.

The work goes segment by segment. A segment is a character that attaches to nothing before it and
the ones that do; each segment is taken apart, ordered and combined on its own.
-/

namespace Scriptlet.Text.Canonical

/-- Ranges of characters with their combining classes. -/
def classTable : Table := .parse classes

/-- Characters with what they are taken apart to. -/
def decompositionTable : Table := .parse decompositions

def compositionTable : Table := .parse compositions

def attachmentTable : Table := .parse attachments

/-- The combining class: zero for what is no mark. -/
def combiningClass (c : Nat) : Nat :=
  if c < 0x300 then 0
  else
    match classTable.inRange? c with
    | some [k] => k
    | _ => 0

/-! ## Hangul syllables

A syllable is a leading consonant, a vowel and possibly a trailing consonant; its code is computed
from theirs. -/

def syllableBase : Nat := 0xAC00

def leadBase : Nat := 0x1100

def vowelBase : Nat := 0x1161

def tailBase : Nat := 0x11A7

def leadCount : Nat := 19

def vowelCount : Nat := 21

def tailCount : Nat := 28

/-- Whether a character is a composed syllable. -/
def isSyllable (c : Nat) : Bool :=
  syllableBase ≤ c && c < syllableBase + leadCount * vowelCount * tailCount

/-- The parts of a syllable. -/
def syllableParts (c : Nat) : List Nat :=
  let i := c - syllableBase
  let lead := leadBase + i / (vowelCount * tailCount)
  let vowel := vowelBase + i / tailCount % vowelCount
  if i % tailCount = 0 then [lead, vowel] else [lead, vowel, tailBase + i % tailCount]

/-- A lead with a vowel, or a syllable without a tail with one. -/
def composeSyllable? (a b : Nat) : Option Nat :=
  if leadBase ≤ a ∧ a < leadBase + leadCount ∧ vowelBase ≤ b ∧ b < vowelBase + vowelCount then
    some (syllableBase + ((a - leadBase) * vowelCount + (b - vowelBase)) * tailCount)
  else if isSyllable a ∧ (a - syllableBase) % tailCount = 0 ∧ tailBase < b ∧
      b < tailBase + tailCount then
    some (a + (b - tailBase))
  else none

/-! ## Single characters -/

/-- A character taken apart. -/
def decompose (c : Nat) : List Nat :=
  if c < 0xC0 then [c]
  else if isSyllable c then syllableParts c
  else (decompositionTable.atKey? c).getD [c]

/-- The result of a follower in a row of the table of compositions. -/
def follower? (b : Nat) : List Nat → Option Nat
  | second :: result :: rest => if second = b then some result else follower? b rest
  | _ => none

/-- The character that two combine into. -/
def compose? (a b : Nat) : Option Nat :=
  (composeSyllable? a b).orElse fun _ => do follower? b (← compositionTable.atKey? a)

/-- How many characters at the beginning and at the end of a character's parts attach to what
stands before them. -/
def attached (c : Nat) : Nat × Nat :=
  if c < 0xA0 then (0, 0)
  else if isSyllable c then (0, if (c - syllableBase) % tailCount = 0 then 1 else 2)
  else
    match attachmentTable.inRange? c with
    | some [first, last] => (first, last)
    | _ => (0, 0)

/-! ## Segments -/

/-- A rune with its combining class. -/
abbrev Mark := Rune × Nat

/-- The parts of a rune; a stray byte has none but itself. -/
def parts : Rune → List Mark
  | .stray b => [(.stray b, 0)]
  | .char c => (decompose c.toNat).map fun n => (.char (Char.ofNat n), combiningClass n)

/-- Puts a mark behind the last one whose class is not above its own. The list has the last mark
first; what is no mark stays where it is. -/
def insertMark (m : Mark) : List Mark → List Mark
  | [] => [m]
  | last :: rest =>
    if m.2 = 0 ∨ last.2 ≤ m.2 then m :: last :: rest else last :: insertMark m rest

/-- Combines marks with the starter in front of them. A mark is blocked by one that was kept and
whose class is zero or not below its own. -/
def combine (starter : Rune) (kept : List Rune) (blocking : Option Nat) : List Mark → List Rune
  | [] => starter :: kept.reverse
  | (r, k) :: rest =>
    let blocked := blocking.any fun b => b = 0 || k ≤ b
    match if blocked then none else compose? starter.code r.code with
    | some c => combine (.char (Char.ofNat c)) kept blocking rest
    | none => combine starter (r :: kept) (some k) rest

/-- The composed form of a segment. -/
def composeSegment (segment : List Rune) : List Rune :=
  let ordered := (segment.flatMap parts).foldl (fun marks m => insertMark m marks) []
  match ordered.reverse with
  | [] => []
  | (starter, _) :: marks => combine starter [] none marks

/-- The most attached characters in a row. -/
def maxAttached : Nat := 30

/-- The joiner that breaks a longer row. -/
def joiner : Rune := .char '\u034F'

/-- Composes runes, given the segment so far, its last rune first, and the length of the row of
attached characters at its end. -/
def composeRunes (segment : List Rune) (row : Nat) : List Rune → List Rune
  | [] => composeSegment segment.reverse
  | r :: rest =>
    let (first, last) :=
      match r with
      | .char c => attached c.toNat
      | .stray _ => (0, 0)
    if maxAttached < row + first then
      composeSegment (joiner :: segment).reverse ++ composeRunes [r] first rest
    else if first = 0 then composeSegment segment.reverse ++ composeRunes [r] last rest
    else composeRunes (r :: segment) (row + first) rest

end Scriptlet.Text.Canonical

namespace Scriptlet.Text

/-- The composed form of a text. -/
def composed (t : Text) : Text := ofRunes (Canonical.composeRunes [] 0 t.runes)

end Scriptlet.Text

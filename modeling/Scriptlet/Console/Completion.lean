import Scriptlet.Text.Rune
import Scriptlet.Token

/-!
# Completing words

The word before the caret is completed by the reserved words first and the known names after them.
-/

namespace Scriptlet

/-- Runes that words of the language are made of. -/
def Rune.isWord : Rune → Bool
  | .char c => c.isAlphanum || c == '_'
  | .stray _ => false

/-- What can follow the word before the caret. -/
structure Completion where
  /-- The missing ends of the words that begin so, each word once. -/
  endings : List Text
  /-- The number of runes of the word. -/
  length : Nat
  deriving DecidableEq, Repr

namespace Completion

/-- The endings of those among the given words that begin with a word and are longer, where each
word counts only the first time. -/
def endingsOf (word : Text) (candidates : List Text) : List Text :=
  candidates.eraseDups.filterMap fun candidate =>
    match Text.dropBeginning? word candidate with
    | some [] | none => none
    | some ending => some ending

/-- The completion at a caret, given as the number of runes before it. -/
def find (names : List Text) (line : List Rune) (caret : Nat) : Completion :=
  let word := ((line.take caret).reverse.takeWhile Rune.isWord).reverse
  if word.isEmpty then ⟨[], 0⟩
  else ⟨endingsOf (Text.ofRunes word) (Kind.reservedWords ++ names), word.length⟩

end Completion

end Scriptlet

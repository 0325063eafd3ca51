import Scriptlet.Pattern

/-!
# Searching for patterns

A pattern is tried at every place of a text, from the left. At one place the ways in which it can
match are tried in order: the first alternative before the second, more rounds before fewer, or the
other way round for lazy repetitions. What follows a part is given to it as a continuation, so that
a part is tried in its next way when what follows fails.

A round of a repetition that takes no character ends the repetition once the least number of rounds
is reached, so the number of rounds is bounded by the length of the text.
-/

namespace Scriptlet.Pattern

/-- What groups have matched: for each the two ends of its stretch. -/
abbrev Captures := List (Nat × Nat × Nat)

/-- A place of a text and what groups have matched up to there. -/
abbrev Place := Nat × Captures

/-- What is tried after a part. -/
abbrev Continuation := Nat → Captures → Option Place

/-- Letters of ASCII in lower case. -/
def lowerCode (c : Nat) : Nat := if 0x41 ≤ c ∧ c ≤ 0x5A then c + 0x20 else c

/-- Letters of ASCII in upper case. -/
def upperCode (c : Nat) : Nat := if 0x61 ≤ c ∧ c ≤ 0x7A then c - 0x20 else c

/-- Whether a set has a character, possibly in another case. -/
def hasCode (s : CharSet) (ignoreCase : Bool) (c : Nat) : Bool :=
  if ignoreCase then s.has c || s.has (lowerCode c) || s.has (upperCode c) else s.has c

/-- Whether a word character stands at a place. -/
def wordAt (text : Array Nat) (at? : Option Nat) : Bool :=
  match at? with
  | none => false
  | some i => text[i]?.any fun c => CharSet.holds CharSet.wordParts c

/-- The place before another, if there is one. -/
def before? (i : Nat) : Option Nat := if i = 0 then none else some (i - 1)

/-- The rounds of a repetition. The budget bounds their number. -/
def repeatRounds (body : Nat → Captures → Continuation → Option Place) (lazy : Bool)
    (next : Continuation) :
    (budget least : Nat) → (most : Option Nat) → Nat → Captures → Option Place
  | 0, _, _, i, caps => next i caps
  | budget + 1, least, most, i, caps =>
    let fewer := most.map (· - 1)
    if 0 < least then
      body i caps (repeatRounds body lazy next budget (least - 1) fewer)
    else if most = some 0 then next i caps
    else
      let again (_ : Unit) := body i caps fun j caps =>
        if j = i then next j caps else repeatRounds body lazy next budget 0 fewer j caps
      if lazy then (next i caps).orElse again
      else (again ()).orElse fun _ => next i caps

/-- Whether the `n` characters from `a` on are those from `b` on. -/
def sameStretch (text : Array Nat) (a b : Nat) : (n : Nat) → Bool
  | 0 => true
  | n + 1 => text[a + n]? == text[b + n]? && text[b + n]?.isSome && sameStretch text a b n

/-- Tries a pattern at a place. Inside a condition on what precedes, patterns are matched from
right to left. -/
def tryAt (text : Array Nat) (behind : Bool) : Pattern → Nat → Captures → Continuation → Option Place
  | .empty, i, caps, next => next i caps
  | .set chars ignoreCase, i, caps, next =>
    let place := if behind then before? i else some i
    match place with
    | none => none
    | some k =>
      match text[k]? with
      | some c =>
        if hasCode chars ignoreCase c then next (if behind then k else k + 1) caps else none
      | none => none
  | .sequence first second, i, caps, next =>
    if behind then
      tryAt text behind second i caps fun j caps => tryAt text behind first j caps next
    else tryAt text behind first i caps fun j caps => tryAt text behind second j caps next
  | .choice first second, i, caps, next =>
    (tryAt text behind first i caps next).orElse fun _ => tryAt text behind second i caps next
  | .rounds body least most lazy, i, caps, next =>
    repeatRounds (fun i caps next => tryAt text behind body i caps next) lazy next
      (text.size + least + 1) least most i caps
  | .capture group body, i, caps, next =>
    tryAt text behind body i caps fun j caps => next j ((group, min i j, max i j) :: caps)
  | .reference group, i, caps, next =>
    match caps.lookup group with
    | none => next i caps
    | some (low, high) =>
      let n := high - low
      if behind then
        if n ≤ i ∧ sameStretch text low (i - n) n then next (i - n) caps else none
      else if sameStretch text low i n then next (i + n) caps
      else none
  | .look lookBehind wanted body, i, caps, next =>
    match tryAt text lookBehind body i caps (fun j caps => some (j, caps)) with
    | some (_, inner) => if wanted then next i inner else none
    | none => if wanted then none else next i caps
  | .committed body, i, caps, next =>
    match tryAt text behind body i caps (fun j caps => some (j, caps)) with
    | some (j, caps) => next j caps
    | none => none
  | .textStart, i, caps, next => if i = 0 then next i caps else none
  | .textEnd, i, caps, next => if text.size ≤ i then next i caps else none
  | .lineStart, i, caps, next =>
    if i = 0 ∨ text[i - 1]? = some 0x0A then next i caps else none
  | .lineEnd, i, caps, next =>
    if text.size ≤ i ∨ text[i]? = some 0x0A then next i caps else none
  | .wordEdge wanted, i, caps, next =>
    if (wordAt text (before? i) != wordAt text (some i)) = wanted then next i caps else none

/-- Whether a pattern matches at one of `n + 1` places up to `last`. -/
def matchesFrom (p : Pattern) (text : Array Nat) (last : Nat) : (n : Nat) → Bool
  | 0 => (tryAt text false p last [] fun i caps => some (i, caps)).isSome
  | n + 1 =>
    (tryAt text false p (last - (n + 1)) [] fun i caps => some (i, caps)).isSome ||
      matchesFrom p text last n

/-- Whether a pattern matches somewhere in a text. -/
def foundIn (p : Pattern) (t : Text) : Bool :=
  let codes := (t.runes.map Rune.code).toArray
  matchesFrom p codes codes.size codes.size

end Scriptlet.Pattern

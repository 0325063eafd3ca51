import Scriptlet.Pattern

/-!
# Reading patterns

The text of a pattern is read twice. The first reading counts the groups and collects their names,
so that a backslash and a number can be told to be a reference or a character code; it finds no
fault. The second builds the pattern and stops at the first fault.
-/

namespace Scriptlet.Pattern

/-- The groups of a pattern. -/
structure Groups where
  numbers : List Nat := []
  names : List (List Nat × Nat) := []
  deriving Repr

/-- Ways of reading and matching that a pattern can switch on and off. -/
structure Flags where
  ignoreCase : Bool := false
  multiLine : Bool := false
  singleLine : Bool := false
  /-- Only named groups remember what they match. -/
  namedOnly : Bool := false
  /-- White space and comments in the pattern mean nothing. -/
  spaced : Bool := false
  deriving DecidableEq, Repr

namespace Flags

/-- Switches the flag of a letter. -/
def switch? (f : Flags) (on : Bool) (letter : Nat) : Option Flags :=
  if letter = 0x69 ∨ letter = 0x49 then some { f with ignoreCase := on }
  else if letter = 0x6D ∨ letter = 0x4D then some { f with multiLine := on }
  else if letter = 0x73 ∨ letter = 0x53 then some { f with singleLine := on }
  else if letter = 0x6E ∨ letter = 0x4E then some { f with namedOnly := on }
  else if letter = 0x78 ∨ letter = 0x58 then some { f with spaced := on }
  else none

/-- Reads switches: letters, and signs that say which way they go. -/
def readSwitches (f : Flags) (on : Bool) : List Nat → Flags × List Nat
  | [] => (f, [])
  | c :: rest =>
    if c = 0x2D then readSwitches f false rest
    else if c = 0x2B then readSwitches f true rest
    else
      match f.switch? on c with
      | some f => readSwitches f on rest
      | none => (f, c :: rest)

end Flags

/-- Characters of words. -/
def isWordCode (c : Nat) : Bool := CharSet.holds CharSet.wordParts c

def isDigitCode (c : Nat) : Bool := CharSet.holds CharSet.digits c

/-- The value of decimal digits. -/
def decimalValue (ds : List Nat) : Nat := ds.foldl (fun n d => n * 10 + (d - 0x30)) 0

/-- The value of a hexadecimal digit. -/
def hexValue? (c : Nat) : Option Nat :=
  if 0x30 ≤ c ∧ c ≤ 0x39 then some (c - 0x30)
  else if 0x41 ≤ c ∧ c ≤ 0x46 then some (c - 0x41 + 10)
  else if 0x61 ≤ c ∧ c ≤ 0x66 then some (c - 0x61 + 10)
  else none

/-- The value of a number of hexadecimal digits, and what follows. -/
def hex? : (n : Nat) → (value : Nat) → List Nat → Option (Nat × List Nat)
  | 0, value, rest => some (value, rest)
  | _ + 1, _, [] => none
  | n + 1, value, c :: rest => do hex? n (value * 16 + (← hexValue? c)) rest

/-- The code of up to three octal digits; a third one is read only after a small number. -/
def octal : (n : Nat) → (value : Nat) → List Nat → Nat × List Nat
  | 0, value, rest => (value, rest)
  | _ + 1, value, [] => (value, [])
  | n + 1, value, c :: rest =>
    if 0x30 ≤ c ∧ c ≤ 0x37 ∧ value < 0x20 then octal n (value * 8 + (c - 0x30)) rest
    else (value, c :: rest)

/-- The control characters that letters name. -/
def namedEscapes : List (Nat × Nat) :=
  -- a b e f n r t v
  [(0x61, 0x07), (0x62, 0x08), (0x65, 0x1B), (0x66, 0x0C), (0x6E, 0x0A), (0x72, 0x0D), (0x74, 0x09),
    (0x76, 0x0B)]

/-- The control character of a letter, and what follows. -/
def control? : List Nat → Option (Nat × List Nat)
  | [] => none
  | letter :: rest =>
    let upper := if 0x61 ≤ letter ∧ letter ≤ 0x7A then letter - 0x20 else letter
    if 0x40 ≤ upper ∧ upper < 0x60 then some (upper - 0x40, rest) else none

/-- The character that an escape stands for, after the backslash. An escape that is not complete
stands for its letter. -/
def charEscape : List Nat → Except PatternFault (Nat × List Nat)
  | [] => .error .endsInBackslash
  | c :: rest =>
    if 0x30 ≤ c ∧ c ≤ 0x37 then .ok (octal 3 0 (c :: rest))
    else if c = 0x78 then .ok ((hex? 2 0 rest).getD (c, rest))
    else if c = 0x75 then .ok ((hex? 4 0 rest).getD (c, rest))
    else if c = 0x63 then .ok ((control? rest).getD (c, rest))
    else .ok ((namedEscapes.lookup c).getD c, rest)

/-- The set that a letter names after a backslash: digits, spaces, word characters, and what is
none of them. -/
def classOf? (c : Nat) : Option (List (Nat × Nat)) :=
  match c with
  | 0x64 => some CharSet.digits
  | 0x44 => some (CharSet.gaps 0 CharSet.digits)
  | 0x73 => some CharSet.spaces
  | 0x53 => some (CharSet.gaps 0 CharSet.spaces)
  | 0x77 => some CharSet.wordParts
  | 0x57 => some (CharSet.gaps 0 CharSet.wordParts)
  | _ => none

/-- One step through a set: the character or the class that stands next. -/
inductive SetItem where
  | close
  | members (letter : Nat) (ranges : List (Nat × Nat))
  | hyphen
  | char (code : Nat)

/-- The next item of a set, and what follows. -/
def setItem : List Nat → Except PatternFault (SetItem × List Nat)
  | [] => .error .unterminatedSet
  | 0x5D :: rest => .ok (.close, rest)
  | [0x5C] => .ok (.char 0x5C, [])
  | 0x5C :: letter :: rest =>
    match classOf? letter with
    | some ranges => .ok (.members letter ranges, rest)
    | none =>
      if letter = 0x2D then .ok (.hyphen, rest)
      else do
        let (code, rest) ← charEscape (letter :: rest)
        return (.char code, rest)
  | c :: rest => .ok (.char c, rest)

/-- Whether a hyphen follows that makes a range of the character before it. -/
def beginsRange : List Nat → Bool
  | 0x2D :: next :: _ => next ≠ 0x5D
  | _ => false

/-- The ranges of a set after its opening bracket and sign, and what follows the set. `pending` is
the lower end of a range whose upper end is to come. An empty set holds nothing. -/
def readSet : (fuel : Nat) → (pending : Option Nat) → List (Nat × Nat) → List Nat →
    Except PatternFault (List (Nat × Nat) × List Nat)
  | 0, _, _, _ => .error .unterminatedSet
  | fuel + 1, pending, ranges, codes => do
    let (item, rest) ← setItem codes
    match item, pending with
    | .close, _ => return (ranges, rest)
    | .members letter _, some _ => throw (.classInRange letter)
    | .members _ members, none => readSet fuel none (ranges ++ members) rest
    | .hyphen, pending => readSet fuel pending (ranges ++ [(0x2D, 0x2D)]) rest
    | .char c, some low =>
      if c < low then throw (.reversedRange low c)
      else readSet fuel none (ranges ++ [(low, c)]) rest
    | .char c, none =>
      if beginsRange rest then readSet fuel (some c) ranges (rest.drop 1)
      else readSet fuel none (ranges ++ [(c, c)]) rest

/-- A set after its opening bracket, and what follows it. -/
def charSet (codes : List Nat) : Except PatternFault (CharSet × List Nat) := do
  let negated := codes.head? = some 0x5E
  let codes := if negated then codes.drop 1 else codes
  let (ranges, rest) ← readSet (codes.length + 1) none [] codes
  return (⟨ranges, negated⟩, rest)

/-! ## Counting groups -/

/-- What follows a comment. -/
def afterComment (codes : List Nat) : List Nat := (codes.dropWhile (· ≠ 0x29)).drop 1

/-- The name of a group and what follows it. -/
def groupName (codes : List Nat) : List Nat × List Nat :=
  (codes.takeWhile isWordCode, codes.dropWhile isWordCode)

/-- The groups in a pattern: how many have no name, which numbers are given and which names, the
latest first. -/
structure GroupCount where
  unnamed : Nat := 0
  numbers : List Nat := []
  names : List (List Nat) := []

/-- Notes a group with a number or a name. -/
def GroupCount.note (g : GroupCount) (name : List Nat) : GroupCount :=
  match name with
  | [] => g
  | c :: _ =>
    if c = 0x30 then g
    else if isDigitCode c then
      { g with numbers := decimalValue (name.takeWhile isDigitCode) :: g.numbers }
    else if g.names.contains name then g
    else { g with names := name :: g.names }

/-- Counts the groups of a pattern. -/
def countGroups : (fuel : Nat) → GroupCount → List Nat → GroupCount
  | 0, g, _ => g
  | _, g, [] => g
  | fuel + 1, g, c :: rest =>
    if c = 0x5C then countGroups fuel g (rest.drop 1)
    else if c = 0x5B then
      match charSet rest with
      | .ok (_, rest) => countGroups fuel g rest
      | .error _ => g
    else if c = 0x28 then
      match rest with
      | 0x3F :: 0x23 :: rest => countGroups fuel g (afterComment rest)
      | 0x3F :: mark :: rest =>
        if mark = 0x3C ∨ mark = 0x27 then countGroups fuel (g.note (groupName rest).1) rest
        else countGroups fuel g (mark :: rest)
      | rest => countGroups fuel { g with unnamed := g.unnamed + 1 } rest
    else countGroups fuel g rest

/-- The least number from `n` on that is not taken. -/
def freeNumber (taken : List Nat) : (fuel n : Nat) → Nat
  | 0, n => n
  | fuel + 1, n => if taken.contains n then freeNumber taken fuel (n + 1) else n

/-- Gives numbers to names, after those that are taken. -/
def numberNames (taken : List Nat) : List (List Nat) → List (List Nat × Nat)
  | [] => []
  | name :: rest =>
    let n := freeNumber taken taken.length 1
    (name, n) :: numberNames (n :: taken) rest

/-- The groups of a pattern. Those without a name are numbered from one on, then those with one. -/
def groupsOf (codes : List Nat) : Groups :=
  let g := countGroups (codes.length + 1) {} codes
  let taken := (List.range g.unnamed).map (· + 1) ++ g.numbers
  let named := numberNames taken g.names.reverse
  ⟨taken ++ named.map Prod.snd, named⟩

/-! ## Building the pattern -/

/-- The largest number in a pattern. -/
def maxNumber : Nat := 2147483647

/-- A number and what follows it. -/
def readNumber (codes : List Nat) : Except PatternFault (Nat × List Nat) :=
  let n := decimalValue (codes.takeWhile isDigitCode)
  if maxNumber < n then .error .numberTooLarge else .ok (n, codes.dropWhile isDigitCode)

/-- Whether braces that begin here hold a number of rounds. -/
def bracesAreRounds (codes : List Nat) : Bool :=
  let digits := codes.takeWhile isDigitCode
  !digits.isEmpty &&
    match codes.dropWhile isDigitCode with
    | 0x7D :: _ => true
    | 0x2C :: rest => (rest.dropWhile isDigitCode).head? = some 0x7D
    | _ => false

/-- Whether a repetition begins here. -/
def beginsRounds : List Nat → Bool
  | c :: rest => c = 0x2A || c = 0x2B || c = 0x3F || (c = 0x7B && bracesAreRounds rest)
  | [] => false

/-- The least and the most number of rounds, and what follows. -/
def readRounds : List Nat → Except PatternFault (Nat × Option Nat × List Nat)
  | 0x2A :: rest => .ok (0, none, rest)
  | 0x2B :: rest => .ok (1, none, rest)
  | 0x3F :: rest => .ok (0, some 1, rest)
  | codes => do
    let (least, rest) ← readNumber (codes.drop 1)
    match rest with
    | 0x2C :: 0x7D :: rest => return (least, none, rest)
    | 0x2C :: rest =>
      let (most, rest) ← readNumber rest
      return (least, some most, rest.drop 1)
    | rest => return (least, some least, rest.drop 1)

/-- Skips comments and, in a spaced pattern, white space. -/
def skipBlank (spaced : Bool) : (fuel : Nat) → List Nat → Except PatternFault (List Nat)
  | 0, codes => .ok codes
  | fuel + 1, codes =>
    match codes with
    | 0x28 :: 0x3F :: 0x23 :: rest =>
      if rest.contains 0x29 then skipBlank spaced fuel (afterComment rest)
      else .error .unterminatedComment
    | c :: rest =>
      if spaced ∧ CharSet.holds CharSet.spaces c then skipBlank spaced fuel rest
      else if spaced ∧ c = 0x23 then skipBlank spaced fuel (rest.dropWhile (· ≠ 0x0A))
      else .ok codes
    | [] => .ok []

/-- What an opening parenthesis begins. -/
inductive GroupOpen where
  /-- Switches for the rest of the group around it. -/
  | switches (flags : Flags)
  | plain (flags : Flags)
  | unnamed
  | numbered (group : Nat)
  | look (behind wanted : Bool)
  | committed

/-- The name or number of a group, up to its closing mark. -/
def namedGroup (groups : Groups) (start codes : List Nat) (close : Nat) :
    Except PatternFault (GroupOpen × List Nat) := do
  let consumed (rest : List Nat) : List Nat := start.take (start.length - rest.length)
  match codes with
  | [] => throw (.unknownGroup start)
  | c :: _ =>
    let finish (group : Option Nat) (rest : List Nat) :
        Except PatternFault (GroupOpen × List Nat) :=
      match rest with
      | [] => throw (.unknownGroup start)
      | mark :: after =>
        if mark ≠ close ∧ mark ≠ 0x2D then throw .invalidGroupName
        else
          match group with
          | some 0 => throw .groupZero
          | some n =>
            if mark = close then return (.numbered n, after)
            else throw (.unknownGroup (consumed after))
          | none => throw (.unknownGroup (consumed rest))
    if isDigitCode c then
      let (n, rest) ← readNumber codes
      finish (if n = 0 ∨ groups.numbers.contains n then some n else none) rest
    else if isWordCode c then
      let (name, rest) := groupName codes
      finish (groups.names.lookup name) rest
    else throw .invalidGroupName

/-- Reads what an opening parenthesis begins. -/
def groupOpen (groups : Groups) (flags : Flags) (codes : List Nat) :
    Except PatternFault (GroupOpen × List Nat) :=
  match codes with
  | 0x3F :: 0x29 :: _ => .ok (if flags.namedOnly then .plain flags else .unnamed, codes)
  | 0x3F :: 0x3A :: rest => .ok (.plain flags, rest)
  | 0x3F :: 0x3D :: rest => .ok (.look false true, rest)
  | 0x3F :: 0x21 :: rest => .ok (.look false false, rest)
  | 0x3F :: 0x3E :: rest => .ok (.committed, rest)
  | 0x3F :: 0x3C :: 0x3D :: rest => .ok (.look true true, rest)
  | 0x3F :: 0x3C :: 0x21 :: rest => .ok (.look true false, rest)
  | 0x3F :: 0x3C :: rest => namedGroup groups codes rest 0x3E
  | 0x3F :: 0x27 :: rest => namedGroup groups codes rest 0x27
  | 0x3F :: rest =>
    let (flags, rest) := flags.readSwitches true rest
    match rest with
    | [] => .error (.unknownGroup codes)
    | 0x29 :: rest => .ok (.switches flags, rest)
    | 0x3A :: rest => .ok (.plain flags, rest)
    | _ :: after => .error (.unknownGroup (codes.take (codes.length - after.length)))
  | codes => .ok (if flags.namedOnly then .plain flags else .unnamed, codes)

/-- A single character. -/
def single (flags : Flags) (c : Nat) : Pattern := .set ⟨[(c, c)], false⟩ flags.ignoreCase

/-- A reference by name, after its opening mark. -/
def namedReference (groups : Groups) (codes : List Nat) :
    Except PatternFault (Pattern × List Nat) := do
  let (name, rest) := groupName codes
  match rest with
  | 0x3E :: rest =>
    if name.isEmpty then throw .malformedReference
    else
      match groups.names.lookup name with
      | some n => return (.reference n, rest)
      | none =>
        if name.all isDigitCode ∧ groups.numbers.contains (decimalValue name) then
          return (.reference (decimalValue name), rest)
        else throw (.undefinedReference name)
  | _ => throw .malformedReference

/-- What a backslash and the characters after it stand for. -/
def escape (groups : Groups) (flags : Flags) (codes : List Nat) :
    Except PatternFault (Pattern × List Nat) := do
  match codes with
  | [] => throw .endsInBackslash
  | c :: rest =>
    match classOf? c with
    | some ranges => return (.set ⟨ranges, false⟩ false, rest)
    | none =>
      match c, rest with
      | 0x62, rest => return (.wordEdge true, rest)
      | 0x42, rest => return (.wordEdge false, rest)
      | 0x41, rest => return (.textStart, rest)
      | 0x47, rest => return (.textStart, rest)
      | 0x7A, rest => return (.textEnd, rest)
      | 0x5A, rest =>
        -- The end of the text, or the place before a line feed that ends it.
        let lineFeed : Pattern := .sequence (single {} 0x0A) .textEnd
        return (.choice .textEnd (.look false true lineFeed), rest)
      | c, rest =>
        if c = 0x6B ∧ !groups.names.isEmpty then
          match rest with
          | 0x3C :: rest => namedReference groups rest
          | _ => throw .malformedReference
        else if 0x31 ≤ c ∧ c ≤ 0x39 then
          let (number, after) ← readNumber codes
          if groups.numbers.contains number then return (.reference number, after)
          else literalEscape
        else literalEscape
where
  /-- An escape that stands for one character. -/
  literalEscape : Except PatternFault (Pattern × List Nat) := do
    let (code, rest) ← charEscape codes
    return (single flags code, rest)

/-- Reading a pattern: what is left of it and the number for the next group without a name. -/
structure Reading where
  rest : List Nat
  nextGroup : Nat

/-- A step of reading a pattern. -/
abbrev Read := StateT Reading (Except PatternFault)

/-- Goes on with what is left. -/
def goTo (rest : List Nat) : Read Unit := modify fun r => { r with rest := rest }

/-- The pattern of a unit that is no group, and what follows. -/
def simpleUnit (groups : Groups) (flags : Flags) (c : Nat) (rest : List Nat) :
    Except PatternFault (Pattern × List Nat) := do
  match c with
  | 0x5B =>
    let (chars, rest) ← charSet rest
    return (.set chars flags.ignoreCase, rest)
  | 0x5C => escape groups flags rest
  | 0x5E => return (if flags.multiLine then .lineStart else .textStart, rest)
  | 0x24 => return (if flags.multiLine then .lineEnd else .textEnd, rest)
  | 0x2E =>
    let chars : CharSet := if flags.singleLine then ⟨[], true⟩ else ⟨CharSet.lineEnds, true⟩
    return (.set chars false, rest)
  | c => return (single flags c, rest)

/-- A unit with the repetition that follows it, if one does. -/
def repeated (flags : Flags) (p : Pattern) : Read (Pattern × Bool) := do
  let r ← get
  let rest ← skipBlank flags.spaced r.rest.length r.rest
  if !beginsRounds rest then
    goTo rest
    return (p, false)
  let (least, most, rest) ← readRounds rest
  let rest ← skipBlank flags.spaced rest.length rest
  let (lazy, rest) := match rest with
    | 0x3F :: rest => (true, rest)
    | rest => (false, rest)
  if most.any (· < least) then throw .repeatCount
  goTo rest
  return (.rounds p least most lazy, true)

mutual

/-- Alternatives up to the end of the group or of the pattern. -/
def alternatives (groups : Groups) : (fuel : Nat) → Flags → (inGroup : Bool) → Read Pattern
  | 0, _, _ => throw .missingParen
  | fuel + 1, flags, inGroup => do
    let (first, flags) ← units groups fuel flags inGroup false .empty
    match (← get).rest with
    | 0x7C :: rest =>
      goTo rest
      let others ← alternatives groups fuel flags inGroup
      return .choice first others
    | _ => return first

/-- Units one after the other, up to a bar, a closing parenthesis or the end. Switches hold for the
alternatives after them too. -/
def units (groups : Groups) : (fuel : Nat) → Flags → (inGroup afterRounds : Bool) → Pattern →
    Read (Pattern × Flags)
  | 0, _, _, _, _ => throw .missingParen
  | fuel + 1, flags, inGroup, afterRounds, before => do
    let r ← get
    let codes ← skipBlank flags.spaced r.rest.length r.rest
    goTo codes
    match codes with
    | [] => return (before, flags)
    | 0x7C :: _ => return (before, flags)
    | 0x29 :: _ => if inGroup then return (before, flags) else throw .unexpectedParen
    | 0x28 :: rest =>
      let (kind, rest) ← groupOpen groups flags rest
      goTo rest
      match kind with
      | .switches flags => units groups fuel flags inGroup false before
      | kind =>
        let p ← group groups fuel flags kind
        let (p, isRepeated) ← repeated flags p
        units groups fuel flags inGroup isRepeated (.sequence before p)
    | c :: rest =>
      if beginsRounds codes then
        throw (if afterRounds then .nestedRepetition else .missingArgument)
      let (p, rest) ← simpleUnit groups flags c rest
      goTo rest
      let (p, isRepeated) ← repeated flags p
      units groups fuel flags inGroup isRepeated (.sequence before p)

/-- A group after its opening, with its closing parenthesis. -/
def group (groups : Groups) : (fuel : Nat) → Flags → GroupOpen → Read Pattern
  | 0, _, _ => throw .missingParen
  | fuel + 1, flags, kind => do
    let number := (← get).nextGroup
    let (flags, wrap) : Flags × (Pattern → Pattern) := match kind with
      | .switches flags | .plain flags => (flags, id)
      | .unnamed => (flags, .capture number)
      | .numbered n => (flags, .capture n)
      | .look behind wanted => (flags, .look behind wanted)
      | .committed => (flags, .committed)
    if kind matches .unnamed then modify fun r => { r with nextGroup := number + 1 }
    let body ← alternatives groups fuel flags true
    match (← get).rest with
    | 0x29 :: rest =>
      goTo rest
      return wrap body
    | _ => throw .missingParen

end

/-- The pattern with a text. -/
def parse (t : Text) : Except PatternFault Pattern := do
  let codes := t.runes.map Rune.code
  let (p, _) ← (alternatives (groupsOf codes) (4 * codes.length + 4) {} false).run ⟨codes, 1⟩
  return p

end Scriptlet.Pattern

import Scriptlet.Document.Token.Block
import Scriptlet.Document.Token.Plain
import Scriptlet.Document.Token.Quoted
import Scriptlet.Document.Token.Tag

/-!
# From characters to tokens

The lexer takes one step at a time: it skips blanks and comments, closes the blocks that the
indentation ends, and reads one sign or text. Whether a text is the key of a mapping shows only at
the colon after it, so the lexer remembers where a key may have begun, and puts the tokens that
introduce it there once the colon has come.
-/

namespace Scriptlet.Document

/-- A token that may turn out to begin a key. -/
structure PossibleKey where
  /-- The number of tokens before it. -/
  index : Nat
  mark : Mark
  /-- Whether nothing else than a key can stand there. -/
  required : Bool

/-- Whether a colon at a place can still make it a key: on the same line and not too far away. -/
def PossibleKey.isLive (k : PossibleKey) (now : Mark) : Bool :=
  k.mark.line = now.line && now.column ≤ k.mark.column + 1024

/-- A document that is being read, and the tokens read so far. -/
structure Lexer where
  rest : List Glyph
  /-- The place after the last character. -/
  finish : Mark
  tokens : Array Token := #[]
  /-- The column of the innermost block. -/
  indent : Int := -1
  /-- The columns of the blocks around it. -/
  outerIndents : List Int := []
  /-- The possible key of the innermost flow collection, or of the block if there is none. -/
  key : Option PossibleKey := none
  /-- The possible keys around it, one for each flow collection that is open. -/
  outerKeys : List (Option PossibleKey) := []
  /-- Whether a key may begin here. -/
  keyAllowed : Bool := true

namespace Lexer

/-- How deep blocks and flow collections may be nested. -/
def maxDepth : Nat := 10000

/-- The place of the next character. -/
def here (l : Lexer) : Mark := l.rest.head?.elim l.finish Glyph.mark

/-- Whether a flow collection is open. -/
def inFlow (l : Lexer) : Bool := !l.outerKeys.isEmpty

/-- Adds a token. -/
def push (l : Lexer) (sign : Sign) (mark : Mark) : Lexer :=
  { l with tokens := l.tokens.push ⟨sign, mark⟩ }

/-- Skips blanks, comments and line breaks. Tabs do not count as blanks where a key may begin in
a block. -/
def skipFrom (inFlow : Bool) (keyAllowed inComment : Bool) : List Glyph → Bool × List Glyph
  | [] => (keyAllowed, [])
  | g :: rest =>
    if g.isBreak then skipFrom inFlow (keyAllowed || !inFlow) false rest
    else if inComment then skipFrom inFlow keyAllowed true rest
    else if g.char = '#' then skipFrom inFlow keyAllowed true rest
    else if g.char = ' ' ∨ (g.char = '\t' ∧ (inFlow ∨ ¬keyAllowed)) ∨
        (g.char = '\ufeff' ∧ g.mark.column = 0) then
      skipFrom inFlow keyAllowed false rest
    else (keyAllowed, g :: rest)

/-- Moves to the next character that belongs to a token. -/
def skip (l : Lexer) : Lexer :=
  let (keyAllowed, rest) := skipFrom l.inFlow l.keyAllowed false l.rest
  { l with keyAllowed := keyAllowed, rest := rest }

/-- Forgets the possible key. It is a fault if nothing else could stand there. -/
def dropKey (l : Lexer) (now : Mark) : Except Fault Lexer :=
  match l.key with
  | some key =>
    if key.required then .error (.lexical .colonExpected key.mark now)
    else .ok { l with key := none }
  | none => .ok l

/-- Remembers that a key may begin here. -/
def markKey (l : Lexer) : Except Fault Lexer := do
  if l.keyAllowed then
    let l ← l.dropKey l.here
    let required := !l.inFlow && l.indent = l.here.column
    return { l with key := some ⟨l.tokens.size, l.here, required⟩ }
  else return l

/-- Opens a block at a column, unless it is open or a flow collection is. Its token goes before
those from a number on. -/
def openBlock (l : Lexer) (column index : Nat) (sign : Sign) (mark : Mark) : Except Fault Lexer :=
  if l.inFlow ∨ l.indent ≥ column then .ok l
  else if l.outerIndents.length ≥ maxDepth then .error (.lexical .tooDeep mark l.here)
  else
    .ok { l with
      indent := column
      outerIndents := l.indent :: l.outerIndents
      tokens := l.tokens.insertIdxIfInBounds index ⟨sign, mark⟩ }

/-- The tokens and columns that are left when all blocks beyond a column are closed. -/
def closed (column : Int) (mark : Mark) (tokens : Array Token) (indent : Int) :
    List Int → Array Token × Int × List Int
  | [] => (tokens, indent, [])
  | outer :: others =>
    if indent > column then closed column mark (tokens.push ⟨.blockEnd, mark⟩) outer others
    else (tokens, indent, outer :: others)

/-- Closes all blocks beyond a column, unless a flow collection is open. -/
def closeBlocks (l : Lexer) (column : Int) (mark : Mark) : Lexer :=
  if l.inFlow then l
  else
    let (tokens, indent, outer) := closed column mark l.tokens l.indent l.outerIndents
    { l with tokens := tokens, indent := indent, outerIndents := outer }

/-- Reads a sign of one character. -/
def takeSign (l : Lexer) (sign : Sign) : Lexer :=
  { l.push sign l.here with rest := l.rest.drop 1 }

/-- The end of the document. It is at the start of a line. -/
def takeEnd (l : Lexer) : Except Fault Lexer := do
  let mark : Mark := if l.finish.column = 0 then l.finish else ⟨l.finish.line + 1, 0⟩
  let l ← (l.closeBlocks (-1) mark).dropKey mark
  return { l with keyAllowed := false }.push .streamEnd mark

/-- A mark between documents. -/
def takeSeparator (l : Lexer) (sign : Sign) : Except Fault Lexer := do
  let l ← (l.closeBlocks (-1) l.here).dropKey l.here
  return { l.push sign l.here with keyAllowed := false, rest := l.rest.drop 3 }

/-- The beginning of a flow collection. -/
def takeFlowStart (l : Lexer) (sign : Sign) : Except Fault Lexer := do
  let l ← l.markKey
  if l.outerKeys.length ≥ maxDepth then throw (.lexical .tooDeep l.here l.here)
  return { l with outerKeys := l.key :: l.outerKeys, key := none, keyAllowed := true }.takeSign sign

/-- The end of a flow collection. -/
def takeFlowEnd (l : Lexer) (sign : Sign) : Except Fault Lexer := do
  let l ← l.dropKey l.here
  let l := match l.outerKeys with
    | [] => l
    | key :: others => { l with key := key, outerKeys := others }
  return { l with keyAllowed := false }.takeSign sign

/-- A comma of a flow collection. -/
def takeComma (l : Lexer) : Except Fault Lexer := do
  let l ← l.dropKey l.here
  return { l with keyAllowed := true }.takeSign .comma

/-- The hyphen before an item. -/
def takeEntry (l : Lexer) : Except Fault Lexer := do
  if !l.inFlow && !l.keyAllowed then throw (.lexical .entryNotAllowed l.here l.here)
  let l ← l.openBlock l.here.column l.tokens.size .blockSequence l.here
  let l ← l.dropKey l.here
  return { l with keyAllowed := true }.takeSign .entry

/-- The question mark before a key. -/
def takeKey (l : Lexer) : Except Fault Lexer := do
  if !l.inFlow && !l.keyAllowed then throw (.lexical .keyNotAllowed l.here l.here)
  let l ← l.openBlock l.here.column l.tokens.size .blockMapping l.here
  let l ← l.dropKey l.here
  return { l with keyAllowed := !l.inFlow }.takeSign .key

/-- The colon before a value. It makes a possible key a key. -/
def takeValue (l : Lexer) : Except Fault Lexer := do
  match l.key.filter (PossibleKey.isLive · l.here) with
  | some key =>
    let l := { l with tokens := l.tokens.insertIdxIfInBounds key.index ⟨.key, key.mark⟩ }
    let l ← l.openBlock key.mark.column key.index .blockMapping key.mark
    return { l with key := none, keyAllowed := false }.takeSign .value
  | none =>
    if l.key.any PossibleKey.required then
      throw (.lexical .colonExpected (l.key.elim l.here PossibleKey.mark) l.here)
    let l := { l with key := none }
    if !l.inFlow && !l.keyAllowed then throw (.lexical .valueNotAllowed l.here l.here)
    let l ← l.openBlock l.here.column l.tokens.size .blockMapping l.here
    return { l with keyAllowed := !l.inFlow }.takeSign .value

/-- An alias or an anchor. -/
def takeName (l : Lexer) (sign : Text → Sign) : Except Fault Lexer := do
  let l ← l.markKey
  let (name, rest) ← anchorName l.here l.finish (l.rest.drop 1)
  return { l.push (sign name) l.here with keyAllowed := false, rest := rest }

/-- A tag. -/
def takeTag (l : Lexer) : Except Fault Lexer := do
  let l ← l.markKey
  let (sign, rest) ← tag l.here l.finish l.rest
  return { l.push sign l.here with keyAllowed := false, rest := rest }

/-- A block text. -/
def takeBlockText (l : Lexer) (literal : Bool) : Except Fault Lexer := do
  let l ← l.dropKey l.here
  let (text, rest) ← blockScalar literal l.indent l.here l.finish (l.rest.drop 1)
  return { l.push (.scalar text false) l.here with keyAllowed := true, rest := rest }

/-- A quoted text. -/
def takeQuoted (l : Lexer) (quote : Char) : Except Fault Lexer := do
  let l ← l.markKey
  let (text, rest) ← quotedFrom quote l.here l.finish [] (.words false []) (l.rest.drop 1)
  return { l.push (.scalar text false) l.here with keyAllowed := false, rest := rest }

/-- A plain text. -/
def takePlain (l : Lexer) : Except Fault Lexer := do
  let l ← l.markKey
  let found ← plainFrom l.inFlow (l.indent + 1) l.here [] [] l.rest
  return { l.push (.scalar found.text true) l.here with
    keyAllowed := found.crossedLine, rest := found.rest }

/-- Blanks and the signs with which no plain text begins. -/
def isIndicator (c : Char) : Bool :=
  ['\t', ' ', ',', '[', ']', '\x7b', '\x7d', '#', '&', '*', '!', '|', '>', '\'', '"', '%', '@',
    '\x60'].contains c

/-- Whether a plain text can begin with a character that has no other meaning here. -/
def beginsPlain (inFlow : Bool) (c : Char) (following : Option Glyph) : Bool :=
  if c = '-' then following.all fun g => !g.isBlank
  else if c = '?' ∨ c = ':' then !inFlow && following.any fun g => !g.isGap
  else !isIndicator c

/-- Reads the token that begins with a character. -/
def takeToken (l : Lexer) (c : Char) (following : List Glyph) : Except Fault Lexer :=
  let beforeGap := following.head?.all Glyph.isGap
  if c = '[' then l.takeFlowStart .flowSequence
  else if c = '\x7b' then l.takeFlowStart .flowMapping
  else if c = ']' then l.takeFlowEnd .flowSequenceEnd
  else if c = '\x7d' then l.takeFlowEnd .flowMappingEnd
  else if c = ',' then l.takeComma
  else if c = '-' ∧ beforeGap then l.takeEntry
  else if c = '?' ∧ (l.inFlow ∨ beforeGap) then l.takeKey
  else if c = ':' ∧ (l.inFlow ∨ beforeGap) then l.takeValue
  else if c = '*' then l.takeName .reference
  else if c = '&' then l.takeName .anchor
  else if c = '!' then l.takeTag
  else if c = '|' ∧ ¬l.inFlow then l.takeBlockText true
  else if c = '>' ∧ ¬l.inFlow then l.takeBlockText false
  else if c = '\'' ∨ c = '"' then l.takeQuoted c
  else if beginsPlain l.inFlow c following.head? then l.takePlain
  else .error (.lexical .noTokenStart l.here l.here)

/-- Reads the next token, and the tokens that its place implies. -/
def step (l : Lexer) : Except Fault Lexer :=
  let before := l.here
  let l := l.skip
  let l := l.closeBlocks l.here.column before
  match l.rest with
  | [] => l.takeEnd
  | g :: following =>
    if g.char = '%' ∧ g.mark.column = 0 then .error (.lexical .unknownDirective g.mark g.mark)
    else if isSeparator '-' l.rest then l.takeSeparator .documentStart
    else if isSeparator '.' l.rest then l.takeSeparator .documentEnd
    else l.takeToken g.char following

end Lexer

end Scriptlet.Document

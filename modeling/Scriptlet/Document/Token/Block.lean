import Scriptlet.Document.Token

/-!
# Block texts

A block text takes the lines below its indicator as they are, without their common indentation. It
is literal or folded, and an indicator says what becomes of the line breaks at its end.
-/

namespace Scriptlet.Document

/-- What becomes of the line breaks at the end of a block text. -/
inductive Chomping where
  /-- All are dropped. -/
  | strip
  /-- One is kept. -/
  | clip
  | keep
  deriving DecidableEq, Repr

/-- The first line of a block text. -/
structure BlockHeader where
  literal : Bool
  chomping : Chomping := .clip
  /-- The indentation relative to the block around; zero if the first line shows it. -/
  indentation : Nat := 0

/-- The chomping that a sign asks for. -/
def Chomping.ofSign? (c : Char) : Option Chomping :=
  if c = '+' then some .keep else if c = '-' then some .strip else none

/-- The indentation that a digit asks for. -/
def indentation? (start : Mark) (g : Glyph) : Except Fault (Option Nat) :=
  if g.char = '0' then .error (.lexical .zeroIndentation start g.mark)
  else if g.char.isDigit then .ok (some (g.char.toNat - '0'.toNat))
  else .ok none

/-- Reads the signs after the indicator, at most one of each kind, in any order. -/
def blockSigns (start : Mark) (header : BlockHeader) (glyphs : List Glyph) :
    Except Fault (BlockHeader × List Glyph) := do
  match glyphs with
  | [] => return (header, [])
  | first :: rest =>
    match Chomping.ofSign? first.char with
    | some chomping =>
      let header := { header with chomping := chomping }
      match rest with
      | [] => return (header, [])
      | second :: others =>
        match ← indentation? start second with
        | some n => return ({ header with indentation := n }, others)
        | none => return (header, rest)
    | none =>
      match ← indentation? start first with
      | none => return (header, glyphs)
      | some n =>
        let header := { header with indentation := n }
        match rest with
        | [] => return (header, [])
        | second :: others =>
          match Chomping.ofSign? second.char with
          | some chomping => return ({ header with chomping := chomping }, others)
          | none => return (header, rest)

/-- Reads the first line of a block text to its end. -/
def blockHeader (literal : Bool) (start finish : Mark) (glyphs : List Glyph) :
    Except Fault (BlockHeader × List Glyph) := do
  let (header, rest) ← blockSigns start ⟨literal, .clip, 0⟩ glyphs
  let rest := rest.dropWhile Glyph.isBlank
  let rest :=
    if rest.head?.any fun g => g.char = '#' then rest.dropWhile fun g => ! g.isBreak else rest
  match rest with
  | [] => return (header, [])
  | g :: below =>
    if g.isBreak then return (header, below)
    else throw (.lexical .lineEndExpected start (rest.head?.elim finish Glyph.mark))

/-- The part of a block text that has been read. -/
structure BlockText where
  /-- The characters so far, last first. -/
  chars : List Char := []
  /-- The break at the end of the last line with content. -/
  lastBreak : Option Char := none
  /-- The breaks of the empty lines after it, last first. -/
  emptyBreaks : List Char := []
  /-- Whether the last line with content starts with a blank. -/
  startedBlank : Bool := false
  /-- The indentation of the text; zero if it is not known yet. -/
  margin : Nat
  /-- The widest indentation so far. -/
  widest : Nat := 0
  /-- Whether the current line has content. -/
  inLine : Bool := false

namespace BlockText

/-- Begins a line with content, which starts with a glyph. In a folded text a single line feed
between two lines becomes a blank, unless one of them starts with a blank. -/
def beginLine (b : BlockText) (literal : Bool) (g : Glyph) : BlockText :=
  let folds := !literal && !b.startedBlank && !g.isBlank && b.lastBreak = some '\n'
  let joint : List Char :=
    if folds then (if b.emptyBreaks = [] then [' '] else []) else b.lastBreak.toList
  { b with
    chars := g.char :: b.emptyBreaks ++ joint ++ b.chars
    lastBreak := none
    emptyBreaks := []
    startedBlank := g.isBlank
    inLine := true }

/-- The text with its end chomped. -/
def finish (b : BlockText) (chomping : Chomping) : Text :=
  let ending : List Char :=
    match chomping with
    | .strip => []
    | .clip => b.lastBreak.toList
    | .keep => b.emptyBreaks ++ b.lastBreak.toList
  textOf (ending ++ b.chars).reverse

/-- Reads the lines of a block text that starts at a place, below a block with an indentation. -/
def read (literal : Bool) (indent : Int) (start : Mark) (b : BlockText) :
    List Glyph → Except Fault (BlockText × List Glyph)
  | [] => .ok (b, [])
  | g :: rest =>
    if b.inLine then
      if g.isBreak then
        read literal indent start { b with lastBreak := some g.char, inLine := false } rest
      else read literal indent start { b with chars := g.char :: b.chars } rest
    else
      let inMargin := b.margin = 0 ∨ g.mark.column < b.margin
      if inMargin ∧ g.char = ' ' then read literal indent start b rest
      else if inMargin ∧ g.char = '\t' then .error (.lexical .tabInIndentation start g.mark)
      else
        let b := { b with widest := max b.widest g.mark.column }
        if g.isBreak then
          read literal indent start { b with emptyBreaks := g.char :: b.emptyBreaks } rest
        else
          let margin := if b.margin = 0 then max 1 (max b.widest (indent + 1).toNat) else b.margin
          if g.mark.column = margin then
            read literal indent start ({ b with margin := margin }.beginLine literal g) rest
          else .ok (b, g :: rest)

end BlockText

/-- Reads a block text after its indicator, below a block with an indentation. -/
def blockScalar (literal : Bool) (indent : Int) (start finish : Mark) (glyphs : List Glyph) :
    Except Fault (Text × List Glyph) := do
  let (header, rest) ← blockHeader literal start finish glyphs
  let margin :=
    if header.indentation = 0 then 0
    else if indent < 0 then header.indentation
    else indent.toNat + header.indentation
  let initial : BlockText := ⟨[], none, [], false, margin, 0, false⟩
  let (text, rest) ← initial.read literal indent start rest
  return (text.finish header.chomping, rest)

end Scriptlet.Document

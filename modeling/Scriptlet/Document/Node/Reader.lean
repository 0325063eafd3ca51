import Scriptlet.Document.Node
import Scriptlet.Document.Token.Lexer

/-!
# From tokens to nodes

The reader asks the lexer for tokens as it needs them. It always has two tokens beyond the current
one, and knows whether the current one begins a key, so a fault of the lexer that is so close comes
before any fault in the order of the tokens. Only the first document is read, and what follows its
last node is left alone.

The functions call each other with a shrinking amount of fuel. Each node takes at least one token or
is empty, so the fuel that `readContent` gives, which counts characters, never runs out.
-/

namespace Scriptlet.Document

/-- Tokens that are being turned into nodes. -/
structure Source where
  lexer : Lexer
  /-- The number of tokens that have been taken. -/
  taken : Nat := 0
  /-- The anchors so far, the latest first, with the numbers of their nodes. -/
  anchors : List (Text × Nat) := []
  anchored : Array Node := #[]

/-- A reader of something, or a fault. -/
abbrev Reading := StateT Source (Except Fault)

namespace Source

/-- How many tokens the reader has, with the current one. -/
def lookahead : Nat := 3

/-- Whether the current token is known for good. -/
def isReady (s : Source) : Except Fault Bool :=
  if s.lexer.tokens.size < s.taken + lookahead then .ok false
  else
    match (s.lexer.key :: s.lexer.outerKeys).reduceOption.find? (·.index = s.taken) with
    | none => .ok true
    | some key =>
      if key.isLive s.lexer.here then .ok false
      else if key.required then .error (.lexical .colonExpected key.mark s.lexer.here)
      else .ok true

/-- Reads tokens until the current one is known. -/
def fill : (fuel : Nat) → Source → Except Fault Source
  | 0, s => .ok s
  | fuel + 1, s => do
    if ← s.isReady then return s
    fill fuel { s with lexer := ← s.lexer.step }

end Source

namespace Reading

variable {α : Type}

/-- The current token. -/
def peek : Reading Token := do
  let s ← get
  let s ← s.fill (s.lexer.rest.length + Source.lookahead + 1)
  set s
  return (s.lexer.tokens[s.taken]?).getD ⟨.streamEnd, s.lexer.finish⟩

/-- Takes the current token. -/
def advance : Reading Unit := modify fun s => { s with taken := s.taken + 1 }

/-- Whether the current token is one of some signs. -/
def sees (signs : List Sign) : Reading Bool := do
  return signs.contains (← peek).sign

/-- Gives up at the current token, in a construct that starts at a place. -/
def fail (cause : Cause) (context : Mark) : Reading α := do
  let token ← peek
  throw (.structural cause context token.mark)

/-- The number of the node that will have an anchor, if there is one. -/
def reserve (anchor : Option Text) : Reading (Option Nat) := do
  match anchor with
  | none => return none
  | some name =>
    let s ← get
    let number := s.anchored.size
    set { s with
      anchors := (name, number) :: s.anchors
      anchored := s.anchored.push (.scalar 0 [] []) }
    return some number

/-- Keeps a node under its number. -/
def keep (number : Option Nat) (node : Node) : Reading Node := do
  if let some number := number then
    modify fun s => { s with anchored := s.anchored.setIfInBounds number node }
  return node

/-- The node of an alias. -/
def reference (name : Text) (mark : Mark) : Reading Node := do
  match (← get).anchors.lookup name with
  | some number => return .reference (mark.line + 1) name number
  | none => throw (.unknownAnchor name)

/-- An empty node. -/
def empty (mark : Mark) : Node := .scalar (mark.line + 1) Meaning.null.tag []

/-- What can stand before a node. -/
structure Properties where
  mark : Mark
  anchor : Option Text := none
  /-- The handle and the rest of a tag, and its place. -/
  tag : Option (Text × Text × Mark) := none

/-- Reads an anchor, if there is one. -/
def anchor? : Reading (Option Text) := do
  match (← peek).sign with
  | .anchor name => advance; return some name
  | _ => return none

/-- Reads a tag, if there is one. -/
def tag? : Reading (Option (Text × Text × Mark)) := do
  let token ← peek
  match token.sign with
  | .tag handle suffix => advance; return some (handle, suffix, token.mark)
  | _ => return none

/-- Reads an anchor and a tag, in any order. -/
def properties : Reading Properties := do
  let mark := (← peek).mark
  match ← anchor? with
  | some name => return ⟨mark, some name, ← tag?⟩
  | none =>
    match ← tag? with
    | some tag => return ⟨mark, ← anchor?, some tag⟩
    | none => return ⟨mark, none, none⟩

/-- What the standard tags begin with. -/
def standardTags : Text := "tag:yaml.org,2002:"

/-- The short form of a tag. -/
def shortTag (tag : Text) : Text :=
  match Text.dropBeginning? standardTags tag with
  | some name => "!!" ++ name
  | none => tag

/-- The tag of a node in its short form, if it has one that says something. -/
def Properties.shortTag? (p : Properties) : Reading (Option Text) := do
  match p.tag with
  | none => return none
  | some (handle, suffix, mark) =>
    let full ←
      if handle = [] then pure suffix
      else if handle = ("!" : Text) then pure ("!" ++ suffix : Text)
      else if handle = ("!!" : Text) then pure (standardTags ++ suffix)
      else throw (.structural .unknownTagHandle p.mark mark)
    return if full = ("!" : Text) then none else some (shortTag full)

/-- The tag of a text without one. -/
def scalarTag (text : Text) (plain : Bool) : Text :=
  if !plain then Meaning.text.tag
  else if text = ("<<" : Text) then "!!merge"
  else (meaning true text).tag

/-- A node that has only properties. It is a fault if it has none either. -/
def bare (p : Properties) (tag : Option Text) : Reading Node := do
  if p.anchor.isSome || p.tag.isSome then
    let number ← reserve p.anchor
    keep number (.scalar (p.mark.line + 1) (tag.getD Meaning.null.tag) [])
  else fail .contentExpected p.mark

/-- Takes the comma before a further part of a flow collection. -/
def flowComma (cause : Cause) (start : Mark) (first : Bool) : Reading Unit := do
  if first then return
  match (← peek).sign with
  | .comma => advance
  | _ => fail cause start

mutual

/-- Reads a node. Block collections are allowed only in a block; the items of a sequence may stand at
the column of the mapping around it if it is the value of a pair. -/
def node (fuel : Nat) (block unindented : Bool) : Reading Node := do
  match fuel with
  | 0 => return empty {}
  | fuel + 1 =>
    let first ← peek
    match first.sign with
    | .reference name => advance; reference name first.mark
    | _ =>
      let p ← properties
      let tag ← p.shortTag?
      let line := p.mark.line + 1
      let token ← peek
      match token.sign with
      | .entry =>
        if unindented then
          let number ← reserve p.anchor
          keep number (.sequence line (tag.getD "!!seq") (← unindentedItems fuel))
        else bare p tag
      | .scalar text plain =>
        let number ← reserve p.anchor
        advance
        keep number (.scalar line (tag.getD (scalarTag text plain)) text)
      | .flowSequence =>
        let number ← reserve p.anchor
        advance
        keep number (.sequence line (tag.getD "!!seq") (← flowItems fuel token.mark true))
      | .flowMapping =>
        let number ← reserve p.anchor
        advance
        keep number (.mapping line (tag.getD "!!map") (← flowPairs fuel token.mark true))
      | .blockSequence =>
        if block then
          let number ← reserve p.anchor
          advance
          keep number (.sequence line (tag.getD "!!seq") (← blockItems fuel token.mark))
        else bare p tag
      | .blockMapping =>
        if block then
          let number ← reserve p.anchor
          advance
          keep number (.mapping line (tag.getD "!!map") (← blockPairs fuel token.mark))
        else bare p tag
      | _ => bare p tag

/-- Reads a node, or an empty one before some signs. -/
def nodeUnless (fuel : Nat) (block unindented : Bool) (signs : List Sign) (mark : Mark) :
    Reading Node := do
  match fuel with
  | 0 => return empty {}
  | fuel + 1 => if ← sees signs then return empty mark else node fuel block unindented

/-- Reads the items of a block sequence. -/
def blockItems (fuel : Nat) (start : Mark) : Reading (List Node) := do
  match fuel with
  | 0 => return []
  | fuel + 1 =>
    let token ← peek
    match token.sign with
    | .entry =>
      advance
      let item ← nodeUnless fuel true false [.entry, .blockEnd] token.mark
      return item :: (← blockItems fuel start)
    | .blockEnd => advance; return []
    | _ => fail .entryExpected start

/-- Reads the items of a sequence at the column of the mapping around it. -/
def unindentedItems (fuel : Nat) : Reading (List Node) := do
  match fuel with
  | 0 => return []
  | fuel + 1 =>
    let token ← peek
    match token.sign with
    | .entry =>
      advance
      let item ← nodeUnless fuel true false [.entry, .key, .value, .blockEnd] token.mark
      return item :: (← unindentedItems fuel)
    | _ => return []

/-- Reads the pairs of a block mapping. -/
def blockPairs (fuel : Nat) (start : Mark) : Reading (List (Node × Node)) := do
  match fuel with
  | 0 => return []
  | fuel + 1 =>
    let token ← peek
    match token.sign with
    | .key =>
      advance
      let key ← nodeUnless fuel true true [.key, .value, .blockEnd] token.mark
      let value ← blockValue fuel
      return (key, value) :: (← blockPairs fuel start)
    | .blockEnd => advance; return []
    | _ => fail .keyExpected start

/-- Reads the value of a pair in a block mapping; it may be missing. -/
def blockValue (fuel : Nat) : Reading Node := do
  match fuel with
  | 0 => return empty {}
  | fuel + 1 =>
    let token ← peek
    match token.sign with
    | .value =>
      advance
      nodeUnless fuel true true [.key, .value, .blockEnd] token.mark
    | _ => return empty token.mark

/-- Reads the items of a flow sequence. An item may be a single pair. -/
def flowItems (fuel : Nat) (start : Mark) (first : Bool) : Reading (List Node) := do
  match fuel with
  | 0 => return []
  | fuel + 1 =>
    if ← sees [.flowSequenceEnd] then advance; return []
    flowComma .sequenceEndExpected start first
    let token ← peek
    match token.sign with
    | .flowSequenceEnd => advance; return []
    | .key =>
      advance
      let pair ← flowItemPair fuel
      return .mapping (token.mark.line + 1) "!!map" [pair] :: (← flowItems fuel start false)
    | _ =>
      let item ← node fuel false false
      return item :: (← flowItems fuel start false)

/-- Reads a single pair in a flow sequence. A key that is left out takes the next token with it. -/
def flowItemPair (fuel : Nat) : Reading (Node × Node) := do
  match fuel with
  | 0 => return (empty {}, empty {})
  | fuel + 1 =>
    let token ← peek
    let key ←
      if ← sees [.value, .comma, .flowSequenceEnd] then advance; pure (empty token.mark)
      else node fuel false false
    return (key, ← flowValue fuel [.comma, .flowSequenceEnd])

/-- Reads the value of a pair in a flow collection; it may be missing. -/
def flowValue (fuel : Nat) (ends : List Sign) : Reading Node := do
  match fuel with
  | 0 => return empty {}
  | fuel + 1 =>
    let token ← peek
    match token.sign with
    | .value =>
      advance
      let following ← peek
      nodeUnless fuel false false ends following.mark
    | _ => return empty token.mark

/-- Reads the pairs of a flow mapping. -/
def flowPairs (fuel : Nat) (start : Mark) (first : Bool) : Reading (List (Node × Node)) := do
  match fuel with
  | 0 => return []
  | fuel + 1 =>
    if ← sees [.flowMappingEnd] then advance; return []
    flowComma .mappingEndExpected start first
    let token ← peek
    match token.sign with
    | .flowMappingEnd => advance; return []
    | .key =>
      advance
      let following ← peek
      let key ← nodeUnless fuel false false [.value, .comma, .flowMappingEnd] following.mark
      let value ← flowValue fuel [.comma, .flowMappingEnd]
      return (key, value) :: (← flowPairs fuel start false)
    | _ =>
      let key ← node fuel false false
      let value := empty (← peek).mark
      return (key, value) :: (← flowPairs fuel start false)

end

/-- Reads the first document, if there is one. -/
def document (fuel : Nat) : Reading (Option Node) := do
  let token ← peek
  match token.sign with
  | .streamEnd => return none
  | .documentStart =>
    advance
    let following ← peek
    let root ←
      nodeUnless fuel true false [.documentStart, .documentEnd, .streamEnd] following.mark
    let _ ← peek
    return some root
  | _ =>
    let root ← node fuel true false
    let _ ← peek
    return some root

end Reading

/-- The content of the first document of a text. There is none if the text holds no document. -/
def readContent (source : Text) : Except Fault (Option Content) := do
  let (rest, finish) ← glyphs source
  let lexer : Lexer := ⟨rest, finish, #[], -1, [], none, [], true⟩
  let fuel := 4 * rest.length + 16
  let (root, state) ← (Reading.document fuel).run ⟨lexer, 0, [], #[]⟩
  return root.map fun root => ⟨root, state.anchored⟩

end Scriptlet.Document

import Scriptlet.Document.Node.Reader
import Scriptlet.Settings

/-!
# Reading settings

Settings are a mapping with a few known keys. A value that is null counts as absent, and so do null
items of a list. All values that do not fit are reported together, in the order of the document.
-/

namespace Scriptlet.Settings

open Document (Node Content Meaning)

/-- What a value is read as. -/
inductive Target where
  | settings
  | console
  | findings
  | names
  | text
  | switch
  deriving DecidableEq, Repr

/-- How messages call a target. -/
def Target.typeName : Target → Text
  | .settings => "config.configFile"
  | .console => "config.replFile"
  | .findings => "config.diagnosticsFile"
  | .names => "[]string"
  | .text => "string"
  | .switch => "bool"

/-- Why a part of a document does not fit. -/
inductive Misfit where
  | wrongKind (line : Nat) (tag text : Text) (target : Target)
  | unknownField (line : Nat) (name : Text) (target : Target)
  | repeatedField (line : Nat) (name : Text) (target : Target)
  | repeatedKey (line : Nat) (key : Text) (first : Nat)
  deriving DecidableEq, Repr

/-- At most ten bytes of a text; a longer one is cut after seven. -/
def excerpt (t : Text) : Text := if t.length > 10 then t.take 7 ++ "..." else t

/-- What a misfit says. -/
def Misfit.message : Misfit → Text
  | .wrongKind line tag text target =>
    let shown : Text :=
      if tag = ("!!seq" : Text) ∨ tag = ("!!map" : Text) then text
      else " \x60" ++ excerpt text ++ "\x60"
    "line " ++ .ofNat line ++ ": cannot unmarshal " ++ tag ++ shown ++ " into " ++ target.typeName
  | .unknownField line name target =>
    "line " ++ .ofNat line ++ ": field " ++ name ++ " not found in type " ++ target.typeName
  | .repeatedField line name target =>
    "line " ++ .ofNat line ++ ": field " ++ name ++ " already set in type " ++ target.typeName
  | .repeatedKey line key first =>
    "line " ++ .ofNat line ++ ": mapping key " ++ key.quoted ++ " already defined at line " ++
      .ofNat first

/-- Why settings cannot be read from a text. -/
inductive ReadFault where
  | document (fault : Document.Fault)
  /-- A text does not have the form that its tag asks for. -/
  | wrongTag (actual text tag : Text)
  | mergeNeedsMapping
  | selfContained (name : Text)
  | misfits (all : List Misfit)
  deriving DecidableEq, Repr

/-- What a fault says. -/
def ReadFault.message : ReadFault → Text
  | .document fault => fault.message
  | .wrongTag actual text tag =>
    "yaml: cannot decode " ++ actual ++ " \x60" ++ text ++ "\x60 as a " ++ tag
  | .mergeNeedsMapping => "yaml: map merge requires map or sequence of maps as the value"
  | .selfContained name => "yaml: anchor '" ++ name ++ "' value contains itself"
  | .misfits all => "yaml: unmarshal errors:" ++ all.flatMap fun m => ("\n  " ++ m.message : Text)

/-- What a document asks for. -/
structure Choices where
  natives : Option (List Text) := none
  prompt : Option Text := none
  historyFile : Option Text := none
  warnings : Option Bool := none
  color : Option Bool := none

/-- A reader of values, which notes misfits, the latest first. -/
abbrev Fitting := StateT (List Misfit) (Except ReadFault)

namespace Fitting

/-- Notes a misfit. -/
def note (misfit : Misfit) : Fitting Unit := modify (misfit :: ·)

/-- Notes that a node is of the wrong kind. -/
def wrongKind {α : Type} (node : Node) (target : Target) : Fitting (Option α) := do
  note (.wrongKind node.line node.tag node.text target)
  return none

/-- The meaning of a text with a tag. A text tagged as such means itself; with any other tag it has
to have that form, where an integer will do for a number. -/
def scalarMeaning (tag text : Text) : Fitting Meaning :=
  if tag = Meaning.text.tag ∨ tag = ("!!merge" : Text) then pure .text
  else
    let found := Document.meaning (tag = Meaning.timestamp.tag) text
    if found.tag = tag then pure found
    else if tag = Meaning.float.tag ∧ found = .int then pure .float
    else throw (.wrongTag found.tag text tag)

/-- The keys of a mapping that look like an earlier one. -/
def repeatedKeys : List (Node × Node) → List Misfit
  | [] => []
  | (key, _) :: later =>
    later.filterMap (fun (other, _) =>
      if key.looksLike other then some (.repeatedKey other.line other.text key.line) else none) ++
    repeatedKeys later

/-- Notes the keys of a mapping that look like an earlier one, and tells whether there are none. -/
def uniqueKeys (pairs : List (Node × Node)) : Fitting Bool := do
  let repeats := repeatedKeys pairs
  repeats.forM note
  return repeats.isEmpty

/-- Notes that a node that is no scalar is of the wrong kind. Keys that a mapping repeats are noted
instead. -/
def wrongCollection {α : Type} (node : Node) (target : Target) : Fitting (Option α) := do
  match node with
  | .mapping _ _ pairs => if ← uniqueKeys pairs then wrongKind node target else return none
  | _ => wrongKind node target

/-- Reads a node as a text; null is absent. -/
def text (c : Content) (node : Node) : Fitting (Option Text) := do
  let node := c.resolve node
  match node with
  | .scalar _ tag text =>
    match ← scalarMeaning tag text with
    | .null => return none
    | _ => return some text
  | _ => wrongCollection node .text

/-- The truth value of a word. -/
def switchWord? (t : Text) : Option Bool :=
  if [("y" : Text), "Y", "yes", "Yes", "YES", "on", "On", "ON"].contains t then some true
  else if [("n" : Text), "N", "no", "No", "NO", "off", "Off", "OFF"].contains t then some false
  else none

/-- Reads a node as a truth value; null is absent. -/
def switch (c : Content) (node : Node) : Fitting (Option Bool) := do
  let node := c.resolve node
  match node with
  | .scalar _ tag text =>
    match ← scalarMeaning tag text with
    | .null => return none
    | .bool b => return some b
    | .text =>
      match switchWord? text with
      | some b => return some b
      | none => wrongKind node .switch
    | _ => wrongKind node .switch
  | _ => wrongCollection node .switch

/-- Whether a node is a pair's key that merges another mapping into the one around it. -/
def isMerge (node : Node) : Bool :=
  match node with
  | .scalar _ tag text => text = ("<<" : Text) && tag = ("!!merge" : Text)
  | _ => false

/-- The state of reading the fields of a mapping: what was read, the fields that this mapping has
set, and those that a mapping it is merged into has set. -/
structure Fields (σ : Type) where
  value : σ
  own : List Text := []
  merged : Option (List Text) := none

variable {σ : Type}

/-- Reads one field of a mapping. -/
def field (target : Target) (c : Content) (known : List Text)
    (store : Text → Node → σ → Fitting σ) (key value : Node) (f : Fields σ) :
    Fitting (Fields σ) := do
  match ← text c key with
  | none => return f
  | some name =>
    if f.merged.any (·.contains name) then return f
    let f := { f with merged := f.merged.map (name :: ·) }
    if !known.contains name then
      note (.unknownField key.line name target)
      return f
    else if f.own.contains name then
      note (.repeatedField key.line name target)
      return f
    else return { f with value := ← store name value f.value, own := name :: f.own }

/-- The mappings that a node merges, in order. -/
def merges (c : Content) (node : Node) : Fitting (List Node) := do
  let isMapping (n : Node) : Bool := match c.resolve n with
    | .mapping .. => true
    | _ => false
  if isMapping node then return [node]
  match node with
  | .sequence _ _ items =>
    if items.all isMapping then return items else throw .mergeNeedsMapping
  | _ => throw .mergeNeedsMapping

/-- Reads the fields of a mapping, and then those of the mappings that it merges. The aliases that
lead here must not come again. -/
def fields (target : Target) (c : Content) (known : List Text)
    (store : Text → Node → σ → Fitting σ) :
    (fuel : Nat) → (path : List Nat) → Node → Fields σ → Fitting (Fields σ)
  | 0, _, _, f => return f
  | fuel + 1, path, node, f => do
    let path ← match node with
      | .reference _ name number =>
        if path.contains number then throw (ReadFault.selfContained name) else pure (number :: path)
      | _ => pure path
    match c.resolve node with
    | .mapping _ _ pairs =>
      if !(← uniqueKeys pairs) then return f
      let own ← pairs.foldlM (fun f (key, value) =>
          if isMerge key then pure f else field target c known store key value f)
        { f with own := [] }
      match pairs.reverse.find? fun (key, _) => isMerge key with
      | none => return own
      | some (_, merge) =>
        let names := pairs.filterMap fun (key, _) =>
          if isMerge key then none else some (c.resolve key).text
        let inner := { own with merged := own.merged.orElse fun _ => some names }
        let merged ← (← merges c merge).foldlM
          (fun f node => fields target c known store fuel path node f) inner
        return { merged with merged := own.merged }
    | _ => return f

/-- Reads a mapping with known fields; null is absent. -/
def record (target : Target) (c : Content) (known : List Text)
    (store : Text → Node → σ → Fitting σ) (node : Node) (initial : σ) : Fitting σ := do
  match c.resolve node with
  | .mapping .. =>
    return (← fields target c known store (c.anchored.size + 2) [] node ⟨initial, [], none⟩).value
  | .scalar line tag text =>
    match ← scalarMeaning tag text with
    | .null => return initial
    | _ =>
      let _ : Option Unit ← wrongKind (.scalar line tag text) target
      return initial
  | other =>
    let _ : Option Unit ← wrongKind other target
    return initial

/-- Reads a list of texts; null is absent, also as an item. -/
def names (c : Content) (node : Node) : Fitting (Option (List Text)) := do
  let node := c.resolve node
  match node with
  | .sequence _ _ items => return some (← items.filterMapM (text c))
  | .scalar _ tag text =>
    match ← scalarMeaning tag text with
    | .null => return none
    | _ => wrongKind node .names
  | _ => wrongCollection node .names

/-- Reads a setting of the console. -/
def console (c : Content) (name : Text) (node : Node) (choices : Choices) : Fitting Choices := do
  if name = ("prompt" : Text) then return { choices with prompt := ← text c node }
  else return { choices with historyFile := ← text c node }

/-- Reads a setting of the findings. -/
def findings (c : Content) (name : Text) (node : Node) (choices : Choices) : Fitting Choices := do
  if name = ("warnings" : Text) then return { choices with warnings := ← switch c node }
  else return { choices with color := ← switch c node }

/-- Reads a group of settings, or the list of native functions. -/
def group (c : Content) (name : Text) (node : Node) (choices : Choices) : Fitting Choices := do
  if name = ("natives" : Text) then return { choices with natives := ← names c node }
  else if name = ("repl" : Text) then
    record .console c ["prompt", "history_file"] (console c) node choices
  else record .findings c ["warnings", "color"] (findings c) node choices

/-- Reads all settings. -/
def choices (c : Content) : Fitting Choices :=
  record .settings c ["natives", "repl", "diagnostics"] (group c) c.root {}

end Fitting

/-- What a text asks for. A text without a document asks for nothing. -/
def readChoices (source : Text) : Except ReadFault Choices := do
  match Document.readContent source with
  | .error fault => throw (.document fault)
  | .ok none => return {}
  | .ok (some content) =>
    let (choices, misfits) ← (Fitting.choices content).run []
    if misfits.isEmpty then return choices else throw (.misfits misfits.reverse)

/-- The settings with some choices in place of the defaults. -/
def ofChoices (c : Choices) : Settings :=
  let defaults : Settings := {}
  { natives := c.natives.getD defaults.natives
    prompt := c.prompt.getD defaults.prompt
    historyFile := (c.historyFile.map Text.trim).getD defaults.historyFile
    warnings := c.warnings.getD defaults.warnings
    color := c.color.getD defaults.color }

end Scriptlet.Settings

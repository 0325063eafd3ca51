import Scriptlet.Value

/-!
# The heap

Variables live in scopes, and every scope but the outermost has a parent. A scope is reached in two
ways: by a name, through the parents until one binds it, or by a distance, which resolution has
computed beforehand. A scope is made after its parent, so its number is larger and every chain of
parents ends.
-/

namespace Scriptlet

/-- Variables and the scope around them. -/
structure Scope where
  parent : Option ScopeId
  slots : Entries Value

/-- Scopes and the fields of instances. -/
structure Heap where
  scopes : Array Scope := #[⟨none, []⟩]
  objects : Array (Entries Value) := #[]
  /-- The next number to tell functions and classes apart. -/
  nextIdentity : Nat := 0

/-- Why a variable could not be read or written. -/
inductive AccessFault where
  | undefined (name : Text)
  /-- A distance leads past the outermost scope. -/
  | tooFar (distance : Int) (depth : Nat)
  /-- A scope inside another lacks a name that should be there. -/
  | absent (name : Text) (distance : Int)
  deriving DecidableEq, Repr

namespace AccessFault

/-- What a fault says. -/
def message : AccessFault → Text
  | .undefined name => "undefined variable '" ++ name ++ "'"
  | .tooFar distance depth =>
    "scope mismatch: distance " ++ .ofInt distance ++ " exceeds chain depth " ++ .ofNat depth
  | .absent name distance =>
    "scope mismatch: '" ++ name ++ "' not found at distance " ++ .ofInt distance

/-- Whether a distance did not fit the scopes, which resolution should rule out. -/
def isMismatch : AccessFault → Bool
  | .undefined _ => false
  | _ => true

end AccessFault

namespace Heap

/-- The outermost scope. -/
def globals : ScopeId := 0

/-- The place of the next scope. -/
def nextScope (h : Heap) : ScopeId := h.scopes.size

/-- Adds a scope with a parent and variables of its own. -/
def addScope (h : Heap) (parent : ScopeId) (slots : Entries Value) : Heap :=
  { h with scopes := h.scopes.push ⟨some parent, slots⟩ }

/-- The place of the fields of the next instance. -/
def nextObject (h : Heap) : ObjectId := h.objects.size

/-- Adds the fields of an instance, of which there are none yet. -/
def addObject (h : Heap) : Heap := { h with objects := h.objects.push [] }

/-- Uses up a number that tells something apart. -/
def addIdentity (h : Heap) : Heap := { h with nextIdentity := h.nextIdentity + 1 }

/-- The variables of a scope. -/
def slots (h : Heap) (id : ScopeId) : Entries Value :=
  match h.scopes[id]? with
  | some s => s.slots
  | none => []

/-- The parent of a scope. -/
def parent? (h : Heap) (id : ScopeId) : Option ScopeId := h.scopes[id]?.bind Scope.parent

/-- Binds a name in a scope. A name that is bound is bound anew. -/
def define (h : Heap) (id : ScopeId) (name : Text) (value : Value) : Heap :=
  { h with scopes := h.scopes.modify id fun s => { s with slots := s.slots.put name value } }

/-- The names that a scope binds. -/
def names (h : Heap) (id : ScopeId) : List Text := (h.slots id).names

/-! ## Access by name -/

/-- The nearest scope that binds a name, from a scope outwards. -/
def binder? (h : Heap) (name : Text) (id : ScopeId) : Option ScopeId :=
  if (h.slots id).has name then some id
  else
    match h.parent? id with
    | none => none
    | some p => if p < id then h.binder? name p else none
termination_by id

/-- Reads a variable. -/
def get (h : Heap) (id : ScopeId) (name : Text) : Except AccessFault Value :=
  match (h.binder? name id).bind fun s => (h.slots s).get? name with
  | some v => .ok v
  | none => .error (.undefined name)

/-- Writes a variable that exists. -/
def assign (h : Heap) (id : ScopeId) (name : Text) (value : Value) : Except AccessFault Heap :=
  match h.binder? name id with
  | some s => .ok (h.define s name value)
  | none => .error (.undefined name)

/-! ## Access by distance -/

/-- The scope a number of hops out. -/
def ancestorFrom (h : Heap) (distance : Int) : (left hops : Nat) → ScopeId → Except AccessFault ScopeId
  | 0, _, id => .ok id
  | left + 1, hops, id =>
    match h.parent? id with
    | none => .error (.tooFar distance hops)
    | some p => h.ancestorFrom distance left (hops + 1) p

/-- The scope at a distance; a scope is its own ancestor at every distance that is not positive. -/
def ancestor (h : Heap) (id : ScopeId) (distance : Int) : Except AccessFault ScopeId :=
  h.ancestorFrom distance distance.toNat 0 id

/-- The fault of a name that is not in the scope at a distance. -/
def missing (h : Heap) (id : ScopeId) (name : Text) (distance : Int) : AccessFault :=
  if (h.parent? id).isNone then .undefined name else .absent name distance

/-- Reads the variable at a distance. -/
def getAt (h : Heap) (id : ScopeId) (distance : Int) (name : Text) : Except AccessFault Value := do
  let s ← h.ancestor id distance
  match (h.slots s).get? name with
  | some v => return v
  | none => throw (h.missing s name distance)

/-- The scope at a distance, which must bind a name. -/
def binderAt (h : Heap) (id : ScopeId) (distance : Int) (name : Text) :
    Except AccessFault ScopeId := do
  let s ← h.ancestor id distance
  if (h.slots s).has name then return s
  else throw (h.missing s name distance)

/-- Writes the variable at a distance, which must exist. -/
def assignAt (h : Heap) (id : ScopeId) (distance : Int) (name : Text) (value : Value) :
    Except AccessFault Heap := do
  return h.define (← h.binderAt id distance name) name value

/-! ## Instances -/

/-- The field of an instance. -/
def field? (h : Heap) (id : ObjectId) (name : Text) : Option Value :=
  h.objects[id]?.bind fun fields => fields.get? name

/-- Gives a field of an instance a value. -/
def setField (h : Heap) (id : ObjectId) (name : Text) (value : Value) : Heap :=
  { h with objects := h.objects.modify id (Entries.put name value) }

end Heap

/-- Binds native functions by name in a scope, up to the first name that is none of them. -/
def Heap.register (h : Heap) (id : ScopeId) : List Text → Heap × Option Text
  | [] => (h, none)
  | name :: rest =>
    match Native.ofName? name with
    | some n => (h.define id name (.native n)).register id rest
    | none => (h, some name)

end Scriptlet

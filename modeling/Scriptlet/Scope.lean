import Scriptlet.Token

/-!
# Static scopes

While a program is resolved, the open scopes form a stack. A scope lists its names in the order of
their declarations; a name is declared, then defined, and may then be read.
-/

namespace Scriptlet

/-- How far a local name has come. -/
inductive BindingState where
  /-- Its initializer is being resolved. -/
  | declared
  | defined
  | read
  deriving DecidableEq, Repr

/-- A name of a scope. -/
structure Binding where
  name : Token
  state : BindingState
  deriving Repr

/-- The names of a scope in the order of their declarations. -/
abbrev LocalScope := List Binding

namespace LocalScope

/-- The binding of a name. -/
def find? (s : LocalScope) (name : Text) : Option Binding :=
  List.find? (fun b => b.name.lexeme == name) s

/-- Whether a scope has a name. -/
def binds (s : LocalScope) (name : Text) : Bool := s.any fun b => b.name.lexeme == name

/-- Adds a binding; one with the same name is replaced where it stands. -/
def put (b : Binding) : LocalScope → LocalScope
  | [] => [b]
  | a :: rest => if a.name.lexeme == b.name.lexeme then b :: rest else a :: put b rest

/-- Changes the state of a name. -/
def mark (name : Text) (state : BindingState) (s : LocalScope) : LocalScope :=
  s.map fun b => if b.name.lexeme == name then { b with state := state } else b

/-- The names that were defined and never read. -/
def unread (s : LocalScope) : List Token :=
  (s.filter fun b => b.state = .defined).map Binding.name

end LocalScope

/-- The open scopes, the innermost first. -/
abbrev ScopeStack := List LocalScope

namespace ScopeStack

/-- How many scopes out a name is bound. -/
def hops? (scopes : ScopeStack) (name : Text) : Option Nat :=
  scopes.findIdx? fun s => s.binds name

/-- Changes the state of a name in the scope a number of hops out. -/
def markAt (hops : Nat) (name : Text) (state : BindingState) (scopes : ScopeStack) : ScopeStack :=
  scopes.modify hops (LocalScope.mark name state)

end ScopeStack

end Scriptlet

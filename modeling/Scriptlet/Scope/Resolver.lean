import Scriptlet.Scope
import Scriptlet.Scope.Fault
import Scriptlet.Tree

/-!
# Resolving names

Resolution walks a program once, before it runs. Every reference is linked to the scope that binds
its name: the link counts the scopes between the reference and that scope, and a name that no open
scope binds is linked past all of them, to the globals. On the way, names and statements that stand
where they cannot are reported, and so are local names that nobody reads.

A block opens one scope, and so does a function for its parameters and its body. Around its methods
a class opens a scope with the receiver, and around that, if it has a superclass, one with it.
-/

namespace Scriptlet

/-- Where a reference leads. -/
structure Link where
  /-- Its place among all linked references. -/
  ordinal : Nat
  /-- How many scopes out its name is bound. -/
  hops : Int
  deriving DecidableEq, Repr

/-- A link with the reference it was made for. -/
structure LinkRecord where
  label : Text
  start : Position
  /-- How many scopes out the name is bound; as many as are open if none of them binds it. -/
  hops : Nat
  /-- How many scopes are open at the reference. -/
  depth : Nat
  deriving DecidableEq, Repr

/-- What kind of function is around a place. -/
inductive FunctionKind where
  | none
  | function
  | method
  | initializer
  deriving DecidableEq, Repr

/-- What kind of class is around a place. -/
inductive ClassKind where
  | none
  | plain
  | derived
  deriving DecidableEq, Repr

/-- What is around a place of a program. -/
structure Surroundings where
  function : FunctionKind := .none
  cls : ClassKind := .none
  inLoop : Bool := false
  /-- Inside the condition of a branch, a loop or a ternary. -/
  inCondition : Bool := false
  deriving DecidableEq, Repr

/-- The state of a resolution. -/
structure Resolution where
  scopes : ScopeStack := []
  globals : List Text := []
  /-- The findings so far, the latest first. -/
  found : List Diagnostic := []
  /-- The links so far, the latest first. -/
  links : List LinkRecord := []
  linkCount : Nat := 0

/-- A step of a resolution. -/
abbrev Resolve := StateM Resolution

namespace Resolve

/-- Records a finding. -/
def report (f : ScopeFault) (token : Token) : Resolve Unit :=
  modify fun r => { r with found := f.report token :: r.found }

/-- Opens a scope. -/
def openScope : Resolve Unit := modify fun r => { r with scopes := [] :: r.scopes }

/-- Closes the innermost scope and reports its unread names. -/
def closeScope : Resolve Unit := modify fun r =>
  match r.scopes with
  | [] => r
  | top :: rest =>
    let warnings := top.unread.map fun name => (ScopeFault.unused name.lexeme).report name
    { r with scopes := rest, found := warnings.reverse ++ r.found }

/-- Declares a name in the innermost scope, or among the globals. -/
def declare (name : Token) : Resolve Unit := do
  match (← get).scopes with
  | [] => modify fun r => { r with globals := name.lexeme :: r.globals }
  | top :: rest =>
    if top.binds name.lexeme then report (.redeclared name.lexeme) name
    modify fun r => { r with scopes := top.put ⟨name, .declared⟩ :: rest }

/-- Ends the initialization of a local name. -/
def define (name : Token) : Resolve Unit :=
  modify fun r => { r with scopes := r.scopes.markAt 0 name.lexeme .defined }

/-- Binds the receiver or the superclass in the innermost scope; these count as read. -/
def bindImplicit (name : Text) : Resolve Unit := modify fun r =>
  match r.scopes with
  | [] => r
  | top :: rest =>
    let token : Token := ⟨.identifier, name, none, .nowhere⟩
    { r with scopes := top.put ⟨token, .read⟩ :: rest }

/-- Makes the link of a reference. -/
def link (label : Text) (start : Position) (hops : Nat) : Resolve (Option Link) := do
  let ordinal := (← get).linkCount
  modify fun r =>
    { r with links := ⟨label, start, hops, r.scopes.length⟩ :: r.links, linkCount := ordinal + 1 }
  return some ⟨ordinal, hops⟩

/-- Links a name, leaving out a number of innermost scopes, and marks it as read if it is. -/
def linkBeyond (skipped : Nat) (label : Text) (start : Position) (name : Text) (isRead : Bool) :
    Resolve (Option Link) := do
  let scopes := (← get).scopes
  match ScopeStack.hops? (scopes.drop skipped) name with
  | some k =>
    if isRead then modify fun r => { r with scopes := r.scopes.markAt (skipped + k) name .read }
    link label start (skipped + k)
  | none => link label start scopes.length

/-- Links a variable that is read. While its own initializer is resolved, a local name stands for
the one outside of its scope, which must exist. -/
def linkVariable (start : Position) (name : Token) : Resolve (Option Link) := do
  let r ← get
  let label := "var " ++ name.lexeme
  let initializing : Bool :=
    match r.scopes with
    | [] => false
    | top :: _ => (top.find? name.lexeme).any fun b => b.state = .declared
  if initializing then
    let outside := ScopeStack.hops? (r.scopes.drop 1) name.lexeme
    if outside.isSome || r.globals.contains name.lexeme then
      linkBeyond 1 label start name.lexeme true
    else
      report (.ownInitializer name.lexeme) name
      return none
  else linkBeyond 0 label start name.lexeme true

/-- Declares and defines the parameters of a function. -/
def parameters : List Token → Resolve Unit
  | [] => pure ()
  | p :: ps => do
    declare p
    define p
    parameters ps

end Resolve

open Resolve

mutual

/-- Links the references of an expression, in the order in which they are met. The value of a field
assignment comes before the object. -/
def Expr.resolve (s : Surroundings) : Expr Unit → Resolve (Expr (Option Link))
  | .literal span value => return .literal span value
  | .name span name _ => return .name span name (← linkVariable span.start name)
  | .assign span name op value _ => do
    if s.inCondition then report .assignmentInCondition op
    let value ← value.resolve s
    let link ← linkBeyond 0 ("assign " ++ name.lexeme) span.start name.lexeme
      op.kind.isCompoundAssign
    return .assign span name op value link
  | .binary span left op right => do
    let left ← left.resolve s
    let right ← right.resolve s
    return .binary span left op right
  | .logical span left op right => do
    let left ← left.resolve s
    let right ← right.resolve s
    return .logical span left op right
  | .unary span op operand trailing => do
    let operand ← operand.resolve s
    return .unary span op operand trailing
  | .ternary span condition onTrue onFalse => do
    let condition ← condition.resolve { s with inCondition := true }
    let onTrue ← onTrue.resolve s
    let onFalse ← onFalse.resolve s
    return .ternary span condition onTrue onFalse
  | .group span inner => do
    let inner ← inner.resolve s
    return .group span inner
  | .call span callee paren args => do
    let callee ← callee.resolve s
    let args ← Expr.resolveList s args
    return .call span callee paren args
  | .lambda function => do
    let function ← function.resolve { s with function := .function }
    return .lambda function
  | .get span object name => do
    let object ← object.resolve s
    return .get span object name
  | .set span object name value => do
    let value ← value.resolve s
    let object ← object.resolve s
    return .set span object name value
  | .receiver span keyword _ => do
    match s.cls with
    | .none =>
      report .receiverOutsideClass keyword
      return .receiver span keyword none
    | _ =>
      let link ← linkBeyond 0 "this" span.start keyword.lexeme true
      return .receiver span keyword link
  | .inherited span keyword method _ => do
    match s.cls with
    | .none =>
      report .inheritedOutsideClass keyword
      return .inherited span keyword method none
    | .plain =>
      report .inheritedWithoutSuperclass keyword
      return .inherited span keyword method none
    | .derived =>
      let link ← linkBeyond 0 ("super." ++ method.lexeme) span.start keyword.lexeme true
      return .inherited span keyword method link

/-- Links the references of expressions from left to right. -/
def Expr.resolveList (s : Surroundings) : List (Expr Unit) → Resolve (List (Expr (Option Link)))
  | [] => return []
  | e :: es => do
    let e ← e.resolve s
    let es ← Expr.resolveList s es
    return e :: es

/-- A function body is outside of the loops around the function. -/
def Function.resolve (s : Surroundings) : Function Unit → Resolve (Function (Option Link))
  | .mk span keyword params body getter => do
    openScope
    parameters params
    let body ← Stmt.resolveList { s with inLoop := false } body
    closeScope
    return .mk span keyword params body getter

/-- Links the references of methods. Where initializers count, a method with their name is one. -/
def Declaration.resolveMethods (s : Surroundings) (initializers : Bool) :
    List (Declaration Unit) → Resolve (List (Declaration (Option Link)))
  | [] => return []
  | .mk span name function :: rest => do
    let kind : FunctionKind :=
      if initializers && name.lexeme == ("init" : Text) then .initializer else .method
    let function ← function.resolve { s with function := kind }
    let rest ← Declaration.resolveMethods s initializers rest
    return .mk span name function :: rest

/-- Links the references of a statement. A variable is declared before its initializer and defined
after it; functions and classes are defined before their bodies, so that these can name them. -/
def Stmt.resolve (s : Surroundings) : Stmt Unit → Resolve (Stmt (Option Link))
  | .evaluate span expr => do
    let expr ← expr.resolve s
    return .evaluate span expr
  | .print span keyword value => do
    let value ← value.resolve s
    return .print span keyword value
  | .declareVar span name none => do
    declare name
    define name
    return .declareVar span name none
  | .declareVar span name (some init) => do
    declare name
    let init ← init.resolve s
    define name
    return .declareVar span name (some init)
  | .block span stmts => do
    openScope
    let stmts ← Stmt.resolveList s stmts
    closeScope
    return .block span stmts
  | .branch span condition onTrue none => do
    let condition ← condition.resolve { s with inCondition := true }
    let onTrue ← onTrue.resolve s
    return .branch span condition onTrue none
  | .branch span condition onTrue (some onFalse) => do
    let condition ← condition.resolve { s with inCondition := true }
    let onTrue ← onTrue.resolve s
    let onFalse ← onFalse.resolve s
    return .branch span condition onTrue (some onFalse)
  | .loop span condition body none bodyFirst => do
    let condition ← condition.resolve { s with inCondition := true }
    let body ← body.resolve { s with inLoop := true }
    return .loop span condition body none bodyFirst
  | .loop span condition body (some update) bodyFirst => do
    let condition ← condition.resolve { s with inCondition := true }
    let body ← body.resolve { s with inLoop := true }
    let update ← update.resolve { s with inLoop := true }
    return .loop span condition body (some update) bodyFirst
  | .leave span keyword none => do
    if s.function = .none then report .topLevelReturn keyword
    return .leave span keyword none
  | .leave span keyword (some value) => do
    if s.function = .none then report .topLevelReturn keyword
    if s.function = .initializer then report .initializerValue keyword
    let value ← value.resolve s
    return .leave span keyword (some value)
  | .breakLoop span keyword => do
    unless s.inLoop do report .strayBreak keyword
    return .breakLoop span keyword
  | .continueLoop span keyword => do
    unless s.inLoop do report .strayContinue keyword
    return .continueLoop span keyword
  | .declareFunction (.mk span name function) => do
    declare name
    define name
    let function ← function.resolve { s with function := .function }
    return .declareFunction (.mk span name function)
  | .declareClass span name superclass methods classMethods => do
    declare name
    define name
    match superclass with
    | none =>
      openScope
      bindImplicit "this"
      let s := { s with cls := .plain }
      let methods ← Declaration.resolveMethods s true methods
      let classMethods ← Declaration.resolveMethods s false classMethods
      closeScope
      return .declareClass span name none methods classMethods
    | some (parent, _) =>
      if parent.lexeme == name.lexeme then report .selfInheritance parent
      let link ← linkVariable parent.span.start parent
      openScope
      bindImplicit "super"
      openScope
      bindImplicit "this"
      let s := { s with cls := .derived }
      let methods ← Declaration.resolveMethods s true methods
      let classMethods ← Declaration.resolveMethods s false classMethods
      closeScope
      closeScope
      return .declareClass span name (some (parent, link)) methods classMethods

/-- Links the references of statements one after the other. -/
def Stmt.resolveList (s : Surroundings) : List (Stmt Unit) → Resolve (List (Stmt (Option Link)))
  | [] => return []
  | stmt :: stmts => do
    let stmt ← stmt.resolve s
    let stmts ← Stmt.resolveList s stmts
    return stmt :: stmts

end

/-- What a resolution produces: the linked tree, its links in order and what was found. -/
structure Resolved (α : Type) where
  tree : α
  links : List LinkRecord
  report : Report

/-- Runs a resolution at top level, where some names are known as globals. Links are numbered from
`first`. -/
def Resolve.finish {α : Type} (globals : List Text) (first : Nat) (r : Resolve α) : Resolved α :=
  let (tree, r) := r.run { globals := globals, linkCount := first }
  ⟨tree, r.links.reverse, r.found.reverse⟩

/-- Resolves the statements of a program. -/
def resolveStmts (globals : List Text) (stmts : List (Stmt Unit)) (first : Nat := 0) :
    Resolved (List (Stmt (Option Link))) :=
  Resolve.finish globals first (Stmt.resolveList {} stmts)

/-- Resolves an expression that stands alone. -/
def resolveExpr (globals : List Text) (expr : Expr Unit) (first : Nat := 0) :
    Resolved (Expr (Option Link)) :=
  Resolve.finish globals first (expr.resolve {})

end Scriptlet

import Scriptlet.Token

/-!
# Trees of programs

A program is a list of statements over expressions and functions. Every reference to a variable, to
the receiver of a method or to an inherited method carries what is known about it: nothing after
parsing (`Unit`), and a link to its scope after resolution. The type parameter `β` stands for that
knowledge, so that only resolved trees can be run.

Loops have one form. A `for` loop is a loop whose update runs after every round, inside a block if
it has an initializer; a `do` loop skips the test before its first round.
-/

namespace Scriptlet

mutual

/-- Expressions. -/
inductive Expr (β : Type) where
  | literal (span : Span) (value : Literal)
  /-- A variable that is read. -/
  | name (span : Span) (name : Token) (link : β)
  /-- An assignment to a variable, plain or combined with an operator. -/
  | assign (span : Span) (name op : Token) (value : Expr β) (link : β)
  /-- An operator on two values; the comma is one of them. -/
  | binary (span : Span) (left : Expr β) (op : Token) (right : Expr β)
  /-- A conjunction or disjunction, which may leave its right side out. -/
  | logical (span : Span) (left : Expr β) (op : Token) (right : Expr β)
  /-- An operator on one value, before or after its operand. -/
  | unary (span : Span) (op : Token) (operand : Expr β) (trailing : Bool)
  | ternary (span : Span) (condition onTrue onFalse : Expr β)
  | group (span : Span) (inner : Expr β)
  /-- A call; the closing parenthesis is the place of errors in it. -/
  | call (span : Span) (callee : Expr β) (paren : Token) (args : List (Expr β))
  | lambda (function : Function β)
  | get (span : Span) (object : Expr β) (name : Token)
  | set (span : Span) (object : Expr β) (name : Token) (value : Expr β)
  /-- The receiver of the method around it. -/
  | receiver (span : Span) (keyword : Token) (link : β)
  /-- A method of the superclass of the class around it. -/
  | inherited (span : Span) (keyword method : Token) (link : β)

/-- Functions: literals, declared functions and methods. A getter is declared without a parameter
list and runs when it is read. -/
inductive Function (β : Type) where
  | mk (span : Span) (keyword : Token) (params : List Token) (body : List (Stmt β)) (getter : Bool)

/-- A function with a name. -/
inductive Declaration (β : Type) where
  | mk (span : Span) (name : Token) (function : Function β)

/-- Statements. -/
inductive Stmt (β : Type) where
  | evaluate (span : Span) (expr : Expr β)
  | print (span : Span) (keyword : Token) (value : Expr β)
  | declareVar (span : Span) (name : Token) (init : Option (Expr β))
  | block (span : Span) (stmts : List (Stmt β))
  | branch (span : Span) (condition : Expr β) (onTrue : Stmt β) (onFalse : Option (Stmt β))
  | loop (span : Span) (condition : Expr β) (body : Stmt β) (update : Option (Expr β))
    (bodyFirst : Bool)
  | leave (span : Span) (keyword : Token) (value : Option (Expr β))
  | breakLoop (span : Span) (keyword : Token)
  | continueLoop (span : Span) (keyword : Token)
  | declareFunction (declaration : Declaration β)
  /-- A class with the name and the link of its superclass, its methods and its class methods. -/
  | declareClass (span : Span) (name : Token) (superclass : Option (Token × β))
    (methods classMethods : List (Declaration β))

end

/-- A whole source. -/
structure Program (β : Type) where
  span : Span
  stmts : List (Stmt β)

namespace Function

variable {β : Type}

def span : Function β → Span
  | .mk span .. => span

def params : Function β → List Token
  | .mk _ _ params .. => params

def body : Function β → List (Stmt β)
  | .mk _ _ _ body _ => body

/-- Whether the function runs when it is read. -/
def getter : Function β → Bool
  | .mk _ _ _ _ getter => getter

end Function

namespace Declaration

variable {β : Type}

def span : Declaration β → Span
  | .mk span .. => span

def name : Declaration β → Token
  | .mk _ name _ => name

def function : Declaration β → Function β
  | .mk _ _ function => function

end Declaration

/-- The stretch of source that an expression was read from. -/
def Expr.span {β : Type} : Expr β → Span
  | .literal span .. | .name span .. | .assign span .. | .binary span .. | .logical span ..
  | .unary span .. | .ternary span .. | .group span .. | .call span .. | .get span .. | .set span ..
  | .receiver span .. | .inherited span .. => span
  | .lambda function => function.span

/-- The stretch of source that a statement was read from. -/
def Stmt.span {β : Type} : Stmt β → Span
  | .evaluate span .. | .print span .. | .declareVar span .. | .block span .. | .branch span ..
  | .loop span .. | .leave span .. | .breakLoop span .. | .continueLoop span ..
  | .declareClass span .. => span
  | .declareFunction declaration => declaration.span

/-! ## Changing what is known about references -/

mutual

/-- The same expression with other links. -/
def Expr.mapLinks {β γ : Type} (f : β → γ) : Expr β → Expr γ
  | .literal span value => .literal span value
  | .name span name link => .name span name (f link)
  | .assign span name op value link => .assign span name op (value.mapLinks f) (f link)
  | .binary span left op right => .binary span (left.mapLinks f) op (right.mapLinks f)
  | .logical span left op right => .logical span (left.mapLinks f) op (right.mapLinks f)
  | .unary span op operand trailing => .unary span op (operand.mapLinks f) trailing
  | .ternary span condition onTrue onFalse =>
    .ternary span (condition.mapLinks f) (onTrue.mapLinks f) (onFalse.mapLinks f)
  | .group span inner => .group span (inner.mapLinks f)
  | .call span callee paren args => .call span (callee.mapLinks f) paren (Expr.mapLinksList f args)
  | .lambda function => .lambda (function.mapLinks f)
  | .get span object name => .get span (object.mapLinks f) name
  | .set span object name value => .set span (object.mapLinks f) name (value.mapLinks f)
  | .receiver span keyword link => .receiver span keyword (f link)
  | .inherited span keyword method link => .inherited span keyword method (f link)

def Expr.mapLinksList {β γ : Type} (f : β → γ) : List (Expr β) → List (Expr γ)
  | [] => []
  | e :: es => e.mapLinks f :: Expr.mapLinksList f es

def Function.mapLinks {β γ : Type} (f : β → γ) : Function β → Function γ
  | .mk span keyword params body getter =>
    .mk span keyword params (Stmt.mapLinksList f body) getter

def Declaration.mapLinks {β γ : Type} (f : β → γ) : Declaration β → Declaration γ
  | .mk span name function => .mk span name (function.mapLinks f)

def Declaration.mapLinksList {β γ : Type} (f : β → γ) :
    List (Declaration β) → List (Declaration γ)
  | [] => []
  | d :: ds => d.mapLinks f :: Declaration.mapLinksList f ds

/-- The same statement with other links. -/
def Stmt.mapLinks {β γ : Type} (f : β → γ) : Stmt β → Stmt γ
  | .evaluate span expr => .evaluate span (expr.mapLinks f)
  | .print span keyword value => .print span keyword (value.mapLinks f)
  | .declareVar span name none => .declareVar span name none
  | .declareVar span name (some init) => .declareVar span name (some (init.mapLinks f))
  | .block span stmts => .block span (Stmt.mapLinksList f stmts)
  | .branch span condition onTrue none =>
    .branch span (condition.mapLinks f) (onTrue.mapLinks f) none
  | .branch span condition onTrue (some onFalse) =>
    .branch span (condition.mapLinks f) (onTrue.mapLinks f) (some (onFalse.mapLinks f))
  | .loop span condition body none bodyFirst =>
    .loop span (condition.mapLinks f) (body.mapLinks f) none bodyFirst
  | .loop span condition body (some update) bodyFirst =>
    .loop span (condition.mapLinks f) (body.mapLinks f) (some (update.mapLinks f)) bodyFirst
  | .leave span keyword none => .leave span keyword none
  | .leave span keyword (some value) => .leave span keyword (some (value.mapLinks f))
  | .breakLoop span keyword => .breakLoop span keyword
  | .continueLoop span keyword => .continueLoop span keyword
  | .declareFunction declaration => .declareFunction (declaration.mapLinks f)
  | .declareClass span name superclass methods classMethods =>
    .declareClass span name (superclass.map fun (token, link) => (token, f link))
      (Declaration.mapLinksList f methods) (Declaration.mapLinksList f classMethods)

def Stmt.mapLinksList {β γ : Type} (f : β → γ) : List (Stmt β) → List (Stmt γ)
  | [] => []
  | s :: ss => s.mapLinks f :: Stmt.mapLinksList f ss

end

end Scriptlet

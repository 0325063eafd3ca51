import Scriptlet.Json
import Scriptlet.Tree

/-!
# Trees as data

A tree is written as nested objects. Every node names its kind and its span, operators by their
spelling and names by their lexemes; children that are absent have no field.
-/

namespace Scriptlet

/-- A position as data. -/
def Position.dump (p : Position) : Json :=
  .sorted [("offset", .int p.offset), ("line", .int p.line), ("column", .int p.column)]

/-- A span as data. -/
def Span.dump (s : Span) : Json := .sorted [("start", s.start.dump), ("end", s.stop.dump)]

/-- A constant as data. -/
def Literal.dump : Literal → Json
  | .none => .null
  | .bool b => .bool b
  | .number x => .number x
  | .text t => .text t

/-- A node of a kind with a span and further fields. -/
def Json.node (kind : String) (span : Span) (fields : List (String × Json)) : Json :=
  .sorted (("kind", .text kind) :: ("span", span.dump) :: fields)

mutual

/-- An expression as data. Links and the spans of single tokens are left out. -/
def Expr.dump {β : Type} : Expr β → Json
  | .literal span value => .node "LiteralExpr" span [("value", value.dump)]
  | .name span name _ => .node "VariableExpr" span [("name", .text name.lexeme)]
  | .assign span name op value _ =>
    .node "AssignExpr" span
      [("name", .text name.lexeme), ("op", .text op.kind.text), ("value", value.dump)]
  | .binary span left op right =>
    .node "BinaryExpr" span
      [("op", .text op.kind.text), ("left", left.dump), ("right", right.dump)]
  | .logical span left op right =>
    .node "LogicalExpr" span
      [("op", .text op.kind.text), ("left", left.dump), ("right", right.dump)]
  | .unary span op operand trailing =>
    .node "UnaryExpr" span
      [("op", .text op.kind.text), ("postfix", .bool trailing), ("operand", operand.dump)]
  | .ternary span condition onTrue onFalse =>
    .node "TernaryExpr" span
      [("condition", condition.dump), ("then", onTrue.dump), ("else", onFalse.dump)]
  | .group span inner => .node "GroupingExpr" span [("inner", inner.dump)]
  | .call span callee _ args =>
    .node "CallExpr" span [("callee", callee.dump), ("args", .list (Expr.dumpList args))]
  | .lambda function => function.dump
  | .get span object name =>
    .node "GetExpr" span [("object", object.dump), ("name", .text name.lexeme)]
  | .set span object name value =>
    .node "SetExpr" span
      [("object", object.dump), ("name", .text name.lexeme), ("value", value.dump)]
  | .receiver span .. => .node "ThisExpr" span []
  | .inherited span _ method _ => .node "SuperExpr" span [("method", .text method.lexeme)]

def Expr.dumpList {β : Type} : List (Expr β) → List Json
  | [] => []
  | e :: es => e.dump :: Expr.dumpList es

/-- A function as data. -/
def Function.dump {β : Type} : Function β → Json
  | .mk span _ params body getter =>
    .node "FuncExpr" span
      [("params", .list (params.map fun p => .text p.lexeme)), ("getter", .bool getter),
        ("body", .list (Stmt.dumpList body))]

/-- A named function as data. -/
def Declaration.dump {β : Type} : Declaration β → Json
  | .mk span name function =>
    .node "FuncDecl" span [("name", .text name.lexeme), ("func", function.dump)]

def Declaration.dumpList {β : Type} : List (Declaration β) → List Json
  | [] => []
  | d :: ds => d.dump :: Declaration.dumpList ds

/-- A statement as data. What is absent has no field, and neither has an empty list of methods. -/
def Stmt.dump {β : Type} : Stmt β → Json
  | .evaluate span expr => .node "ExprStmt" span [("expr", expr.dump)]
  | .print span _ value => .node "PrintStmt" span [("value", value.dump)]
  | .declareVar span name none => .node "VarStmt" span [("name", .text name.lexeme)]
  | .declareVar span name (some init) =>
    .node "VarStmt" span [("name", .text name.lexeme), ("init", init.dump)]
  | .block span stmts => .node "BlockStmt" span [("stmts", .list (Stmt.dumpList stmts))]
  | .branch span condition onTrue none =>
    .node "IfStmt" span [("condition", condition.dump), ("then", onTrue.dump)]
  | .branch span condition onTrue (some onFalse) =>
    .node "IfStmt" span
      [("condition", condition.dump), ("then", onTrue.dump), ("else", onFalse.dump)]
  | .loop span condition body none bodyFirst =>
    .node "WhileStmt" span
      [("condition", condition.dump), ("body", body.dump), ("doWhile", .bool bodyFirst)]
  | .loop span condition body (some update) bodyFirst =>
    .node "WhileStmt" span
      [("condition", condition.dump), ("body", body.dump), ("doWhile", .bool bodyFirst),
        ("increment", update.dump)]
  | .leave span _ none => .node "ReturnStmt" span []
  | .leave span _ (some value) => .node "ReturnStmt" span [("value", value.dump)]
  | .breakLoop span _ => .node "BreakStmt" span []
  | .continueLoop span _ => .node "ContinueStmt" span []
  | .declareFunction declaration => declaration.dump
  | .declareClass span name superclass methods classMethods =>
    let nonEmpty (name : String) (items : List Json) : List (String × Json) :=
      if items.isEmpty then [] else [(name, .list items)]
    .node "ClassDecl" span
      (("name", .text name.lexeme) ::
        Json.optional "superclass" (superclass.map fun s => .text s.1.lexeme) ++
        nonEmpty "methods" (Declaration.dumpList methods) ++
        nonEmpty "classMethods" (Declaration.dumpList classMethods))

def Stmt.dumpList {β : Type} : List (Stmt β) → List Json
  | [] => []
  | s :: ss => s.dump :: Stmt.dumpList ss

end

/-- A whole program as data. -/
def Program.dump {β : Type} (p : Program β) : Json :=
  .node "File" p.span [("stmts", .list (Stmt.dumpList p.stmts))]

end Scriptlet

import Scriptlet.Tree.Fault

/-!
# The grammar of programs

The grammar is data: `Production` lists, for every kind of phrase, the rows of phrases that it may
consist of, and `Derives` says which lists of tokens a row stands for. The grammar is ambiguous, as
grammars of statements with an optional `else` are; it says what a program is, not how one is read.
-/

namespace Scriptlet

/-- Parts of a program. -/
inductive Phrase where
  | token (kind : Kind)
  /-- A row of phrases that may be left out. -/
  | opt (row : List Phrase)
  /-- A row of phrases, any number of times. -/
  | many (row : List Phrase)
  /-- A number of phrases with commas between them. -/
  | listed (count : Nat) (item : Phrase)
  | file
  | decl
  | member
  | params
  | vars
  | stmt
  | forInit
  | block
  | expr
  | asg
  | tern
  | bin
  | unary
  | call
  | suffix
  | primary
  | literal
  | assignOp
  | infixOp
  | prefixOp
  | stepOp

namespace Phrase

instance : Coe Kind Phrase := ⟨.token⟩

def literals : List Kind := [.number, .string, .kwTrue, .kwFalse, .kwNone]

def assignOps : List Kind :=
  [.assign, .plusAssign, .minusAssign, .starAssign, .slashAssign, .starStarAssign]

def infixOps : List Kind :=
  [.kwOr, .kwAnd, .equal, .notEqual, .less, .lessEqual, .greater, .greaterEqual, .plus, .minus,
    .star, .slash, .starStar]

def prefixOps : List Kind := [.bang, .minus, .plusPlus, .minusMinus]

def stepOps : List Kind := [.plusPlus, .minusMinus]

end Phrase

open Phrase in
/-- The rows of phrases that a phrase may consist of. -/
inductive Production : Phrase → List Phrase → Prop where
  | optNone {row : List Phrase} : Production (.opt row) []
  | optSome {row : List Phrase} : Production (.opt row) row
  | manyNone {row : List Phrase} : Production (.many row) []
  | manyMore {row : List Phrase} : Production (.many row) (row ++ [.many row])
  | listedNone {item : Phrase} : Production (.listed 0 item) []
  | listedOne {item : Phrase} : Production (.listed 1 item) [item]
  | listedMore {n : Nat} {item : Phrase} :
    Production (.listed (n + 2) item) [item, Kind.comma, .listed (n + 1) item]
  | file : Production .file [.many [.decl]]
  | classDecl : Production .decl [Kind.kwClass, Kind.identifier,
      .opt [Kind.less, Kind.identifier], Kind.leftBrace, .many [.member], Kind.rightBrace]
  | funDecl : Production .decl [Kind.kwFun, Kind.identifier, .params, .block]
  | varDecl : Production .decl [.vars, Kind.semicolon]
  | stmtDecl : Production .decl [.stmt]
  | member : Production .member [.opt [Kind.kwClass], Kind.identifier, .opt [.params], .block]
  | params {n : Nat} : n ≤ maxArguments →
    Production .params [Kind.leftParen, .listed n Kind.identifier, Kind.rightParen]
  | vars : Production .vars [Kind.kwVar, Kind.identifier, .opt [Kind.assign, .asg],
      .many [Kind.comma, Kind.identifier, Kind.assign, .asg]]
  | forStmt : Production .stmt [Kind.kwFor, Kind.leftParen, .forInit, .opt [.expr], Kind.semicolon,
      .opt [.expr], Kind.rightParen, .stmt]
  | ifStmt : Production .stmt [Kind.kwIf, Kind.leftParen, .expr, Kind.rightParen, .stmt,
      .opt [Kind.kwElse, .stmt]]
  | whileStmt : Production .stmt [Kind.kwWhile, Kind.leftParen, .expr, Kind.rightParen, .stmt]
  | doStmt : Production .stmt [Kind.kwDo, .stmt, Kind.kwWhile, Kind.leftParen, .expr,
      Kind.rightParen, Kind.semicolon]
  | printStmt : Production .stmt [Kind.kwPrint, .expr, Kind.semicolon]
  | returnStmt : Production .stmt [Kind.kwReturn, .opt [.expr], Kind.semicolon]
  | breakStmt : Production .stmt [Kind.kwBreak, Kind.semicolon]
  | continueStmt : Production .stmt [Kind.kwContinue, Kind.semicolon]
  | blockStmt : Production .stmt [.block]
  | exprStmt : Production .stmt [.expr, Kind.semicolon]
  | noInit : Production .forInit [Kind.semicolon]
  | varsInit : Production .forInit [.vars, Kind.semicolon]
  | exprInit : Production .forInit [.expr, Kind.semicolon]
  | block : Production .block [Kind.leftBrace, .many [.decl], Kind.rightBrace]
  | expr : Production .expr [.asg, .many [Kind.comma, .asg]]
  | assignVar : Production .asg [Kind.identifier, .assignOp, .asg]
  | assignField : Production .asg [.call, Kind.dot, Kind.identifier, Kind.assign, .asg]
  | noAssign : Production .asg [.tern]
  | tern : Production .tern [.bin, .opt [Kind.question, .expr, Kind.colon, .tern]]
  | bin : Production .bin [.unary, .many [.infixOp, .unary]]
  | prefixed : Production .unary [.prefixOp, .unary]
  | unprefixed : Production .unary [.call, .opt [.stepOp]]
  | call : Production .call [.primary, .many [.suffix]]
  | arguments {n : Nat} : n ≤ maxArguments →
    Production .suffix [Kind.leftParen, .listed n .asg, Kind.rightParen]
  | property : Production .suffix [Kind.dot, Kind.identifier]
  | constant : Production .primary [.literal]
  | name : Production .primary [Kind.identifier]
  | receiver : Production .primary [Kind.kwThis]
  | inherited : Production .primary [Kind.kwSuper, Kind.dot, Kind.identifier]
  | group : Production .primary [Kind.leftParen, .expr, Kind.rightParen]
  | lambda : Production .primary [Kind.kwFun, .params, .block]
  | literal {k : Kind} : k ∈ literals → Production .literal [k]
  | assignOp {k : Kind} : k ∈ assignOps → Production .assignOp [k]
  | infixOp {k : Kind} : k ∈ infixOps → Production .infixOp [k]
  | prefixOp {k : Kind} : k ∈ prefixOps → Production .prefixOp [k]
  | stepOp {k : Kind} : k ∈ stepOps → Production .stepOp [k]

/-- The lists of tokens that a row of phrases stands for. -/
inductive Derives : List Phrase → List Token → Prop where
  | nil : Derives [] []
  | token {k : Kind} {t : Token} {row : List Phrase} {ts : List Token} :
    t.kind = k → Derives row ts → Derives (.token k :: row) (t :: ts)
  | phrase {p : Phrase} {body row : List Phrase} {ts us : List Token} :
    Production p body → Derives body ts → Derives row us → Derives (p :: row) (ts ++ us)

namespace Derives

variable {p : Phrase} {row row' : List Phrase} {ts us : List Token}

theorem append (h : Derives row ts) (h' : Derives row' us) :
    Derives (row ++ row') (ts ++ us) := by
  induction h with
  | nil => exact h'
  | token hk _ ih => exact .token hk ih
  | phrase hp hbody _ _ ih => rw [List.append_assoc]; exact .phrase hp hbody ih

theorem cons (h : Derives [p] ts) (h' : Derives row us) : Derives (p :: row) (ts ++ us) :=
  h.append h'

theorem of_production (hp : Production p row) (h : Derives row ts) : Derives [p] ts := by
  rw [← List.append_nil ts]
  exact .phrase hp h .nil

/-- A row may be left out. -/
theorem opt_none {row : List Phrase} : Derives [.opt row] [] := of_production .optNone .nil

theorem opt_some (h : Derives row ts) : Derives [.opt row] ts := of_production .optSome h

theorem many_none : Derives [.many row] [] := of_production .manyNone .nil

theorem many_cons (h : Derives row ts) (h' : Derives [.many row] us) :
    Derives [.many row] (ts ++ us) :=
  of_production .manyMore (h.append h')

end Derives

end Scriptlet

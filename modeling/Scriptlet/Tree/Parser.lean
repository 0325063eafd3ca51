import Scriptlet.Tree
import Scriptlet.Tree.Fault

/-!
# Reading programs

Statements are read by descent and operators by climbing their precedence. A fault is recorded and
gives up the declaration around it: reading goes on after the next semicolon, or at the next word
that begins a statement, so that one run can report several faults.

The functions call each other with a shrinking amount of fuel. Between two tokens there are fewer
than sixteen nested calls, so the fuel that `parseProgram` and `parseExpression` give never runs
out.
-/

namespace Scriptlet

/-- A place in a list of tokens that ends with the end of input. -/
structure Cursor where
  /-- The token before this place. -/
  previous : Option Token
  current : Token
  following : List Token
  /-- The faults so far, the latest first. -/
  faults : List Diagnostic

namespace Cursor

/-- The beginning of a list of tokens. A list without an end of input gets one. -/
def ofTokens (tokens : List Token) : Cursor :=
  let ended := tokens.getLast?.any fun t => t.kind = .endOfInput
  match if ended then tokens else tokens ++ [Token.missingEnd] with
  | [] => ⟨none, .missingEnd, [], []⟩
  | t :: rest => ⟨none, t, rest, []⟩

/-- Whether nothing is left to read. -/
def atEnd (c : Cursor) : Bool := c.current.kind = .endOfInput

/-- Whether the current token has a kind. -/
def sees (c : Cursor) (kind : Kind) : Bool := c.current.kind = kind

/-- The kind of the token after the current one. -/
def nextKind (c : Cursor) : Kind := (c.following.head?.map Token.kind).getD .endOfInput

/-- The place after the current token; the end of input is never left. -/
def advance (c : Cursor) : Cursor :=
  if c.atEnd then c
  else
    match c.following with
    | [] => c
    | t :: rest => { c with previous := some c.current, current := t, following := rest }

/-- Where the last token that was read ends. -/
def lastStop (c : Cursor) : Position :=
  match c.previous with
  | some t => t.span.stop
  | none => c.current.span.start

/-- Records a fault at a token. -/
def record (c : Cursor) (fault : SyntaxFault) (token : Token) : Cursor :=
  { c with faults := fault.report token :: c.faults }

/-- Words at which reading can go on after a fault. -/
def beginsStatement : Kind → Bool
  | .kwClass | .kwFun | .kwVar | .kwFor | .kwIf | .kwWhile | .kwDo | .kwPrint | .kwReturn
  | .kwBreak | .kwContinue => true
  | _ => false

/-- Skips to a token after a semicolon, to a word that begins a statement, or to the end. -/
def skip (faults : List Diagnostic) (previous : Option Token) (current : Token) :
    List Token → Cursor
  | [] => ⟨previous, current, [], faults⟩
  | next :: rest =>
    if current.kind = .endOfInput ∨ previous.any (fun t => t.kind = .semicolon) ∨
        beginsStatement current.kind then
      ⟨previous, current, next :: rest, faults⟩
    else skip faults (some current) next rest

/-- The place where reading goes on after a fault; it is beyond the current token. -/
def synchronize (c : Cursor) : Cursor :=
  let c := c.advance
  skip c.faults c.previous c.current c.following

end Cursor

/-- The end of an attempt to read something. -/
inductive Parsed (α : Type) where
  | ok (value : α) (cursor : Cursor)
  /-- A fault was recorded and the declaration around this place is given up. -/
  | failed (cursor : Cursor)
  /-- The fuel ran out. -/
  | starved

/-- A reader of something at a place. -/
def Parser (α : Type) := Cursor → Parsed α

namespace Parser

variable {α β : Type}

@[inline] protected def pure (a : α) : Parser α := fun c => .ok a c

@[inline] protected def bind (p : Parser α) (f : α → Parser β) : Parser β := fun c =>
  match p c with
  | .ok a c => f a c
  | .failed c => .failed c
  | .starved => .starved

instance : Monad Parser where
  pure := Parser.pure
  bind := Parser.bind

/-- Gives up for lack of fuel. -/
def starve : Parser α := fun _ => .starved

/-- The current token. -/
def peek : Parser Token := fun c => .ok c.current c

/-- Whether the current token has a kind. -/
def sees (kind : Kind) : Parser Bool := fun c => .ok (c.sees kind) c

/-- Whether nothing is left to read. -/
def atEnd : Parser Bool := fun c => .ok c.atEnd c

/-- Takes the current token. -/
def advance : Parser Token := fun c => .ok c.current c.advance

/-- Takes the current token if it has a kind. -/
def accepts (kind : Kind) : Parser Bool := fun c =>
  if c.sees kind then .ok true c.advance else .ok false c

/-- Where the last token ends. -/
def lastStop : Parser Position := fun c => .ok c.lastStop c

/-- Records a fault and goes on. -/
def record (fault : SyntaxFault) (token : Token) : Parser Unit := fun c =>
  .ok () (c.record fault token)

/-- Records a fault and gives up. -/
def fail (fault : SyntaxFault) (token : Token) : Parser α := fun c =>
  .failed (c.record fault token)

/-- Takes a token of a kind, which must stand here. -/
def expect (kind : Kind) (what : Expected) : Parser Token := fun c =>
  if c.sees kind then .ok c.current c.advance else .failed (c.record (.missing what) c.current)

/-- Reads a list of things; after a fault the list is empty and reading goes on at the next
statement. -/
def recovering (p : Parser (List α)) : Parser (List α) := fun c =>
  match p c with
  | .ok a c => .ok a c
  | .failed c => .ok [] c.synchronize
  | .starved => .starved

/-- How tightly a binary operator binds; zero for what is none. -/
def bindingPower : Kind → Nat
  | .kwOr => 10
  | .kwAnd => 20
  | .equal | .notEqual => 30
  | .less | .lessEqual | .greater | .greaterEqual => 40
  | .plus | .minus => 50
  | .star | .slash => 60
  | .starStar => 70
  | _ => 0

/-- The node of a binary operator. -/
def combine (left : Expr Unit) (op : Token) (right : Expr Unit) : Expr Unit :=
  let span : Span := ⟨left.span.start, right.span.stop⟩
  if op.kind = .kwAnd ∨ op.kind = .kwOr then .logical span left op right
  else .binary span left op right

/-- The node of an assignment to what was read as an expression, if that can be assigned to. -/
def assignment? (target : Expr Unit) (op : Token) (value : Expr Unit) : Option (Expr Unit) :=
  let span : Span := ⟨target.span.start, value.span.stop⟩
  match target with
  | .name _ name _ => some (.assign span name op value ())
  | .get _ object name => if op.kind = .assign then some (.set span object name value) else none
  | _ => none

/-- The fault of a token that cannot begin an expression. -/
def noOperand : Kind → SyntaxFault
  | .question => .missingCondition
  | .equal | .notEqual | .less | .lessEqual | .greater | .greaterEqual | .plus | .slash | .star
  | .starStar => .missingOperand
  | _ => .noExpression

/-- The names of a parameter list after `count` of them. -/
def parameterNames : (fuel count : Nat) → Parser (List Token)
  | 0, _ => starve
  | fuel + 1, count => do
    if maxArguments ≤ count then record .tooManyParameters (← peek)
    let name ← expect .identifier .parameterName
    if ← accepts .comma then
      let names ← parameterNames fuel (count + 1)
      return name :: names
    else
      return [name]

/-- A parameter list. -/
def parameters (fuel : Nat) : Parser (List Token) := do
  let _ ← expect .leftParen .parameters
  let names ← if ← sees .rightParen then pure [] else parameterNames fuel 0
  let _ ← expect .rightParen .parametersEnd
  return names

mutual

/-- One declaration or statement. Several variables in one declaration are several statements. -/
def declaration : Nat → Parser (List (Stmt Unit))
  | 0 => starve
  | fuel + 1 => recovering fun c =>
    if c.sees .kwClass then (do return [← classDeclaration fuel]) c
    else if c.sees .kwFun && c.nextKind = .identifier then (do return [← functionDeclaration fuel]) c
    else if c.sees .kwVar then varDeclarations fuel c
    else (do return [← statement fuel]) c

/-- A class: its name, its superclass and its members. -/
def classDeclaration : Nat → Parser (Stmt Unit)
  | 0 => starve
  | fuel + 1 => do
    let start ← advance
    let name ← expect .identifier .className
    let superclass ← if ← accepts .less then
        let token ← expect .identifier .superclassName
        pure (some (token, ()))
      else pure none
    let _ ← expect .leftBrace .classBody
    let (methods, classMethods) ← members fuel
    let _ ← expect .rightBrace .classEnd
    return .declareClass ⟨start.span.start, ← lastStop⟩ name superclass methods classMethods

/-- The methods and the class methods up to the end of a class. -/
def members : Nat → Parser (List (Declaration Unit) × List (Declaration Unit))
  | 0 => starve
  | fuel + 1 => do
    if (← sees .rightBrace) || (← atEnd) then return ([], [])
    if ← accepts .kwClass then
      let m ← method fuel
      let (methods, classMethods) ← members fuel
      return (methods, m :: classMethods)
    else
      let m ← method fuel
      let (methods, classMethods) ← members fuel
      return (m :: methods, classMethods)

/-- A method, or a getter if it has no parameter list. -/
def method : Nat → Parser (Declaration Unit)
  | 0 => starve
  | fuel + 1 => do
    let name ← expect .identifier .methodName
    let getter := !(← sees .leftParen)
    let params ← if getter then pure [] else parameters fuel
    let body ← block fuel
    let span : Span := ⟨name.span.start, ← lastStop⟩
    return .mk span name (.mk span name params body getter)

/-- A function with a name. -/
def functionDeclaration : Nat → Parser (Stmt Unit)
  | 0 => starve
  | fuel + 1 => do
    let start ← advance
    let name ← expect .identifier .functionName
    let params ← parameters fuel
    let body ← block fuel
    let span : Span := ⟨start.span.start, ← lastStop⟩
    return .declareFunction (.mk span name (.mk span start params body false))

/-- Variables, of which only the first may have no value. -/
def varDeclarations : Nat → Parser (List (Stmt Unit))
  | 0 => starve
  | fuel + 1 => do
    let start ← advance
    let name ← expect .identifier .variableName
    let init ← if ← accepts .assign then
        let value ← assignment fuel
        pure (some value)
      else pure none
    let first : Stmt Unit := .declareVar ⟨start.span.start, ← lastStop⟩ name init
    let rest ← furtherVariables fuel
    let _ ← expect .semicolon .variableEnd
    return first :: rest

/-- The variables after the first. -/
def furtherVariables : Nat → Parser (List (Stmt Unit))
  | 0 => starve
  | fuel + 1 => do
    if ← accepts .comma then
      let name ← expect .identifier .variableName
      let _ ← expect .assign .variableValue
      let init ← assignment fuel
      let stmt : Stmt Unit := .declareVar ⟨name.span.start, ← lastStop⟩ name (some init)
      let rest ← furtherVariables fuel
      return stmt :: rest
    else return []

/-- A statement, chosen by its first token. -/
def statement : Nat → Parser (Stmt Unit)
  | 0 => starve
  | fuel + 1 => do
    match (← peek).kind with
    | .kwFor => forStatement fuel
    | .kwIf => ifStatement fuel
    | .kwPrint =>
      let keyword ← advance
      let value ← expression fuel
      let _ ← expect .semicolon .printEnd
      return .print ⟨keyword.span.start, ← lastStop⟩ keyword value
    | .kwReturn =>
      let keyword ← advance
      let value ← if ← sees .semicolon then pure none else
        let value ← expression fuel
        pure (some value)
      let _ ← expect .semicolon .returnEnd
      return .leave ⟨keyword.span.start, ← lastStop⟩ keyword value
    | .kwDo => doStatement fuel
    | .kwWhile => whileStatement fuel
    | .kwBreak =>
      let keyword ← advance
      let _ ← expect .semicolon .breakEnd
      return .breakLoop ⟨keyword.span.start, ← lastStop⟩ keyword
    | .kwContinue =>
      let keyword ← advance
      let _ ← expect .semicolon .continueEnd
      return .continueLoop ⟨keyword.span.start, ← lastStop⟩ keyword
    | .leftBrace =>
      let start ← peek
      let stmts ← block fuel
      return .block ⟨start.span.start, ← lastStop⟩ stmts
    | _ => expressionStatement fuel

/-- Declarations between braces. -/
def block : Nat → Parser (List (Stmt Unit))
  | 0 => starve
  | fuel + 1 => do
    let _ ← expect .leftBrace .blockStart
    let stmts ← blockItems fuel
    let _ ← expect .rightBrace .blockEnd
    return stmts

/-- Declarations up to a closing brace. -/
def blockItems : Nat → Parser (List (Stmt Unit))
  | 0 => starve
  | fuel + 1 => do
    if (← sees .rightBrace) || (← atEnd) then return []
    let stmts ← declaration fuel
    let rest ← blockItems fuel
    return stmts ++ rest

/-- An expression and its semicolon. -/
def expressionStatement : Nat → Parser (Stmt Unit)
  | 0 => starve
  | fuel + 1 => do
    let expr ← expression fuel
    let _ ← expect .semicolon .expressionEnd
    return .evaluate ⟨expr.span.start, ← lastStop⟩ expr

/-- A choice between two statements. -/
def ifStatement : Nat → Parser (Stmt Unit)
  | 0 => starve
  | fuel + 1 => do
    let start ← advance
    let _ ← expect .leftParen .ifCondition
    let condition ← expression fuel
    let _ ← expect .rightParen .ifConditionEnd
    let onTrue ← statement fuel
    let onFalse ← if ← accepts .kwElse then
        let stmt ← statement fuel
        pure (some stmt)
      else pure none
    return .branch ⟨start.span.start, ← lastStop⟩ condition onTrue onFalse

/-- A loop with the test first. -/
def whileStatement : Nat → Parser (Stmt Unit)
  | 0 => starve
  | fuel + 1 => do
    let start ← advance
    let _ ← expect .leftParen .whileCondition
    let condition ← expression fuel
    let _ ← expect .rightParen .whileConditionEnd
    let body ← statement fuel
    return .loop ⟨start.span.start, ← lastStop⟩ condition body none false

/-- A loop with the body first. -/
def doStatement : Nat → Parser (Stmt Unit)
  | 0 => starve
  | fuel + 1 => do
    let start ← advance
    let body ← statement fuel
    let _ ← expect .kwWhile .doCondition
    let _ ← expect .leftParen .whileCondition
    let condition ← expression fuel
    let _ ← expect .rightParen .whileConditionEnd
    let _ ← expect .semicolon .doEnd
    return .loop ⟨start.span.start, ← lastStop⟩ condition body none true

/-- A loop with an initializer, a test and an update, each of which may be absent. -/
def forStatement : Nat → Parser (Stmt Unit)
  | 0 => starve
  | fuel + 1 => do
    let start ← advance
    let _ ← expect .leftParen .forClauses
    let init ← if ← accepts .semicolon then pure none
      else if ← sees .kwVar then
        let stmts ← varDeclarations fuel
        pure (some stmts)
      else
        let stmt ← expressionStatement fuel
        pure (some [stmt])
    let test ← if ← sees .semicolon then pure none else
      let expr ← expression fuel
      pure (some expr)
    let semicolon ← expect .semicolon .forConditionEnd
    let update ← if ← sees .rightParen then pure none else
      let expr ← expression fuel
      pure (some expr)
    let _ ← expect .rightParen .forClausesEnd
    let body ← statement fuel
    let condition := test.getD (.literal semicolon.span (.bool true))
    let span : Span := ⟨start.span.start, ← lastStop⟩
    let loop : Stmt Unit := .loop span condition body update false
    match init with
    | none => return loop
    | some stmts => return .block span (stmts ++ [loop])

/-- Assignments separated by commas. -/
def expression : Nat → Parser (Expr Unit)
  | 0 => starve
  | fuel + 1 => do
    let first ← assignment fuel
    commas fuel first

/-- The rest of a comma expression. -/
def commas : Nat → Expr Unit → Parser (Expr Unit)
  | 0, _ => starve
  | fuel + 1, left => do
    if ← sees .comma then
      let op ← advance
      let right ← assignment fuel
      commas fuel (.binary ⟨left.span.start, right.span.stop⟩ left op right)
    else return left

/-- An assignment, or an expression that is none. A wrong target is reported and then read as an
expression without the assignment. -/
def assignment : Nat → Parser (Expr Unit)
  | 0 => starve
  | fuel + 1 => do
    let target ← ternary fuel
    let op ← peek
    if op.kind = .assign || op.kind.isCompoundAssign then
      let _ ← advance
      let value ← assignment fuel
      match assignment? target op value with
      | some expr => return expr
      | none =>
        record .invalidTarget op
        return target
    else return target

/-- A condition with two choices. -/
def ternary : Nat → Parser (Expr Unit)
  | 0 => starve
  | fuel + 1 => do
    let condition ← binary fuel 0
    if ← accepts .question then
      let onTrue ← expression fuel
      let _ ← expect .colon .ternaryElse
      let onFalse ← ternary fuel
      return .ternary ⟨condition.span.start, onFalse.span.stop⟩ condition onTrue onFalse
    else return condition

/-- Operands joined by operators that bind more tightly than `power`. -/
def binary : Nat → (power : Nat) → Parser (Expr Unit)
  | 0, _ => starve
  | fuel + 1, power => do
    let left ← unary fuel
    operators fuel power left

/-- The operators after a left operand. -/
def operators : Nat → (power : Nat) → Expr Unit → Parser (Expr Unit)
  | 0, _, _ => starve
  | fuel + 1, power, left => do
    let op ← peek
    let own := bindingPower op.kind
    if own ≤ power then return left
    let _ ← advance
    let right ← binary fuel own
    operators fuel power (combine left op right)

/-- Operators before an operand. -/
def unary : Nat → Parser (Expr Unit)
  | 0 => starve
  | fuel + 1 => do
    match (← peek).kind with
    | .bang | .minus | .plusPlus | .minusMinus =>
      let op ← advance
      let operand ← unary fuel
      return .unary ⟨op.span.start, operand.span.stop⟩ op operand false
    | _ => trailing fuel

/-- An increment or decrement after an operand. -/
def trailing : Nat → Parser (Expr Unit)
  | 0 => starve
  | fuel + 1 => do
    let operand ← call fuel
    let op ← peek
    if op.kind = .plusPlus || op.kind = .minusMinus then
      let _ ← advance
      return .unary ⟨operand.span.start, op.span.stop⟩ op operand true
    else return operand

/-- A primary expression with its calls and properties. -/
def call : Nat → Parser (Expr Unit)
  | 0 => starve
  | fuel + 1 => do
    let first ← primary fuel
    callRest fuel first

/-- The calls and properties after an expression. -/
def callRest : Nat → Expr Unit → Parser (Expr Unit)
  | 0, _ => starve
  | fuel + 1, callee => do
    if ← accepts .leftParen then
      let args ← if ← sees .rightParen then pure [] else arguments fuel 0
      let paren ← expect .rightParen .argumentsEnd
      callRest fuel (.call ⟨callee.span.start, paren.span.stop⟩ callee paren args)
    else if ← accepts .dot then
      let name ← expect .identifier .propertyName
      callRest fuel (.get ⟨callee.span.start, name.span.stop⟩ callee name)
    else return callee

/-- The arguments of a call after `count` of them. -/
def arguments : Nat → (count : Nat) → Parser (List (Expr Unit))
  | 0, _ => starve
  | fuel + 1, count => do
    if maxArguments ≤ count then record .tooManyArguments (← peek)
    let arg ← assignment fuel
    if ← accepts .comma then
      let args ← arguments fuel (count + 1)
      return arg :: args
    else return [arg]

/-- Constants, names, groups and function literals. -/
def primary : Nat → Parser (Expr Unit)
  | 0 => starve
  | fuel + 1 => do
    let token ← peek
    match token.kind with
    | .kwFalse =>
      let _ ← advance
      return .literal token.span (.bool false)
    | .kwTrue =>
      let _ ← advance
      return .literal token.span (.bool true)
    | .kwNone =>
      let _ ← advance
      return .literal token.span .none
    | .number | .string =>
      let _ ← advance
      return .literal token.span (token.literal.getD .none)
    | .identifier =>
      let _ ← advance
      return .name token.span token ()
    | .kwThis =>
      let _ ← advance
      return .receiver token.span token ()
    | .kwSuper =>
      let _ ← advance
      let _ ← expect .dot .superDot
      let method ← expect .identifier .superMethod
      return .inherited ⟨token.span.start, method.span.stop⟩ token method ()
    | .leftParen =>
      let _ ← advance
      let inner ← expression fuel
      let close ← expect .rightParen .groupEnd
      return .group ⟨token.span.start, close.span.stop⟩ inner
    | .kwFun =>
      let _ ← advance
      let params ← parameters fuel
      let body ← block fuel
      return .lambda (.mk ⟨token.span.start, ← lastStop⟩ token params body false)
    | kind => fail (noOperand kind) token

end

/-- Declarations up to the end of the input. -/
def declarations : Nat → Parser (List (Stmt Unit))
  | 0 => starve
  | fuel + 1 => do
    if ← atEnd then return []
    let stmts ← declaration fuel
    let rest ← declarations fuel
    return stmts ++ rest

/-- Enough fuel for a number of tokens. -/
def fuelFor (tokens : List Token) : Nat := 16 * tokens.length + 32

end Parser

/-- The program in a list of tokens. Declarations with faults are left out of it. -/
def parseProgram (tokens : List Token) : Program Unit × Report :=
  let c := Cursor.ofTokens tokens
  let start := c.current.span.start
  match Parser.declarations (Parser.fuelFor tokens) c with
  | .ok stmts c => (⟨⟨start, c.current.span.stop⟩, stmts⟩, c.faults.reverse)
  | .failed c => (⟨⟨start, c.current.span.stop⟩, []⟩, c.faults.reverse)
  | .starved => (⟨⟨start, start⟩, []⟩, [])

/-- The expression that a list of tokens consists of, if it is one. -/
def parseExpression (tokens : List Token) : Option (Expr Unit) × Report :=
  match Parser.expression (Parser.fuelFor tokens) (Cursor.ofTokens tokens) with
  | .ok expr c =>
    if c.atEnd then (some expr, c.faults.reverse)
    else (none, (c.record (.afterExpression c.current.lexeme) c.current).faults.reverse)
  | .failed c => (none, c.faults.reverse)
  | .starved => (none, [])

end Scriptlet

import Scriptlet.Value.Native
import Scriptlet.Value.Operator

/-!
# Running programs

A machine holds the heap, the current scope, the depth of calls and what was printed. Statements end
with a signal that says how the statement around them goes on; expressions end with a value; both
may end with an error. Scope and depth are set back whichever way a block or a call ends.

What there is to evaluate is a task, and one evaluation (`Eval.step`) is given a way to do the tasks
inside it. With an amount of fuel this way is evaluation itself with less of it (`Eval.within`).

The fuel bounds how deeply steps are nested, where each round of a loop is nested in the one before
it. A run that ends within some fuel ends in the same way with more of it.
-/

namespace Scriptlet

/-- Where programs print to. A broken sink loses what is written. -/
structure Sink where
  broken : Bool := false
  /-- What was printed, the latest first. -/
  printed : List Text := []

namespace Sink

/-- Prints a text. -/
def write (s : Sink) (t : Text) : Sink :=
  if s.broken then s else { s with printed := t :: s.printed }

/-- All that was printed, in order. -/
def text (s : Sink) : Text := s.printed.reverse.flatten

end Sink

/-- The state of a running program. -/
structure Machine where
  heap : Heap := {}
  scope : ScopeId := Heap.globals
  depth : Nat := 0
  /-- What the clock tells. -/
  clock : Float := 0
  sink : Sink := {}

/-- How a run of something ends. -/
inductive Outcome (α : Type) where
  | ok (value : α) (machine : Machine)
  | error (error : RuntimeError) (machine : Machine)
  | outOfFuel

/-- How the statement around a statement goes on. -/
inductive Signal where
  | next
  | leave (value : Value)
  | breakLoop
  | continueLoop

/-- A computation on machines. -/
def Eval (α : Type) := Machine → Outcome α

namespace Eval

variable {α β : Type}

@[inline] protected def pure (a : α) : Eval α := fun m => .ok a m

@[inline] protected def bind (x : Eval α) (f : α → Eval β) : Eval β := fun m =>
  match x m with
  | .ok a m => f a m
  | .error e m => .error e m
  | .outOfFuel => .outOfFuel

instance : Monad Eval where
  pure := Eval.pure
  bind := Eval.bind

/-- Ends for lack of fuel. -/
def starve : Eval α := fun _ => .outOfFuel

/-- Stops with a fault at a token. -/
@[inline] def fail (fault : RuntimeFault) (token : Token) : Eval α := fun m =>
  .error ⟨fault, token⟩ m

/-- Goes on with a result, or stops with its fault at a token. -/
@[inline] def lift (token : Token) (result : Except RuntimeFault α) : Eval α := fun m =>
  match result with
  | .ok a => .ok a m
  | .error fault => .error ⟨fault, token⟩ m

/-- Prints a line. -/
def printLine (t : Text) : Eval Unit := fun m =>
  .ok () { m with sink := m.sink.write t.line }

/-- Binds a name in the current scope. -/
def define (name : Text) (value : Value) : Eval Unit := fun m =>
  .ok () { m with heap := m.heap.define m.scope name value }

/-- The current scope. -/
def currentScope : Eval ScopeId := fun m => .ok m.scope m

/-- Makes a scope. -/
def newScope (parent : ScopeId) (slots : Entries Value) : Eval ScopeId := fun m =>
  .ok m.heap.nextScope { m with heap := m.heap.addScope parent slots }

/-- Makes the fields of an instance. -/
def newObject : Eval ObjectId := fun m =>
  .ok m.heap.nextObject { m with heap := m.heap.addObject }

/-- A number that tells something apart. -/
def newIdentity : Eval Nat := fun m =>
  .ok m.heap.nextIdentity { m with heap := m.heap.addIdentity }

/-- Runs something in a scope, and goes back to the current one however that ends. -/
@[inline] def inScope (scope : ScopeId) (x : Eval α) : Eval α := fun m =>
  let saved := m.scope
  match x { m with scope := scope } with
  | .ok a m => .ok a { m with scope := saved }
  | .error e m => .error e { m with scope := saved }
  | .outOfFuel => .outOfFuel

/-- The deepest nesting of calls. -/
def maxDepth : Nat := 10000

/-- Runs a call one level deeper, and comes up one level again however that ends. -/
@[inline] def nested (token : Token) (x : Eval α) : Eval α := fun m =>
  if maxDepth ≤ m.depth then .error ⟨.stackOverflow, token⟩ m
  else
    match x { m with depth := m.depth + 1 } with
    | .ok a m => .ok a { m with depth := m.depth - 1 }
    | .error e m => .error e { m with depth := m.depth - 1 }
    | .outOfFuel => .outOfFuel

/-- Reads the variable that a reference is linked to. -/
def readLink (name : Token) (link : Option Link) : Eval Value := fun m =>
  match link with
  | none => .error ⟨.unresolved name.lexeme, name⟩ m
  | some l =>
    match m.heap.getAt m.scope l.hops name.lexeme with
    | .ok v => .ok v m
    | .error fault => .error ⟨.access fault, name⟩ m

/-- Writes the variable that a reference is linked to. -/
def writeLink (name : Token) (link : Option Link) (value : Value) : Eval Unit := fun m =>
  match link with
  | none => .error ⟨.unresolved name.lexeme, name⟩ m
  | some l =>
    match m.heap.binderAt m.scope l.hops name.lexeme with
    | .ok scope => .ok () { m with heap := m.heap.define scope name.lexeme value }
    | .error fault => .error ⟨.access fault, name⟩ m

/-- A function that closes over the current scope. -/
def closure (name : Text) (function : LinkedFunction) : Eval Closure := do
  return ⟨← newIdentity, name, function, ← currentScope, false⟩

/-- A copy of a method whose scope holds its receiver. -/
def bindReceiver (method : Closure) (receiver : Value) : Eval Closure := do
  let scope ← newScope method.scope [("this", receiver)]
  return { method with identity := ← newIdentity, scope := scope }

/-- The methods of a class as functions over a scope. A method that is declared twice is the later
one. -/
def methodClosures (scope : ScopeId) (initializers : Bool) :
    Entries Closure → List (Declaration (Option Link)) → Eval (Entries Closure)
  | done, [] => return done
  | done, d :: ds => do
    let name := d.name.lexeme
    let isInit := initializers && name == ClassValue.initName
    let method : Closure := ⟨← newIdentity, name, d.function, scope, isInit⟩
    methodClosures scope initializers (done.put name method) ds

/-- The scope that the methods of a class close over: of a derived class, one that holds its
superclass. -/
def methodScope : Option ClassValue → Eval ScopeId
  | none => currentScope
  | some c => do
    let here ← currentScope
    newScope here [("super", .cls c)]

/-- The class of a declaration. -/
def makeClass (name : Text) (superclass : Option ClassValue)
    (methods classMethods : List (Declaration (Option Link))) : Eval ClassValue := do
  let scope ← methodScope superclass
  let methods ← methodClosures scope true [] methods
  let classMethods ← methodClosures scope false [] classMethods
  let identity ← newIdentity
  return .make ⟨identity, name, methods, classMethods⟩ superclass

/-- The receiver that a method was bound to. -/
def receiverOf (method : Closure) : Eval Value := fun m =>
  .ok (((m.heap.slots method.scope).get? "this").getD .none) m

/-- The superclass and the receiver at a reference to an inherited method. The receiver lives one
scope inside the one that holds the superclass. -/
def inheritance (keyword : Token) (link : Option Link) : Eval (Value × Value) := fun m =>
  match link with
  | none => .error ⟨.unresolved "super", keyword⟩ m
  | some l =>
    match m.heap.getAt m.scope l.hops keyword.lexeme with
    | .error fault => .error ⟨.access fault, keyword⟩ m
    | .ok superclass =>
      match m.heap.getAt m.scope (l.hops - 1) "this" with
      | .ok receiver => .ok (superclass, receiver) m
      | .error fault =>
        let place := if fault.isMismatch then keyword
          else Token.synthetic .kwThis "this" keyword.span
        .error ⟨.access fault, place⟩ m

/-- What a property of a value is. -/
inductive Property where
  | field (value : Value)
  | method (closure : Closure)

/-- The property of a value: a field before a method. -/
def property (object : Value) (name : Token) : Eval Property := fun m =>
  match object with
  | .object id cls =>
    match m.heap.field? id name.lexeme with
    | some v => .ok (.field v) m
    | none =>
      match cls.method? name.lexeme with
      | some f => .ok (.method f) m
      | none => .error ⟨.undefinedProperty name.lexeme, name⟩ m
  | .cls cls =>
    match cls.classMethod? name.lexeme with
    | some f => .ok (.method f) m
    | none => .error ⟨.undefinedProperty name.lexeme, name⟩ m
  | _ => .error ⟨.noProperties, name⟩ m

/-- Gives a field of an instance a value. -/
def setField (id : ObjectId) (name : Text) (value : Value) : Eval Unit := fun m =>
  .ok () { m with heap := m.heap.setField id name value }

/-- Calls a native function. -/
def callNative (token : Token) (native : Native) (args : List Value) : Eval Value := fun m =>
  match native.call m.clock args with
  | .ok v => .ok v m
  | .error fault => .error ⟨.native (native.name ++ ": " ++ fault.message), token⟩ m

/-- How many arguments a value takes when it is called, if it can be. -/
def arity? : Value → Option Nat
  | .function f => some f.arity
  | .cls c => some c.arity
  | .native n => some n.arity
  | _ => none

/-- The variables of a call. Of two parameters with one name the later one counts. -/
def parameterSlots (params : List Token) (args : List Value) : Entries Value :=
  (params.zip args).foldl (fun slots (p, v) => slots.put p.lexeme v) []

/-- The number that an increment or decrement makes. -/
def stepped (op : Kind) (x : Float) : Float := if op = .minusMinus then x - 1 else x + 1

/-- Something to evaluate. -/
inductive Task where
  /-- The variable that a reference is linked to. -/
  | read (name : Token) (link : Option Link)
  /-- A new value for the variable that a reference is linked to. -/
  | write (name : Token) (link : Option Link) (value : Value)
  /-- The superclass and the receiver at a reference to an inherited method. -/
  | inherit (keyword : Token) (link : Option Link)
  | expr (e : Expr (Option Link))
  /-- Expressions, from left to right. -/
  | exprs (es : List (Expr (Option Link)))
  /-- A method that is bound to its receiver, and run if it is a getter. -/
  | bound (token : Token) (method : Closure) (receiver : Value)
  /-- A call of a value with as many arguments as it takes. -/
  | call (token : Token) (callee : Value) (args : List Value)
  /-- What a call does once it is one level deeper. -/
  | enter (token : Token) (callee : Value) (args : List Value)
  /-- The body of a function in a new scope that holds its parameters. -/
  | body (f : Closure) (args : List Value)
  | stmt (s : Stmt (Option Link))
  /-- Statements one after the other, up to the first that does not go on to the next. -/
  | stmts (ss : List (Stmt (Option Link)))
  /-- The rounds of a loop. The test is left out before a round that `skipTest` marks. -/
  | loop (condition : Expr (Option Link)) (body : Stmt (Option Link))
    (update : Option (Expr (Option Link))) (skipTest : Bool)

/-- What an evaluation yields: statements a signal, expressions a value. -/
abbrev Task.Result : Task → Type
  | .write .. => Unit
  | .inherit .. => Value × Value
  | .exprs _ => List Value
  | .stmt _ | .stmts _ | .loop .. => Signal
  | _ => Value

/-- A way to evaluate tasks. -/
abbrev Runner := (t : Task) → Eval t.Result

namespace Runner

variable (r : Runner)

abbrev read (name : Token) (link : Option Link) : Eval Value := r (.read name link)

abbrev write (name : Token) (link : Option Link) (value : Value) : Eval Unit :=
  r (.write name link value)

abbrev inherit (keyword : Token) (link : Option Link) : Eval (Value × Value) :=
  r (.inherit keyword link)

abbrev expr (e : Expr (Option Link)) : Eval Value := r (.expr e)

abbrev exprs (es : List (Expr (Option Link))) : Eval (List Value) := r (.exprs es)

abbrev bound (token : Token) (method : Closure) (receiver : Value) : Eval Value :=
  r (.bound token method receiver)

abbrev call (token : Token) (callee : Value) (args : List Value) : Eval Value :=
  r (.call token callee args)

abbrev enter (token : Token) (callee : Value) (args : List Value) : Eval Value :=
  r (.enter token callee args)

abbrev body (f : Closure) (args : List Value) : Eval Value := r (.body f args)

abbrev stmt (s : Stmt (Option Link)) : Eval Signal := r (.stmt s)

abbrev stmts (ss : List (Stmt (Option Link))) : Eval Signal := r (.stmts ss)

abbrev loop (condition : Expr (Option Link)) (body : Stmt (Option Link))
    (update : Option (Expr (Option Link))) (skipTest : Bool) : Eval Signal :=
  r (.loop condition body update skipTest)

end Runner

/-! ## One evaluation, given how the evaluations inside it are done -/

section

variable (r : Runner)

/-- An assignment. One that combines reads its variable before it evaluates the value. -/
def assignStep (name op : Token) (value : Expr (Option Link)) (link : Option Link) :
    Eval Value := do
  if op.kind = .assign then
    let v ← r.expr value
    r.write name link v
    return v
  else
    let current ← r.read name link
    let v ← r.expr value
    let v ← lift op (current.combine op.kind.binary op.lexeme v)
    r.write name link v
    return v

/-- An increment or decrement of a variable. -/
def increment (op : Token) (trailing : Bool) (name : Token) (link : Option Link) :
    Eval Value := do
  match ← r.read name link with
  | .number old =>
    let updated := stepped op.kind old
    r.write name link (.number updated)
    return .number (if trailing then old else updated)
  | _ => fail .operandNotNumber op

/-- An operator on one operand; increments take variables only. -/
def unaryStep (op : Token) (operand : Expr (Option Link)) (trailing : Bool) : Eval Value :=
  if op.kind = .plusPlus ∨ op.kind = .minusMinus then
    match operand with
    | .name _ name link => increment r op trailing name link
    | _ => fail (.notVariable op.lexeme) op
  else do
    let v ← r.expr operand
    lift op (v.unary op.kind op.lexeme)

/-- A call. -/
def callStep (callee : Expr (Option Link)) (paren : Token) (args : List (Expr (Option Link))) :
    Eval Value := do
  let f ← r.expr callee
  let vs ← r.exprs args
  match arity? f with
  | none => fail .notCallable paren
  | some n =>
    if vs.length = n then r.call paren f vs
    else fail (.argumentCount n vs.length) paren

/-- A field assignment. -/
def setStep (object : Expr (Option Link)) (name : Token) (value : Expr (Option Link)) :
    Eval Value := do
  match ← r.expr object with
  | .object id _ =>
    let v ← r.expr value
    setField id name.lexeme v
    return v
  | _ => fail .noFields name

/-- An inherited method, looked up from the superclass and bound to the receiver. -/
def inheritedStep (keyword method : Token) (link : Option Link) : Eval Value := do
  let (superclass, receiver) ← r.inherit keyword link
  match superclass with
  | .cls c =>
    let found := match receiver with
      | .cls _ => c.classMethod? method.lexeme
      | _ => c.method? method.lexeme
    match found with
    | some f => r.bound method f receiver
    | none => fail (.undefinedProperty method.lexeme) method
  | other => fail (.inheritedFrom other.typeName) keyword

/-- An expression. -/
def exprStep : Expr (Option Link) → Eval Value
  | .literal _ value => return .ofLiteral value
  | .group _ inner => r.expr inner
  | .name _ name link => r.read name link
  | .assign _ name op value link => assignStep r name op value link
  | .binary _ left op right => do
    let l ← r.expr left
    let v ← r.expr right
    if op.kind = .comma then return v
    else lift op (l.combine op.kind op.lexeme v)
  | .logical _ left op right => do
    let l ← r.expr left
    if l.truthy == decide (op.kind = .kwOr) then return l
    else r.expr right
  | .unary _ op operand trailing => unaryStep r op operand trailing
  | .ternary _ condition onTrue onFalse => do
    let c ← r.expr condition
    if c.truthy then r.expr onTrue else r.expr onFalse
  | .call _ callee paren args => callStep r callee paren args
  | .lambda function => return .function (← closure [] function)
  | .get _ object name => do
    let o ← r.expr object
    match ← property o name with
    | .field v => return v
    | .method f => r.bound name f o
  | .set _ object name value => setStep r object name value
  | .receiver _ keyword link => r.read keyword link
  | .inherited _ keyword method link => inheritedStep r keyword method link

/-- Expressions from left to right. -/
def exprsStep : List (Expr (Option Link)) → Eval (List Value)
  | [] => return []
  | e :: es => do
    let v ← r.expr e
    let vs ← r.exprs es
    return v :: vs

/-- A method that is bound to its receiver, and run if it is a getter. -/
def boundStep (token : Token) (method : Closure) (receiver : Value) : Eval Value := do
  let f ← bindReceiver method receiver
  if f.getter then r.call token (.function f) [] else return .function f

/-- An instance of a class, after its initializer if there is one. -/
def construct (c : ClassValue) (args : List Value) : Eval Value := do
  let object : Value := .object (← newObject) c
  match c.method? ClassValue.initName with
  | none => return object
  | some init =>
    let f ← bindReceiver init object
    let _ ← r.body f args
    return object

/-- What a call does once it is one level deeper. -/
def enterStep (token : Token) (callee : Value) (args : List Value) : Eval Value :=
  match callee with
  | .function f => r.body f args
  | .cls c => construct r c args
  | .native n => callNative token n args
  | _ => fail .notCallable token

/-- The body of a function in a new scope that holds its parameters. -/
def bodyStep (f : Closure) (args : List Value) : Eval Value := do
  let scope ← newScope f.scope (parameterSlots f.function.params args)
  let signal ← inScope scope (r.stmts f.function.body)
  if f.initializer then receiverOf f
  else
    match signal with
    | .leave v => return v
    | _ => return .none

/-- The superclass that a class declaration names, which must be a class. -/
def superclassOf : Option (Token × Option Link) → Eval (Option ClassValue)
  | none => return none
  | some (token, link) => do
    match ← r.read token link with
    | .cls c => return some c
    | _ => fail .superclassNotClass token

/-- A class declaration. The name is bound before the class is made, so that methods see it. -/
def declareClass (name : Token) (superclass : Option (Token × Option Link))
    (methods classMethods : List (Declaration (Option Link))) : Eval Signal := do
  let parent ← superclassOf r superclass
  define name.lexeme .none
  let c ← makeClass name.lexeme parent methods classMethods
  define name.lexeme (.cls c)
  return .next

/-- A statement. -/
def stmtStep : Stmt (Option Link) → Eval Signal
  | .evaluate _ e => do
    let _ ← r.expr e
    return .next
  | .print _ _ value => do
    let v ← r.expr value
    printLine v.shown
    return .next
  | .declareVar _ name none => do
    define name.lexeme .none
    return .next
  | .declareVar _ name (some init) => do
    let v ← r.expr init
    define name.lexeme v
    return .next
  | .block _ body => do
    let scope ← newScope (← currentScope) []
    inScope scope (r.stmts body)
  | .branch _ condition onTrue onFalse => do
    let c ← r.expr condition
    if c.truthy then r.stmt onTrue
    else
      match onFalse with
      | some s => r.stmt s
      | none => return .next
  | .loop _ condition body update bodyFirst => r.loop condition body update bodyFirst
  | .leave _ _ none => return .leave .none
  | .leave _ _ (some value) => do
    let v ← r.expr value
    return .leave v
  | .breakLoop .. => return .breakLoop
  | .continueLoop .. => return .continueLoop
  | .declareFunction d => do
    let f ← closure d.name.lexeme d.function
    define d.name.lexeme (.function f)
    return .next
  | .declareClass _ name superclass methods classMethods =>
    declareClass r name superclass methods classMethods

/-- Statements one after the other, up to the first that does not go on to the next. -/
def stmtsStep : List (Stmt (Option Link)) → Eval Signal
  | [] => return .next
  | s :: rest => do
    match ← r.stmt s with
    | .next => r.stmts rest
    | signal => return signal

/-- The update of a loop, if it has one. -/
def updateStep : Option (Expr (Option Link)) → Eval Unit
  | none => return ()
  | some u => do
    let _ ← r.expr u
    return ()

/-- The test before a round of a loop, unless it is left out. -/
def testStep (condition : Expr (Option Link)) (skipTest : Bool) : Eval Value :=
  if skipTest then return .bool true else r.expr condition

/-- One round of a loop and the rounds after it. The update follows every round that ends normally
or by going on. -/
def loopStep (condition : Expr (Option Link)) (body : Stmt (Option Link))
    (update : Option (Expr (Option Link))) (skipTest : Bool) : Eval Signal := do
  let c ← testStep r condition skipTest
  if c.truthy then
    match ← r.stmt body with
    | .breakLoop => return .next
    | .leave v => return .leave v
    | _ =>
      updateStep r update
      r.loop condition body update false
  else return .next

/-- One evaluation. -/
def step : Runner
  | .read name link => readLink name link
  | .write name link value => writeLink name link value
  | .inherit keyword link => inheritance keyword link
  | .expr e => exprStep r e
  | .exprs es => exprsStep r es
  | .bound token method receiver => boundStep r token method receiver
  | .call token callee args => nested token (r.enter token callee args)
  | .enter token callee args => enterStep r token callee args
  | .body f args => bodyStep r f args
  | .stmt s => stmtStep r s
  | .stmts ss => stmtsStep r ss
  | .loop condition body update skipTest => loopStep r condition body update skipTest

end

/-- Evaluation with an amount of fuel. -/
def within : (fuel : Nat) → Runner
  | 0, _ => starve
  | fuel + 1, t => step (within fuel) t

end Eval

namespace Machine

/-- A machine at its start, with some native functions bound as globals. -/
def start (natives : List Native) (clock : Float) (broken : Bool) : Machine :=
  let heap := natives.foldl (fun h n => h.define Heap.globals n.name (.native n)) ({} : Heap)
  { heap := heap, clock := clock, sink := { broken := broken } }

/-- The global names, in ascending order. -/
def globalNames (m : Machine) : List Text := Text.sort (m.heap.names Heap.globals)

/-- Runs the statements of a program, whatever signals they end with, up to the first error. -/
def runWith (r : Eval.Runner) : List (Stmt (Option Link)) → Eval Unit
  | [] => return ()
  | s :: rest => do
    let _ ← r.stmt s
    runWith r rest

/-- Runs the statements of a program with an amount of fuel for each. -/
def run (fuel : Nat) (stmts : List (Stmt (Option Link))) : Eval Unit :=
  runWith (Eval.within fuel) stmts

/-- Evaluates an expression. -/
def evaluate (fuel : Nat) (e : Expr (Option Link)) : Eval Value := Eval.within fuel (.expr e)

end Machine

end Scriptlet

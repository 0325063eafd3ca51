import Scriptlet.Scope.Resolver

/-!
# Resolution with markers

What is around a place can be kept in markers that change on the way: what kind of function and what
kind of class is open, how many loops are open in the function, and whether a condition is. A walk
with markers saves some of them where it enters a function, a class, a loop or a condition,
overwrites them, and restores them where it leaves (`Stmt.walk`).

However functions, classes, loops and conditions are nested, such a walk does what a resolution does
that is told what is around each place, and it leaves the markers as it has found them
(`Stmt.keeps_walkList`, `Expr.keeps_walk`).
-/

namespace Scriptlet

/-- What is marked on the way. -/
structure Markers where
  function : FunctionKind := .none
  cls : ClassKind := .none
  /-- How many loops are open in the function. -/
  loopDepth : Nat := 0
  inCondition : Bool := false
  deriving DecidableEq, Repr

/-- What the markers say about a place. -/
def Markers.surroundings (m : Markers) : Surroundings where
  function := m.function
  cls := m.cls
  inLoop := m.loopDepth != 0
  inCondition := m.inCondition

theorem Markers.loopDepth_eq_zero (m : Markers) : m.loopDepth = 0 ↔ ¬ m.surroundings.inLoop := by
  simp [surroundings]

/-- A step of a walk with markers. -/
abbrev Marking := StateT Markers Resolve

namespace Marking

variable {α : Type}

def condition (x : Marking α) : Marking α := do
  let saved := (← get).inCondition
  modify fun m => { m with inCondition := true }
  let a ← x
  modify fun m => { m with inCondition := saved }
  return a

/-- Loops are counted, so that the end of one does not close those around it. -/
def loop (x : Marking α) : Marking α := do
  modify fun m => { m with loopDepth := m.loopDepth + 1 }
  let a ← x
  modify fun m => { m with loopDepth := m.loopDepth - 1 }
  return a

/-- No loop is open at the beginning of a function. -/
def function (kind : FunctionKind) (x : Marking α) : Marking α := do
  let saved ← get
  modify fun m => { m with function := kind, loopDepth := 0 }
  let a ← x
  modify fun m => { m with function := saved.function, loopDepth := saved.loopDepth }
  return a

def cls (kind : ClassKind) (x : Marking α) : Marking α := do
  let saved := (← get).cls
  modify fun m => { m with cls := kind }
  let a ← x
  modify fun m => { m with cls := saved }
  return a

end Marking

open Resolve

mutual

/-- Links the references of an expression. Nothing but the markers says what is around it. -/
def Expr.walk : Expr Unit → Marking (Expr (Option Link))
  | .literal span value => return .literal span value
  | .name span name _ => return .name span name (← linkVariable span.start name)
  | .assign span name op value _ => do
    if (← get).inCondition then report .assignmentInCondition op
    let value ← value.walk
    let link ← linkBeyond 0 ("assign " ++ name.lexeme) span.start name.lexeme
      op.kind.isCompoundAssign
    return .assign span name op value link
  | .binary span left op right => do
    let left ← left.walk
    let right ← right.walk
    return .binary span left op right
  | .logical span left op right => do
    let left ← left.walk
    let right ← right.walk
    return .logical span left op right
  | .unary span op operand trailing => do
    let operand ← operand.walk
    return .unary span op operand trailing
  | .ternary span condition onTrue onFalse => do
    let condition ← Marking.condition condition.walk
    let onTrue ← onTrue.walk
    let onFalse ← onFalse.walk
    return .ternary span condition onTrue onFalse
  | .group span inner => do
    let inner ← inner.walk
    return .group span inner
  | .call span callee paren args => do
    let callee ← callee.walk
    let args ← Expr.walkList args
    return .call span callee paren args
  | .lambda function => do
    let function ← function.walk .function
    return .lambda function
  | .get span object name => do
    let object ← object.walk
    return .get span object name
  | .set span object name value => do
    let value ← value.walk
    let object ← object.walk
    return .set span object name value
  | .receiver span keyword _ => do
    match (← get).cls with
    | .none =>
      report .receiverOutsideClass keyword
      return .receiver span keyword none
    | _ =>
      let link ← linkBeyond 0 "this" span.start keyword.lexeme true
      return .receiver span keyword link
  | .inherited span keyword method _ => do
    match (← get).cls with
    | .none =>
      report .inheritedOutsideClass keyword
      return .inherited span keyword method none
    | .plain =>
      report .inheritedWithoutSuperclass keyword
      return .inherited span keyword method none
    | .derived =>
      let link ← linkBeyond 0 ("super." ++ method.lexeme) span.start keyword.lexeme true
      return .inherited span keyword method link

def Expr.walkList : List (Expr Unit) → Marking (List (Expr (Option Link)))
  | [] => return []
  | e :: es => do
    let e ← e.walk
    let es ← Expr.walkList es
    return e :: es

def Function.walk (kind : FunctionKind) : Function Unit → Marking (Function (Option Link))
  | .mk span keyword params body getter => Marking.function kind do
    openScope
    parameters params
    let body ← Stmt.walkList body
    closeScope
    return .mk span keyword params body getter

def Declaration.walkMethods (initializers : Bool) :
    List (Declaration Unit) → Marking (List (Declaration (Option Link)))
  | [] => return []
  | .mk span name function :: rest => do
    let kind : FunctionKind :=
      if initializers && name.lexeme == ("init" : Text) then .initializer else .method
    let function ← function.walk kind
    let rest ← Declaration.walkMethods initializers rest
    return .mk span name function :: rest

/-- Links the references of a statement. A class is marked as one without superclass before its
superclass is looked at. -/
def Stmt.walk : Stmt Unit → Marking (Stmt (Option Link))
  | .evaluate span expr => do
    let expr ← expr.walk
    return .evaluate span expr
  | .print span keyword value => do
    let value ← value.walk
    return .print span keyword value
  | .declareVar span name none => do
    declare name
    define name
    return .declareVar span name none
  | .declareVar span name (some init) => do
    declare name
    let init ← init.walk
    define name
    return .declareVar span name (some init)
  | .block span stmts => do
    openScope
    let stmts ← Stmt.walkList stmts
    closeScope
    return .block span stmts
  | .branch span condition onTrue none => do
    let condition ← Marking.condition condition.walk
    let onTrue ← onTrue.walk
    return .branch span condition onTrue none
  | .branch span condition onTrue (some onFalse) => do
    let condition ← Marking.condition condition.walk
    let onTrue ← onTrue.walk
    let onFalse ← onFalse.walk
    return .branch span condition onTrue (some onFalse)
  | .loop span condition body none bodyFirst => do
    let condition ← Marking.condition condition.walk
    let body ← Marking.loop body.walk
    return .loop span condition body none bodyFirst
  | .loop span condition body (some update) bodyFirst => do
    let condition ← Marking.condition condition.walk
    let (body, update) ← Marking.loop do
      let body ← body.walk
      let update ← update.walk
      return (body, update)
    return .loop span condition body (some update) bodyFirst
  | .leave span keyword none => do
    if (← get).function = .none then report .topLevelReturn keyword
    return .leave span keyword none
  | .leave span keyword (some value) => do
    if (← get).function = .none then report .topLevelReturn keyword
    if (← get).function = .initializer then report .initializerValue keyword
    let value ← value.walk
    return .leave span keyword (some value)
  | .breakLoop span keyword => do
    if (← get).loopDepth = 0 then report .strayBreak keyword
    return .breakLoop span keyword
  | .continueLoop span keyword => do
    if (← get).loopDepth = 0 then report .strayContinue keyword
    return .continueLoop span keyword
  | .declareFunction (.mk span name function) => do
    declare name
    define name
    let function ← function.walk .function
    return .declareFunction (.mk span name function)
  | .declareClass span name none methods classMethods => Marking.cls .plain do
    declare name
    define name
    openScope
    bindImplicit "this"
    let methods ← Declaration.walkMethods true methods
    let classMethods ← Declaration.walkMethods false classMethods
    closeScope
    return .declareClass span name none methods classMethods
  | .declareClass span name (some (parent, _)) methods classMethods => Marking.cls .plain do
    declare name
    define name
    if parent.lexeme == name.lexeme then report .selfInheritance parent
    modify fun m => { m with cls := .derived }
    let link ← linkVariable parent.span.start parent
    openScope
    bindImplicit "super"
    openScope
    bindImplicit "this"
    let methods ← Declaration.walkMethods true methods
    let classMethods ← Declaration.walkMethods false classMethods
    closeScope
    closeScope
    return .declareClass span name (some (parent, link)) methods classMethods

def Stmt.walkList : List (Stmt Unit) → Marking (List (Stmt (Option Link)))
  | [] => return []
  | stmt :: stmts => do
    let stmt ← stmt.walk
    let stmts ← Stmt.walkList stmts
    return stmt :: stmts

end

/-! ## Steps of a walk -/

/-- A part of a walk that begins and ends with some markers, and otherwise does what a part of a
resolution does. -/
def Marking.Moves {α : Type} (m m' : Markers) (x : Marking α) (y : Resolve α) : Prop :=
  x.run m = (fun a => (a, m')) <$> y

/-- A part of a walk that leaves the markers as it has found them. -/
abbrev Marking.Keeps {α : Type} (m : Markers) (x : Marking α) (y : Resolve α) : Prop :=
  Moves m m x y

namespace Marking

variable {α β : Type} {m m' m'' : Markers} {x x' : Marking α} {y y' : Resolve α}

theorem keeps_lift (m : Markers) (y : Resolve α) : Keeps m (liftM y) y := rfl

theorem keeps_pure (m : Markers) (a : α) : Keeps m (pure a) (pure a) := rfl

theorem Moves.bind {f : α → Marking β} {g : α → Resolve β} (hx : Moves m m' x y)
    (hf : ∀ a, Moves m' m'' (f a) (g a)) : Moves m m'' (x >>= f) (y >>= g) := by
  unfold Moves at *
  rw [StateT.run_bind, hx, bind_map_left, map_bind]
  exact bind_congr hf

/-- A step that resolution makes as well. -/
theorem Moves.step {f : α → Marking β} {g : α → Resolve β}
    (hf : ∀ a, Moves m m' (f a) (g a)) : Moves m m' (liftM y >>= f) (y >>= g) :=
  Moves.bind (keeps_lift m y) hf

/-- What a walk yields may be built into something else. -/
theorem Moves.map {f : α → β} (hx : Moves m m' x y) :
    Moves m m' (x >>= fun a => pure (f a)) (y >>= fun a => pure (f a)) :=
  hx.bind fun a => keeps_pure m' (f a)

theorem Moves.look {f : Markers → Marking α} (hf : Moves m m' (f m) y) :
    Moves m m' (get >>= f) y :=
  hf

theorem Moves.mark {f : Markers → Markers} {g : Unit → Marking α}
    (hg : Moves (f m) m' (g ()) y) : Moves m m' (modify f >>= g) y :=
  hg

/-- A finding that is made under the same condition. -/
theorem Moves.reportIf {b : Prop} [Decidable b] {f : ScopeFault} {token : Token}
    {g : Unit → Marking α} {g' : Unit → Resolve α} (hg : ∀ u, Moves m m' (g u) (g' u)) :
    Moves m m' (if b then liftM (report f token) >>= g else g ())
      (if b then report f token >>= g' else g' ()) := by
  split
  · exact .step hg
  · exact hg ()

/-- A part between two changes of the markers. -/
theorem Moves.between (f f' : Markers → Markers) (hx : Moves (f m) m' x y) (hf : f' m' = m'') :
    Moves m m'' (modify f >>= fun _ => x >>= fun a => modify f' >>= fun _ => pure a) y := by
  have h : Moves m (f' m') (modify f >>= fun _ => x >>= fun a => modify f' >>= fun _ => pure a)
      (y >>= pure) :=
    .mark (hx.bind fun a => .mark (keeps_pure (f' m') a))
  rwa [bind_pure, hf] at h

theorem Keeps.condition (hx : Keeps { m with inCondition := true } x y) :
    Keeps m (condition x) y :=
  .look (.between (fun m => { m with inCondition := true })
    (fun m' => { m' with inCondition := m.inCondition }) hx rfl)

theorem Keeps.loop (hx : Keeps { m with loopDepth := m.loopDepth + 1 } x y) :
    Keeps m (loop x) y :=
  .between (fun m => { m with loopDepth := m.loopDepth + 1 })
    (fun m => { m with loopDepth := m.loopDepth - 1 }) hx rfl

theorem Keeps.function {kind : FunctionKind}
    (hx : Keeps { m with function := kind, loopDepth := 0 } x y) : Keeps m (function kind x) y :=
  .look (.between (fun m => { m with function := kind, loopDepth := 0 })
    (fun m' => { m' with function := m.function, loopDepth := m.loopDepth }) hx rfl)

/-- A class may have been marked as one of another kind inside. -/
theorem Moves.cls {kind : ClassKind} (kind' : ClassKind)
    (hx : Moves { m with cls := kind } { m with cls := kind' } x y) : Keeps m (cls kind x) y :=
  .look (.between (fun m => { m with cls := kind }) (fun m' => { m' with cls := m.cls }) hx rfl)

end Marking

/-! ## Walks keep the markers -/

open Marking

mutual

theorem Expr.keeps_walk : ∀ (e : Expr Unit) (m : Markers), Keeps m e.walk (e.resolve m.surroundings)
  | .literal span value, m => by
    rw [Expr.walk, Expr.resolve]
    exact keeps_pure m _
  | .name span name _, m => by
    rw [Expr.walk, Expr.resolve]
    exact .step fun link => keeps_pure m _
  | .assign span name op value _, m => by
    rw [Expr.walk, Expr.resolve]
    exact .look (.reportIf fun _ => (value.keeps_walk m).bind fun value =>
      .step fun link => keeps_pure m _)
  | .binary span left op right, m => by
    rw [Expr.walk, Expr.resolve]
    exact (left.keeps_walk m).bind fun left => (right.keeps_walk m).map
  | .logical span left op right, m => by
    rw [Expr.walk, Expr.resolve]
    exact (left.keeps_walk m).bind fun left => (right.keeps_walk m).map
  | .unary span op operand trailing, m => by
    rw [Expr.walk, Expr.resolve]
    exact (operand.keeps_walk m).map
  | .ternary span condition onTrue onFalse, m => by
    rw [Expr.walk, Expr.resolve]
    exact (Keeps.condition (condition.keeps_walk _)).bind fun condition =>
      (onTrue.keeps_walk m).bind fun onTrue => (onFalse.keeps_walk m).map
  | .group span inner, m => by
    rw [Expr.walk, Expr.resolve]
    exact (inner.keeps_walk m).map
  | .call span callee paren args, m => by
    rw [Expr.walk, Expr.resolve]
    exact (callee.keeps_walk m).bind fun callee => (Expr.keeps_walkList args m).map
  | .lambda function, m => by
    rw [Expr.walk, Expr.resolve]
    exact (function.keeps_walk m _).map
  | .get span object name, m => by
    rw [Expr.walk, Expr.resolve]
    exact (object.keeps_walk m).map
  | .set span object name value, m => by
    rw [Expr.walk, Expr.resolve]
    exact (value.keeps_walk m).bind fun value => (object.keeps_walk m).map
  | .receiver span keyword _, m => by
    rw [Expr.walk, Expr.resolve]
    refine .look ?_
    dsimp only [Markers.surroundings]
    cases m.cls with
    | none => exact .step fun _ => keeps_pure m _
    | plain | derived => exact .step fun link => keeps_pure m _
  | .inherited span keyword method _, m => by
    rw [Expr.walk, Expr.resolve]
    refine .look ?_
    dsimp only [Markers.surroundings]
    cases m.cls with
    | none | plain => exact .step fun _ => keeps_pure m _
    | derived => exact .step fun link => keeps_pure m _

theorem Expr.keeps_walkList : ∀ (es : List (Expr Unit)) (m : Markers),
    Keeps m (Expr.walkList es) (Expr.resolveList m.surroundings es)
  | [], m => by
    rw [Expr.walkList, Expr.resolveList]
    exact keeps_pure m _
  | e :: es, m => by
    rw [Expr.walkList, Expr.resolveList]
    exact (e.keeps_walk m).bind fun e => (Expr.keeps_walkList es m).map

theorem Function.keeps_walk : ∀ (f : Function Unit) (m : Markers) (kind : FunctionKind),
    Keeps m (f.walk kind) (f.resolve { m.surroundings with function := kind })
  | .mk span keyword params body getter, m, kind => by
    rw [Function.walk, Function.resolve]
    exact Keeps.function (.step fun _ => .step fun _ =>
      (Stmt.keeps_walkList body _).bind fun body => .step fun _ => keeps_pure _ _)

theorem Declaration.keeps_walkMethods : ∀ (ds : List (Declaration Unit)) (m : Markers)
    (initializers : Bool), Keeps m (Declaration.walkMethods initializers ds)
      (Declaration.resolveMethods m.surroundings initializers ds)
  | [], m, initializers => by
    rw [Declaration.walkMethods, Declaration.resolveMethods]
    exact keeps_pure m _
  | .mk span name function :: ds, m, initializers => by
    rw [Declaration.walkMethods, Declaration.resolveMethods]
    exact (function.keeps_walk m _).bind fun function =>
      (Declaration.keeps_walkMethods ds m initializers).map

theorem Stmt.keeps_walk : ∀ (stmt : Stmt Unit) (m : Markers),
    Keeps m stmt.walk (stmt.resolve m.surroundings)
  | .evaluate span expr, m => by
    rw [Stmt.walk, Stmt.resolve]
    exact (expr.keeps_walk m).map
  | .print span keyword value, m => by
    rw [Stmt.walk, Stmt.resolve]
    exact (value.keeps_walk m).map
  | .declareVar span name none, m => by
    rw [Stmt.walk, Stmt.resolve]
    exact .step fun _ => .step fun _ => keeps_pure m _
  | .declareVar span name (some init), m => by
    rw [Stmt.walk, Stmt.resolve]
    exact .step fun _ => (init.keeps_walk m).bind fun init => .step fun _ => keeps_pure m _
  | .block span stmts, m => by
    rw [Stmt.walk, Stmt.resolve]
    exact .step fun _ => (Stmt.keeps_walkList stmts m).bind fun stmts =>
      .step fun _ => keeps_pure m _
  | .branch span condition onTrue none, m => by
    rw [Stmt.walk, Stmt.resolve]
    exact (Keeps.condition (condition.keeps_walk _)).bind fun condition => (onTrue.keeps_walk m).map
  | .branch span condition onTrue (some onFalse), m => by
    rw [Stmt.walk, Stmt.resolve]
    exact (Keeps.condition (condition.keeps_walk _)).bind fun condition =>
      (onTrue.keeps_walk m).bind fun onTrue => (onFalse.keeps_walk m).map
  | .loop span condition body none bodyFirst, m => by
    rw [Stmt.walk, Stmt.resolve]
    exact (Keeps.condition (condition.keeps_walk _)).bind fun condition =>
      (Keeps.loop (body.keeps_walk _)).map
  | .loop span condition body (some update) bodyFirst, m => by
    rw [Stmt.walk, Stmt.resolve]
    have hinside := (body.keeps_walk { m with loopDepth := m.loopDepth + 1 }).bind fun body =>
      (update.keeps_walk { m with loopDepth := m.loopDepth + 1 }).map (f := (body, ·))
    refine (Keeps.condition (condition.keeps_walk _)).bind fun condition => ?_
    have hloop := (Keeps.loop hinside).map (f := fun p => Stmt.loop span condition p.1 (some p.2) bodyFirst)
    rw [bind_assoc] at hloop
    exact hloop
  | .leave span keyword none, m => by
    rw [Stmt.walk, Stmt.resolve]
    exact .look (.reportIf fun _ => keeps_pure m _)
  | .leave span keyword (some value), m => by
    rw [Stmt.walk, Stmt.resolve]
    exact .look (.reportIf fun _ => .look (.reportIf fun _ => (value.keeps_walk m).map))
  | .breakLoop span keyword, m => by
    rw [Stmt.walk, Stmt.resolve, ← ite_not]
    simp only [← m.loopDepth_eq_zero]
    exact .look (.reportIf fun _ => keeps_pure m _)
  | .continueLoop span keyword, m => by
    rw [Stmt.walk, Stmt.resolve, ← ite_not]
    simp only [← m.loopDepth_eq_zero]
    exact .look (.reportIf fun _ => keeps_pure m _)
  | .declareFunction (.mk span name function), m => by
    rw [Stmt.walk, Stmt.resolve]
    exact .step fun _ => .step fun _ => (function.keeps_walk m _).map
  | .declareClass span name none methods classMethods, m => by
    rw [Stmt.walk, Stmt.resolve]
    exact Moves.cls .plain (.step fun _ => .step fun _ => .step fun _ => .step fun _ =>
      (Declaration.keeps_walkMethods methods _ true).bind fun methods =>
        (Declaration.keeps_walkMethods classMethods _ false).bind fun classMethods =>
          .step fun _ => keeps_pure _ _)
  | .declareClass span name (some (parent, _)) methods classMethods, m => by
    rw [Stmt.walk, Stmt.resolve]
    refine Moves.cls .derived (.step fun _ => .step fun _ => .reportIf fun _ => ?_)
    refine Moves.mark (.step fun link =>
      .step fun _ => .step fun _ => .step fun _ => .step fun _ => ?_)
    exact (Declaration.keeps_walkMethods methods _ true).bind fun methods =>
      (Declaration.keeps_walkMethods classMethods _ false).bind fun classMethods =>
        .step fun _ => .step fun _ => keeps_pure _ _

theorem Stmt.keeps_walkList : ∀ (ss : List (Stmt Unit)) (m : Markers),
    Keeps m (Stmt.walkList ss) (Stmt.resolveList m.surroundings ss)
  | [], m => by
    rw [Stmt.walkList, Stmt.resolveList]
    exact keeps_pure m _
  | s :: ss, m => by
    rw [Stmt.walkList, Stmt.resolveList]
    exact (s.keeps_walk m).bind fun s => (Stmt.keeps_walkList ss m).map

end

end Scriptlet

import Scriptlet.Evaluator

/-!
# What every evaluation respects

The evaluator is one function, `Eval.step`, which says how a task is evaluated given a way to
evaluate the tasks inside it, and `Eval.within` runs it with some fuel. A relation between
computations that holds of each single thing that a machine does, and that sequencing, entering a
scope and nesting a call respect, is respected by `Eval.step` (`Respects.step`) and so by a whole
evaluation (`Respects.within`). Many such relations hold of every computation that ends in the scope
and at the depth in which it began; for these there are fewer things to show (`Congruence`).

The first use is that an evaluation ends in the scope and at the depth in which it began, whichever
way it ends (`within_restores`).
-/

namespace Scriptlet

/-- What holds of the end of a run. A run that lacks fuel has no end. -/
def Outcome.Meets {α : Type} (ok : α → Machine → Prop) (error : RuntimeError → Machine → Prop) :
    Outcome α → Prop
  | .ok a m => ok a m
  | .error e m => error e m
  | .outOfFuel => True

theorem Outcome.Meets.imp {α : Type} {ok ok' : α → Machine → Prop}
    {error error' : RuntimeError → Machine → Prop} {o : Outcome α} (h : o.Meets ok error)
    (hok : ∀ a m, ok a m → ok' a m) (herror : ∀ e m, error e m → error' e m) :
    o.Meets ok' error' := by
  cases o with
  | ok a m => exact hok a m h
  | error e m => exact herror e m h
  | outOfFuel => trivial

/-- Two machines that stand in one scope and at one depth of calls. -/
structure Machine.SameControl (m m' : Machine) : Prop where
  scope : m'.scope = m.scope
  depth : m'.depth = m.depth

namespace Machine.SameControl

theorem refl (m : Machine) : SameControl m m := ⟨rfl, rfl⟩

theorem trans {m m' m'' : Machine} (h : SameControl m m') (h' : SameControl m' m'') :
    SameControl m m'' :=
  ⟨h'.scope.trans h.scope, h'.depth.trans h.depth⟩

end Machine.SameControl

namespace Eval

variable {α β : Type}

/-- A computation that ends in the scope and at the depth in which it began. -/
def Restores (x : Eval α) : Prop :=
  ∀ m, (x m).Meets (fun _ m' => m.SameControl m') (fun _ m' => m.SameControl m')

theorem Restores.bind {x : Eval α} {f : α → Eval β} (hx : Restores x)
    (hf : ∀ a, Restores (f a)) : Restores (x >>= f) := by
  intro m
  have h := hx m
  change (Eval.bind x f m).Meets _ _
  unfold Eval.bind
  cases hxm : x m with
  | ok a m' =>
    rw [hxm] at h
    have h' := hf a m'
    dsimp only
    cases hf' : f a m' with
    | ok b m'' => rw [hf'] at h'; exact h.trans h'
    | error e m'' => rw [hf'] at h'; exact h.trans h'
    | outOfFuel => trivial
  | error e m' => rw [hxm] at h; exact h
  | outOfFuel => trivial

/-! ## Computations without inner tasks -/

theorem restores_pure (a : α) : Restores (pure a : Eval α) := fun m => .refl m

theorem restores_starve : Restores (starve : Eval α) := fun _ => trivial

theorem restores_fail (fault : RuntimeFault) (token : Token) :
    Restores (fail fault token : Eval α) :=
  fun m => .refl m

theorem restores_lift (token : Token) (result : Except RuntimeFault α) :
    Restores (lift token result) := by
  cases result with
  | ok a => exact fun m => .refl m
  | error fault => exact fun m => .refl m

theorem restores_printLine (t : Text) : Restores (printLine t) := fun _ => ⟨rfl, rfl⟩

theorem restores_define (name : Text) (value : Value) : Restores (define name value) :=
  fun _ => ⟨rfl, rfl⟩

theorem restores_currentScope : Restores currentScope := fun m => .refl m

theorem restores_newScope (parent : ScopeId) (slots : Entries Value) :
    Restores (newScope parent slots) :=
  fun _ => ⟨rfl, rfl⟩

theorem restores_newObject : Restores newObject := fun _ => ⟨rfl, rfl⟩

theorem restores_newIdentity : Restores newIdentity := fun _ => ⟨rfl, rfl⟩

theorem restores_setField (id : ObjectId) (name : Text) (value : Value) :
    Restores (setField id name value) :=
  fun _ => ⟨rfl, rfl⟩

theorem restores_receiverOf (method : Closure) : Restores (receiverOf method) := fun m => .refl m

theorem restores_readLink (name : Token) (link : Option Link) : Restores (readLink name link) := by
  intro m
  unfold readLink
  cases link with
  | none => exact .refl m
  | some l =>
    cases h : m.heap.getAt m.scope l.hops name.lexeme with
    | ok v => simp only [h]; exact .refl m
    | error fault => simp only [h]; exact .refl m

theorem restores_writeLink (name : Token) (link : Option Link) (value : Value) :
    Restores (writeLink name link value) := by
  intro m
  unfold writeLink
  cases link with
  | none => exact .refl m
  | some l =>
    cases h : m.heap.binderAt m.scope l.hops name.lexeme with
    | ok scope => simp only [h]; exact ⟨rfl, rfl⟩
    | error fault => simp only [h]; exact .refl m

theorem restores_inheritance (keyword : Token) (link : Option Link) :
    Restores (inheritance keyword link) := by
  intro m
  unfold inheritance
  cases link with
  | none => exact .refl m
  | some l =>
    dsimp only
    split
    · exact .refl m
    · split
      · exact .refl m
      · exact .refl m

theorem restores_property (object : Value) (name : Token) : Restores (property object name) := by
  intro m
  unfold property
  split
  · split
    · exact .refl m
    · split
      · exact .refl m
      · exact .refl m
  · split
    · exact .refl m
    · exact .refl m
  · exact .refl m

theorem restores_callNative (token : Token) (native : Native) (args : List Value) :
    Restores (callNative token native args) := by
  intro m
  unfold callNative
  split
  · exact .refl m
  · exact .refl m

/-! ## Relations that evaluation respects -/

/-- A relation between computations that everything an evaluation is made of respects: each single
thing that a machine can do is related to itself, and so is what sequencing, entering a scope and
nesting a call make of related computations. -/
structure Respects (rel : {α : Type} → Eval α → Eval α → Prop) : Prop where
  pure : ∀ {α : Type} (a : α), rel (Pure.pure a : Eval α) (Pure.pure a)
  starve : ∀ {α : Type}, rel (Eval.starve : Eval α) Eval.starve
  fail : ∀ {α : Type} (fault : RuntimeFault) (token : Token),
    rel (Eval.fail fault token : Eval α) (Eval.fail fault token)
  lift : ∀ {α : Type} (token : Token) (result : Except RuntimeFault α),
    rel (Eval.lift token result) (Eval.lift token result)
  printLine : ∀ t : Text, rel (Eval.printLine t) (Eval.printLine t)
  define : ∀ (name : Text) (value : Value), rel (Eval.define name value) (Eval.define name value)
  currentScope : rel Eval.currentScope Eval.currentScope
  newScope : ∀ (parent : ScopeId) (slots : Entries Value),
    rel (Eval.newScope parent slots) (Eval.newScope parent slots)
  newObject : rel Eval.newObject Eval.newObject
  newIdentity : rel Eval.newIdentity Eval.newIdentity
  setField : ∀ (id : ObjectId) (name : Text) (value : Value),
    rel (Eval.setField id name value) (Eval.setField id name value)
  readLink : ∀ (name : Token) (link : Option Link),
    rel (Eval.readLink name link) (Eval.readLink name link)
  writeLink : ∀ (name : Token) (link : Option Link) (value : Value),
    rel (Eval.writeLink name link value) (Eval.writeLink name link value)
  inheritance : ∀ (keyword : Token) (link : Option Link),
    rel (Eval.inheritance keyword link) (Eval.inheritance keyword link)
  receiverOf : ∀ method : Closure, rel (Eval.receiverOf method) (Eval.receiverOf method)
  property : ∀ (object : Value) (name : Token),
    rel (Eval.property object name) (Eval.property object name)
  callNative : ∀ (token : Token) (native : Native) (args : List Value),
    rel (Eval.callNative token native args) (Eval.callNative token native args)
  bind : ∀ {α β : Type} {x y : Eval α} {f g : α → Eval β},
    rel x y → (∀ a, rel (f a) (g a)) → rel (x >>= f) (y >>= g)
  inScope : ∀ {α : Type} {x y : Eval α} (scope : ScopeId),
    rel x y → rel (Eval.inScope scope x) (Eval.inScope scope y)
  nested : ∀ {α : Type} {x y : Eval α} (token : Token),
    rel x y → rel (Eval.nested token x) (Eval.nested token y)

namespace Respects

variable {rel : {α : Type} → Eval α → Eval α → Prop} {r r' : Runner}

theorem closure (h : Respects rel) (name : Text) (function : LinkedFunction) :
    rel (closure name function) (closure name function) :=
  h.bind h.newIdentity fun _ => h.bind h.currentScope fun _ => h.pure _

theorem bindReceiver (h : Respects rel) (method : Closure) (receiver : Value) :
    rel (bindReceiver method receiver) (bindReceiver method receiver) :=
  h.bind (h.newScope _ _) fun _ => h.bind h.newIdentity fun _ => h.pure _

theorem methodClosures (h : Respects rel) (scope : ScopeId) (initializers : Bool)
    (done : Entries Closure) (ds : List (Declaration (Option Link))) :
    rel (methodClosures scope initializers done ds)
      (methodClosures scope initializers done ds) := by
  induction ds generalizing done with
  | nil => exact h.pure done
  | cons d ds ih => exact h.bind h.newIdentity fun _ => ih _

theorem makeClass (h : Respects rel) (name : Text) (superclass : Option ClassValue)
    (methods classMethods : List (Declaration (Option Link))) :
    rel (makeClass name superclass methods classMethods)
      (makeClass name superclass methods classMethods) := by
  unfold Eval.makeClass
  refine h.bind ?_ fun scope => ?_
  · cases superclass with
    | none => exact h.currentScope
    | some c => exact h.bind h.currentScope fun here => h.newScope here _
  · refine h.bind (h.methodClosures scope true [] methods) fun methods => ?_
    refine h.bind (h.methodClosures scope false [] classMethods) fun classMethods => ?_
    exact h.bind h.newIdentity fun identity => h.pure _

theorem assignStep (h : Respects rel) (hr : ∀ t, rel (r t) (r' t)) (name op : Token)
    (value : Expr (Option Link)) (link : Option Link) :
    rel (assignStep r name op value link) (assignStep r' name op value link) := by
  unfold Eval.assignStep
  split
  · refine h.bind (hr (.expr value)) fun v => ?_
    exact h.bind (hr (.write name link v)) fun _ => h.pure v
  · refine h.bind (hr (.read name link)) fun current => ?_
    refine h.bind (hr (.expr value)) fun v => ?_
    refine h.bind (h.lift op _) fun v => ?_
    exact h.bind (hr (.write name link v)) fun _ => h.pure v

theorem unaryStep (h : Respects rel) (hr : ∀ t, rel (r t) (r' t)) (op : Token)
    (operand : Expr (Option Link)) (trailing : Bool) :
    rel (unaryStep r op operand trailing) (unaryStep r' op operand trailing) := by
  unfold Eval.unaryStep
  split
  · split
    · unfold increment
      refine h.bind (hr (.read _ _)) fun v => ?_
      split
      · exact h.bind (hr (.write _ _ _)) fun _ => h.pure _
      · exact h.fail _ op
    · exact h.fail _ op
  · exact h.bind (hr (.expr operand)) fun v => h.lift op _

theorem callStep (h : Respects rel) (hr : ∀ t, rel (r t) (r' t)) (callee : Expr (Option Link))
    (paren : Token) (args : List (Expr (Option Link))) :
    rel (callStep r callee paren args) (callStep r' callee paren args) := by
  unfold Eval.callStep
  refine h.bind (hr (.expr callee)) fun f => ?_
  refine h.bind (hr (.exprs args)) fun vs => ?_
  split
  · exact h.fail _ paren
  · split
    · exact hr (.call paren f vs)
    · exact h.fail _ paren

theorem inheritedStep (h : Respects rel) (hr : ∀ t, rel (r t) (r' t)) (keyword method : Token)
    (link : Option Link) :
    rel (inheritedStep r keyword method link) (inheritedStep r' keyword method link) := by
  unfold Eval.inheritedStep
  refine h.bind (hr (.inherit keyword link)) fun (superclass, receiver) => ?_
  cases superclass with
  | cls c =>
    dsimp only
    split
    · exact hr (.bound method _ receiver)
    · exact h.fail _ method
  | _ => exact h.fail _ keyword

theorem exprStep (h : Respects rel) (hr : ∀ t, rel (r t) (r' t)) (e : Expr (Option Link)) :
    rel (exprStep r e) (exprStep r' e) := by
  cases e with
  | literal span value => exact h.pure _
  | name span name link => exact hr (.read name link)
  | assign span name op value link => exact h.assignStep hr name op value link
  | binary span left op right =>
    refine h.bind (hr (.expr left)) fun l => ?_
    refine h.bind (hr (.expr right)) fun v => ?_
    split
    · exact h.pure v
    · exact h.lift op _
  | logical span left op right =>
    refine h.bind (hr (.expr left)) fun l => ?_
    split
    · exact h.pure l
    · exact hr (.expr right)
  | unary span op operand trailing => exact h.unaryStep hr op operand trailing
  | ternary span condition onTrue onFalse =>
    refine h.bind (hr (.expr condition)) fun c => ?_
    split
    · exact hr (.expr onTrue)
    · exact hr (.expr onFalse)
  | group span inner => exact hr (.expr inner)
  | call span callee paren args => exact h.callStep hr callee paren args
  | lambda function => exact h.bind (h.closure [] function) fun _ => h.pure _
  | get span object name =>
    refine h.bind (hr (.expr object)) fun o => ?_
    refine h.bind (h.property o name) fun p => ?_
    cases p with
    | field v => exact h.pure v
    | method f => exact hr (.bound name f o)
  | set span object name value =>
    refine h.bind (hr (.expr object)) fun o => ?_
    cases o with
    | object id cls =>
      refine h.bind (hr (.expr value)) fun v => ?_
      exact h.bind (h.setField id name.lexeme v) fun _ => h.pure v
    | _ => exact h.fail _ name
  | receiver span keyword link => exact hr (.read keyword link)
  | inherited span keyword method link => exact h.inheritedStep hr keyword method link

theorem construct (h : Respects rel) (hr : ∀ t, rel (r t) (r' t)) (c : ClassValue)
    (args : List Value) : rel (construct r c args) (construct r' c args) := by
  unfold Eval.construct
  refine h.bind h.newObject fun id => ?_
  dsimp only
  split
  · exact h.pure _
  · refine h.bind (h.bindReceiver _ _) fun f => ?_
    exact h.bind (hr (.body f args)) fun _ => h.pure _

theorem enterStep (h : Respects rel) (hr : ∀ t, rel (r t) (r' t)) (token : Token)
    (callee : Value) (args : List Value) :
    rel (enterStep r token callee args) (enterStep r' token callee args) := by
  cases callee with
  | function f => exact hr (.body f args)
  | cls c => exact h.construct hr c args
  | native n => exact h.callNative token n args
  | _ => exact h.fail _ token

theorem bodyStep (h : Respects rel) (hr : ∀ t, rel (r t) (r' t)) (f : Closure)
    (args : List Value) : rel (bodyStep r f args) (bodyStep r' f args) := by
  unfold Eval.bodyStep
  refine h.bind (h.newScope _ _) fun scope => ?_
  refine h.bind (h.inScope scope (hr (.stmts f.function.body))) fun signal => ?_
  split
  · exact h.receiverOf f
  · split
    · exact h.pure _
    · exact h.pure _

theorem declareClass (h : Respects rel) (hr : ∀ t, rel (r t) (r' t)) (name : Token)
    (superclass : Option (Token × Option Link))
    (methods classMethods : List (Declaration (Option Link))) :
    rel (declareClass r name superclass methods classMethods)
      (declareClass r' name superclass methods classMethods) := by
  unfold Eval.declareClass
  refine h.bind ?_ fun parent => ?_
  · rcases superclass with _ | ⟨token, link⟩
    · exact h.pure none
    · refine h.bind (hr (.read token link)) fun v => ?_
      split
      · exact h.pure _
      · exact h.fail _ token
  · refine h.bind (h.define _ _) fun _ => ?_
    refine h.bind (h.makeClass _ parent methods classMethods) fun c => ?_
    exact h.bind (h.define _ _) fun _ => h.pure _

theorem stmtStep (h : Respects rel) (hr : ∀ t, rel (r t) (r' t)) (s : Stmt (Option Link)) :
    rel (stmtStep r s) (stmtStep r' s) := by
  cases s with
  | evaluate span e => exact h.bind (hr (.expr e)) fun _ => h.pure _
  | print span keyword value =>
    refine h.bind (hr (.expr value)) fun v => ?_
    exact h.bind (h.printLine _) fun _ => h.pure _
  | declareVar span name init =>
    cases init with
    | none => exact h.bind (h.define _ _) fun _ => h.pure _
    | some init =>
      refine h.bind (hr (.expr init)) fun v => ?_
      exact h.bind (h.define _ _) fun _ => h.pure _
  | block span body =>
    refine h.bind h.currentScope fun here => ?_
    refine h.bind (h.newScope here []) fun scope => ?_
    exact h.inScope scope (hr (.stmts body))
  | branch span condition onTrue onFalse =>
    refine h.bind (hr (.expr condition)) fun c => ?_
    split
    · exact hr (.stmt onTrue)
    · cases onFalse with
      | none => exact h.pure _
      | some s => exact hr (.stmt s)
  | loop span condition body update bodyFirst => exact hr (.loop condition body update bodyFirst)
  | leave span keyword value =>
    cases value with
    | none => exact h.pure _
    | some value => exact h.bind (hr (.expr value)) fun _ => h.pure _
  | breakLoop span keyword => exact h.pure _
  | continueLoop span keyword => exact h.pure _
  | declareFunction d =>
    refine h.bind (h.closure _ _) fun f => ?_
    exact h.bind (h.define _ _) fun _ => h.pure _
  | declareClass span name superclass methods classMethods =>
    exact h.declareClass hr name superclass methods classMethods

theorem loopStep (h : Respects rel) (hr : ∀ t, rel (r t) (r' t)) (condition : Expr (Option Link))
    (body : Stmt (Option Link)) (update : Option (Expr (Option Link))) (skipTest : Bool) :
    rel (loopStep r condition body update skipTest)
      (loopStep r' condition body update skipTest) := by
  unfold Eval.loopStep
  refine h.bind ?_ fun c => ?_
  · unfold testStep
    split
    · exact h.pure _
    · exact hr (.expr condition)
  · split
    · refine h.bind (hr (.stmt body)) fun signal => ?_
      split
      · exact h.pure _
      · exact h.pure _
      · refine h.bind ?_ fun _ => hr (.loop condition body update false)
        cases update with
        | none => exact h.pure ()
        | some u => exact h.bind (hr (.expr u)) fun _ => h.pure ()
    · exact h.pure _

/-- One evaluation respects the relation if the evaluations inside it do. -/
theorem step (h : Respects rel) (hr : ∀ t, rel (r t) (r' t)) (t : Task) :
    rel (step r t) (step r' t) := by
  cases t with
  | read name link => exact h.readLink name link
  | write name link value => exact h.writeLink name link value
  | inherit keyword link => exact h.inheritance keyword link
  | expr e => exact h.exprStep hr e
  | exprs es =>
    cases es with
    | nil => exact h.pure []
    | cons e es =>
      refine h.bind (hr (.expr e)) fun v => ?_
      exact h.bind (hr (.exprs es)) fun vs => h.pure (v :: vs)
  | bound token method receiver =>
    refine h.bind (h.bindReceiver method receiver) fun f => ?_
    split
    · exact hr (.call token (.function f) [])
    · exact h.pure _
  | call token callee args => exact h.nested token (hr (.enter token callee args))
  | enter token callee args => exact h.enterStep hr token callee args
  | body f args => exact h.bodyStep hr f args
  | stmt s => exact h.stmtStep hr s
  | stmts ss =>
    cases ss with
    | nil => exact h.pure _
    | cons s rest =>
      refine h.bind (hr (.stmt s)) fun signal => ?_
      cases signal with
      | next => exact hr (.stmts rest)
      | _ => exact h.pure _
  | loop condition body update skipTest => exact h.loopStep hr condition body update skipTest

/-- Evaluation respects the relation, whatever its fuel. -/
theorem within (h : Respects rel) (fuel : Nat) (t : Task) :
    rel (within fuel t) (within fuel t) := by
  induction fuel generalizing t with
  | zero => exact h.starve
  | succ fuel ih => exact h.step ih t

end Respects

/-- A relation between computations that holds of every computation which ends in the scope and at
the depth in which it began, and that sequencing, entering a scope and nesting a call respect. -/
structure Congruence (rel : {α : Type} → Eval α → Eval α → Prop) : Prop where
  simple : ∀ {α : Type} {x : Eval α}, Restores x → rel x x
  bind : ∀ {α β : Type} {x y : Eval α} {f g : α → Eval β},
    rel x y → (∀ a, rel (f a) (g a)) → rel (x >>= f) (y >>= g)
  inScope : ∀ {α : Type} {x y : Eval α} (scope : ScopeId),
    rel x y → rel (inScope scope x) (inScope scope y)
  nested : ∀ {α : Type} {x y : Eval α} (token : Token),
    rel x y → rel (nested token x) (nested token y)

namespace Congruence

variable {rel : {α : Type} → Eval α → Eval α → Prop} {r r' : Runner}

theorem respects (h : Congruence rel) : Respects rel where
  pure a := h.simple (restores_pure a)
  starve := h.simple restores_starve
  fail fault token := h.simple (restores_fail fault token)
  lift token result := h.simple (restores_lift token result)
  printLine t := h.simple (restores_printLine t)
  define name value := h.simple (restores_define name value)
  currentScope := h.simple restores_currentScope
  newScope parent slots := h.simple (restores_newScope parent slots)
  newObject := h.simple restores_newObject
  newIdentity := h.simple restores_newIdentity
  setField id name value := h.simple (restores_setField id name value)
  readLink name link := h.simple (restores_readLink name link)
  writeLink name link value := h.simple (restores_writeLink name link value)
  inheritance keyword link := h.simple (restores_inheritance keyword link)
  receiverOf method := h.simple (restores_receiverOf method)
  property object name := h.simple (restores_property object name)
  callNative token native args := h.simple (restores_callNative token native args)
  bind := h.bind
  inScope := h.inScope
  nested := h.nested

/-- One evaluation respects the relation if the evaluations inside it do. -/
theorem step (h : Congruence rel) (hr : ∀ t, rel (r t) (r' t)) (t : Task) :
    rel (step r t) (step r' t) :=
  h.respects.step hr t

/-- Evaluation respects the relation, whatever its fuel. -/
theorem within (h : Congruence rel) (fuel : Nat) (t : Task) :
    rel (within fuel t) (within fuel t) :=
  h.respects.within fuel t

end Congruence

/-! ## Scope and depth at the end of an evaluation -/

theorem Restores.inScope {x : Eval α} (hx : Restores x) (scope : ScopeId) :
    Restores (inScope scope x) := by
  intro m
  have h := hx { m with scope := scope }
  unfold Eval.inScope
  dsimp only
  cases hxm : x { m with scope := scope } with
  | ok a m' => rw [hxm] at h; exact ⟨rfl, h.depth⟩
  | error e m' => rw [hxm] at h; exact ⟨rfl, h.depth⟩
  | outOfFuel => trivial

theorem Restores.nested {x : Eval α} (hx : Restores x) (token : Token) :
    Restores (nested token x) := by
  intro m
  have h := hx { m with depth := m.depth + 1 }
  unfold Eval.nested
  split
  · exact .refl m
  · cases hxm : x { m with depth := m.depth + 1 } with
    | ok a m' => rw [hxm] at h; exact ⟨h.scope, congrArg (· - 1) h.depth⟩
    | error e m' => rw [hxm] at h; exact ⟨h.scope, congrArg (· - 1) h.depth⟩
    | outOfFuel => trivial

theorem restores_congruence : Congruence fun {_} _ y => Restores y where
  simple hx := hx
  bind hy hg := hy.bind hg
  inScope scope hy := hy.inScope scope
  nested token hy := hy.nested token

/-- Every evaluation ends in the scope and at the depth in which it began, with a value, a signal
or an error. -/
theorem within_restores (fuel : Nat) (t : Task) : Restores (within fuel t) :=
  restores_congruence.within fuel t

end Eval

end Scriptlet

import Scriptlet.Proofs.Evaluator.Lookup
import Scriptlet.Proofs.Evaluator.Moments
import Scriptlet.Proofs.Heap.Code
import Scriptlet.Proofs.Tree.Links
import Scriptlet.Proofs.Tree.Movement

/-!
# Running code that was written anew

Code may be written anew with every stretch of source in it and every link replaced by another one
(`Rewriting`). Where code was written does not matter to a run, nor does what was printed before it,
and of the links only what is found for them. So if the same is found for the new links as for the
old ones, then evaluation does on code that was written anew, and on a machine whose code was, what
it does on the original ones, and what it yields is that of the original, written anew: a value, a
machine, or the place of an error. `Natural` says so of one computation and its counterpart; every
piece of an evaluation is natural, and so is evaluation with any fuel (`natural_through`).
-/

namespace Scriptlet

/-- A way to write code anew: what becomes of every stretch of source and of every link in it. -/
structure Rewriting where
  spans : Span → Span
  links : Option Link → Option Link

namespace Rewriting

variable (R : Rewriting)

abbrev token (t : Token) : Token := t.relocate R.spans

abbrev expr (e : Expr (Option Link)) : Expr (Option Link) := (e.relocate R.spans).mapLinks R.links

abbrev exprs (es : List (Expr (Option Link))) : List (Expr (Option Link)) :=
  Expr.mapLinksList R.links (Expr.relocateList R.spans es)

abbrev function (f : LinkedFunction) : LinkedFunction := (f.relocate R.spans).mapLinks R.links

abbrev declarations (ds : List (Declaration (Option Link))) : List (Declaration (Option Link)) :=
  Declaration.mapLinksList R.links (Declaration.relocateList R.spans ds)

abbrev stmt (s : Stmt (Option Link)) : Stmt (Option Link) := (s.relocate R.spans).mapLinks R.links

abbrev stmts (ss : List (Stmt (Option Link))) : List (Stmt (Option Link)) :=
  Stmt.mapLinksList R.links (Stmt.relocateList R.spans ss)

abbrev superclass (s : Option (Token × Option Link)) : Option (Token × Option Link) :=
  (s.map fun (token, link) => (R.token token, link)).map fun (token, link) => (token, R.links link)

theorem keepsShape : KeepsShape R.function where
  params f := by rw [Function.mapLinks_params, Function.relocate_params, List.length_map]
  getter f := by rw [Function.mapLinks_getter, Function.relocate_getter]

abbrev closure (f : Closure) : Closure := f.mapCode R.function

abbrev cls (c : ClassValue) : ClassValue := c.mapCode R.function

abbrev value (v : Value) : Value := v.mapCode R.function

def property : Eval.Property → Eval.Property
  | .field v => .field (R.value v)
  | .method f => .method (R.closure f)

def signal : Signal → Signal
  | .leave v => .leave (R.value v)
  | signal => signal

abbrev machine (m : Machine) : Machine := m.mapCode R.function

def error (e : RuntimeError) : RuntimeError := { e with token := R.token e.token }

/-- The same end with code that was written anew; `f` writes anew what was yielded. -/
def outcome {α : Type} (f : α → α) : Outcome α → Outcome α
  | .ok a m => .ok (f a) (R.machine m)
  | .error e m => .error (R.error e) (R.machine m)
  | .outOfFuel => .outOfFuel

end Rewriting

/-- A machine that printed something earlier. -/
def Machine.after (earlier : List Text) (m : Machine) : Machine :=
  { m with sink := { m.sink with printed := m.sink.printed ++ earlier } }

def Outcome.after {α : Type} (earlier : List Text) : Outcome α → Outcome α
  | .ok a m => .ok a (m.after earlier)
  | .error e m => .error e (m.after earlier)
  | .outOfFuel => .outOfFuel

theorem Machine.after_nil (m : Machine) : m.after [] = m := by
  rw [after, List.append_nil]

theorem Outcome.after_nil {α : Type} (o : Outcome α) : o.after [] = o := by
  cases o with
  | ok a m => rw [after, Machine.after_nil]
  | error e m => rw [after, Machine.after_nil]
  | outOfFuel => rfl

namespace Eval

variable {α β : Type} {R : Rewriting}

/-- A computation and its counterpart on code that was written anew; `f` writes anew what they
yield. -/
def Natural (R : Rewriting) (f : α → α) (x x' : Eval α) : Prop :=
  ∀ earlier m, x' ((R.machine m).after earlier) = (R.outcome f (x m)).after earlier

section

variable {f : α → α} {g : β → β}

theorem natural_pure (a : α) : Natural R f (pure a) (pure (f a)) := fun _ _ => rfl

theorem natural_yield {a a' : α} (h : f a = a') : Natural R f (pure a) (pure a') :=
  h ▸ natural_pure a

theorem Natural.bind {x x' : Eval α} {k k' : α → Eval β} (hx : Natural R f x x')
    (hk : ∀ a, Natural R g (k a) (k' (f a))) : Natural R g (x >>= k) (x' >>= k') := by
  intro earlier m
  rw [bind_apply, bind_apply, hx earlier m]
  cases x m with
  | ok a m => exact hk a earlier m
  | error e m => rfl
  | outOfFuel => rfl

theorem natural_fail (fault : RuntimeFault) (token : Token) :
    Natural R f (fail fault token) (fail fault (R.token token)) :=
  fun _ _ => rfl

/-- What operators yield holds no code. -/
theorem natural_lift (token : Token) {result : Except RuntimeFault Value}
    (hplain : ∀ v, result = .ok v → v.IsPlain) :
    Natural R R.value (lift token result) (lift (R.token token) result) := by
  intro earlier m
  cases result with
  | ok v =>
    have hv : R.value v = v := (hplain v rfl).mapCode
    simp only [lift, Rewriting.outcome, Outcome.after, hv]
  | error fault => rfl

theorem natural_printLine (t : Text) : Natural R id (printLine t) (printLine t) := by
  intro earlier m
  simp only [printLine, Sink.write, Rewriting.outcome, Machine.mapCode, Outcome.after,
    Machine.after]
  split
  · next hbroken => simp only [hbroken, id]
  · next hbroken => simp only [hbroken, id]; rfl

theorem natural_define (name : Text) (value : Value) :
    Natural R id (define name value) (define name (R.value value)) := by
  intro earlier m
  simp only [define, Rewriting.outcome, Machine.mapCode, Outcome.after, Machine.after,
    Heap.mapCode_define, id]

theorem natural_currentScope : Natural R id currentScope currentScope := fun _ _ => rfl

theorem natural_newScope (parent : ScopeId) (slots : Entries Value) :
    Natural R id (newScope parent slots) (newScope parent (slots.mapValues R.value)) := by
  intro earlier m
  simp only [newScope, Rewriting.outcome, Machine.mapCode, Outcome.after, Machine.after,
    Heap.mapCode_addScope, Heap.nextScope_mapCode, id]

theorem natural_newObject : Natural R id newObject newObject := by
  intro earlier m
  simp only [newObject, Rewriting.outcome, Machine.mapCode, Outcome.after, Machine.after,
    Heap.mapCode_addObject, Heap.nextObject_mapCode, id]

theorem natural_newIdentity : Natural R id newIdentity newIdentity := fun _ _ => rfl

theorem Natural.inScope {x x' : Eval α} (hx : Natural R f x x') (scope : ScopeId) :
    Natural R f (inScope scope x) (inScope scope x') := by
  intro earlier m
  have heq := hx earlier { m with scope := scope }
  simp only [Machine.mapCode, Machine.after] at heq
  simp only [Eval.inScope, Machine.mapCode, Machine.after, heq]
  cases x { m with scope := scope } <;> rfl

theorem Natural.nested {x x' : Eval α} (hx : Natural R f x x') (token : Token) :
    Natural R f (nested token x) (nested (R.token token) x') := by
  intro earlier m
  have heq := hx earlier { m with depth := m.depth + 1 }
  simp only [Machine.mapCode, Machine.after] at heq
  simp only [Eval.nested, Machine.mapCode, Machine.after, heq]
  split
  · rfl
  · cases x { m with depth := m.depth + 1 } <;> rfl

end

/-! ## Variables -/

theorem natural_readLink (name : Token) (link : Option Link) :
    Natural R R.value (readLink name link) (readLink (R.token name) link) := by
  intro earlier m
  cases link with
  | none => rfl
  | some l =>
    simp only [readLink, Machine.mapCode, Machine.after, Heap.getAt_mapCode,
      Token.relocate_lexeme]
    cases m.heap.getAt m.scope l.hops name.lexeme <;> rfl

theorem natural_writeLink (name : Token) (link : Option Link) (value : Value) :
    Natural R id (writeLink name link value) (writeLink (R.token name) link (R.value value)) := by
  intro earlier m
  cases link with
  | none => rfl
  | some l =>
    simp only [writeLink, Machine.mapCode, Machine.after, Heap.binderAt_mapCode,
      Token.relocate_lexeme]
    cases m.heap.binderAt m.scope l.hops name.lexeme with
    | ok home =>
      simp only [Rewriting.outcome, Machine.mapCode, Outcome.after, Machine.after,
        Heap.mapCode_define, id]
    | error fault => rfl

theorem natural_inheritance (keyword : Token) (link : Option Link) :
    Natural R (Prod.map R.value R.value) (inheritance keyword link)
      (inheritance (R.token keyword) link) := by
  intro earlier m
  cases link with
  | none => rfl
  | some l =>
    simp only [inheritance, Machine.mapCode, Machine.after, Heap.getAt_mapCode,
      Token.relocate_lexeme]
    cases m.heap.getAt m.scope l.hops keyword.lexeme with
    | error fault => rfl
    | ok superclass =>
      simp only [Except.map]
      cases m.heap.getAt m.scope (l.hops - 1) "this" with
      | ok receiver => rfl
      | error fault =>
        simp only [Rewriting.outcome, Rewriting.error, Machine.mapCode]
        split <;> rfl

theorem natural_receiverOf (method : Closure) :
    Natural R R.value (receiverOf method) (receiverOf (R.closure method)) := by
  intro earlier m
  simp only [receiverOf, Machine.mapCode, Machine.after, Closure.mapCode,
    Heap.get?_slots_mapCode]
  cases (m.heap.slots method.scope).get? "this" <;> rfl

theorem natural_property (object : Value) (name : Token) :
    Natural R R.property (property object name)
      (property (R.value object) (R.token name)) := by
  intro earlier m
  cases object with
  | object fields c =>
    simp only [property, Value.mapCode, Machine.mapCode, Machine.after, Heap.field?_mapCode,
      ClassValue.method?_mapCode, Token.relocate_lexeme]
    cases m.heap.field? fields name.lexeme with
    | some v => rfl
    | none => cases c.method? name.lexeme <;> rfl
  | cls c =>
    simp only [property, Value.mapCode, ClassValue.classMethod?_mapCode, Token.relocate_lexeme]
    cases c.classMethod? name.lexeme <;> rfl
  | _ => rfl

theorem natural_setField (fields : ObjectId) (name : Text) (value : Value) :
    Natural R id (setField fields name value) (setField fields name (R.value value)) := by
  intro earlier m
  simp only [setField, Rewriting.outcome, Machine.mapCode, Outcome.after, Machine.after,
    Heap.mapCode_setField, id]

theorem natural_callNative (token : Token) (n : Native) (args : List Value) :
    Natural R R.value (callNative token n args)
      (callNative (R.token token) n (args.map R.value)) := by
  intro earlier m
  simp only [callNative, Machine.mapCode, Machine.after, Native.call_mapCode]
  cases hcall : n.call m.clock args with
  | ok v =>
    have hv : R.value v = v := (Native.call_isPlain hcall).mapCode
    simp only [Rewriting.outcome, Machine.mapCode, Outcome.after, Machine.after, hv]
  | error fault => rfl

/-! ## Functions and classes -/

theorem natural_closure (name : Text) (function : LinkedFunction) :
    Natural R R.closure (closure name function) (closure name (R.function function)) :=
  fun _ _ => rfl

theorem natural_bindReceiver (method : Closure) (receiver : Value) :
    Natural R R.closure (bindReceiver method receiver)
      (bindReceiver (R.closure method) (R.value receiver)) :=
  (natural_newScope method.scope [("this", receiver)]).bind fun _ =>
    natural_newIdentity.bind fun _ => natural_pure _

theorem natural_methodClosures (scope : ScopeId) (initializers : Bool) (done : Entries Closure)
    (ds : List (Declaration (Option Link))) :
    Natural R (Entries.mapValues R.closure) (methodClosures scope initializers done ds)
      (methodClosures scope initializers (done.mapValues R.closure) (R.declarations ds)) := by
  induction ds generalizing done with
  | nil => exact natural_pure done
  | cons d ds ih =>
    simp only [methodClosures, Rewriting.declarations, Declaration.relocateList,
      Declaration.mapLinksList, Declaration.mapLinks_name, Declaration.mapLinks_function,
      Declaration.relocate_name, Declaration.relocate_function, Token.relocate_lexeme]
    refine natural_newIdentity.bind fun identity => ?_
    have hnext := ih (done.put d.name.lexeme ⟨identity, d.name.lexeme, d.function, scope,
      initializers && d.name.lexeme == ClassValue.initName⟩)
    rw [Entries.mapValues_put] at hnext
    exact hnext

theorem natural_makeClass (name : Text) (superclass : Option ClassValue)
    (methods classMethods : List (Declaration (Option Link))) :
    Natural R R.cls (makeClass name superclass methods classMethods)
      (makeClass name (superclass.map R.cls) (R.declarations methods)
        (R.declarations classMethods)) := by
  unfold makeClass
  have hscope : Natural R id (methodScope superclass) (methodScope (superclass.map R.cls)) := by
    cases superclass with
    | none => exact natural_currentScope
    | some c =>
      exact natural_currentScope.bind fun here => natural_newScope here [("super", .cls c)]
  refine hscope.bind fun scope => ?_
  refine (natural_methodClosures scope true [] methods).bind fun methods => ?_
  refine (natural_methodClosures scope false [] classMethods).bind fun classMethods => ?_
  refine natural_newIdentity.bind fun identity => ?_
  exact natural_yield (ClassValue.mapCode_make ⟨identity, name, methods, classMethods⟩ superclass)

theorem parameterSlots_mapCode (params : List Token) (args : List Value) :
    parameterSlots (params.map R.token) (args.map R.value) =
      (parameterSlots params args).mapValues R.value := by
  have hfold : ∀ (pairs : List (Token × Value)) (slots : Entries Value),
      (pairs.map (Prod.map R.token R.value)).foldl
        (fun slots pair => slots.put pair.1.lexeme pair.2) (slots.mapValues R.value) =
      (pairs.foldl (fun slots pair => slots.put pair.1.lexeme pair.2) slots).mapValues
        R.value := by
    intro pairs
    induction pairs with
    | nil => intro slots; rfl
    | cons pair pairs ih =>
      intro slots
      have hnext := ih (slots.put pair.1.lexeme pair.2)
      rw [Entries.mapValues_put] at hnext
      exact hnext
  unfold parameterSlots
  rw [List.zip_map]
  exact hfold _ []

/-! ## One evaluation -/

/-- A way to evaluate tasks and its counterpart on code that was written anew. -/
structure NaturalRunner (R : Rewriting) (r r' : Runner) : Prop where
  read : ∀ name link, Natural R R.value (r.read name link)
    (r'.read (R.token name) (R.links link))
  write : ∀ name link value, Natural R id (r.write name link value)
    (r'.write (R.token name) (R.links link) (R.value value))
  inherit : ∀ keyword link, Natural R (Prod.map R.value R.value) (r.inherit keyword link)
    (r'.inherit (R.token keyword) (R.links link))
  expr : ∀ e, Natural R R.value (r.expr e) (r'.expr (R.expr e))
  exprs : ∀ es, Natural R (List.map R.value) (r.exprs es) (r'.exprs (R.exprs es))
  bound : ∀ token method receiver, Natural R R.value (r.bound token method receiver)
    (r'.bound (R.token token) (R.closure method) (R.value receiver))
  call : ∀ token callee args, Natural R R.value (r.call token callee args)
    (r'.call (R.token token) (R.value callee) (args.map R.value))
  enter : ∀ token callee args, Natural R R.value (r.enter token callee args)
    (r'.enter (R.token token) (R.value callee) (args.map R.value))
  body : ∀ f args, Natural R R.value (r.body f args) (r'.body (R.closure f) (args.map R.value))
  stmt : ∀ s, Natural R R.signal (r.stmt s) (r'.stmt (R.stmt s))
  stmts : ∀ ss, Natural R R.signal (r.stmts ss) (r'.stmts (R.stmts ss))
  loop : ∀ condition body update skipTest, Natural R R.signal
    (r.loop condition body update skipTest)
    (r'.loop (R.expr condition) (R.stmt body) (update.map R.expr) skipTest)

namespace NaturalRunner

variable {r r' : Runner}

theorem assignStep (hr : NaturalRunner R r r') (name op : Token) (value : Expr (Option Link))
    (link : Option Link) :
    Natural R R.value (assignStep r name op value link)
      (assignStep r' (R.token name) (R.token op) (R.expr value) (R.links link)) := by
  unfold Eval.assignStep
  rw [Token.relocate_kind]
  split
  · refine (hr.expr value).bind fun v => ?_
    exact (hr.write name link v).bind fun _ => natural_pure v
  · refine (hr.read name link).bind fun current => ?_
    refine (hr.expr value).bind fun v => ?_
    rw [Token.relocate_lexeme, Value.combine_mapCode]
    refine (natural_lift op fun _ hv => Value.combine_isPlain hv).bind fun v => ?_
    exact (hr.write name link v).bind fun _ => natural_pure v

theorem increment (hr : NaturalRunner R r r') (op : Token) (trailing : Bool) (name : Token)
    (link : Option Link) :
    Natural R R.value (increment r op trailing name link)
      (increment r' (R.token op) trailing (R.token name) (R.links link)) := by
  refine (hr.read name link).bind fun v => ?_
  cases v with
  | number old =>
    exact (hr.write name link (.number (stepped op.kind old))).bind fun _ => natural_pure _
  | _ => exact natural_fail _ op

theorem unaryStep (hr : NaturalRunner R r r') (op : Token) (operand : Expr (Option Link))
    (trailing : Bool) :
    Natural R R.value (unaryStep r op operand trailing)
      (unaryStep r' (R.token op) (R.expr operand) trailing) := by
  unfold Eval.unaryStep
  rw [Token.relocate_kind]
  split
  · cases operand with
    | name span name link => exact hr.increment op trailing name link
    | _ => exact natural_fail _ op
  · refine (hr.expr operand).bind fun v => ?_
    rw [Value.unary_mapCode]
    exact natural_lift op fun _ hv => Value.unary_isPlain hv

theorem callStep (hr : NaturalRunner R r r') (callee : Expr (Option Link)) (paren : Token)
    (args : List (Expr (Option Link))) :
    Natural R R.value (callStep r callee paren args)
      (callStep r' (R.expr callee) (R.token paren) (R.exprs args)) := by
  refine (hr.expr callee).bind fun f => ?_
  refine (hr.exprs args).bind fun vs => ?_
  rw [R.keepsShape.valueArity, List.length_map]
  split
  · exact natural_fail _ paren
  · split
    · exact hr.call paren f vs
    · exact natural_fail _ paren

theorem setStep (hr : NaturalRunner R r r') (object : Expr (Option Link)) (name : Token)
    (value : Expr (Option Link)) :
    Natural R R.value (setStep r object name value)
      (setStep r' (R.expr object) (R.token name) (R.expr value)) := by
  refine (hr.expr object).bind fun o => ?_
  cases o with
  | object fields c =>
    refine (hr.expr value).bind fun v => ?_
    exact (natural_setField fields name.lexeme v).bind fun _ => natural_pure v
  | _ => exact natural_fail _ name

theorem inheritedStep (hr : NaturalRunner R r r') (keyword method : Token) (link : Option Link) :
    Natural R R.value (inheritedStep r keyword method link)
      (inheritedStep r' (R.token keyword) (R.token method) (R.links link)) := by
  refine (hr.inherit keyword link).bind fun found => ?_
  obtain ⟨superclass, receiver⟩ := found
  cases superclass with
  | cls c =>
    cases receiver with
    | cls d =>
      dsimp only [Prod.map, Rewriting.value, Value.mapCode, Token.relocate_lexeme]
      rw [ClassValue.classMethod?_mapCode]
      cases c.classMethod? method.lexeme with
      | some f => exact hr.bound method f (.cls d)
      | none => exact natural_fail _ method
    | _ =>
      dsimp only [Prod.map, Rewriting.value, Value.mapCode, Token.relocate_lexeme]
      rw [ClassValue.method?_mapCode]
      cases c.method? method.lexeme with
      | some f => exact hr.bound method f _
      | none => exact natural_fail _ method
  | _ => exact natural_fail _ keyword

theorem exprStep (hr : NaturalRunner R r r') (e : Expr (Option Link)) :
    Natural R R.value (exprStep r e) (exprStep r' (R.expr e)) := by
  cases e with
  | literal span value => exact natural_yield (Value.isPlain_ofLiteral value).mapCode
  | group span inner => exact hr.expr inner
  | name span name link => exact hr.read name link
  | assign span name op value link => exact hr.assignStep name op value link
  | binary span left op right =>
    refine (hr.expr left).bind fun l => ?_
    refine (hr.expr right).bind fun v => ?_
    rw [Token.relocate_kind, Token.relocate_lexeme, Value.combine_mapCode]
    split
    · exact natural_pure v
    · exact natural_lift op fun _ hv => Value.combine_isPlain hv
  | logical span left op right =>
    refine (hr.expr left).bind fun l => ?_
    rw [Value.mapCode_truthy, Token.relocate_kind]
    split
    · exact natural_pure l
    · exact hr.expr right
  | unary span op operand trailing => exact hr.unaryStep op operand trailing
  | ternary span condition onTrue onFalse =>
    refine (hr.expr condition).bind fun c => ?_
    rw [Value.mapCode_truthy]
    split
    · exact hr.expr onTrue
    · exact hr.expr onFalse
  | call span callee paren args => exact hr.callStep callee paren args
  | lambda function => exact (natural_closure [] function).bind fun c => natural_pure _
  | get span object name =>
    refine (hr.expr object).bind fun o => ?_
    refine (natural_property o name).bind fun p => ?_
    cases p with
    | field v => exact natural_pure v
    | method f => exact hr.bound name f o
  | set span object name value => exact hr.setStep object name value
  | receiver span keyword link => exact hr.read keyword link
  | inherited span keyword method link => exact hr.inheritedStep keyword method link

theorem exprsStep (hr : NaturalRunner R r r') (es : List (Expr (Option Link))) :
    Natural R (List.map R.value) (exprsStep r es) (exprsStep r' (R.exprs es)) := by
  cases es with
  | nil => exact natural_pure []
  | cons e es =>
    refine (hr.expr e).bind fun v => ?_
    exact (hr.exprs es).bind fun vs => natural_pure (v :: vs)

theorem boundStep (hr : NaturalRunner R r r') (token : Token) (method : Closure)
    (receiver : Value) :
    Natural R R.value (boundStep r token method receiver)
      (boundStep r' (R.token token) (R.closure method) (R.value receiver)) := by
  refine (natural_bindReceiver method receiver).bind fun f => ?_
  rw [R.keepsShape.closureGetter]
  split
  · exact hr.call token (.function f) []
  · exact natural_pure (Value.function f)

theorem construct (hr : NaturalRunner R r r') (c : ClassValue) (args : List Value) :
    Natural R R.value (construct r c args) (construct r' (R.cls c) (args.map R.value)) := by
  refine natural_newObject.bind fun fields => ?_
  rw [ClassValue.method?_mapCode]
  cases c.method? ClassValue.initName with
  | none => exact natural_pure (Value.object fields c)
  | some init =>
    refine (natural_bindReceiver init (.object fields c)).bind fun f => ?_
    exact (hr.body f args).bind fun _ => natural_pure (Value.object fields c)

theorem enterStep (hr : NaturalRunner R r r') (token : Token) (callee : Value)
    (args : List Value) :
    Natural R R.value (enterStep r token callee args)
      (enterStep r' (R.token token) (R.value callee) (args.map R.value)) := by
  cases callee with
  | function f => exact hr.body f args
  | cls c => exact hr.construct c args
  | native n => exact natural_callNative token n args
  | _ => exact natural_fail _ token

theorem bodyStep (hr : NaturalRunner R r r') (f : Closure) (args : List Value) :
    Natural R R.value (bodyStep r f args)
      (bodyStep r' (R.closure f) (args.map R.value)) := by
  have hparams : (R.closure f).function.params = f.function.params.map R.token :=
    (Function.mapLinks_params ..).trans (Function.relocate_params ..)
  have hbody : (R.closure f).function.body = R.stmts f.function.body :=
    (Function.mapLinks_body ..).trans (congrArg _ (Function.relocate_body ..))
  unfold Eval.bodyStep
  rw [hparams, parameterSlots_mapCode, hbody]
  refine (natural_newScope f.scope _).bind fun scope => ?_
  refine ((hr.stmts f.function.body).inScope scope).bind fun signal => ?_
  change Natural R _ _ (if f.initializer then _ else _)
  split
  · exact natural_receiverOf f
  · cases signal with
    | leave v => exact natural_pure v
    | _ => exact natural_pure Value.none

theorem superclassOf (hr : NaturalRunner R r r') (superclass : Option (Token × Option Link)) :
    Natural R (Option.map R.cls) (superclassOf r superclass)
      (superclassOf r' (R.superclass superclass)) := by
  cases superclass with
  | none => exact natural_pure none
  | some pair =>
    refine (hr.read pair.1 pair.2).bind fun v => ?_
    cases v with
    | cls c => exact natural_pure (some c)
    | _ => exact natural_fail _ pair.1

theorem declareClass (hr : NaturalRunner R r r') (name : Token)
    (superclass : Option (Token × Option Link))
    (methods classMethods : List (Declaration (Option Link))) :
    Natural R R.signal (declareClass r name superclass methods classMethods)
      (declareClass r' (R.token name) (R.superclass superclass) (R.declarations methods)
        (R.declarations classMethods)) := by
  refine (hr.superclassOf superclass).bind fun parent => ?_
  refine (natural_define name.lexeme .none).bind fun _ => ?_
  refine (natural_makeClass name.lexeme parent methods classMethods).bind fun c => ?_
  exact (natural_define name.lexeme (.cls c)).bind fun _ => natural_pure Signal.next

theorem stmtStep (hr : NaturalRunner R r r') (s : Stmt (Option Link)) :
    Natural R R.signal (stmtStep r s) (stmtStep r' (R.stmt s)) := by
  match s with
  | .evaluate span e => exact (hr.expr e).bind fun _ => natural_pure Signal.next
  | .print span keyword value =>
    refine (hr.expr value).bind fun v => ?_
    rw [Value.mapCode_shown]
    exact (natural_printLine v.shown).bind fun _ => natural_pure Signal.next
  | .declareVar span name none =>
    exact (natural_define name.lexeme .none).bind fun _ => natural_pure Signal.next
  | .declareVar span name (some init) =>
    refine (hr.expr init).bind fun v => ?_
    exact (natural_define name.lexeme v).bind fun _ => natural_pure Signal.next
  | .block span body =>
    refine natural_currentScope.bind fun here => ?_
    exact (natural_newScope here []).bind fun scope => (hr.stmts body).inScope scope
  | .branch span condition onTrue none =>
    refine (hr.expr condition).bind fun c => ?_
    rw [Value.mapCode_truthy]
    split
    · exact hr.stmt onTrue
    · exact natural_pure Signal.next
  | .branch span condition onTrue (some onFalse) =>
    refine (hr.expr condition).bind fun c => ?_
    rw [Value.mapCode_truthy]
    split
    · exact hr.stmt onTrue
    · exact hr.stmt onFalse
  | .loop span condition body none bodyFirst => exact hr.loop condition body none bodyFirst
  | .loop span condition body (some update) bodyFirst =>
    exact hr.loop condition body (some update) bodyFirst
  | .leave span keyword none => exact natural_pure (Signal.leave .none)
  | .leave span keyword (some value) =>
    exact (hr.expr value).bind fun v => natural_pure (Signal.leave v)
  | .breakLoop .. => exact natural_pure Signal.breakLoop
  | .continueLoop .. => exact natural_pure Signal.continueLoop
  | .declareFunction (.mk span name function) =>
    refine (natural_closure name.lexeme function).bind fun f => ?_
    exact (natural_define name.lexeme (.function f)).bind fun _ => natural_pure Signal.next
  | .declareClass span name superclass methods classMethods =>
    exact hr.declareClass name superclass methods classMethods

theorem stmtsStep (hr : NaturalRunner R r r') (ss : List (Stmt (Option Link))) :
    Natural R R.signal (stmtsStep r ss) (stmtsStep r' (R.stmts ss)) := by
  cases ss with
  | nil => exact natural_pure Signal.next
  | cons s rest =>
    refine (hr.stmt s).bind fun signal => ?_
    cases signal with
    | next => exact hr.stmts rest
    | leave v => exact natural_pure (Signal.leave v)
    | breakLoop => exact natural_pure Signal.breakLoop
    | continueLoop => exact natural_pure Signal.continueLoop

theorem loopStep (hr : NaturalRunner R r r') (condition : Expr (Option Link))
    (body : Stmt (Option Link)) (update : Option (Expr (Option Link))) (skipTest : Bool) :
    Natural R R.signal (loopStep r condition body update skipTest)
      (loopStep r' (R.expr condition) (R.stmt body) (update.map R.expr) skipTest) := by
  have htest : Natural R R.value (testStep r condition skipTest)
      (testStep r' (R.expr condition) skipTest) := by
    unfold testStep
    split
    · exact natural_pure (Value.bool true)
    · exact hr.expr condition
  have hupdate : Natural R id (updateStep r update) (updateStep r' (update.map R.expr)) := by
    cases update with
    | none => exact natural_pure ()
    | some u => exact (hr.expr u).bind fun _ => natural_pure ()
  refine htest.bind fun c => ?_
  rw [Value.mapCode_truthy]
  split
  · refine (hr.stmt body).bind fun signal => ?_
    cases signal with
    | breakLoop => exact natural_pure Signal.next
    | leave v => exact natural_pure (Signal.leave v)
    | next | continueLoop => exact hupdate.bind fun _ => hr.loop condition body update false
  · exact natural_pure Signal.next

variable {look look' : Option Link → Option Link}

/-- One evaluation is natural if as much is found for each new link as for the old one. -/
theorem lookupStep (hlook : ∀ l, (look' (R.links l)).map Link.hops = (look l).map Link.hops)
    (hr : NaturalRunner R r r') : NaturalRunner R (lookupStep look r) (lookupStep look' r') where
  read name link := by
    have hread := natural_readLink (R := R) name (look link)
    rw [← readLink_congr (hlook link) (R.token name)] at hread
    exact hread
  write name link value := by
    have hwrite := natural_writeLink (R := R) name (look link) value
    rw [← writeLink_congr (hlook link) (R.token name)] at hwrite
    exact hwrite
  inherit keyword link := by
    have hinherit := natural_inheritance (R := R) keyword (look link)
    rw [← inheritance_congr (hlook link) (R.token keyword)] at hinherit
    exact hinherit
  expr := hr.exprStep
  exprs := hr.exprsStep
  bound := hr.boundStep
  call token callee args := (hr.enter token callee args).nested token
  enter := hr.enterStep
  body := hr.bodyStep
  stmt := hr.stmtStep
  stmts := hr.stmtsStep
  loop := hr.loopStep

/-- A program runs as its statements do, one after the other. -/
theorem runWith (hr : NaturalRunner R r r') (ss : List (Stmt (Option Link))) :
    Natural R id (Machine.runWith r ss) (Machine.runWith r' (R.stmts ss)) := by
  induction ss with
  | nil => exact natural_pure ()
  | cons s rest ih => exact (hr.stmt s).bind fun _ => ih

end NaturalRunner

/-- Evaluation does on code that was written anew what it does on the original one, if as much is
found for each new link as for the old one. -/
theorem natural_through {look look' : Option Link → Option Link}
    (hlook : ∀ l, (look' (R.links l)).map Link.hops = (look l).map Link.hops) (fuel : Nat) :
    NaturalRunner R (through look fuel) (through look' fuel) := by
  induction fuel with
  | zero => constructor <;> intros <;> exact fun _ _ => rfl
  | succ fuel ih => exact ih.lookupStep hlook

end Eval

end Scriptlet

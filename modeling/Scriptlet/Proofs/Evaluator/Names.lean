import Scriptlet.Proofs.Evaluator.Moments
import Scriptlet.Proofs.Heap.Access
import Scriptlet.Proofs.Tree.WellFormed

/-!
# The names that a run binds

Variables are bound in the current scope only, and only by declarations; a call or a block has a new
scope for its own. So a statement adds to the scopes that exist at most the names that it declares
there (`Gains`). At the top level this decides the globals after a program: they are the ones before
it and those that it declares (`mem_names_run`).
-/

namespace Scriptlet

/-- The names that a statement may add to the scope it stands in, by the statements inside it that
stand there as well. -/
def Stmt.exposed {β : Type} : Stmt β → List Text
  | .branch _ _ onTrue none => onTrue.exposed
  | .branch _ _ onTrue (some onFalse) => onTrue.exposed ++ onFalse.exposed
  | .loop _ _ body _ _ => body.exposed
  | s => s.declared

/-- Only declarations add names, where the reader of programs has made a statement. -/
theorem Stmt.WellFormed.exposed {β : Type} : ∀ {s : Stmt β}, s.WellFormed → s.exposed = s.declared
  | .branch _ _ onTrue none, h => by
    rw [Stmt.exposed, h.2.1.exposed, h.2.2]
    rfl
  | .branch _ _ onTrue (some onFalse), h => by
    rw [Stmt.exposed, h.2.1.1.exposed, h.2.1.2, h.2.2.1.exposed, h.2.2.2]
    rfl
  | .loop _ _ body none _, h => by
    rw [Stmt.exposed, h.2.1.exposed, h.2.2]
    rfl
  | .loop _ _ body (some update) _, h => by
    rw [Stmt.exposed, h.2.1.1.exposed, h.2.1.2]
    rfl
  | .evaluate .., _ | .print .., _ | .declareVar .., _ | .block .., _ | .leave .., _
  | .breakLoop .., _ | .continueLoop .., _ | .declareFunction _, _ | .declareClass .., _ => rfl

/-- A machine whose scopes have kept their names, and of which the current one may have gained some
names. -/
structure Machine.Gains (xs : List Text) (m m' : Machine) : Prop where
  scope : m'.scope = m.scope
  size : m.heap.nextScope ≤ m'.heap.nextScope
  kept : ∀ id y, (m.heap.slots id).has y → (m'.heap.slots id).has y
  gained : ∀ id y, id < m.heap.nextScope → (m'.heap.slots id).has y →
    (m.heap.slots id).has y ∨ id = m.scope ∧ y ∈ xs

namespace Machine.Gains

variable {xs ys : List Text} {m m' m'' : Machine}

theorem of_scopes_eq (hscope : m'.scope = m.scope) (hheap : m'.heap.scopes = m.heap.scopes) :
    Gains xs m m' := by
  have hslots : ∀ id, m'.heap.slots id = m.heap.slots id := fun id => by
    rw [Heap.slots, Heap.slots, hheap]
  refine ⟨hscope, Nat.le_of_eq (by rw [Heap.nextScope, Heap.nextScope, hheap]), ?_, ?_⟩
  · intro id y h
    rwa [hslots]
  · intro id y _ h
    rw [hslots] at h
    exact .inl h

theorem refl (xs : List Text) (m : Machine) : Gains xs m m := of_scopes_eq rfl rfl

theorem mono (h : Gains xs m m') (hxs : xs ⊆ ys) : Gains ys m m' where
  scope := h.scope
  size := h.size
  kept := h.kept
  gained id y hid hy := (h.gained id y hid hy).imp_right fun ⟨hscope, hmem⟩ => ⟨hscope, hxs hmem⟩

theorem trans (h : Gains xs m m') (h' : Gains ys m' m'') : Gains (xs ++ ys) m m'' where
  scope := h'.scope.trans h.scope
  size := Nat.le_trans h.size h'.size
  kept id y hy := h'.kept id y (h.kept id y hy)
  gained id y hid hy := by
    rcases h'.gained id y (Nat.lt_of_lt_of_le hid h.size) hy with hy | ⟨hscope, hmem⟩
    · rcases h.gained id y hid hy with hy | ⟨hscope, hmem⟩
      · exact .inl hy
      · exact .inr ⟨hscope, List.mem_append_left _ hmem⟩
    · exact .inr ⟨hscope.trans h.scope, List.mem_append_right _ hmem⟩

/-- What happens in a scope that is new does not show in those that exist. -/
theorem inside {scope : ScopeId} (h : Gains xs { m with scope := scope } m')
    (hscope : m''.heap.nextScope ≤ scope) (h' : Gains ys m'' m) :
    Gains ys m'' { m' with scope := m.scope } where
  scope := h'.scope
  size := Nat.le_trans h'.size h.size
  kept id y hy := h.kept id y (h'.kept id y hy)
  gained id y hid hy := by
    rcases h.gained id y (Nat.lt_of_lt_of_le hid h'.size) hy with hy | ⟨heq, -⟩
    · exact h'.gained id y hid hy
    · rw [show id = scope from heq] at hid
      exact absurd hid (Nat.not_lt.mpr hscope)

end Machine.Gains

theorem Heap.has_of_binderAt {h : Heap} {id home : ScopeId} {distance : Int}
    {name : Text} (hb : h.binderAt id distance name = .ok home) : (h.slots home).has name := by
  cases ha : h.ancestor id distance with
  | error fault =>
    simp only [Heap.binderAt, ha] at hb
    cases hb
  | ok s =>
    rw [Heap.binderAt_of_ancestor name ha] at hb
    split at hb
    · cases hb; assumption
    · cases hb

namespace Eval

variable {α β : Type} {xs ys : List Text}

/-- A computation that adds at most some names to the current scope, and none to another one that
exists, whichever way it ends. -/
def Gains (xs : List Text) (x : Eval α) : Prop :=
  ∀ m, (x m).Meets (fun _ m' => m.Gains xs m') fun _ m' => m.Gains xs m'

theorem Gains.mono {x : Eval α} (h : Gains xs x) (hxs : xs ⊆ ys) : Gains ys x :=
  fun m => (h m).imp (fun _ _ hm => hm.mono hxs) fun _ _ hm => hm.mono hxs

theorem Gains.of_ok {x : Eval α} (hx : Gains xs x) {m m' : Machine} {a : α}
    (h : x m = .ok a m') : m.Gains xs m' := by
  have hm := hx m
  rwa [h] at hm

theorem Gains.of_error {x : Eval α} (hx : Gains xs x) {m m' : Machine} {e : RuntimeError}
    (h : x m = .error e m') : m.Gains xs m' := by
  have hm := hx m
  rwa [h] at hm

theorem bind_ok {x : Eval α} {f : α → Eval β} {m m' : Machine} {b : β}
    (h : (x >>= f) m = .ok b m') : ∃ a m₁, x m = .ok a m₁ ∧ f a m₁ = .ok b m' := by
  rw [bind_apply] at h
  cases hx : x m with
  | ok a m₁ => rw [hx] at h; exact ⟨a, m₁, rfl, h⟩
  | error | outOfFuel => rw [hx] at h; cases h

theorem bind_error {x : Eval α} {f : α → Eval β} {m m' : Machine} {e : RuntimeError}
    (h : (x >>= f) m = .error e m') :
    x m = .error e m' ∨ ∃ a m₁, x m = .ok a m₁ ∧ f a m₁ = .error e m' := by
  rw [bind_apply] at h
  cases hx : x m with
  | ok a m₁ => rw [hx] at h; exact .inr ⟨a, m₁, rfl, h⟩
  | error e₁ m₁ => rw [hx] at h; cases h; exact .inl rfl
  | outOfFuel => rw [hx] at h; cases h

theorem Gains.append {x : Eval α} {f : α → Eval β} (hx : Gains xs x) (hf : ∀ a, Gains ys (f a)) :
    Gains (xs ++ ys) (x >>= f) := by
  intro m
  have hm := hx m
  rw [bind_apply]
  cases hrun : x m with
  | outOfFuel => trivial
  | error e m₁ =>
    rw [hrun] at hm
    exact Machine.Gains.mono hm (List.subset_append_left xs ys)
  | ok a m₁ =>
    rw [hrun] at hm
    exact (hf a m₁).imp (fun _ _ => hm.trans) fun _ _ => hm.trans

theorem Gains.bind {x : Eval α} {f : α → Eval β} (hx : Gains [] x) (hf : ∀ a, Gains xs (f a)) :
    Gains xs (x >>= f) :=
  hx.append hf

/-- The same names again. -/
theorem Gains.again {x : Eval α} {f : α → Eval β} (hx : Gains xs x) (hf : ∀ a, Gains xs (f a)) :
    Gains xs (x >>= f) :=
  (hx.append hf).mono (by simp)

/-- A computation that leaves the machine as it is. -/
theorem gains_of_eq {x : Eval α} (hx : ∀ m, (x m).Meets (fun _ m' => m' = m) fun _ m' => m' = m) :
    Gains xs x := by
  refine fun m => (hx m).imp ?_ ?_
  · rintro _ _ rfl
    exact .refl xs _
  · rintro _ _ rfl
    exact .refl xs _

theorem gains_pure (a : α) : Gains xs (pure a : Eval α) := gains_of_eq fun _ => rfl

theorem gains_fail (fault : RuntimeFault) (token : Token) : Gains xs (fail fault token : Eval α) :=
  gains_of_eq fun _ => rfl

theorem gains_lift (token : Token) (result : Except RuntimeFault α) :
    Gains xs (lift token result) := by
  cases result with
  | ok v => exact gains_of_eq fun _ => rfl
  | error fault => exact gains_of_eq fun _ => rfl

theorem gains_printLine (t : Text) : Gains xs (printLine t) := fun _ => .of_scopes_eq rfl rfl

theorem gains_define (name : Text) (value : Value) : Gains [name] (define name value) := by
  intro m
  refine ⟨rfl, Nat.le_of_eq (Heap.nextScope_define ..).symm, fun id y hy => ?_, fun id y _ hy => ?_⟩
  · rw [Heap.slots_define]
    split
    · exact (Entries.has_put ..).mpr (.inr hy)
    · exact hy
  · rw [Heap.slots_define] at hy
    split at hy
    · next hid =>
      rcases (Entries.has_put ..).mp hy with rfl | hy
      · exact .inr ⟨hid.1.symm, List.mem_singleton_self _⟩
      · exact .inl hy
    · exact .inl hy

theorem gains_currentScope : Gains xs currentScope := gains_of_eq fun _ => rfl

theorem gains_newScope (parent : ScopeId) (slots : Entries Value) :
    Gains xs (newScope parent slots) := by
  intro m
  refine ⟨rfl, ?_, fun id y hy => ?_, fun id y hid hy => ?_⟩
  · rw [Heap.nextScope_addScope]
    exact Nat.le_succ _
  · rw [Heap.slots_addScope]
    split
    · next hid => rw [hid, Heap.slots_nextScope] at hy; cases hy
    · exact hy
  · rw [Heap.slots_addScope, if_neg (Nat.ne_of_lt hid)] at hy
    exact .inl hy

theorem gains_newObject : Gains xs newObject := fun _ => .of_scopes_eq rfl rfl

theorem gains_newIdentity : Gains xs newIdentity := fun _ => .of_scopes_eq rfl rfl

theorem gains_setField (id : ObjectId) (name : Text) (value : Value) :
    Gains xs (setField id name value) :=
  fun _ => .of_scopes_eq rfl rfl

theorem gains_readLink (name : Token) (link : Option Link) : Gains xs (readLink name link) := by
  refine gains_of_eq fun m => ?_
  cases link with
  | none => rfl
  | some l =>
    unfold readLink
    dsimp only
    split <;> rfl

/-- A name is bound anew only where it is bound. -/
theorem gains_writeLink (name : Token) (link : Option Link) (value : Value) :
    Gains xs (writeLink name link value) := by
  intro m
  cases link with
  | none => exact .refl xs m
  | some l =>
    unfold writeLink
    dsimp only
    cases hb : m.heap.binderAt m.scope l.hops name.lexeme with
    | error fault => exact .refl xs m
    | ok home =>
      have hhas := Heap.has_of_binderAt hb
      have hgains := gains_define name.lexeme value { m with scope := home }
      refine ⟨rfl, hgains.size, hgains.kept, fun id y hid hy => ?_⟩
      rcases hgains.gained id y hid hy with hy | ⟨rfl, hmem⟩
      · exact .inl hy
      · rw [List.mem_singleton.mp hmem]
        exact .inl hhas

theorem gains_inheritance (keyword : Token) (link : Option Link) :
    Gains xs (inheritance keyword link) := by
  refine gains_of_eq fun m => ?_
  cases link with
  | none => rfl
  | some l =>
    unfold inheritance
    dsimp only
    split
    · rfl
    · split <;> rfl

theorem gains_receiverOf (method : Closure) : Gains xs (receiverOf method) :=
  gains_of_eq fun _ => rfl

theorem gains_property (object : Value) (name : Token) : Gains xs (property object name) := by
  refine gains_of_eq fun m => ?_
  unfold property
  split
  · split
    · rfl
    · split <;> rfl
  · split <;> rfl
  · rfl

theorem gains_callNative (token : Token) (native : Native) (args : List Value) :
    Gains xs (callNative token native args) := by
  refine gains_of_eq fun m => ?_
  unfold callNative
  split <;> rfl

theorem gains_closure (name : Text) (function : LinkedFunction) :
    Gains xs (closure name function) :=
  gains_newIdentity.bind fun _ => gains_currentScope.bind fun _ => gains_pure _

theorem gains_bindReceiver (method : Closure) (receiver : Value) :
    Gains xs (bindReceiver method receiver) :=
  (gains_newScope _ _).bind fun _ => gains_newIdentity.bind fun _ => gains_pure _

theorem gains_methodClosures (scope : ScopeId) (initializers : Bool) (done : Entries Closure)
    (ds : List (Declaration (Option Link))) :
    Gains xs (methodClosures scope initializers done ds) := by
  induction ds generalizing done with
  | nil => exact gains_pure done
  | cons d ds ih => exact gains_newIdentity.bind fun _ => ih _

theorem gains_makeClass (name : Text) (superclass : Option ClassValue)
    (methods classMethods : List (Declaration (Option Link))) :
    Gains xs (makeClass name superclass methods classMethods) := by
  have hscope : Gains [] (methodScope superclass) := by
    cases superclass with
    | none => exact gains_currentScope
    | some c => exact gains_currentScope.bind fun here => gains_newScope here _
  refine hscope.bind fun scope => ?_
  refine (gains_methodClosures scope true [] methods).bind fun _ => ?_
  refine (gains_methodClosures scope false [] classMethods).bind fun _ => ?_
  exact gains_newIdentity.bind fun _ => gains_pure _

theorem Gains.nested {x : Eval α} (hx : Gains xs x) (token : Token) : Gains xs (nested token x) := by
  intro m
  unfold Eval.nested
  split
  · exact .refl xs m
  · have hm := hx { m with depth := m.depth + 1 }
    cases hrun : x { m with depth := m.depth + 1 } with
    | outOfFuel => trivial
    | ok | error =>
      rw [hrun] at hm
      exact ⟨hm.scope, hm.size, hm.kept, hm.gained⟩

/-- A scope that is made for a computation keeps the names that this adds. -/
theorem Gains.inNewScope {x : Eval α} (hx : Gains ys x) (parent : ScopeId) (slots : Entries Value) :
    Gains xs (newScope parent slots >>= fun scope => inScope scope x) := by
  intro m
  let m₁ : Machine := { m with heap := m.heap.addScope parent slots }
  have hnew : m.Gains xs m₁ := gains_newScope parent slots m
  have hm := hx { m₁ with scope := m.heap.nextScope }
  change (inScope m.heap.nextScope x m₁).Meets _ _
  unfold inScope
  dsimp only
  cases hrun : x { m₁ with scope := m.heap.nextScope } with
  | outOfFuel => trivial
  | ok a m' =>
    rw [hrun] at hm
    have hin : Machine.Gains ys { m₁ with scope := m.heap.nextScope } m' := hm
    exact hin.inside (Nat.le_refl _) hnew
  | error e m' =>
    rw [hrun] at hm
    have hin : Machine.Gains ys { m₁ with scope := m.heap.nextScope } m' := hm
    exact hin.inside (Nat.le_refl _) hnew

/-! ## One evaluation -/

/-- The names that a task may add to the current scope. -/
def Task.exposed : Task → List Text
  | .stmt s => s.exposed
  | .stmts ss => ss.flatMap Stmt.exposed
  | .loop _ round _ _ => round.exposed
  | _ => []

section

variable {r : Runner}

theorem gains_assignStep (hr : ∀ t, Gains t.exposed (r t)) (name op : Token)
    (value : Expr (Option Link)) (link : Option Link) : Gains [] (assignStep r name op value link) := by
  unfold assignStep
  split
  · refine (hr (.expr value)).bind fun v => ?_
    exact (hr (.write name link v)).bind fun _ => gains_pure v
  · refine (hr (.read name link)).bind fun _ => ?_
    refine (hr (.expr value)).bind fun _ => ?_
    refine (gains_lift op _).bind fun v => ?_
    exact (hr (.write name link v)).bind fun _ => gains_pure v

theorem gains_unaryStep (hr : ∀ t, Gains t.exposed (r t)) (op : Token)
    (operand : Expr (Option Link)) (trailing : Bool) : Gains [] (unaryStep r op operand trailing) := by
  unfold unaryStep
  split
  · split
    · refine (hr (.read _ _)).bind fun v => ?_
      split
      · exact (hr (.write _ _ _)).bind fun _ => gains_pure _
      · exact gains_fail _ op
    · exact gains_fail _ op
  · exact (hr (.expr operand)).bind fun _ => gains_lift op _

theorem gains_callStep (hr : ∀ t, Gains t.exposed (r t)) (callee : Expr (Option Link))
    (paren : Token) (args : List (Expr (Option Link))) : Gains [] (callStep r callee paren args) := by
  refine (hr (.expr callee)).bind fun f => ?_
  refine (hr (.exprs args)).bind fun vs => ?_
  split
  · exact gains_fail _ paren
  · split
    · exact hr (.call paren f vs)
    · exact gains_fail _ paren

theorem gains_inheritedStep (hr : ∀ t, Gains t.exposed (r t)) (keyword method : Token)
    (link : Option Link) : Gains [] (inheritedStep r keyword method link) := by
  refine (hr (.inherit keyword link)).bind fun (superclass, receiver) => ?_
  dsimp only
  split
  · split
    · exact hr (.bound method _ receiver)
    · exact gains_fail _ method
  · exact gains_fail _ keyword

theorem gains_exprStep (hr : ∀ t, Gains t.exposed (r t)) (e : Expr (Option Link)) :
    Gains [] (exprStep r e) := by
  cases e with
  | literal span value => exact gains_pure _
  | group span inner => exact hr (.expr inner)
  | name span name link => exact hr (.read name link)
  | assign span name op value link => exact gains_assignStep hr name op value link
  | binary span left op right =>
    refine (hr (.expr left)).bind fun _ => (hr (.expr right)).bind fun v => ?_
    split
    · exact gains_pure v
    · exact gains_lift op _
  | logical span left op right =>
    refine (hr (.expr left)).bind fun l => ?_
    split
    · exact gains_pure l
    · exact hr (.expr right)
  | unary span op operand trailing => exact gains_unaryStep hr op operand trailing
  | ternary span condition onTrue onFalse =>
    refine (hr (.expr condition)).bind fun _ => ?_
    split
    · exact hr (.expr onTrue)
    · exact hr (.expr onFalse)
  | call span callee paren args => exact gains_callStep hr callee paren args
  | lambda function => exact (gains_closure [] function).bind fun _ => gains_pure _
  | get span object name =>
    refine (hr (.expr object)).bind fun o => (gains_property o name).bind fun p => ?_
    split
    · exact gains_pure _
    · exact hr (.bound name _ o)
  | set span object name value =>
    refine (hr (.expr object)).bind fun o => ?_
    split
    · refine (hr (.expr value)).bind fun v => ?_
      exact (gains_setField _ _ _).bind fun _ => gains_pure v
    · exact gains_fail _ name
  | receiver span keyword link => exact hr (.read keyword link)
  | inherited span keyword method link => exact gains_inheritedStep hr keyword method link

theorem gains_construct (hr : ∀ t, Gains t.exposed (r t)) (c : ClassValue) (args : List Value) :
    Gains [] (construct r c args) := by
  refine gains_newObject.bind fun fields => ?_
  split
  · exact gains_pure _
  · refine (gains_bindReceiver _ _).bind fun f => ?_
    exact (hr (.body f args)).bind fun _ => gains_pure _

theorem gains_bodyStep (hr : ∀ t, Gains t.exposed (r t)) (f : Closure) (args : List Value) :
    Gains [] (bodyStep r f args) := by
  have hrun : Gains [] (newScope f.scope (parameterSlots f.function.params args) >>=
      fun scope => inScope scope (r.stmts f.function.body)) :=
    (hr (.stmts f.function.body)).inNewScope f.scope _
  refine hrun.bind fun signal => ?_
  split
  · exact gains_receiverOf f
  · split
    · exact gains_pure _
    · exact gains_pure _

theorem gains_superclassOf (hr : ∀ t, Gains t.exposed (r t))
    (superclass : Option (Token × Option Link)) : Gains [] (superclassOf r superclass) := by
  cases superclass with
  | none => exact gains_pure none
  | some pair =>
    refine (hr (.read pair.1 pair.2)).bind fun v => ?_
    split
    · exact gains_pure _
    · exact gains_fail _ _

theorem gains_declareClass (hr : ∀ t, Gains t.exposed (r t)) (name : Token)
    (superclass : Option (Token × Option Link))
    (methods classMethods : List (Declaration (Option Link))) :
    Gains [name.lexeme] (declareClass r name superclass methods classMethods) := by
  refine (gains_superclassOf hr superclass).bind fun parent => ?_
  refine (gains_define name.lexeme .none).again fun _ => ?_
  refine (gains_makeClass name.lexeme parent methods classMethods).bind fun c => ?_
  exact (gains_define name.lexeme (.cls c)).again fun _ => gains_pure _

theorem gains_stmtStep (hr : ∀ t, Gains t.exposed (r t)) (s : Stmt (Option Link)) :
    Gains s.exposed (stmtStep r s) := by
  match s with
  | .evaluate span e => exact (hr (.expr e)).bind fun _ => gains_pure _
  | .print span keyword value =>
    exact (hr (.expr value)).bind fun _ => (gains_printLine _).bind fun _ => gains_pure _
  | .declareVar span name none =>
    exact (gains_define name.lexeme .none).append fun _ => gains_pure _
  | .declareVar span name (some init) =>
    refine (hr (.expr init)).bind fun v => ?_
    exact (gains_define name.lexeme v).append fun _ => gains_pure _
  | .block span body =>
    exact gains_currentScope.bind fun here => (hr (.stmts body)).inNewScope here []
  | .branch span condition onTrue none =>
    refine (hr (.expr condition)).bind fun _ => ?_
    split
    · exact hr (.stmt onTrue)
    · exact gains_pure _
  | .branch span condition onTrue (some onFalse) =>
    refine (hr (.expr condition)).bind fun _ => ?_
    split
    · exact (hr (.stmt onTrue)).mono (List.subset_append_left _ _)
    · exact (hr (.stmt onFalse)).mono (List.subset_append_right _ _)
  | .loop span condition body update bodyFirst => exact hr (.loop condition body update bodyFirst)
  | .leave span keyword none => exact gains_pure _
  | .leave span keyword (some value) => exact (hr (.expr value)).bind fun _ => gains_pure _
  | .breakLoop .. => exact gains_pure _
  | .continueLoop .. => exact gains_pure _
  | .declareFunction d =>
    refine (gains_closure d.name.lexeme d.function).bind fun f => ?_
    exact (gains_define d.name.lexeme (.function f)).append fun _ => gains_pure _
  | .declareClass span name superclass methods classMethods =>
    exact gains_declareClass hr name superclass methods classMethods

theorem gains_loopStep (hr : ∀ t, Gains t.exposed (r t)) (condition : Expr (Option Link))
    (body : Stmt (Option Link)) (update : Option (Expr (Option Link))) (skipTest : Bool) :
    Gains body.exposed (loopStep r condition body update skipTest) := by
  have htest : Gains [] (testStep r condition skipTest) := by
    unfold testStep
    split
    · exact gains_pure _
    · exact hr (.expr condition)
  have hupdate : Gains [] (updateStep r update) := by
    cases update with
    | none => exact gains_pure ()
    | some u => exact (hr (.expr u)).bind fun _ => gains_pure ()
  refine htest.bind fun c => ?_
  split
  · refine (hr (.stmt body)).again fun signal => ?_
    split
    · exact gains_pure _
    · exact gains_pure _
    · exact hupdate.bind fun _ => hr (.loop condition body update false)
  · exact gains_pure _

theorem gains_step (hr : ∀ t, Gains t.exposed (r t)) (t : Task) : Gains t.exposed (step r t) := by
  cases t with
  | read name link => exact gains_readLink name link
  | write name link value => exact gains_writeLink name link value
  | inherit keyword link => exact gains_inheritance keyword link
  | expr e => exact gains_exprStep hr e
  | exprs es =>
    cases es with
    | nil => exact gains_pure _
    | cons e es => exact (hr (.expr e)).bind fun _ => (hr (.exprs es)).bind fun _ => gains_pure _
  | bound token method receiver =>
    refine (gains_bindReceiver method receiver).bind fun f => ?_
    split
    · exact hr (.call token (.function f) [])
    · exact gains_pure _
  | call token callee args => exact (hr (.enter token callee args)).nested token
  | enter token callee args =>
    cases callee with
    | function f => exact hr (.body f args)
    | cls c => exact gains_construct hr c args
    | native n => exact gains_callNative token n args
    | _ => exact gains_fail _ token
  | body f args => exact gains_bodyStep hr f args
  | stmt s => exact gains_stmtStep hr s
  | stmts ss =>
    cases ss with
    | nil => exact gains_pure _
    | cons s rest =>
      refine (hr (.stmt s)).append fun signal => ?_
      cases signal with
      | next => exact hr (.stmts rest)
      | _ => exact gains_pure _
  | loop condition round update skipTest => exact gains_loopStep hr condition round update skipTest

end

/-- Evaluation with any fuel. -/
theorem gains_within (fuel : Nat) (t : Task) : Gains t.exposed (within fuel t) := by
  induction fuel generalizing t with
  | zero => exact fun _ => trivial
  | succ fuel ih => exact gains_step ih t

/-! ## Declarations -/

/-- Whatever was done before, a name that is bound last is bound. -/
theorem has_define {ys : List Text} {m m₁ m' : Machine} {name : Text} {value : Value}
    {signal : Signal} (hgains : m.Gains ys m₁) (hsize : m.scope < m.heap.nextScope)
    (h : (do define name value; return Signal.next) m₁ = .ok signal m') :
    (m'.heap.slots m.scope).has name := by
  have hlast : m₁.scope < m₁.heap.nextScope := by
    rw [hgains.scope]
    exact Nat.lt_of_lt_of_le hsize hgains.size
  cases h
  rw [← hgains.scope, Heap.slots_define, if_pos ⟨rfl, hlast⟩]
  exact (Entries.has_put ..).mpr (.inl rfl)

/-- A declaration binds its name. -/
theorem has_declared {fuel : Nat} {s : Stmt (Option Link)} {m m' : Machine} {signal : Signal}
    (h : within fuel (.stmt s) m = .ok signal m') (hsize : m.scope < m.heap.nextScope) :
    ∀ y ∈ s.declared, (m'.heap.slots m.scope).has y := by
  intro y hy
  cases fuel with
  | zero => cases h
  | succ fuel =>
    match s with
    | .declareVar span name none =>
      rw [List.mem_singleton.mp hy]
      exact has_define (.refl [] m) hsize h
    | .declareVar span name (some init) =>
      rw [List.mem_singleton.mp hy]
      obtain ⟨v, m₁, h₁, h⟩ := bind_ok h
      exact has_define ((gains_within fuel (.expr init)).of_ok h₁) hsize h
    | .declareFunction d =>
      rw [List.mem_singleton.mp hy]
      obtain ⟨f, m₁, h₁, h⟩ := bind_ok h
      have hgains : m.Gains [] m₁ := (gains_closure d.name.lexeme d.function).of_ok h₁
      exact has_define hgains hsize h
    | .declareClass span name superclass methods classMethods =>
      rw [List.mem_singleton.mp hy]
      obtain ⟨parent, m₁, h₁, h⟩ := bind_ok h
      obtain ⟨_, m₂, h₂, h⟩ := bind_ok h
      obtain ⟨c, m₃, h₃, h⟩ := bind_ok h
      have hgains := (gains_superclassOf (gains_within fuel) superclass).of_ok h₁
      have hgains' := hgains.trans ((gains_define name.lexeme .none).of_ok h₂)
      have hmake : m₂.Gains [] m₃ :=
        (gains_makeClass name.lexeme parent methods classMethods).of_ok h₃
      exact has_define (hgains'.trans hmake) hsize h
    | .evaluate .. | .print .. | .block .. | .branch .. | .loop .. | .leave .. | .breakLoop ..
    | .continueLoop .. => cases hy

/-! ## Declarations that fail -/

/-- A computation that always ends well. -/
def Succeeds (x : Eval α) : Prop := ∀ m, ∃ a m', x m = .ok a m'

theorem Succeeds.bind {x : Eval α} {f : α → Eval β} (hx : Succeeds x) (hf : ∀ a, Succeeds (f a)) :
    Succeeds (x >>= f) := by
  intro m
  obtain ⟨a, m₁, hrun⟩ := hx m
  rw [bind_apply, hrun]
  exact hf a m₁

theorem Succeeds.ne_error {x : Eval α} (hx : Succeeds x) {m m' : Machine} {e : RuntimeError} :
    x m ≠ .error e m' := by
  obtain ⟨a, m₁, hrun⟩ := hx m
  rw [hrun]
  nofun

theorem succeeds_closure (name : Text) (function : LinkedFunction) :
    Succeeds (closure name function) :=
  fun _ => ⟨_, _, rfl⟩

theorem succeeds_methodClosures (scope : ScopeId) (initializers : Bool) (done : Entries Closure)
    (ds : List (Declaration (Option Link))) :
    Succeeds (methodClosures scope initializers done ds) := by
  induction ds generalizing done with
  | nil => exact fun m => ⟨done, m, rfl⟩
  | cons d ds ih => exact Succeeds.bind (fun _ => ⟨_, _, rfl⟩) fun _ => ih _

theorem succeeds_makeClass (name : Text) (superclass : Option ClassValue)
    (methods classMethods : List (Declaration (Option Link))) :
    Succeeds (makeClass name superclass methods classMethods) := by
  have hscope : Succeeds (methodScope superclass) := by
    cases superclass with
    | none => exact fun _ => ⟨_, _, rfl⟩
    | some c => exact fun _ => ⟨_, _, rfl⟩
  refine hscope.bind fun scope => ?_
  refine (succeeds_methodClosures scope true [] methods).bind fun _ => ?_
  exact (succeeds_methodClosures scope false [] classMethods).bind fun _ _ => ⟨_, _, rfl⟩

end Eval

/-- The machine at the end of a run. -/
def Outcome.machine? {α : Type} : Outcome α → Option Machine
  | .ok _ m | .error _ m => some m
  | .outOfFuel => none

/-- What a declaration has to evaluate before it binds its name: the initializer of a variable, or the
superclass of a class. -/
def Stmt.initial? : Stmt (Option Link) → Option Eval.Task
  | .declareVar _ _ (some init) => some (.expr init)
  | .declareClass _ _ (some (parent, link)) _ _ => some (.read parent link)
  | _ => none

namespace Eval

variable {fuel : Nat} {s : Stmt (Option Link)} {ss : List (Stmt (Option Link))} {m m' : Machine}
  {e : RuntimeError}

theorem define_ne_error {name : Text} {value : Value} :
    (do define name value; return Signal.next) m ≠ .error e m' :=
  nofun

/-- A declaration that fails leaves the machine as what it evaluates first leaves it, so it has not
bound its name. -/
theorem initial_of_error (h : within (fuel + 1) (.stmt s) m = .error e m') (hs : s.declared ≠ []) :
    ∃ t ∈ s.initial?, (within fuel t m).machine? = some m' := by
  match s with
  | .declareVar span name none => exact absurd h define_ne_error
  | .declareVar span name (some init) =>
    refine ⟨_, rfl, ?_⟩
    rcases bind_error h with h | ⟨v, m₁, -, h⟩
    · rw [show within fuel (.expr init) m = .error e m' from h]
      rfl
    · exact absurd h define_ne_error
  | .declareFunction d =>
    rcases bind_error h with h | ⟨f, m₁, -, h⟩
    · exact absurd h (succeeds_closure _ _).ne_error
    · exact absurd h define_ne_error
  | .declareClass span name superclass methods classMethods =>
    rcases bind_error h with h | ⟨parent, m₁, -, h⟩
    · cases superclass with
      | none => cases h
      | some pair =>
        refine ⟨_, rfl, ?_⟩
        rcases bind_error h with h | ⟨v, m₁, hread, h⟩
        · rw [show within fuel (.read pair.1 pair.2) m = .error e m' from h]
          rfl
        · rw [show within fuel (.read pair.1 pair.2) m = .ok v m₁ from hread]
          cases v with
          | cls c => cases h
          | _ => cases h; rfl
    · rcases bind_error h with h | ⟨_, m₂, -, h⟩
      · cases h
      · rcases bind_error h with h | ⟨c, m₃, -, h⟩
        · exact absurd h (succeeds_makeClass _ _ _ _).ne_error
        · exact absurd h define_ne_error
  | .evaluate .. | .print .. | .block .. | .branch .. | .loop .. | .leave .. | .breakLoop ..
  | .continueLoop .. => exact absurd rfl hs

/-- A statement that fails has not bound anything. -/
theorem gains_of_error (hw : s.WellFormed) (h : within fuel (.stmt s) m = .error e m') :
    m.Gains [] m' := by
  have hgains := (gains_within fuel (.stmt s)).of_error h
  by_cases hs : s.declared = []
  · rwa [Task.exposed, hw.exposed, hs] at hgains
  · cases fuel with
    | zero => cases h
    | succ fuel =>
      obtain ⟨t, ht, hend⟩ := initial_of_error h hs
      have hexposed : t.exposed = [] := by
        match s with
        | .declareVar _ _ (some init) => cases ht; rfl
        | .declareClass _ _ (some pair) _ _ => cases ht; rfl
        | .declareVar _ _ none | .declareFunction _ | .declareClass _ _ none _ _ | .evaluate ..
        | .print .. | .block .. | .branch .. | .loop .. | .leave .. | .breakLoop ..
        | .continueLoop .. => cases ht
      have htask := gains_within fuel t m
      rw [hexposed] at htask
      cases hrun : within fuel t m with
      | outOfFuel => rw [hrun] at hend; cases hend
      | ok | error => rw [hrun] at hend htask; cases hend; exact htask

/-! ## Programs -/

/-- The globals after a program that ran to its end. -/
theorem mem_names_run {a : Unit} (hw : Stmt.WellFormedList ss) (hscope : m.scope = Heap.globals)
    (hsize : Heap.globals < m.heap.nextScope) (h : Machine.run fuel ss m = .ok a m') (y : Text) :
    y ∈ m'.heap.names Heap.globals ↔
      y ∈ m.heap.names Heap.globals ∨ y ∈ Stmt.declaredList ss := by
  simp only [Heap.names, Entries.mem_names]
  unfold Machine.run at h
  induction ss generalizing m with
  | nil =>
    cases h
    simp [Stmt.declaredList]
  | cons s rest ih =>
    obtain ⟨signal, m₁, h₁, h₂⟩ := bind_ok h
    have hgains := (gains_within fuel (.stmt s)).of_ok h₁
    have hrest := ih hw.2 (hgains.scope.trans hscope) (Nat.lt_of_lt_of_le hsize hgains.size) h₂
    have hdeclared := has_declared h₁ (hscope ▸ hsize)
    rw [hscope] at hdeclared
    have hcons : Stmt.declaredList (s :: rest) = s.declared ++ Stmt.declaredList rest :=
      List.flatMap_cons
    rw [hrest, hcons, List.mem_append, ← or_assoc]
    refine or_congr_left ⟨fun hy => ?_, fun hy => ?_⟩
    · refine (hgains.gained _ y hsize hy).imp_right fun hnew => ?_
      rw [← hw.1.exposed]
      exact hnew.2
    · exact hy.elim (hgains.kept _ y) (hdeclared y)

/-- A program that stops at an error has run its statements up to the one that fails. -/
theorem run_error_cases (h : Machine.run fuel ss m = .error e m') :
    ∃ before s after m₁, ss = before ++ s :: after ∧ Machine.run fuel before m = .ok () m₁ ∧
      within fuel (.stmt s) m₁ = .error e m' := by
  unfold Machine.run at h
  induction ss generalizing m with
  | nil => cases h
  | cons s rest ih =>
    rcases bind_error h with h | ⟨signal, m₁, h₁, h⟩
    · exact ⟨[], s, rest, m, rfl, rfl, h⟩
    · obtain ⟨before, s', after, m₂, rfl, hrun, hfail⟩ := ih h
      refine ⟨s :: before, s', after, m₂, rfl, ?_, hfail⟩
      exact (bind_apply ..).trans (by rw [h₁]; exact hrun)

end Eval

end Scriptlet

import Scriptlet.Proofs.Evaluator.Names
import Scriptlet.Proofs.Evaluator.Scoping
import Scriptlet.Proofs.Tree.Jumps

/-!
# The functions that a run comes across

Functions are values: they are kept in variables, fields and classes and may be called wherever
their value gets to. Still, a run only calls functions that were on the heap before it and those
that its own code makes. So what holds of all of these holds of every function that it comes across
(`Value.Holds`, `Heap.Holds`).

`Task.Begins` lists the tasks that one evaluation may begin, and the depths of calls at which it
does so, and what it has found out before. `Keeps` compares two computations at some depth: they do
the same there, and leave nothing but such functions behind; and, if so asked, they come to an end.
What an evaluation keeps follows from what the tasks keep that it begins (`Carried.step`). So what
tasks pass on to those that they begin holds of every task of a run (`Eval.Invariant`).
-/

namespace Scriptlet

/-! ## Values, classes and heaps -/

/-- Entries whose values all have a property. -/
def Entries.All {α : Type} (P : α → Prop) (es : Entries α) : Prop := ∀ x a, es.get? x = some a → P a

namespace Entries.All

variable {α : Type} {P : α → Prop} {es : Entries α}

theorem nil : All P ([] : Entries α) := nofun

theorem put (h : All P es) (name : Text) {value : α} (hv : P value) : All P (es.put name value) := by
  intro x a hx
  rw [Entries.get?_put] at hx
  split at hx
  · cases hx; exact hv
  · exact h x a hx

theorem single (name : Text) {value : α} (hv : P value) : All P [(name, value)] := nil.put name hv

end Entries.All

section

variable (p : LinkedFunction → Prop)

/-- Functions by name that all have a property. -/
abbrev Closures (es : Entries Closure) : Prop := es.All fun f => p f.function

/-- A class whose methods all have a property, and those of its superclasses. -/
def ClassValue.Holds : ClassValue → Prop
  | .base body => Closures p body.methods ∧ Closures p body.classMethods
  | .derived body superclass =>
    (Closures p body.methods ∧ Closures p body.classMethods) ∧ superclass.Holds

/-- A value all of whose functions have a property. -/
def Value.Holds : Value → Prop
  | .function f => p f.function
  | .cls c | .object _ c => c.Holds p
  | _ => True

/-- A heap all of whose functions have a property. -/
structure Heap.Holds (h : Heap) : Prop where
  slots : ∀ id, (h.slots id).All (Value.Holds p)
  fields : ∀ id x v, h.field? id x = some v → v.Holds p

/-- A signal all of whose functions have a property. -/
def Signal.Holds : Signal → Prop
  | .leave v => v.Holds p
  | _ => True

end

variable {p : LinkedFunction → Prop}

theorem Value.IsPlain.holds {v : Value} (h : v.IsPlain) : v.Holds p := by
  cases v with
  | function | cls | object => cases h
  | _ => trivial

namespace ClassValue.Holds

variable {c : ClassValue} {name : Text} {f : Closure}

theorem method? (h : c.Holds p) (hf : c.method? name = some f) : p f.function := by
  induction c with
  | base body => exact h.1 name f hf
  | derived body superclass ih =>
    rw [ClassValue.method?] at hf
    split at hf
    · next hown => cases hf; exact h.1.1 name f hown
    · exact ih h.2 hf

theorem classMethod? (h : c.Holds p) (hf : c.classMethod? name = some f) : p f.function := by
  induction c with
  | base body => exact h.2 name f hf
  | derived body superclass ih =>
    rw [ClassValue.classMethod?] at hf
    split at hf
    · next hown => cases hf; exact h.1.2 name f hown
    · exact ih h.2 hf

theorem make {body : ClassBody} {superclass : Option ClassValue}
    (hbody : Closures p body.methods ∧ Closures p body.classMethods)
    (hsuper : ∀ c ∈ superclass, c.Holds p) : (ClassValue.make body superclass).Holds p := by
  cases superclass with
  | none => exact hbody
  | some c => exact ⟨hbody, hsuper c rfl⟩

end ClassValue.Holds

namespace Heap.Holds

variable {h : Heap}

theorem getAt (hh : h.Holds p) {id : ScopeId} {distance : Int} {name : Text} {v : Value}
    (hv : h.getAt id distance name = .ok v) : v.Holds p := by
  cases ha : h.ancestor id distance with
  | error fault =>
    simp only [Heap.getAt, ha] at hv
    cases hv
  | ok home =>
    rw [Heap.getAt_of_ancestor name ha] at hv
    split at hv
    · next hget => cases hv; exact hh.slots home name _ hget
    · cases hv

theorem define (hh : h.Holds p) (id : ScopeId) (name : Text) {value : Value}
    (hv : value.Holds p) : (h.define id name value).Holds p := by
  refine ⟨fun j => ?_, hh.fields⟩
  rw [Heap.slots_define]
  split
  · exact (hh.slots j).put name hv
  · exact hh.slots j

theorem addScope (hh : h.Holds p) (parent : ScopeId) {slots : Entries Value}
    (hs : slots.All (Value.Holds p)) : (h.addScope parent slots).Holds p := by
  refine ⟨fun j => ?_, hh.fields⟩
  rw [Heap.slots_addScope]
  split
  · exact hs
  · exact hh.slots j

theorem addObject (hh : h.Holds p) : h.addObject.Holds p := by
  refine ⟨hh.slots, fun id x v hv => ?_⟩
  rw [Heap.field?_addObject] at hv
  exact hh.fields id x v hv

theorem setField (hh : h.Holds p) (id : ObjectId) (name : Text) {value : Value}
    (hv : value.Holds p) : (h.setField id name value).Holds p := by
  refine ⟨hh.slots, fun j x v hx => ?_⟩
  rcases h.field?_setField id name value j x hx with rfl | hx
  · exact hv
  · exact hh.fields j x v hx

end Heap.Holds

/-- A machine at its start has no functions but native ones. -/
theorem holds_start (p : LinkedFunction → Prop) (natives : List Native) (clock : Float)
    (broken : Bool) : (Machine.start natives clock broken).heap.Holds p := by
  have hnatives : ∀ h : Heap, h.Holds p →
      (natives.foldl (fun h n => h.define Heap.globals n.name (.native n)) h).Holds p := by
    induction natives with
    | nil => exact fun h hh => hh
    | cons n natives ih => exact fun h hh => ih _ (hh.define Heap.globals n.name trivial)
  refine hnatives {} ⟨fun id x v hv => ?_, fun id x v hv => ?_⟩
  · cases id with
    | zero | succ => simp [Heap.slots, Entries.get?] at hv
  · simp [Heap.field?] at hv

/-- How a run comes to its end. One that lacks fuel has none, where one is asked for. -/
def Outcome.Comes {α : Type} (ends : Prop) (ok : α → Machine → Prop)
    (error : RuntimeError → Machine → Prop) : Outcome α → Prop
  | .ok a m => ok a m
  | .error e m => error e m
  | .outOfFuel => ¬ ends

namespace Eval

variable {α β : Type} {ends : Prop} {d : Nat} {P : α → Prop} {Q : β → Prop}

/-! ## Computations -/

/-- Two computations that do the same at some depth of calls, on machines whose functions have a
property, and leave only such functions and such results. If `ends`, they come to an end. -/
def Keeps (p : LinkedFunction → Prop) (ends : Prop) (d : Nat) (x y : Eval α) (P : α → Prop) :
    Prop :=
  ∀ m : Machine, m.heap.Holds p → m.depth = d → x m = y m ∧
    (y m).Comes ends (fun a m' => m'.heap.Holds p ∧ m'.depth = d ∧ P a) fun _ m' => m'.heap.Holds p

theorem Keeps.of_ok {x : Eval α} (h : ∀ m : Machine, m.heap.Holds p →
      ∃ a m', x m = .ok a m' ∧ m'.heap.Holds p ∧ m'.depth = m.depth ∧ P a) :
    Keeps p ends d x x P := by
  rintro m hm rfl
  obtain ⟨a, m', hx, hheap, hdepth, ha⟩ := h m hm
  refine ⟨rfl, ?_⟩
  rw [hx]
  exact ⟨hheap, hdepth, ha⟩

/-- A computation that only looks at the machine. -/
theorem Keeps.of_eq {x : Eval α} (h : ∀ m : Machine, m.heap.Holds p →
      (∃ a, x m = .ok a m ∧ P a) ∨ ∃ e, x m = .error e m) : Keeps p ends d x x P := by
  rintro m hm rfl
  refine ⟨rfl, ?_⟩
  obtain ⟨a, hx, ha⟩ | ⟨e, hx⟩ := h m hm
  · rw [hx]
    exact ⟨hm, rfl, ha⟩
  · rw [hx]
    exact hm

theorem Keeps.bind {x y : Eval α} {f g : α → Eval β} (hx : Keeps p ends d x y P)
    (hf : ∀ a, P a → Keeps p ends d (f a) (g a) Q) : Keeps p ends d (x >>= f) (y >>= g) Q := by
  intro m hm hd
  obtain ⟨heq, hcomes⟩ := hx m hm hd
  rw [bind_apply, bind_apply, heq]
  cases hy : y m with
  | ok a m₁ =>
    rw [hy] at hcomes
    exact hf a hcomes.2.2 m₁ hcomes.1 hcomes.2.1
  | error e m₁ =>
    rw [hy] at hcomes
    exact ⟨rfl, hcomes⟩
  | outOfFuel =>
    rw [hy] at hcomes
    exact ⟨rfl, hcomes⟩

theorem Keeps.inScope {x y : Eval α} (hx : Keeps p ends d x y P) (scope : ScopeId) :
    Keeps p ends d (inScope scope x) (inScope scope y) P := by
  intro m hm hd
  obtain ⟨heq, hcomes⟩ := hx { m with scope := scope } hm hd
  unfold Eval.inScope
  dsimp only
  rw [heq]
  refine ⟨rfl, ?_⟩
  cases hy : y { m with scope := scope } with
  | ok | error | outOfFuel =>
    rw [hy] at hcomes
    exact hcomes

/-- A call goes one level deeper, if it can. -/
theorem Keeps.nested {x y : Eval α} (hx : d < maxDepth → Keeps p ends (d + 1) x y P)
    (token : Token) : Keeps p ends d (nested token x) (nested token y) P := by
  rintro m hm rfl
  unfold Eval.nested
  split
  · exact ⟨rfl, hm⟩
  · next hdepth =>
    obtain ⟨heq, hcomes⟩ := hx (Nat.lt_of_not_le hdepth) { m with depth := m.depth + 1 } hm rfl
    rw [heq]
    refine ⟨rfl, ?_⟩
    cases hy : y { m with depth := m.depth + 1 } with
    | ok a m₁ =>
      rw [hy] at hcomes
      exact ⟨hcomes.1, congrArg (· - 1) hcomes.2.1, hcomes.2.2⟩
    | error e m₁ =>
      rw [hy] at hcomes
      exact hcomes
    | outOfFuel =>
      rw [hy] at hcomes
      exact hcomes

/-! ## Computations without inner tasks -/

theorem keeps_pure {a : α} (ha : P a) : Keeps p ends d (pure a : Eval α) (pure a) P :=
  .of_eq fun _ _ => .inl ⟨a, rfl, ha⟩

theorem keeps_fail (fault : RuntimeFault) (token : Token) :
    Keeps p ends d (fail fault token) (fail fault token) P :=
  .of_eq fun _ _ => .inr ⟨_, rfl⟩

theorem keeps_lift (token : Token) {result : Except RuntimeFault α}
    (h : ∀ a, result = .ok a → P a) : Keeps p ends d (lift token result) (lift token result) P := by
  cases result with
  | ok a => exact .of_eq fun _ _ => .inl ⟨a, rfl, h a rfl⟩
  | error fault => exact .of_eq fun _ _ => .inr ⟨_, rfl⟩

theorem keeps_printLine (t : Text) :
    Keeps p ends d (printLine t) (printLine t) fun _ => True :=
  .of_ok fun _ hm => ⟨_, _, rfl, hm, rfl, trivial⟩

theorem keeps_define (name : Text) (value : Value) (hv : value.Holds p) :
    Keeps p ends d (define name value) (define name value) fun _ => True :=
  .of_ok fun m hm => ⟨_, _, rfl, hm.define m.scope name hv, rfl, trivial⟩

theorem keeps_currentScope : Keeps p ends d currentScope currentScope fun _ => True :=
  .of_eq fun _ _ => .inl ⟨_, rfl, trivial⟩

theorem keeps_newScope (parent : ScopeId) {slots : Entries Value}
    (hs : slots.All (Value.Holds p)) :
    Keeps p ends d (newScope parent slots) (newScope parent slots) fun _ => True :=
  .of_ok fun _ hm => ⟨_, _, rfl, hm.addScope parent hs, rfl, trivial⟩

theorem keeps_newObject : Keeps p ends d newObject newObject fun _ => True :=
  .of_ok fun _ hm => ⟨_, _, rfl, hm.addObject, rfl, trivial⟩

theorem keeps_newIdentity : Keeps p ends d newIdentity newIdentity fun _ => True :=
  .of_ok fun _ hm => ⟨_, _, rfl, ⟨hm.slots, hm.fields⟩, rfl, trivial⟩

theorem keeps_setField (id : ObjectId) (name : Text) {value : Value} (hv : value.Holds p) :
    Keeps p ends d (setField id name value) (setField id name value) fun _ => True :=
  .of_ok fun _ hm => ⟨_, _, rfl, hm.setField id name hv, rfl, trivial⟩

theorem keeps_readLink (name : Token) (link : Option Link) :
    Keeps p ends d (readLink name link) (readLink name link) (Value.Holds p) := by
  refine .of_eq fun m hm => ?_
  cases link with
  | none => exact .inr ⟨_, rfl⟩
  | some l =>
    unfold readLink
    dsimp only
    split
    · next hv => exact .inl ⟨_, rfl, hm.getAt hv⟩
    · exact .inr ⟨_, rfl⟩

theorem keeps_writeLink (name : Token) (link : Option Link) {value : Value} (hv : value.Holds p) :
    Keeps p ends d (writeLink name link value) (writeLink name link value) fun _ => True := by
  rintro m hm rfl
  refine ⟨rfl, ?_⟩
  cases link with
  | none => exact hm
  | some l =>
    unfold writeLink
    dsimp only
    split
    · exact ⟨hm.define _ name.lexeme hv, rfl, trivial⟩
    · exact hm

theorem keeps_inheritance (keyword : Token) (link : Option Link) :
    Keeps p ends d (inheritance keyword link) (inheritance keyword link)
      fun pair => pair.1.Holds p ∧ pair.2.Holds p := by
  refine .of_eq fun m hm => ?_
  cases link with
  | none => exact .inr ⟨_, rfl⟩
  | some l =>
    unfold inheritance
    dsimp only
    split
    · exact .inr ⟨_, rfl⟩
    · next hsuper =>
      split
      · next hreceiver => exact .inl ⟨_, rfl, hm.getAt hsuper, hm.getAt hreceiver⟩
      · exact .inr ⟨_, rfl⟩

theorem keeps_receiverOf (method : Closure) :
    Keeps p ends d (receiverOf method) (receiverOf method) (Value.Holds p) := by
  refine .of_eq fun m hm => .inl ⟨_, rfl, ?_⟩
  cases hget : (m.heap.slots method.scope).get? "this" with
  | none => trivial
  | some v => exact hm.slots _ _ _ hget

/-- A property of a value all of whose functions have a property. -/
def Property.Holds (p : LinkedFunction → Prop) : Property → Prop
  | .field v => v.Holds p
  | .method f => p f.function

theorem keeps_property {object : Value} (ho : object.Holds p) (name : Token) :
    Keeps p ends d (property object name) (property object name) (Property.Holds p) := by
  refine .of_eq fun m hm => ?_
  unfold property
  split
  · split
    · next hfield => exact .inl ⟨_, rfl, hm.fields _ _ _ hfield⟩
    · split
      · next hmethod => exact .inl ⟨_, rfl, ClassValue.Holds.method? ho hmethod⟩
      · exact .inr ⟨_, rfl⟩
  · split
    · next hmethod => exact .inl ⟨_, rfl, ClassValue.Holds.classMethod? ho hmethod⟩
    · exact .inr ⟨_, rfl⟩
  · exact .inr ⟨_, rfl⟩

theorem keeps_callNative (token : Token) (native : Native) (args : List Value) :
    Keeps p ends d (callNative token native args) (callNative token native args)
      (Value.Holds p) := by
  refine .of_eq fun m _ => ?_
  unfold callNative
  split
  · next hcall => exact .inl ⟨_, rfl, (Native.call_isPlain hcall).holds⟩
  · exact .inr ⟨_, rfl⟩

theorem keeps_closure (name : Text) {function : LinkedFunction} (hf : p function) :
    Keeps p ends d (closure name function) (closure name function) fun f => p f.function :=
  keeps_newIdentity.bind fun _ _ => keeps_currentScope.bind fun _ _ => keeps_pure hf

theorem keeps_bindReceiver (method : Closure) {receiver : Value} (hr : receiver.Holds p) :
    Keeps p ends d (bindReceiver method receiver) (bindReceiver method receiver)
      fun f => f.function = method.function :=
  (keeps_newScope _ (.single _ hr)).bind fun _ _ => keeps_newIdentity.bind fun _ _ => keeps_pure rfl

theorem keeps_methodClosures (scope : ScopeId) (initializers : Bool) {done : Entries Closure}
    (hdone : Closures p done) {ds : List (Declaration (Option Link))}
    (hds : ∀ d ∈ ds, p d.function) :
    Keeps p ends d (methodClosures scope initializers done ds)
      (methodClosures scope initializers done ds) (Closures p) := by
  induction ds generalizing done with
  | nil => exact keeps_pure hdone
  | cons d ds ih =>
    rw [List.forall_mem_cons] at hds
    exact keeps_newIdentity.bind fun _ _ => ih (hdone.put _ hds.1) hds.2

theorem keeps_makeClass (name : Text) {superclass : Option ClassValue}
    (hsuper : ∀ c ∈ superclass, c.Holds p)
    {methods classMethods : List (Declaration (Option Link))}
    (hmethods : ∀ d ∈ methods, p d.function) (hclass : ∀ d ∈ classMethods, p d.function) :
    Keeps p ends d (makeClass name superclass methods classMethods)
      (makeClass name superclass methods classMethods) (ClassValue.Holds p) := by
  have hscope : Keeps p ends d (methodScope superclass) (methodScope superclass) fun _ => True := by
    cases superclass with
    | none => exact keeps_currentScope
    | some c =>
      have hslots : Entries.All (Value.Holds p) [("super", .cls c)] := .single _ (hsuper c rfl)
      exact keeps_currentScope.bind fun here _ => keeps_newScope here hslots
  refine hscope.bind fun scope _ => ?_
  refine (keeps_methodClosures scope true .nil hmethods).bind fun ms hms => ?_
  refine (keeps_methodClosures scope false .nil hclass).bind fun cs hcs => ?_
  exact keeps_newIdentity.bind fun _ _ => keeps_pure (.make ⟨hms, hcs⟩ hsuper)

/-! ## The tasks that a task begins -/

/-- The tasks inside an expression. -/
@[simp]
def exprParts : Expr (Option Link) → List Task
  | .literal .. | .name .. | .lambda _ | .receiver .. | .inherited .. => []
  | .assign _ _ _ value _ => [.expr value]
  | .binary _ left _ right | .logical _ left _ right => [.expr left, .expr right]
  | .unary _ _ operand _ => [.expr operand]
  | .ternary _ condition onTrue onFalse => [.expr condition, .expr onTrue, .expr onFalse]
  | .group _ inner => [.expr inner]
  | .call _ callee _ args => [.expr callee, .exprs args]
  | .get _ object _ => [.expr object]
  | .set _ object _ value => [.expr object, .expr value]

/-- The tasks inside a statement. -/
@[simp]
def stmtParts : Stmt (Option Link) → List Task
  | .evaluate _ e | .print _ _ e | .declareVar _ _ (some e) | .leave _ _ (some e) => [.expr e]
  | .block _ body => [.stmts body]
  | .branch _ condition onTrue none => [.expr condition, .stmt onTrue]
  | .branch _ condition onTrue (some onFalse) => [.expr condition, .stmt onTrue, .stmt onFalse]
  | .loop _ condition body update bodyFirst => [.loop condition body update bodyFirst]
  | _ => []

namespace Task

/-- The tasks inside a task. The rounds of a loop contain those that follow. -/
@[simp]
def parts : Task → List Task
  | .expr e => exprParts e
  | .exprs (e :: es) => [.expr e, .exprs es]
  | .stmt s => stmtParts s
  | .stmts (s :: rest) => [.stmt s, .stmts rest]
  | .loop condition round update _ =>
    .expr condition :: .stmt round :: .loop condition round update false :: update.toList.map .expr
  | _ => []

/-- The functions that a task makes, those inside of its parts left out. -/
@[simp]
def functions : Task → List LinkedFunction
  | .expr (.lambda function) => [function]
  | .stmt (.declareFunction d) => [d.function]
  | .stmt (.declareClass _ _ _ methods classMethods) =>
    (methods ++ classMethods).map Declaration.function
  | _ => []

/-- Whether a call of a value runs the body of a function: its own, or that of the initializer that a
class has or inherits. -/
def Runs (callee : Value) (function : LinkedFunction) : Prop :=
  match callee with
  | .function f => function = f.function
  | .cls c => ∃ init, c.method? ClassValue.initName = some init ∧ function = init.function
  | _ => False

/-- One evaluation may begin another one at a depth of calls. Where arguments are handed over, it has
counted them. -/
inductive Begins : Task → Nat → Task → Nat → Prop where
  | part {t t' : Task} {d : Nat} : t' ∈ t.parts → Begins t d t' d
  | read {e : Expr (Option Link)} {d : Nat} (name : Token) (link : Option Link) :
    Begins (.expr e) d (.read name link) d
  | write {e : Expr (Option Link)} {d : Nat} (name : Token) (link : Option Link) (value : Value) :
    Begins (.expr e) d (.write name link value) d
  | inherit {e : Expr (Option Link)} {d : Nat} (keyword : Token) (link : Option Link) :
    Begins (.expr e) d (.inherit keyword link) d
  | superclass {s : Stmt (Option Link)} {d : Nat} (name : Token) (link : Option Link) :
    Begins (.stmt s) d (.read name link) d
  | bound {e : Expr (Option Link)} {d : Nat} (token : Token) (f : Closure) (receiver : Value) :
    Begins (.expr e) d (.bound token f receiver) d
  | call {e : Expr (Option Link)} {d : Nat} (token : Token) (callee : Value) (args : List Value) :
    arity? callee = some args.length → Begins (.expr e) d (.call token callee args) d
  | getter {token : Token} {f : Closure} {receiver : Value} {d : Nat} (g : Closure) :
    g.function = f.function → g.getter →
    Begins (.bound token f receiver) d (.call token (.function g) []) d
  | enter {token : Token} {callee : Value} {args : List Value} {d : Nat} : d < maxDepth →
    Begins (.call token callee args) d (.enter token callee args) (d + 1)
  | body {token : Token} {callee : Value} {args : List Value} {d : Nat} (f : Closure) :
    Runs callee f.function → Begins (.enter token callee args) d (.body f args) d
  | stmts {f : Closure} {args : List Value} {d : Nat} :
    Begins (.body f args) d (.stmts f.function.body) d

/-- A task whose values hold only functions with a property. -/
def Carries (p : LinkedFunction → Prop) : Task → Prop
  | .write _ _ value => value.Holds p
  | .bound _ method receiver => p method.function ∧ receiver.Holds p
  | .call _ callee args | .enter _ callee args => callee.Holds p ∧ ∀ v ∈ args, v.Holds p
  | .body f args => p f.function ∧ ∀ v ∈ args, v.Holds p
  | _ => True

/-- A result that holds only functions with a property. -/
def Returns (p : LinkedFunction → Prop) : (t : Task) → t.Result → Prop
  | .write .., _ => True
  | .inherit .., pair => pair.1.Holds p ∧ pair.2.Holds p
  | .exprs _, vs => ∀ v ∈ vs, v.Holds p
  | .stmt _, signal | .stmts _, signal | .loop .., signal => signal.Holds p
  | .read .., v | .expr _, v | .bound .., v | .call .., v | .enter .., v | .body .., v =>
    Value.Holds p v

end Task

/-! ## One evaluation -/

/-- Two ways to evaluate tasks that keep what is asked for, wherever a task begins another one. -/
def Carried (p : LinkedFunction → Prop) (ends : Prop) (r' r : Runner) (t : Task) (d : Nat) : Prop :=
  ∀ t' d', t.Begins d t' d' → t'.Carries p → Keeps p ends d' (r' t') (r t') (t'.Returns p)

namespace Carried

variable {r' r : Runner} {t : Task}

theorem expr (h : Carried p ends r' r t d) {e : Expr (Option Link)} (he : .expr e ∈ t.parts) :
    Keeps p ends d (r'.expr e) (r.expr e) (Value.Holds p) :=
  h (.expr e) d (.part he) trivial

theorem stmt (h : Carried p ends r' r t d) {s : Stmt (Option Link)} (hs : .stmt s ∈ t.parts) :
    Keeps p ends d (r'.stmt s) (r.stmt s) (Signal.Holds p) :=
  h (.stmt s) d (.part hs) trivial

theorem stmts (h : Carried p ends r' r t d) {ss : List (Stmt (Option Link))}
    (hs : .stmts ss ∈ t.parts) : Keeps p ends d (r'.stmts ss) (r.stmts ss) (Signal.Holds p) :=
  h (.stmts ss) d (.part hs) trivial

section

variable {e : Expr (Option Link)}

theorem read (h : Carried p ends r' r (.expr e) d) (name : Token) (link : Option Link) :
    Keeps p ends d (r'.read name link) (r.read name link) (Value.Holds p) :=
  h (.read name link) d (.read name link) trivial

theorem write (h : Carried p ends r' r (.expr e) d) (name : Token) (link : Option Link)
    {value : Value} (hv : value.Holds p) :
    Keeps p ends d (r'.write name link value) (r.write name link value) fun _ => True :=
  h (.write name link value) d (.write name link value) hv

theorem bound (h : Carried p ends r' r (.expr e) d) (token : Token) {f : Closure}
    (hf : p f.function) {receiver : Value} (hr : receiver.Holds p) :
    Keeps p ends d (r'.bound token f receiver) (r.bound token f receiver) (Value.Holds p) :=
  h (.bound token f receiver) d (.bound token f receiver) ⟨hf, hr⟩

theorem assignStep (h : Carried p ends r' r (.expr e) d) (name op : Token)
    {value : Expr (Option Link)} (hvalue : .expr value ∈ Task.parts (.expr e))
    (link : Option Link) :
    Keeps p ends d (assignStep r' name op value link) (assignStep r name op value link)
      (Value.Holds p) := by
  unfold Eval.assignStep
  split
  · refine (h.expr hvalue).bind fun v hv => ?_
    exact (h.write name link hv).bind fun _ _ => keeps_pure hv
  · refine (h.read name link).bind fun current _ => (h.expr hvalue).bind fun v _ => ?_
    refine Keeps.bind (P := Value.Holds p) ?_ fun v hv => ?_
    · exact keeps_lift op fun v hv => (Value.combine_isPlain hv).holds
    · exact (h.write name link hv).bind fun _ _ => keeps_pure hv

theorem unaryStep (h : Carried p ends r' r (.expr e) d) (op : Token)
    {operand : Expr (Option Link)} (hoperand : .expr operand ∈ Task.parts (.expr e))
    (trailing : Bool) :
    Keeps p ends d (unaryStep r' op operand trailing) (unaryStep r op operand trailing)
      (Value.Holds p) := by
  unfold Eval.unaryStep
  split
  · split
    · next name link =>
      refine (h.read name link).bind fun v _ => ?_
      cases v with
      | number old =>
        have hnumber : Value.Holds p (.number (stepped op.kind old)) := trivial
        exact (h.write name link hnumber).bind fun _ _ => keeps_pure trivial
      | _ => exact keeps_fail _ op
    · exact keeps_fail _ op
  · refine (h.expr hoperand).bind fun v _ => ?_
    exact keeps_lift op fun v hv => (Value.unary_isPlain hv).holds

theorem callStep (h : Carried p ends r' r (.expr e) d) {callee : Expr (Option Link)}
    (hcallee : .expr callee ∈ Task.parts (.expr e)) (paren : Token)
    {args : List (Expr (Option Link))} (hargs : .exprs args ∈ Task.parts (.expr e)) :
    Keeps p ends d (callStep r' callee paren args) (callStep r callee paren args)
      (Value.Holds p) := by
  refine (h.expr hcallee).bind fun f hf => ?_
  refine Keeps.bind (h (.exprs args) d (.part hargs) trivial) fun vs hvs => ?_
  split
  · exact keeps_fail _ paren
  · next n harity =>
    split
    · next hcount =>
      exact h (.call paren f vs) d (.call paren f vs (hcount ▸ harity)) ⟨hf, hvs⟩
    · exact keeps_fail _ paren

theorem setStep (h : Carried p ends r' r (.expr e) d) {object value : Expr (Option Link)}
    (hobject : .expr object ∈ Task.parts (.expr e)) (name : Token)
    (hvalue : .expr value ∈ Task.parts (.expr e)) :
    Keeps p ends d (setStep r' object name value) (setStep r object name value)
      (Value.Holds p) := by
  refine (h.expr hobject).bind fun o _ => ?_
  split
  · refine (h.expr hvalue).bind fun v hv => ?_
    exact (keeps_setField _ name.lexeme hv).bind fun _ _ => keeps_pure hv
  · exact keeps_fail _ name

theorem inheritedStep (h : Carried p ends r' r (.expr e) d) (keyword method : Token)
    (link : Option Link) :
    Keeps p ends d (inheritedStep r' keyword method link) (inheritedStep r keyword method link)
      (Value.Holds p) := by
  refine Keeps.bind (h (.inherit keyword link) d (.inherit keyword link) trivial) ?_
  intro pair hpair
  obtain ⟨superclass, receiver⟩ := pair
  obtain ⟨hsuper, hreceiver⟩ := hpair
  dsimp only
  split
  · split
    · next f hf =>
      refine h.bound method ?_ hreceiver
      split at hf
      · exact ClassValue.Holds.classMethod? hsuper hf
      · exact ClassValue.Holds.method? hsuper hf
    · exact keeps_fail _ method
  · exact keeps_fail _ keyword

theorem exprStep (h : Carried p ends r' r (.expr e) d)
    (hmakes : ∀ f ∈ Task.functions (.expr e), p f) :
    Keeps p ends d (exprStep r' e) (exprStep r e) (Value.Holds p) := by
  cases e with
  | literal span value => exact keeps_pure (Value.isPlain_ofLiteral value).holds
  | group span inner => exact h.expr (by simp)
  | name span name link => exact h.read name link
  | assign span name op value link =>
    exact h.assignStep name op (by simp) link
  | binary span left op right =>
    refine (h.expr (by simp)).bind fun l _ => ?_
    refine (h.expr (by simp)).bind fun v hv => ?_
    split
    · exact keeps_pure hv
    · exact keeps_lift op fun v hv => (Value.combine_isPlain hv).holds
  | logical span left op right =>
    refine (h.expr (by simp)).bind fun l hl => ?_
    split
    · exact keeps_pure hl
    · exact h.expr (by simp)
  | unary span op operand trailing =>
    exact h.unaryStep op (by simp) trailing
  | ternary span condition onTrue onFalse =>
    refine (h.expr (by simp)).bind fun c _ => ?_
    split
    · exact h.expr (by simp)
    · exact h.expr (by simp)
  | call span callee paren args =>
    exact h.callStep (by simp) paren (by simp)
  | lambda function =>
    have hf : p function := hmakes function (by simp)
    exact (keeps_closure [] hf).bind fun f hf => keeps_pure hf
  | get span object name =>
    refine (h.expr (by simp)).bind fun o ho => ?_
    refine (keeps_property ho name).bind fun property hproperty => ?_
    cases property with
    | field v => exact keeps_pure hproperty
    | method f => exact h.bound name hproperty ho
  | set span object name value =>
    exact h.setStep (by simp) name (by simp)
  | receiver span keyword link => exact h.read keyword link
  | inherited span keyword method link => exact h.inheritedStep keyword method link

end

theorem construct {token : Token} {c : ClassValue} {args : List Value}
    (h : Carried p ends r' r (.enter token (.cls c) args) d) (hc : c.Holds p)
    (hargs : ∀ v ∈ args, v.Holds p) :
    Keeps p ends d (construct r' c args) (construct r c args) (Value.Holds p) := by
  refine keeps_newObject.bind fun fields _ => ?_
  split
  · exact keeps_pure hc
  · next init hinit =>
    have hobject : Value.Holds p (.object fields c) := hc
    refine (keeps_bindReceiver init hobject).bind fun f hf => ?_
    have hcarries : p f.function ∧ ∀ v ∈ args, v.Holds p := ⟨hf ▸ hc.method? hinit, hargs⟩
    exact Keeps.bind (h (.body f args) d (.body f ⟨init, hinit, hf⟩) hcarries)
      fun _ _ => keeps_pure hc

theorem bodyStep {f : Closure} {args : List Value} (h : Carried p ends r' r (.body f args) d)
    (hargs : ∀ v ∈ args, v.Holds p) :
    Keeps p ends d (bodyStep r' f args) (bodyStep r f args) (Value.Holds p) := by
  have hslots : (parameterSlots f.function.params args).All (Value.Holds p) :=
    fun x v hv => hargs v (get?_parameterSlots hv).2
  refine (keeps_newScope f.scope hslots).bind fun scope _ => ?_
  refine Keeps.bind (Keeps.inScope (h _ d .stmts trivial) scope) fun signal hsignal => ?_
  split
  · exact keeps_receiverOf f
  · split
    · exact keeps_pure hsignal
    · exact keeps_pure trivial

section

variable {s : Stmt (Option Link)}

theorem declareClass (h : Carried p ends r' r (.stmt s) d) (name : Token)
    (superclass : Option (Token × Option Link))
    {methods classMethods : List (Declaration (Option Link))}
    (hmethods : ∀ d ∈ methods, p d.function) (hclass : ∀ d ∈ classMethods, p d.function) :
    Keeps p ends d (declareClass r' name superclass methods classMethods)
      (declareClass r name superclass methods classMethods) (Signal.Holds p) := by
  have hparent : Keeps p ends d (superclassOf r' superclass) (superclassOf r superclass)
      fun parent => ∀ c ∈ parent, c.Holds p := by
    cases superclass with
    | none => exact keeps_pure nofun
    | some pair =>
      refine Keeps.bind (h (.read pair.1 pair.2) d (.superclass pair.1 pair.2) trivial) ?_
      intro v hv
      cases v with
      | cls c =>
        refine keeps_pure fun c' hc' => ?_
        cases hc'
        exact hv
      | _ => exact keeps_fail _ _
  refine hparent.bind fun parent hsuper => ?_
  refine (keeps_define name.lexeme Value.none trivial).bind fun _ _ => ?_
  refine (keeps_makeClass name.lexeme hsuper hmethods hclass).bind fun c hc => ?_
  exact (keeps_define name.lexeme (.cls c) hc).bind fun _ _ => keeps_pure trivial

theorem stmtStep (h : Carried p ends r' r (.stmt s) d)
    (hmakes : ∀ f ∈ Task.functions (.stmt s), p f) :
    Keeps p ends d (stmtStep r' s) (stmtStep r s) (Signal.Holds p) := by
  match s with
  | .evaluate span e =>
    exact (h.expr (by simp)).bind fun _ _ => keeps_pure trivial
  | .print span keyword value =>
    refine (h.expr (by simp)).bind fun _ _ => ?_
    exact (keeps_printLine _).bind fun _ _ => keeps_pure trivial
  | .declareVar span name none =>
    exact (keeps_define name.lexeme Value.none trivial).bind fun _ _ => keeps_pure trivial
  | .declareVar span name (some init) =>
    refine (h.expr (by simp)).bind fun v hv => ?_
    exact (keeps_define name.lexeme v hv).bind fun _ _ => keeps_pure trivial
  | .block span body =>
    refine keeps_currentScope.bind fun here _ => ?_
    refine (keeps_newScope here .nil).bind fun scope _ => ?_
    exact (h.stmts (by simp)).inScope scope
  | .branch span condition onTrue none =>
    refine (h.expr (by simp)).bind fun c _ => ?_
    split
    · exact h.stmt (by simp)
    · exact keeps_pure trivial
  | .branch span condition onTrue (some onFalse) =>
    refine (h.expr (by simp)).bind fun c _ => ?_
    split
    · exact h.stmt (by simp)
    · exact h.stmt (by simp)
  | .loop span condition body update bodyFirst =>
    exact h (.loop condition body update bodyFirst) d (.part (by simp))
      trivial
  | .leave span keyword none => exact keeps_pure trivial
  | .leave span keyword (some value) =>
    exact (h.expr (by simp)).bind fun v hv => keeps_pure hv
  | .breakLoop .. => exact keeps_pure trivial
  | .continueLoop .. => exact keeps_pure trivial
  | .declareFunction declaration =>
    have hf : p declaration.function := hmakes _ (by simp)
    refine (keeps_closure declaration.name.lexeme hf).bind fun f hf => ?_
    exact (keeps_define _ (.function f) hf).bind fun _ _ => keeps_pure trivial
  | .declareClass span name superclass methods classMethods =>
    simp only [Task.functions, List.forall_mem_map, List.forall_mem_append] at hmakes
    exact h.declareClass name superclass hmakes.1 hmakes.2

end

theorem loopStep {condition : Expr (Option Link)} {body : Stmt (Option Link)}
    {update : Option (Expr (Option Link))} {skipTest : Bool}
    (h : Carried p ends r' r (.loop condition body update skipTest) d) :
    Keeps p ends d (loopStep r' condition body update skipTest)
      (loopStep r condition body update skipTest) (Signal.Holds p) := by
  have htest : Keeps p ends d (testStep r' condition skipTest) (testStep r condition skipTest)
      (Value.Holds p) := by
    unfold testStep
    split
    · exact keeps_pure trivial
    · exact h.expr (by simp)
  have hupdate : Keeps p ends d (updateStep r' update) (updateStep r update) fun _ => True := by
    cases update with
    | none => exact keeps_pure trivial
    | some u => exact (h.expr (by simp)).bind fun _ _ => keeps_pure trivial
  refine htest.bind fun c _ => ?_
  split
  · refine (h.stmt (by simp)).bind fun signal hsignal => ?_
    cases signal with
    | breakLoop => exact keeps_pure trivial
    | leave v => exact keeps_pure hsignal
    | next | continueLoop =>
      refine hupdate.bind fun _ _ => ?_
      exact h (.loop condition body update false) d (.part (by simp)) trivial
  · exact keeps_pure trivial

/-- What an evaluation keeps if the tasks keep it that it begins. -/
theorem step (h : Carried p ends r' r t d) (hcarries : t.Carries p)
    (hmakes : ∀ f ∈ t.functions, p f) :
    Keeps p ends d (Eval.step r' t) (Eval.step r t) (t.Returns p) := by
  cases t with
  | read name link => exact keeps_readLink name link
  | write name link value => exact keeps_writeLink name link hcarries
  | inherit keyword link => exact keeps_inheritance keyword link
  | expr e => exact h.exprStep hmakes
  | exprs es =>
    cases es with
    | nil => exact keeps_pure nofun
    | cons e es =>
      refine (h.expr (by simp)).bind fun v hv => ?_
      refine Keeps.bind (h (.exprs es) d (.part (by simp)) trivial) fun vs hvs => ?_
      exact keeps_pure (List.forall_mem_cons.mpr ⟨hv, hvs⟩)
  | bound token method receiver =>
    refine (keeps_bindReceiver method hcarries.2).bind fun f hf => ?_
    have hf' : p f.function := hf ▸ hcarries.1
    split
    · next hgetter =>
      exact h (.call token (.function f) []) d (.getter f hf hgetter) ⟨hf', nofun⟩
    · exact keeps_pure hf'
  | call token callee args =>
    exact Keeps.nested (fun hd => h (.enter token callee args) (d + 1) (.enter hd) hcarries) token
  | enter token callee args =>
    cases callee with
    | function f => exact h (.body f args) d (.body f rfl) hcarries
    | cls c => exact h.construct hcarries.1 hcarries.2
    | native n => exact keeps_callNative token n args
    | _ => exact keeps_fail _ token
  | body f args => exact h.bodyStep hcarries.2
  | stmt s => exact h.stmtStep hmakes
  | stmts ss =>
    cases ss with
    | nil => exact keeps_pure trivial
    | cons s rest =>
      refine (h.stmt (by simp)).bind fun signal hsignal => ?_
      cases signal with
      | next => exact h.stmts (by simp)
      | leave | breakLoop | continueLoop => exact keeps_pure hsignal
  | loop condition body update skipTest => exact h.loopStep

end Carried

/-! ## Tasks that follow a rule for jumps -/

namespace Task

variable {rule : Place → Jump → Prop} {place : Place} {t t' : Task} {d' : Nat}

/-- A rule allows all jumps of a task at a place. -/
def Ruled (rule : Place → Jump → Prop) (place : Place) : Task → Prop
  | .expr e => e.Ruled rule
  | .exprs es => Expr.RuledList rule es
  | .stmt s => s.Ruled rule place
  | .stmts ss => Stmt.RuledList rule place ss
  | .loop condition round update _ =>
    rule place .loop ∧ condition.Ruled rule ∧ round.Ruled rule place.looped ∧
      ∀ u ∈ update, u.Ruled rule
  | _ => True

theorem ruled_loop {span : Span} {condition : Expr (Option Link)} {round : Stmt (Option Link)}
    {update : Option (Expr (Option Link))} {bodyFirst : Bool}
    (h : (Task.stmt (.loop span condition round update bodyFirst)).Ruled rule place) :
    (Task.loop condition round update bodyFirst).Ruled rule place := by
  cases update with
  | none =>
    rw [Ruled, Stmt.Ruled] at h
    exact ⟨h.1, h.2.1, h.2.2, nofun⟩
  | some u =>
    rw [Ruled, Stmt.Ruled] at h
    refine ⟨h.1, h.2.1, h.2.2.1, fun u' hu' => ?_⟩
    cases hu'
    exact h.2.2.2

theorem ruled_exprParts {e : Expr (Option Link)} (h : e.Ruled rule) (ht : t' ∈ exprParts e) :
    t'.Ruled rule place := by
  cases e with
  | literal | name | lambda | receiver | inherited => simp at ht
  | assign | unary | group | get =>
    rw [Expr.Ruled] at h
    rw [List.mem_singleton.mp ht]
    exact h
  | binary | logical | call | set =>
    rw [Expr.Ruled] at h
    simp only [Eval.exprParts, List.mem_cons, List.not_mem_nil, or_false] at ht
    rcases ht with rfl | rfl
    · exact h.1
    · exact h.2
  | ternary =>
    rw [Expr.Ruled] at h
    simp only [Eval.exprParts, List.mem_cons, List.not_mem_nil, or_false] at ht
    rcases ht with rfl | rfl | rfl
    · exact h.1
    · exact h.2.1
    · exact h.2.2

theorem ruled_stmtParts {s : Stmt (Option Link)} (h : s.Ruled rule place) (ht : t' ∈ stmtParts s) :
    t'.Ruled rule place := by
  match s with
  | .evaluate .. | .print .. | .declareVar _ _ (some _) | .block .. =>
    rw [Stmt.Ruled] at h
    rw [List.mem_singleton.mp ht]
    exact h
  | .leave _ _ (some _) =>
    rw [Stmt.Ruled] at h
    rw [List.mem_singleton.mp ht]
    exact h.2
  | .branch _ _ _ none =>
    rw [Stmt.Ruled] at h
    simp only [Eval.stmtParts, List.mem_cons, List.not_mem_nil, or_false] at ht
    rcases ht with rfl | rfl
    · exact h.1
    · exact h.2
  | .branch _ _ _ (some _) =>
    rw [Stmt.Ruled] at h
    simp only [Eval.stmtParts, List.mem_cons, List.not_mem_nil, or_false] at ht
    rcases ht with rfl | rfl | rfl
    · exact h.1
    · exact h.2.1
    · exact h.2.2
  | .loop .. =>
    rw [List.mem_singleton.mp ht]
    exact ruled_loop h
  | .declareVar _ _ none | .leave _ _ none | .breakLoop .. | .continueLoop .. | .declareFunction _
  | .declareClass .. => simp at ht

/-- The parts of a task follow its rule, if need be at another place. -/
theorem Ruled.part (h : t.Ruled rule place) (ht : t' ∈ t.parts) :
    ∃ place', t'.Ruled rule place' := by
  match t with
  | .expr e => exact ⟨place, ruled_exprParts h ht⟩
  | .stmt s => exact ⟨place, ruled_stmtParts h ht⟩
  | .exprs (e :: es) =>
    simp only [parts, List.mem_cons, List.not_mem_nil, or_false] at ht
    rcases ht with rfl | rfl
    · exact ⟨place, h.1⟩
    · exact ⟨place, h.2⟩
  | .stmts (s :: rest) =>
    simp only [parts, List.mem_cons, List.not_mem_nil, or_false] at ht
    rcases ht with rfl | rfl
    · exact ⟨place, h.1⟩
    · exact ⟨place, h.2⟩
  | .loop condition round update skipTest =>
    simp only [parts, List.mem_cons, List.mem_map, Option.mem_toList] at ht
    rcases ht with rfl | rfl | rfl | ⟨u, hu, rfl⟩
    · exact ⟨place, h.2.1⟩
    · exact ⟨place.looped, h.2.2.1⟩
    · exact ⟨place, h⟩
    · exact ⟨place, h.2.2.2 u hu⟩
  | .exprs [] | .stmts [] | .read .. | .write .. | .inherit .. | .bound .. | .call .. | .enter ..
  | .body .. => simp at ht

theorem Ruled.functions (h : t.Ruled rule place) : ∀ f ∈ t.functions, f.Ruled rule := by
  intro f hf
  cases t with
  | expr e =>
    cases e with
    | lambda function =>
      obtain rfl := List.mem_singleton.mp hf
      rwa [Ruled, Expr.Ruled] at h
    | _ => cases hf
  | stmt s =>
    cases s with
    | declareFunction declaration =>
      obtain ⟨span, name, function⟩ := declaration
      obtain rfl := List.mem_singleton.mp hf
      rwa [Ruled, Stmt.Ruled] at h
    | declareClass span name superclass methods classMethods =>
      rw [Ruled, Stmt.Ruled, Declaration.ruledList_iff, Declaration.ruledList_iff] at h
      obtain ⟨declaration, hmember, rfl⟩ := List.mem_map.mp hf
      exact (List.mem_append.mp hmember).elim (h.1 declaration) (h.2 declaration)
    | _ => cases hf
  | _ => cases hf

/-- Whatever a task begins follows its rule, if the functions that it calls do. -/
theorem Ruled.begins (h : t.Ruled rule place) (hcarries : t.Carries p)
    (hp : ∀ f, p f → f.Ruled rule) (hbegins : t.Begins d t' d') :
    ∃ place', t'.Ruled rule place' := by
  cases hbegins with
  | part ht => exact h.part ht
  | stmts => exact ⟨.function, (hp _ hcarries.1).body⟩
  | _ => exact ⟨place, trivial⟩

end Task

end Eval

/-! ## Whole sources -/

/-- The tasks that a source consists of. -/
def Code.parts : Code → List Eval.Task
  | .program stmts => stmts.map .stmt
  | .expression e => [.expr e]

theorem Code.carries_parts {code : Code} {t : Eval.Task} (ht : t ∈ code.parts) : t.Carries p := by
  cases code with
  | program stmts =>
    obtain ⟨s, -, rfl⟩ := List.mem_map.mp ht
    trivial
  | expression e =>
    rw [List.mem_singleton.mp ht]
    trivial

theorem Code.keeps {ends : Prop} {d : Nat} {r' r : Eval.Runner} {code : Code}
    (h : ∀ t ∈ code.parts, Eval.Keeps p ends d (r' t) (r t) (t.Returns p)) :
    Eval.Keeps p ends d (code.runWith r') (code.runWith r) fun _ => True := by
  cases code with
  | expression e =>
    intro m hm hd
    obtain ⟨heq, hcomes⟩ := h (.expr e) (List.mem_singleton_self _) m hm hd
    refine ⟨heq, ?_⟩
    change (r (.expr e) m).Comes _ _ _
    cases hr : r (.expr e) m with
    | ok v m' =>
      rw [hr] at hcomes
      exact ⟨hcomes.1, hcomes.2.1, trivial⟩
    | error | outOfFuel =>
      rw [hr] at hcomes
      exact hcomes
  | program stmts =>
    change Eval.Keeps p ends d (Machine.runWith r' stmts) (Machine.runWith r stmts) _
    simp only [parts, List.forall_mem_map] at h
    induction stmts with
    | nil => exact Eval.keeps_pure trivial
    | cons s rest ih =>
      rw [List.forall_mem_cons] at h
      exact h.1.bind fun _ _ => ih h.2

/-! ## What every task of a run satisfies -/

/-- A property that a task passes on to the tasks that it begins, and that has all the functions made
which the functions on the heap are asked to be. -/
structure Eval.Invariant (p : LinkedFunction → Prop) (inv : Eval.Task → Prop) : Prop where
  begins : ∀ {t t' : Eval.Task} {d d' : Nat}, inv t → t.Carries p → t.Begins d t' d' → inv t'
  functions : ∀ {t : Eval.Task}, inv t → ∀ f ∈ t.functions, p f

namespace Eval.Invariant

variable {inv : Eval.Task → Prop} {stop : Eval.Task → Machine → Prop}

/-- Stopping at tasks that there are none of makes no difference. -/
theorem keeps (h : Invariant p inv) (hstop : ∀ t m, inv t → t.Carries p → ¬ stop t m)
    (e : RuntimeError) (fuel : Nat) {t : Task} (ht : inv t) (hcarries : t.Carries p) (d : Nat) :
    Keeps p False d (halting stop e fuel t) (within fuel t) (t.Returns p) := by
  induction fuel generalizing t d with
  | zero => exact fun _ _ _ => ⟨rfl, id⟩
  | succ fuel ih =>
    have hcarried : Carried p False (halting stop e fuel) (within fuel) t d := by
      intro t' d' hbegins hcarries'
      exact ih (h.begins ht hcarries hbegins) hcarries' d'
    intro m hm hd
    rw [halting, stopWhen_of_not (hstop t m ht hcarries)]
    exact hcarried.step hcarries (h.functions ht) m hm hd

variable {code : Code} {m : Machine}

theorem keeps_code (h : Invariant p inv) (hstop : ∀ t m, inv t → t.Carries p → ¬ stop t m)
    (hcode : ∀ t ∈ code.parts, inv t) (e : RuntimeError) (fuel d : Nat) :
    Keeps p False d (code.runWith (halting stop e fuel)) (code.runWith (within fuel))
      fun _ => True :=
  Code.keeps fun _ ht => h.keeps hstop e fuel (hcode _ ht) (Code.carries_parts ht) d

/-- A run never comes to what no task with the property is. -/
theorem not_reaches (h : Invariant p inv) (hstop : ∀ t m, inv t → t.Carries p → ¬ stop t m)
    (hcode : ∀ t ∈ code.parts, inv t) (hm : m.heap.Holds p) (fuel : Nat) :
    ¬ code.Reaches stop fuel m := by
  rintro ⟨e, hne⟩
  exact hne (h.keeps_code hstop hcode e fuel m.depth m hm rfl).1

/-- After a run, the functions on the heap are as they were before it. -/
theorem holds (h : Invariant p inv) (hcode : ∀ t ∈ code.parts, inv t) (hm : m.heap.Holds p)
    {fuel : Nat} {m' : Machine} (hrun : (code.runWith (within fuel) m).machine? = some m') :
    m'.heap.Holds p := by
  have hkeeps := h.keeps_code (fun _ _ _ _ => not_false) hcode ⟨.notCallable, default⟩ fuel m.depth
  obtain ⟨-, hcomes⟩ := hkeeps m hm rfl
  cases hend : code.runWith (within fuel) m with
  | ok a m₁ =>
    rw [hend] at hcomes hrun
    cases hrun
    exact hcomes.1
  | error e m₁ =>
    rw [hend] at hcomes hrun
    cases hrun
    exact hcomes
  | outOfFuel =>
    rw [hend] at hrun
    cases hrun

end Eval.Invariant

end Scriptlet

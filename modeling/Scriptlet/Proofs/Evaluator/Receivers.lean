import Scriptlet.Proofs.Evaluator.Fixtures

/-!
# Receivers and superclasses stay where they are expected

A task suits a machine (`Task.Suits`) if the current scope serves the roles of the scene of what is
to be evaluated, and all functions in it suit. One evaluation on a settled heap upholds this, if the
fixtures that it makes may be made (`Upholding.step`): the tasks inside it suit whenever they begin,
the heap stays settled, and what comes out suits. In particular an initializer that is called finds
its receiver, and yields it (`Closure.Returns`).

`Code.Precedes` says that no moment of one kind comes before one of another. So what must have been
made for a moment was made before it (`Code.Listed.precedes`).
-/

namespace Scriptlet

/-- A machine after a computation: in the same scope, with a settled heap that has kept its
fixtures. -/
structure Machine.Proceeds (L : Ledger) (m m' : Machine) : Prop where
  settled : m'.heap.Settled L
  steady : m.heap.Steady m'.heap
  scope : m'.scope = m.scope

namespace Machine.Proceeds

variable {L : Ledger} {m m' m'' : Machine}

theorem refl (hs : m.heap.Settled L) : m.Proceeds L m := ⟨hs, .refl m.heap, rfl⟩

theorem trans (h : m.Proceeds L m') (h' : m'.Proceeds L m'') : m.Proceeds L m'' :=
  ⟨h'.settled, h.steady.trans h'.steady, h'.scope.trans h.scope⟩

/-- The current scope goes on to serve the same roles. -/
theorem serves (h : m.Proceeds L m') {roles : List (Role (Option Link))}
    (hp : m.heap.Serves L m.scope roles) : m'.heap.Serves L m'.scope roles := by
  rw [h.scope]
  exact hp.mono h.steady

end Machine.Proceeds

/-! ## What a use of `super` finds -/

/-- What a use of `super` finds: the scope that was made for the superclass of the class around it,
the superclass in this scope, and the receiver that `this` means at the same place. -/
structure Super.Finds (sup : Super (Option Link)) (m : Machine)
    (declaration : Stmt (Option Link)) (scope : ScopeId) (cls : ClassValue) (value : Value) :
    Prop where
  inside : ∃ n, sup.scene.Inside n declaration
  home : ∃ l, sup.link = some l ∧ m.heap.ancestor m.scope l.hops = .ok scope
  superclass : (m.heap.slots scope).get? "super" = some (.cls cls)
  receiver : m.heap.getAt m.scope (sup.scene.site.hops 0 "this") "this" = .ok value
  isReceiver : value.IsReceiver

/-- A use of `super` in a derived class, with a link to the superclass of this class. -/
structure Super.Linked (sup : Super (Option Link)) : Prop where
  keyword : sup.keyword.lexeme = "super"
  leads : ∃ ordinal n declaration, sup.link = some ⟨ordinal, (n + 1 : Nat)⟩ ∧
    sup.scene.Derives n declaration

section

variable {L : Ledger} {m : Machine} {sup : Super (Option Link)} {declaration : Stmt (Option Link)}
  {scope : ScopeId} {cls : ClassValue} {value : Value}

/-- Where the roles around it are served, a use of `super` finds what was made for its class. -/
theorem Super.Linked.finds (h : sup.Linked) (hs : m.heap.Serves L m.scope sup.scene.roles) :
    ∃ declaration scope cls value, sup.Finds m declaration scope cls value ∧
      L.made (.superclass scope declaration cls) := by
  obtain ⟨ordinal, n, declaration, hlink, hinside, -, hreceiver⟩ := h.leads
  obtain ⟨inner, outer, hi, ho, ⟨value, hvalue, hv, -⟩, cls, hcls, hmade⟩ := hs.inside hinside
  refine ⟨declaration, outer, cls, value, ⟨⟨n, hinside⟩, ⟨_, hlink, ho⟩, hcls, ?_, hv⟩, hmade⟩
  rw [hreceiver, Heap.getAt_of_ancestor "this" hi, hvalue]

theorem Super.Finds.inheritance_eq (h : sup.Finds m declaration scope cls value)
    (hlinked : sup.Linked) :
    Eval.inheritance sup.keyword sup.link m = .ok (.cls cls, value) m := by
  obtain ⟨ordinal, n, declaration', hlink, hderives⟩ := hlinked.leads
  obtain ⟨l, hl, hancestor⟩ := h.home
  obtain rfl := Option.some.inj (hlink.symm.trans hl)
  have hd : ((n + 1 : Nat) : Int) - 1 = n := by omega
  have hreceiver := h.receiver
  rw [hderives.receiver] at hreceiver
  simp only [Eval.inheritance, hl, hlinked.keyword, Heap.getAt_of_ancestor _ hancestor,
    h.superclass, hd, hreceiver]

/-- The class around a place is determined by the roles of its scopes. -/
theorem Scene.Inside.unique {p : Scene (Option Link)} {n n' : Nat}
    {declaration' : Stmt (Option Link)} (h : p.Inside n declaration)
    (h' : p.Inside n' declaration') : declaration = declaration' := by
  obtain ⟨rest, hroles⟩ := h
  obtain ⟨rest', hroles'⟩ := h'
  have heq := hroles.symm.trans hroles'
  clear hroles hroles'
  induction n generalizing n' with
  | zero =>
    cases n' with
    | zero => cases heq; rfl
    | succ n' => cases heq
  | succ n ih =>
    cases n' with
    | zero => cases heq
    | succ n' => exact ih (List.cons.inj heq).2

/-- A use of `super` finds one class in one scope. -/
theorem Super.Finds.unique (h : sup.Finds m declaration scope cls value)
    {declaration' : Stmt (Option Link)} {scope' : ScopeId} {cls' : ClassValue} {value' : Value}
    (h' : sup.Finds m declaration' scope' cls' value') :
    declaration = declaration' ∧ scope = scope' ∧ cls = cls' := by
  obtain ⟨n, hn⟩ := h.inside
  obtain ⟨n', hn'⟩ := h'.inside
  obtain ⟨l, hl, ha⟩ := h.home
  obtain ⟨l', hl', ha'⟩ := h'.home
  obtain rfl := Option.some.inj (hl.symm.trans hl')
  obtain rfl : scope = scope' := Except.ok.inj (ha.symm.trans ha')
  have hcls := Option.some.inj (h.superclass.symm.trans h'.superclass)
  exact ⟨hn.unique hn', rfl, Value.cls.inj hcls⟩

end

/-! ## What an initializer yields -/

/-- What an initializer yields: the receiver that its scope holds, before and after it runs. -/
def Closure.Returns (f : Closure) (h h' : Heap) (v : Value) : Prop :=
  f.initializer → (h.slots f.scope).get? "this" = some v ∧ (h'.slots f.scope).get? "this" = some v

/-- What a call comes to: an initializer yields its receiver, and a class a new object. -/
def Value.Delivers : (callee : Value) → (h h' : Heap) → (v : Value) → Prop
  | .function f, h, h', v => f.Returns h h' v
  | .cls c, h, h', v => v = .object h.nextObject c ∧ h.nextObject < h'.nextObject
  | _, _, _, _ => True

/-- What comes of an initializer that is bound to a receiver: the receiver if it runs at once, or
else a function whose scope holds the receiver. -/
def Closure.Awaits (method : Closure) (receiver : Value) (h : Heap) (v : Value) :
    Prop :=
  method.initializer →
    if method.getter then v = receiver
    else ∃ f, v = .function f ∧ f.initializer ∧ (h.slots f.scope).get? "this" = some receiver

namespace Eval

variable {α β : Type}

/-! ## Putting computations together -/

/-- Two computations that do the same on a machine and keep its heap settled. -/
def Upholds (L : Ledger) (m : Machine) (x y : Eval α) (P : Machine → α → Prop) : Prop :=
  x m = y m ∧ (y m).Meets (fun a m' => m.Proceeds L m' ∧ P m' a) fun _ m' => m.Proceeds L m'

section

variable {L : Ledger} {m : Machine} {P : Machine → α → Prop} {Q : Machine → β → Prop}

theorem Upholds.of_ok {x : Eval α} {a : α} {m' : Machine} (hx : x m = .ok a m')
    (hm : m.Proceeds L m') (hp : P m' a) : Upholds L m x x P := by
  refine ⟨rfl, ?_⟩
  rw [hx]
  exact ⟨hm, hp⟩

theorem Upholds.of_error {x : Eval α} {e : RuntimeError} (hx : x m = .error e m)
    (hs : m.heap.Settled L) : Upholds L m x x P := by
  refine ⟨rfl, ?_⟩
  rw [hx]
  exact .refl hs

theorem upholds_pure {a : α} (hs : m.heap.Settled L) (h : P m a) :
    Upholds L m (pure a) (pure a) P :=
  .of_ok rfl (.refl hs) h

theorem upholds_fail {fault : RuntimeFault} {token : Token} (hs : m.heap.Settled L) :
    Upholds L m (fail fault token) (fail fault token) P :=
  .of_error rfl hs

theorem upholds_lift {token : Token} {result : Except RuntimeFault α} (hs : m.heap.Settled L)
    (hok : ∀ a, result = .ok a → P m a) :
    Upholds L m (lift token result) (lift token result) P := by
  cases result with
  | ok a => exact .of_ok rfl (.refl hs) (hok a rfl)
  | error fault => exact .of_error rfl hs

theorem Upholds.bind {x y : Eval α} {f g : α → Eval β} (hx : Upholds L m x y P)
    (hf : ∀ a m', m.Proceeds L m' → P m' a → Upholds L m' (f a) (g a) Q) :
    Upholds L m (x >>= f) (y >>= g) Q := by
  obtain ⟨heq, hy⟩ := hx
  unfold Upholds
  rw [bind_apply, bind_apply, heq]
  cases hym : y m with
  | outOfFuel => exact ⟨rfl, trivial⟩
  | error e m' => rw [hym] at hy; exact ⟨rfl, hy⟩
  | ok a m' =>
    rw [hym] at hy
    obtain ⟨hm, hp⟩ := hy
    obtain ⟨heq', hg⟩ := hf a m' hm hp
    exact ⟨heq', hg.imp (fun _ _ h => ⟨hm.trans h.1, h.2⟩) fun _ _ h => hm.trans h⟩

theorem Upholds.imp {x y : Eval α} {P' : Machine → α → Prop} (hx : Upholds L m x y P)
    (h : ∀ m' a, m.Proceeds L m' → P m' a → P' m' a) : Upholds L m x y P' :=
  ⟨hx.1, hx.2.imp (fun a m' hp => ⟨hp.1, h m' a hp.1 hp.2⟩) fun _ _ he => he⟩

theorem Upholds.inScope {x y : Eval α} {scope : ScopeId} {P : Heap → α → Prop}
    (hx : Upholds L { m with scope := scope } x y fun m' a => P m'.heap a) :
    Upholds L m (inScope scope x) (inScope scope y) fun m' a => P m'.heap a := by
  obtain ⟨heq, hy⟩ := hx
  unfold Upholds Eval.inScope
  dsimp only
  rw [heq]
  refine ⟨rfl, ?_⟩
  cases hym : y { m with scope := scope } with
  | outOfFuel => trivial
  | ok a m' =>
    rw [hym] at hy
    exact ⟨⟨hy.1.settled, hy.1.steady, rfl⟩, hy.2⟩
  | error e m' =>
    rw [hym] at hy
    exact ⟨hy.settled, hy.steady, rfl⟩

theorem Upholds.nested {x y : Eval α} {token : Token} {P : Heap → α → Prop}
    (hs : m.heap.Settled L)
    (hx : Upholds L { m with depth := m.depth + 1 } x y fun m' a => P m'.heap a) :
    Upholds L m (nested token x) (nested token y) fun m' a => P m'.heap a := by
  obtain ⟨heq, hy⟩ := hx
  unfold Upholds Eval.nested
  split
  · exact ⟨rfl, .refl hs⟩
  · rw [heq]
    refine ⟨rfl, ?_⟩
    cases hym : y { m with depth := m.depth + 1 } with
    | outOfFuel => trivial
    | ok a m' =>
      rw [hym] at hy
      exact ⟨⟨hy.1.settled, hy.1.steady, hy.1.scope⟩, hy.2⟩
    | error e m' =>
      rw [hym] at hy
      exact ⟨hy.settled, hy.steady, hy.scope⟩

/-! ## Scopes and values -/

theorem upholds_printLine (hs : m.heap.Settled L) (t : Text) :
    Upholds L m (printLine t) (printLine t) fun _ _ => True :=
  .of_ok rfl ⟨hs, .refl m.heap, rfl⟩ trivial

theorem upholds_define (hs : m.heap.Settled L) {name : Text} (hname : IsVariableName name)
    {value : Value} (hv : value.Suits L m.heap) :
    Upholds L m (define name value) (define name value)
      fun m' _ => m'.heap.nextScope = m.heap.nextScope :=
  .of_ok rfl ⟨hs.define m.scope hname hv, .define m.scope hname value, rfl⟩
    (Heap.nextScope_define ..)

/-- A new scope serves a role inside of its parent. -/
theorem upholds_newScope (hs : m.heap.Settled L) {parent : ScopeId}
    {roles : List (Role (Option Link))} (hp : m.heap.Serves L parent roles)
    {slots : Entries Value} (hslots : slots.All (Value.Suits L m.heap)) {role : Role (Option Link)}
    (hrole : role.Served L (m.heap.addScope parent slots) m.heap.nextScope) :
    Upholds L m (newScope parent slots) (newScope parent slots)
      fun m' id => id = m.heap.nextScope ∧ m'.heap.slots id = slots ∧
        m'.heap.Serves L id (role :: roles) := by
  refine .of_ok rfl ⟨hs.addScope parent hslots, .addScope parent slots, rfl⟩ ⟨rfl, ?_, ?_⟩
  · exact (Heap.slots_addScope ..).trans (if_pos rfl)
  · exact hp.addScope slots hrole

/-- A new scope for variables. -/
theorem upholds_ordinary (hs : m.heap.Settled L) {parent : ScopeId}
    {roles : List (Role (Option Link))} (hp : m.heap.Serves L parent roles)
    {slots : Entries Value} (hslots : slots.All (Value.Suits L m.heap)) :
    Upholds L m (newScope parent slots) (newScope parent slots)
      fun m' id => m'.heap.Serves L id (.ordinary :: roles) := by
  have hrole : Role.ordinary.Served L (m.heap.addScope parent slots) m.heap.nextScope := trivial
  exact (upholds_newScope hs hp hslots hrole).imp fun _ _ _ h => h.2.2

theorem upholds_newObject (hs : m.heap.Settled L) :
    Upholds L m newObject newObject fun m' id => id = m.heap.nextObject ∧
      m.heap.nextObject < m'.heap.nextObject ∧ m'.heap.nextScope = m.heap.nextScope :=
  .of_ok rfl ⟨hs.addObject, .addObject m.heap, rfl⟩
    ⟨rfl, by simp [Heap.nextObject, Heap.addObject], rfl⟩

theorem upholds_newIdentity (hs : m.heap.Settled L) :
    Upholds L m newIdentity newIdentity fun m' _ => ∀ id, m'.heap.slots id = m.heap.slots id :=
  .of_ok rfl ⟨hs.addIdentity, .addIdentity m.heap, rfl⟩ fun _ => rfl

theorem upholds_setField (hs : m.heap.Settled L) (id : ObjectId) (name : Text) {value : Value}
    (hv : value.Suits L m.heap) :
    Upholds L m (setField id name value) (setField id name value) fun _ _ => True :=
  .of_ok rfl ⟨hs.setField id name hv, .setField m.heap id name value, rfl⟩ trivial

/-- What a task that reads a variable comes to. -/
def Reads (L : Ledger) (name : Token) (link : Option Link) (m m' : Machine) (v : Value) : Prop :=
  m' = m ∧ readLink name link m = .ok v m ∧ v.Suits L m'.heap

theorem upholds_readLink (hs : m.heap.Settled L) (name : Token) (link : Option Link) :
    Upholds L m (readLink name link) (readLink name link) (Reads L name link m) := by
  cases link with
  | none => exact .of_error rfl hs
  | some l =>
    cases hv : m.heap.getAt m.scope l.hops name.lexeme with
    | ok v =>
      have hread : readLink name (some l) m = .ok v m := by simp only [readLink, hv]
      exact .of_ok hread (.refl hs) ⟨rfl, hread, hs.getAt hv⟩
    | error fault => exact .of_error (by simp only [readLink, hv]; rfl) hs

/-- Only variables are ever written. -/
theorem upholds_writeLink (hs : m.heap.Settled L) {name : Token} (link : Option Link)
    {value : Value} (hname : IsVariableName name.lexeme) (hv : value.Suits L m.heap) :
    Upholds L m (writeLink name link value) (writeLink name link value) fun _ _ => True := by
  cases link with
  | none => exact .of_error rfl hs
  | some l =>
    cases hb : m.heap.binderAt m.scope l.hops name.lexeme with
    | ok home =>
      have hm : m.Proceeds L { m with heap := m.heap.define home name.lexeme value } :=
        ⟨hs.define home hname hv, .define home hname value, rfl⟩
      exact .of_ok (a := ()) (by simp only [writeLink, hb]) hm trivial
    | error fault => exact .of_error (by simp only [writeLink, hb]; rfl) hs

/-- Whatever the receiver, a use of `super` finds a class. -/
theorem upholds_inheritance (hs : m.heap.Settled L) {sup : Super (Option Link)}
    (hsup : sup.Linked) (hp : m.heap.Serves L m.scope sup.scene.roles) :
    Upholds L m (inheritance sup.keyword sup.link) (inheritance sup.keyword sup.link)
      fun m' pair => (∃ c, pair.1 = .cls c) ∧ pair.1.Suits L m'.heap ∧ pair.2.Suits L m'.heap ∧
        pair.2.IsReceiver := by
  obtain ⟨declaration, scope, cls, value, hfinds, -⟩ := hsup.finds hp
  exact .of_ok (hfinds.inheritance_eq hsup) (.refl hs) ⟨⟨cls, rfl⟩,
    hs.slots _ _ _ hfinds.superclass, hs.getAt hfinds.receiver, hfinds.isReceiver⟩

/-! ## Functions and classes -/

theorem upholds_closure (hs : m.heap.Settled L) {p : Scene (Option Link)}
    (hp : m.heap.Serves L m.scope p.roles) (name : Text) {function : LinkedFunction}
    (hf : function.Listed L p) :
    Upholds L m (closure name function) (closure name function) fun m' f => f.Suits L m'.heap :=
  .of_ok rfl ⟨hs.addIdentity, .addIdentity m.heap, rfl⟩
    ⟨p, hp.mono (.addIdentity m.heap), hf, Bool.noConfusion⟩

/-- A method that is bound to a receiver: a copy of it, whose scope holds the receiver. -/
structure Binds (L : Ledger) (method : Closure) (receiver : Value) (m' : Machine) (f : Closure) :
    Prop where
  suits : f.Suits L m'.heap
  function : f.function = method.function
  initializer : f.initializer = method.initializer
  receiver : (m'.heap.slots f.scope).get? "this" = some receiver

theorem upholds_bindReceiver (hs : m.heap.Settled L) {method : Closure} {receiver : Value}
    (hmethod : method.SuitsUnbound L m.heap) (hv : receiver.Suits L m.heap)
    (hr : receiver.IsReceiver) (hmade : L.made (.receiver m.heap.nextScope receiver)) :
    Upholds L m (bindReceiver method receiver) (bindReceiver method receiver)
      (Binds L method receiver) := by
  obtain ⟨p, hp, hlisted⟩ := hmethod
  have hrole : Role.receiver.Served L (m.heap.addScope method.scope [("this", receiver)])
      m.heap.nextScope := by
    refine ⟨receiver, ?_, hr, hmade⟩
    rw [Heap.slots_addScope, if_pos rfl]
    rfl
  refine (upholds_newScope hs hp (.single _ hv) hrole).bind fun scope m' hm hscope => ?_
  refine (upholds_newIdentity hm.settled).bind fun _ m'' hm' hslots => ?_
  refine upholds_pure hm'.settled ⟨⟨p.withReceiver, hscope.2.2.mono hm'.steady, hlisted, ?_⟩,
    rfl, rfl, ?_⟩
  · exact fun _ => ⟨p.roles, rfl⟩
  · rw [hslots, hscope.2.1]
    rfl

theorem upholds_methodClosures (hs : m.heap.Settled L) {scope : ScopeId}
    {p : Scene (Option Link)} (hp : m.heap.Serves L scope p.roles) (initializers : Bool)
    {done : Entries Closure} (hdone : done.All (Closure.SuitsUnbound L m.heap))
    {ds : List (Declaration (Option Link))} (hds : Declaration.ListedAll L p.withReceiver ds) :
    Upholds L m (methodClosures scope initializers done ds)
      (methodClosures scope initializers done ds)
      fun m' ms => ms.All (Closure.SuitsUnbound L m'.heap) := by
  induction ds generalizing done m with
  | nil => exact upholds_pure hs hdone
  | cons d ds ih =>
    obtain ⟨hd, hds⟩ := hds.of_cons
    refine (upholds_newIdentity hs).bind fun _ m' hm _ => ?_
    have hp' := hp.mono hm.steady
    exact ih hm.settled hp' ((hdone.imp fun _ hf => hf.mono hm.steady).put _ ⟨p, hp', hd⟩) hds

/-- The methods of a class stand inside of its superclass, which must have been made for it. -/
theorem upholds_makeClass (hs : m.heap.Settled L) {p : Scene (Option Link)}
    (hp : m.heap.Serves L m.scope p.roles) (name : Text) {superclass : Option ClassValue}
    {declaration : Stmt (Option Link)} {methods classMethods : List (Declaration (Option Link))}
    (hsuper : ∀ c ∈ superclass,
      c.Suits L m.heap ∧ L.made (.superclass m.heap.nextScope declaration c))
    (hmethods : Declaration.ListedAll L
      (p.withSuperclass declaration superclass.isSome).withReceiver methods)
    (hclass : Declaration.ListedAll L
      (p.withSuperclass declaration superclass.isSome).withReceiver classMethods) :
    Upholds L m (makeClass name superclass methods classMethods)
      (makeClass name superclass methods classMethods) fun m' c => c.Suits L m'.heap := by
  have hscope : Upholds L m (methodScope superclass) (methodScope superclass)
      fun m' id =>
        m'.heap.Serves L id (p.withSuperclass declaration superclass.isSome).roles := by
    cases superclass with
    | none => exact .of_ok rfl (.refl hs) hp
    | some c =>
      obtain ⟨hc, hmade⟩ := hsuper c rfl
      have hrole : (Role.superclass declaration).Served L
          (m.heap.addScope m.scope [("super", .cls c)]) m.heap.nextScope := by
        refine ⟨c, ?_, hmade⟩
        rw [Heap.slots_addScope, if_pos rfl]
        rfl
      have hvalue : Value.Suits L m.heap (.cls c) := hc
      exact (upholds_newScope hs hp (.single _ hvalue) hrole).imp fun _ _ _ h => h.2.2
  refine hscope.bind fun scope m₁ hm₁ hserves => ?_
  refine (upholds_methodClosures hm₁.settled hserves true .nil hmethods).bind
    fun ms m₂ hm₂ hms => ?_
  refine (upholds_methodClosures hm₂.settled (hserves.mono hm₂.steady) false .nil hclass).bind
    fun cms m₃ hm₃ hcms => ?_
  refine (upholds_newIdentity hm₃.settled).bind fun id m₄ hm₄ _ => ?_
  refine upholds_pure hm₄.settled (.make ⟨?_, ?_⟩ fun c hc => ?_)
  · exact hms.imp fun _ hf => (hf.mono hm₃.steady).mono hm₄.steady
  · exact hcms.imp fun _ hf => hf.mono hm₄.steady
  · exact (hsuper c hc).1.mono (((hm₁.trans hm₂).trans hm₃).trans hm₄).steady

/-! ## Properties and native functions -/

/-- A property all of whose functions suit, of a value that methods can be bound to. -/
def Property.Suits (L : Ledger) (h : Heap) (object : Value) : Property → Prop
  | .field v => v.Suits L h
  | .method f => f.SuitsUnbound L h ∧ object.IsReceiver

theorem upholds_property (hs : m.heap.Settled L) {object : Value}
    (ho : object.Suits L m.heap) (name : Token) :
    Upholds L m (property object name) (property object name)
      fun m' p => p.Suits L m'.heap object := by
  cases object with
  | object id c =>
    cases hfield : m.heap.field? id name.lexeme with
    | some v =>
      exact .of_ok (a := .field v) (by simp only [property, hfield]) (.refl hs)
        (hs.fields _ _ v hfield)
    | none =>
      cases hmethod : c.method? name.lexeme with
      | some f =>
        exact .of_ok (a := .method f) (by simp only [property, hfield, hmethod]) (.refl hs)
          ⟨ClassValue.Suits.method? ho hmethod, trivial⟩
      | none => exact .of_error (by simp only [property, hfield, hmethod]; rfl) hs
  | cls c =>
    cases hmethod : c.classMethod? name.lexeme with
    | some f =>
      exact .of_ok (a := .method f) (by simp only [property, hmethod]) (.refl hs)
        ⟨ClassValue.Suits.classMethod? ho hmethod, trivial⟩
    | none => exact .of_error (by simp only [property, hmethod]; rfl) hs
  | _ => exact .of_error rfl hs

theorem upholds_callNative (hs : m.heap.Settled L) (token : Token) (native : Native)
    (args : List Value) :
    Upholds L m (callNative token native args) (callNative token native args)
      fun m' v => v.Suits L m'.heap := by
  cases hcall : native.call m.clock args with
  | ok v =>
    exact .of_ok (by simp only [callNative, hcall]) (.refl hs) (Native.call_isPlain hcall).suits
  | error fault => exact .of_error (by simp only [callNative, hcall]; rfl) hs

end

/-! ## Tasks -/

/-- A task that may begin on a machine. -/
def Task.Suits (L : Ledger) (m : Machine) : Task → Prop
  | .read .. => True
  | .write name _ value => IsVariableName name.lexeme ∧ value.Suits L m.heap
  | .inherit keyword link => ∃ sup ∈ L.supers, sup.keyword = keyword ∧ sup.link = link ∧
    m.heap.Serves L m.scope sup.scene.roles
  | .expr e => ∃ p : Scene _, m.heap.Serves L m.scope p.roles ∧ e.Listed L p
  | .exprs es => ∃ p : Scene _, m.heap.Serves L m.scope p.roles ∧ Expr.ListedAll L p es
  | .bound _ method receiver =>
    method.SuitsUnbound L m.heap ∧ receiver.Suits L m.heap ∧ receiver.IsReceiver
  | .call _ callee args | .enter _ callee args =>
    callee.Suits L m.heap ∧ ∀ v ∈ args, v.Suits L m.heap
  | .body f args => f.Suits L m.heap ∧ ∀ v ∈ args, v.Suits L m.heap
  | .stmt s => ∃ p : Scene _, m.heap.Serves L m.scope p.roles ∧ s.Listed L p
  | .stmts ss => ∃ p : Scene _, m.heap.Serves L m.scope p.roles ∧ Stmt.ListedAll L p ss
  | .loop condition round update _ => ∃ p : Scene _, m.heap.Serves L m.scope p.roles ∧
    condition.Listed L p ∧ round.Listed L p ∧ ∀ u ∈ update, u.Listed L p

/-- What holds of the result of a task that began on a machine. -/
def Task.Gives (L : Ledger) (m m' : Machine) : (t : Task) → t.Result → Prop
  | .read name link, v => Reads L name link m m' v
  | .write .., _ => True
  | .inherit .., (superclass, receiver) => (∃ c, superclass = .cls c) ∧
    superclass.Suits L m'.heap ∧ receiver.Suits L m'.heap ∧ receiver.IsReceiver
  | .exprs _, vs => ∀ v ∈ vs, v.Suits L m'.heap
  | .stmt _, signal | .stmts _, signal | .loop .., signal => signal.Suits L m'.heap
  | .expr _, v => Value.Suits L m'.heap v
  | .bound _ method receiver, v =>
    Value.Suits L m'.heap v ∧ method.Awaits receiver m'.heap v
  | .call _ callee _, v | .enter _ callee _, v =>
    Value.Suits L m'.heap v ∧ callee.Delivers m.heap m'.heap v
  | .body f _, v => Value.Suits L m'.heap v ∧ f.Returns m.heap m'.heap v

/-- Two ways to evaluate that do the same on tasks that suit, and uphold that they do. -/
def Upholding (L : Ledger) (r' r : Runner) : Prop :=
  ∀ (t : Task) (m : Machine), m.heap.Settled L → t.Suits L m →
    Upholds L m (r' t) (r t) fun m' a => t.Gives L m m' a

/-! ## One evaluation -/

/-- The receiver that a method was bound to, where something stands for one that is missing. -/
def receiverOr (missing : Value) (method : Closure) : Eval Value := fun m =>
  .ok (((m.heap.slots method.scope).get? "this").getD missing) m

/-- The body of a function, where something stands for a receiver that is missing. -/
def bodyStepOr (missing : Value) (r : Runner) (f : Closure) (args : List Value) : Eval Value := do
  let scope ← newScope f.scope (parameterSlots f.function.params args)
  let signal ← inScope scope (r.stmts f.function.body)
  if f.initializer then receiverOr missing f
  else
    match signal with
    | .leave v => return v
    | _ => return .none

namespace Upholding

variable {L : Ledger} {r' r : Runner} {m : Machine} {p : Scene (Option Link)}

theorem expr (h : Upholding L r' r) (hs : m.heap.Settled L)
    (hp : m.heap.Serves L m.scope p.roles) {e : Expr (Option Link)} (he : e.Listed L p) :
    Upholds L m (r'.expr e) (r.expr e) fun m' v => v.Suits L m'.heap :=
  h (.expr e) m hs ⟨p, hp, he⟩

theorem exprs (h : Upholding L r' r) (hs : m.heap.Settled L)
    (hp : m.heap.Serves L m.scope p.roles) {es : List (Expr (Option Link))}
    (hes : Expr.ListedAll L p es) :
    Upholds L m (r'.exprs es) (r.exprs es) fun m' vs => ∀ v ∈ vs, v.Suits L m'.heap :=
  h (.exprs es) m hs ⟨p, hp, hes⟩

theorem read (h : Upholding L r' r) (hs : m.heap.Settled L) (name : Token) (link : Option Link) :
    Upholds L m (r'.read name link) (r.read name link) (Reads L name link m) :=
  h (.read name link) m hs trivial

theorem write (h : Upholding L r' r) (hs : m.heap.Settled L) {name : Token} (link : Option Link)
    {value : Value} (hname : name.ReadsAs .identifier) (hv : value.Suits L m.heap) :
    Upholds L m (r'.write name link value) (r.write name link value) fun _ _ => True :=
  h (.write name link value) m hs ⟨hname.isVariableName, hv⟩

theorem stmt (h : Upholding L r' r) (hs : m.heap.Settled L)
    (hp : m.heap.Serves L m.scope p.roles) {s : Stmt (Option Link)} (hstmt : s.Listed L p) :
    Upholds L m (r'.stmt s) (r.stmt s) fun m' signal => signal.Suits L m'.heap :=
  h (.stmt s) m hs ⟨p, hp, hstmt⟩

theorem stmts (h : Upholding L r' r) (hs : m.heap.Settled L)
    (hp : m.heap.Serves L m.scope p.roles) {ss : List (Stmt (Option Link))}
    (hss : Stmt.ListedAll L p ss) :
    Upholds L m (r'.stmts ss) (r.stmts ss) fun m' signal => signal.Suits L m'.heap :=
  h (.stmts ss) m hs ⟨p, hp, hss⟩

theorem assignStep (h : Upholding L r' r) (hs : m.heap.Settled L)
    (hp : m.heap.Serves L m.scope p.roles) {name : Token} (op : Token)
    {value : Expr (Option Link)} (link : Option Link) (hname : name.ReadsAs .identifier)
    (hvalue : value.Listed L p) :
    Upholds L m (assignStep r' name op value link) (assignStep r name op value link)
      fun m' v => v.Suits L m'.heap := by
  unfold Eval.assignStep
  split
  · refine (h.expr hs hp hvalue).bind fun v m₁ hm₁ hv => ?_
    refine (h.write hm₁.settled link hname hv).bind fun _ m₂ hm₂ _ => ?_
    exact upholds_pure hm₂.settled (hv.mono hm₂.steady)
  · refine (h.read hs name link).bind fun current m₁ hm₁ _ => ?_
    refine (h.expr hm₁.settled (hm₁.serves hp) hvalue).bind fun v m₂ hm₂ _ => ?_
    refine (upholds_lift (P := fun m' v => Value.Suits L m'.heap v) hm₂.settled
      fun v hv => (Value.combine_isPlain hv).suits).bind fun v m₃ hm₃ hv => ?_
    refine (h.write hm₃.settled link hname hv).bind fun _ m₄ hm₄ _ => ?_
    exact upholds_pure hm₄.settled (hv.mono hm₄.steady)

theorem increment (h : Upholding L r' r) (hs : m.heap.Settled L) (op : Token) (trailing : Bool)
    {name : Token} (link : Option Link) (hname : name.ReadsAs .identifier) :
    Upholds L m (increment r' op trailing name link) (increment r op trailing name link)
      fun m' v => v.Suits L m'.heap := by
  unfold Eval.increment
  refine (h.read hs name link).bind fun old m₁ hm₁ _ => ?_
  cases old with
  | number x =>
    have hnumber : Value.Suits L m₁.heap (.number (stepped op.kind x)) := trivial
    refine (h.write hm₁.settled link hname hnumber).bind fun _ m₂ hm₂ _ => ?_
    exact upholds_pure hm₂.settled trivial
  | _ => exact upholds_fail hm₁.settled

theorem unaryStep (h : Upholding L r' r) (hs : m.heap.Settled L)
    (hp : m.heap.Serves L m.scope p.roles) (op : Token) {operand : Expr (Option Link)}
    (trailing : Bool) (hoperand : operand.Listed L p) :
    Upholds L m (unaryStep r' op operand trailing) (unaryStep r op operand trailing)
      fun m' v => v.Suits L m'.heap := by
  unfold Eval.unaryStep
  split
  · cases operand with
    | name span name link => exact h.increment hs op trailing link hoperand.words
    | _ => exact upholds_fail hs
  · refine (h.expr hs hp hoperand).bind fun v m₁ hm₁ _ => ?_
    exact upholds_lift hm₁.settled fun v hv => (Value.unary_isPlain hv).suits

theorem callStep (h : Upholding L r' r) (hs : m.heap.Settled L)
    (hp : m.heap.Serves L m.scope p.roles) {callee : Expr (Option Link)} (paren : Token)
    {args : List (Expr (Option Link))} (hcallee : callee.Listed L p)
    (hargs : Expr.ListedAll L p args) :
    Upholds L m (callStep r' callee paren args) (callStep r callee paren args)
      fun m' v => v.Suits L m'.heap := by
  unfold Eval.callStep
  refine (h.expr hs hp hcallee).bind fun f m₁ hm₁ hf => ?_
  refine (h.exprs hm₁.settled (hm₁.serves hp) hargs).bind fun vs m₂ hm₂ hvs => ?_
  split
  · exact upholds_fail hm₂.settled
  · split
    · exact (h (.call paren f vs) m₂ hm₂.settled ⟨hf.mono hm₂.steady, hvs⟩).imp
        fun _ _ _ hv => hv.1
    · exact upholds_fail hm₂.settled

theorem setStep (h : Upholding L r' r) (hs : m.heap.Settled L)
    (hp : m.heap.Serves L m.scope p.roles) {object value : Expr (Option Link)} (name : Token)
    (hobject : object.Listed L p) (hvalue : value.Listed L p) :
    Upholds L m (setStep r' object name value) (setStep r object name value)
      fun m' v => v.Suits L m'.heap := by
  unfold Eval.setStep
  refine (h.expr hs hp hobject).bind fun o m₁ hm₁ _ => ?_
  cases o with
  | object id c =>
    refine (h.expr hm₁.settled (hm₁.serves hp) hvalue).bind fun v m₂ hm₂ hv => ?_
    refine (upholds_setField hm₂.settled id name.lexeme hv).bind fun _ m₃ hm₃ _ => ?_
    exact upholds_pure hm₃.settled (hv.mono hm₃.steady)
  | _ => exact upholds_fail hm₁.settled

theorem inheritedStep (h : Upholding L r' r) (hs : m.heap.Settled L) {sup : Super (Option Link)}
    (hsup : sup ∈ L.supers) (hp : m.heap.Serves L m.scope sup.scene.roles) :
    Upholds L m (inheritedStep r' sup.keyword sup.method sup.link)
      (inheritedStep r sup.keyword sup.method sup.link) fun m' v => v.Suits L m'.heap := by
  unfold Eval.inheritedStep
  have hinherit := h (.inherit sup.keyword sup.link) m hs ⟨sup, hsup, rfl, rfl, hp⟩
  refine hinherit.bind fun pair m₁ hm₁ hpair => ?_
  obtain ⟨superclass, receiver⟩ := pair
  obtain ⟨⟨c, rfl⟩, hc, hv, hr⟩ := hpair
  dsimp only
  split
  · next f hf =>
    have hmethod : f.SuitsUnbound L m₁.heap := by
      split at hf
      · exact ClassValue.Suits.classMethod? hc hf
      · exact ClassValue.Suits.method? hc hf
    exact (h (.bound sup.method f receiver) m₁ hm₁.settled ⟨hmethod, hv, hr⟩).imp
      fun _ _ _ hv => hv.1
  · exact upholds_fail hm₁.settled

theorem exprStep (h : Upholding L r' r) (hs : m.heap.Settled L)
    (hp : m.heap.Serves L m.scope p.roles) {e : Expr (Option Link)} (he : e.Listed L p) :
    Upholds L m (exprStep r' e) (exprStep r e) fun m' v => v.Suits L m'.heap := by
  obtain ⟨hw, hsupers⟩ := he
  cases e with
  | literal span value => exact upholds_pure hs (Value.isPlain_ofLiteral value).suits
  | name span name link => exact (h.read hs name link).imp fun _ _ _ hv => hv.2.2
  | assign span name op value link => exact h.assignStep hs hp op link hw.1 ⟨hw.2, hsupers⟩
  | binary span left op right =>
    obtain ⟨hleft, hright⟩ := List.append_subset.mp hsupers
    refine (h.expr hs hp ⟨hw.1, hleft⟩).bind fun l m₁ hm₁ _ => ?_
    refine (h.expr hm₁.settled (hm₁.serves hp) ⟨hw.2, hright⟩).bind fun v m₂ hm₂ hv => ?_
    split
    · exact upholds_pure hm₂.settled hv
    · exact upholds_lift hm₂.settled fun v hv => (Value.combine_isPlain hv).suits
  | logical span left op right =>
    obtain ⟨hleft, hright⟩ := List.append_subset.mp hsupers
    refine (h.expr hs hp ⟨hw.1, hleft⟩).bind fun l m₁ hm₁ hl => ?_
    split
    · exact upholds_pure hm₁.settled hl
    · exact h.expr hm₁.settled (hm₁.serves hp) ⟨hw.2, hright⟩
  | unary span op operand trailing => exact h.unaryStep hs hp op trailing ⟨hw, hsupers⟩
  | ternary span condition onTrue onFalse =>
    obtain ⟨hcondition, hrest⟩ := List.append_subset.mp hsupers
    obtain ⟨htrue, hfalse⟩ := List.append_subset.mp hrest
    refine (h.expr hs hp ⟨hw.1, hcondition⟩).bind fun c m₁ hm₁ _ => ?_
    split
    · exact h.expr hm₁.settled (hm₁.serves hp) ⟨hw.2.1, htrue⟩
    · exact h.expr hm₁.settled (hm₁.serves hp) ⟨hw.2.2, hfalse⟩
  | group span inner => exact h.expr hs hp ⟨hw, hsupers⟩
  | call span callee paren args =>
    obtain ⟨hcallee, hargs⟩ := List.append_subset.mp hsupers
    exact h.callStep hs hp paren ⟨hw.1, hcallee⟩ ⟨hw.2, hargs⟩
  | lambda function =>
    refine (upholds_closure hs hp [] ⟨hw, hsupers⟩).bind fun f m₁ hm₁ hf => ?_
    exact upholds_pure hm₁.settled hf
  | get span object name =>
    have hobject : object.Listed L p := ⟨hw, hsupers⟩
    refine (h.expr hs hp hobject).bind fun o m₁ hm₁ ho => ?_
    refine (upholds_property hm₁.settled ho name).bind fun q m₂ hm₂ hq => ?_
    cases q with
    | field v => exact upholds_pure hm₂.settled hq
    | method f =>
      exact (h (.bound name f o) m₂ hm₂.settled ⟨hq.1, ho.mono hm₂.steady, hq.2⟩).imp
        fun _ _ _ hv => hv.1
  | set span object name value =>
    obtain ⟨hvalue, hobject⟩ := List.append_subset.mp hsupers
    exact h.setStep hs hp name ⟨hw.1, hobject⟩ ⟨hw.2, hvalue⟩
  | receiver span keyword link => exact (h.read hs keyword link).imp fun _ _ _ hv => hv.2.2
  | inherited span keyword method link =>
    have hsup : (⟨p, keyword, method, link⟩ : Super _) ∈ L.supers :=
      hsupers (List.mem_singleton_self _)
    exact h.inheritedStep hs hsup hp

theorem exprsStep (h : Upholding L r' r) (hs : m.heap.Settled L)
    (hp : m.heap.Serves L m.scope p.roles) {es : List (Expr (Option Link))}
    (hes : Expr.ListedAll L p es) :
    Upholds L m (exprsStep r' es) (exprsStep r es) fun m' vs => ∀ v ∈ vs, v.Suits L m'.heap := by
  cases es with
  | nil => exact upholds_pure hs (List.forall_mem_nil _)
  | cons e es =>
    obtain ⟨he, hes⟩ := hes.of_cons
    refine (h.expr hs hp he).bind fun v m₁ hm₁ hv => ?_
    refine (h.exprs hm₁.settled (hm₁.serves hp) hes).bind fun vs m₂ hm₂ hvs => ?_
    exact upholds_pure hm₂.settled (List.forall_mem_cons.mpr ⟨hv.mono hm₂.steady, hvs⟩)

theorem boundStep (h : Upholding L r' r) (hs : m.heap.Settled L) (token : Token)
    {method : Closure} {receiver : Value} (hmethod : method.SuitsUnbound L m.heap)
    (hv : receiver.Suits L m.heap) (hr : receiver.IsReceiver)
    (hmade : L.made (.receiver m.heap.nextScope receiver)) :
    Upholds L m (boundStep r' token method receiver) (boundStep r token method receiver)
      fun m' v => v.Suits L m'.heap ∧ method.Awaits receiver m'.heap v := by
  unfold Eval.boundStep
  refine (upholds_bindReceiver hs hmethod hv hr hmade).bind fun f m₁ hm₁ hf => ?_
  have hgetter : f.getter = method.getter := congrArg Function.getter hf.function
  split
  · next hget =>
    refine (h (.call token (.function f) []) m₁ hm₁.settled
      ⟨hf.suits, List.forall_mem_nil _⟩).imp fun m₂ v hm₂ hresult => ⟨hresult.1, fun hinit => ?_⟩
    -- the receiver of an initializer that runs at once is the one it was just bound to
    have hreturns := (hresult.2 (hf.initializer.trans hinit)).1
    rw [if_pos (hgetter.symm.trans hget)]
    exact Option.some.inj (hreturns.symm.trans hf.receiver)
  · next hget =>
    refine upholds_pure hm₁.settled ⟨hf.suits, fun hinit => ?_⟩
    rw [if_neg (hgetter ▸ hget)]
    exact ⟨f, rfl, hf.initializer.trans hinit, hf.receiver⟩

theorem construct (h : Upholding L r' r) (hs : m.heap.Settled L) {c : ClassValue}
    {args : List Value} (hc : c.Suits L m.heap) (hargs : ∀ v ∈ args, v.Suits L m.heap)
    (hmade : ∀ init, c.method? ClassValue.initName = some init →
      L.made (.receiver m.heap.nextScope (.object m.heap.nextObject c))) :
    Upholds L m (construct r' c args) (construct r c args) fun m' v => v.Suits L m'.heap ∧
      v = .object m.heap.nextObject c ∧ m.heap.nextObject < m'.heap.nextObject := by
  unfold Eval.construct
  refine (upholds_newObject hs).bind fun id m₁ hm₁ hid => ?_
  obtain ⟨rfl, hlt, hnext⟩ := hid
  have hobject : Value.Suits L m₁.heap (.object m.heap.nextObject c) := hc.mono hm₁.steady
  dsimp only
  split
  · exact upholds_pure hm₁.settled ⟨hobject, rfl, hlt⟩
  · next init hinit =>
    have hmethod := ClassValue.Suits.method? hobject hinit
    refine (upholds_bindReceiver hm₁.settled hmethod hobject trivial
      (hnext ▸ hmade init hinit)).bind fun f m₂ hm₂ hf => ?_
    have hbody : (Task.body f args).Suits L m₂ :=
      ⟨hf.suits, fun v hv => ((hargs v hv).mono hm₁.steady).mono hm₂.steady⟩
    refine (h (.body f args) m₂ hm₂.settled hbody).bind fun _ m₃ hm₃ _ => ?_
    have hsteady := (hm₂.trans hm₃).steady
    exact upholds_pure hm₃.settled
      ⟨hobject.mono hsteady, rfl, Nat.lt_of_lt_of_le hlt hsteady.objects⟩

theorem enterStep (h : Upholding L r' r) (hs : m.heap.Settled L) (token : Token)
    {callee : Value} {args : List Value} (hcallee : callee.Suits L m.heap)
    (hargs : ∀ v ∈ args, v.Suits L m.heap)
    (hmade : ∀ x, (Task.enter token callee args).Fixes m x → L.made x) :
    Upholds L m (enterStep r' token callee args) (enterStep r token callee args)
      fun m' v => v.Suits L m'.heap ∧ callee.Delivers m.heap m'.heap v := by
  cases callee with
  | function f => exact h (.body f args) m hs ⟨hcallee, hargs⟩
  | cls c =>
    exact h.construct hs hcallee hargs fun init hinit => hmade _ (.construct token args m hinit)
  | native n => exact (upholds_callNative hs token n args).imp fun _ _ _ hv => ⟨hv, trivial⟩
  | _ => exact upholds_fail hs

/-- The body of an initializer ends with the receiver that its scope holds, so nothing ever stands
for one that is missing. -/
theorem bodyStepOr (h : Upholding L r' r) (hs : m.heap.Settled L) (missing : Value) {f : Closure}
    {args : List Value} (hf : f.Suits L m.heap) (hargs : ∀ v ∈ args, v.Suits L m.heap) :
    Upholds L m (bodyStepOr missing r' f args) (bodyStep r f args)
      fun m' v => v.Suits L m'.heap ∧ f.Returns m.heap m'.heap v := by
  obtain ⟨p, hp, hlisted, hinit⟩ := hf
  have hslots : (parameterSlots f.function.params args).All (Value.Suits L m.heap) :=
    fun x v hv => hargs v (get?_parameterSlots hv).2
  unfold Eval.bodyStepOr Eval.bodyStep
  refine (upholds_ordinary hs hp hslots).bind fun scope m₁ hm₁ hscope => ?_
  have hbody := h (.stmts f.function.body) { m₁ with scope := scope } hm₁.settled
    ⟨_, hscope, hlisted.body⟩
  refine (hbody.inScope (P := fun h signal => Signal.Suits L h signal)).bind
    fun signal m₂ hm₂ hsignal => ?_
  split
  · next hinitializer =>
    obtain ⟨roles, hroles⟩ := hinit hinitializer
    rw [hroles] at hp
    obtain ⟨⟨v, hv, -, -⟩, -⟩ := hp
    have hv' := (hm₁.trans hm₂).steady.slots _ _ _ not_isVariableName_this hv
    have hreceiver : ∀ missing, receiverOr missing f m₂ = .ok v m₂ := by
      intro missing
      simp only [receiverOr, hv', Option.getD_some]
    refine ⟨(hreceiver missing).trans (hreceiver .none).symm, ?_⟩
    rw [show receiverOf f m₂ = .ok v m₂ from hreceiver .none]
    exact ⟨.refl hm₂.settled, hm₂.settled.slots _ _ v hv', fun _ => ⟨hv, hv'⟩⟩
  · next hinitializer =>
    cases signal with
    | leave v => exact upholds_pure hm₂.settled ⟨hsignal, fun hi => absurd hi hinitializer⟩
    | _ => exact upholds_pure hm₂.settled ⟨trivial, fun hi => absurd hi hinitializer⟩

/-- What a class declaration finds as its superclass. -/
theorem superclassOf (h : Upholding L r' r) (hs : m.heap.Settled L)
    (superclass : Option (Token × Option Link)) :
    Upholds L m (superclassOf r' superclass) (superclassOf r superclass)
      fun m' parent => m' = m ∧ parent.isSome = superclass.isSome ∧
        ∀ c ∈ parent, c.Suits L m.heap ∧
          ∀ q ∈ superclass, readLink q.1 q.2 m = .ok (.cls c) m := by
  cases superclass with
  | none => exact upholds_pure hs ⟨rfl, rfl, fun c hc => by cases hc⟩
  | some q =>
    obtain ⟨token, link⟩ := q
    refine (h.read hs token link).bind fun v m₁ hm₁ hv => ?_
    obtain ⟨rfl, hread, hsuits⟩ := hv
    cases v with
    | cls c =>
      refine upholds_pure hm₁.settled ⟨rfl, rfl, fun c' hc' => ?_⟩
      cases hc'
      refine ⟨hsuits, fun q hq => ?_⟩
      cases hq
      exact hread
    | _ => exact upholds_fail hm₁.settled

/-- A variable is declared. -/
theorem declare (hs : m.heap.Settled L) {name : Text} (hname : IsVariableName name)
    {value : Value} (hv : value.Suits L m.heap) :
    Upholds L m (do define name value; return .next) (do define name value; return .next)
      fun m' signal => Signal.Suits L m'.heap signal :=
  (upholds_define hs hname hv).bind fun _ _ hm _ => upholds_pure hm.settled trivial

theorem declareClass (h : Upholding L r' r) (hs : m.heap.Settled L)
    (hp : m.heap.Serves L m.scope p.roles) {span : Span} {name : Token}
    {superclass : Option (Token × Option Link)}
    {methods classMethods : List (Declaration (Option Link))}
    (hstmt : (Stmt.declareClass span name superclass methods classMethods).Listed L p)
    (hmade : ∀ x, (Task.stmt (.declareClass span name superclass methods classMethods)).Fixes m x →
      L.made x) :
    Upholds L m (declareClass r' name superclass methods classMethods)
      (declareClass r name superclass methods classMethods)
      fun m' signal => signal.Suits L m'.heap := by
  obtain ⟨⟨hname, -, hwm, hwc⟩, hsupers⟩ := hstmt
  obtain ⟨hmethods, hclass⟩ := List.append_subset.mp hsupers
  unfold Eval.declareClass
  refine (h.superclassOf hs superclass).bind fun parent m₁ hm₁ hparent => ?_
  obtain ⟨rfl, hderived, hfound⟩ := hparent
  have hnone : Value.Suits L m₁.heap .none := trivial
  refine (upholds_define hs hname.isVariableName hnone).bind fun _ m₂ hm₂ hnext => ?_
  have hsuperclass : ∀ c ∈ parent, c.Suits L m₂.heap ∧ L.made (.superclass m₂.heap.nextScope
      (.declareClass span name superclass methods classMethods) c) := by
    intro c hc
    obtain ⟨hsuits, hread⟩ := hfound c hc
    refine ⟨hsuits.mono hm₂.steady, ?_⟩
    rw [hnext]
    cases superclass with
    | none =>
      rw [show parent = some c from hc] at hderived
      cases hderived
    | some q =>
      obtain ⟨token, link⟩ := q
      exact hmade _ (.declare span name token link methods classMethods (hread _ rfl))
  have hadded : m₂.heap.Serves L m₂.scope (p.add name.lexeme).roles := hm₂.serves hp
  unfold Scene.inClass at hmethods hclass
  rw [← hderived] at hmethods hclass
  refine (upholds_makeClass hm₂.settled hadded name.lexeme hsuperclass ⟨hwm, hmethods⟩
    ⟨hwc, hclass⟩).bind fun c m₃ hm₃ hc => ?_
  have hcls : Value.Suits L m₃.heap (.cls c) := hc
  exact declare hm₃.settled hname.isVariableName hcls

theorem blockStep (h : Upholding L r' r) (hs : m.heap.Settled L)
    (hp : m.heap.Serves L m.scope p.roles) {span : Span} {body : List (Stmt (Option Link))}
    (hbody : Stmt.ListedAll L (p.enter (Stmt.declaredList body)) body) :
    Upholds L m (Eval.stmtStep r' (.block span body)) (Eval.stmtStep r (.block span body))
      fun m' signal => signal.Suits L m'.heap := by
  refine Upholds.bind (P := fun m' here => m' = m ∧ here = m.scope)
    (.of_ok rfl (.refl hs) ⟨rfl, rfl⟩) fun here m₁ hm₁ hhere => ?_
  obtain ⟨rfl, rfl⟩ := hhere
  refine (upholds_ordinary hs hp .nil).bind fun scope m₂ hm₂ hscope => ?_
  exact (h (.stmts body) { m₂ with scope := scope } hm₂.settled
    ⟨_, hscope, hbody⟩).inScope (P := fun h signal => Signal.Suits L h signal)

theorem stmtStep (h : Upholding L r' r) (hs : m.heap.Settled L)
    (hp : m.heap.Serves L m.scope p.roles) {s : Stmt (Option Link)} (hstmt : s.Listed L p)
    (hmade : ∀ x, (Task.stmt s).Fixes m x → L.made x) :
    Upholds L m (stmtStep r' s) (stmtStep r s) fun m' signal => signal.Suits L m'.heap := by
  cases s with
  | declareClass span name superclass methods classMethods =>
    exact h.declareClass hs hp hstmt hmade
  | evaluate span e =>
    refine (h.expr hs hp ⟨hstmt.words, hstmt.supers⟩).bind fun _ m₁ hm₁ _ => ?_
    exact upholds_pure hm₁.settled trivial
  | print span keyword value =>
    have hvalue : value.Listed L p := ⟨hstmt.words, hstmt.supers⟩
    refine (h.expr hs hp hvalue).bind fun v m₁ hm₁ _ => ?_
    refine (upholds_printLine hm₁.settled v.shown).bind fun _ m₂ hm₂ _ => ?_
    exact upholds_pure hm₂.settled trivial
  | declareVar span name init =>
    cases init with
    | none =>
      have hname : name.ReadsAs .identifier := hstmt.words
      exact declare hs hname.isVariableName trivial
    | some init =>
      have hinit : init.Listed L (p.await name.lexeme) := ⟨hstmt.words.2, hstmt.supers⟩
      refine (h.expr hs (p := p.await name.lexeme) hp hinit).bind fun v m₁ hm₁ hv => ?_
      exact declare hm₁.settled hstmt.words.1.isVariableName hv
  | block span body => exact h.blockStep hs hp ⟨hstmt.words, hstmt.supers⟩
  | branch span condition onTrue onFalse =>
    obtain ⟨hcondition, htrue, hfalse⟩ := hstmt.of_branch
    refine (h.expr hs hp hcondition).bind fun c m₁ hm₁ _ => ?_
    cases onFalse with
    | none =>
      split
      · exact h.stmt hm₁.settled (hm₁.serves hp) htrue
      · exact upholds_pure hm₁.settled trivial
    | some onFalse =>
      split
      · exact h.stmt hm₁.settled (hm₁.serves hp) htrue
      · exact h.stmt hm₁.settled (hm₁.serves hp) (hfalse onFalse rfl)
  | loop span condition body update bodyFirst =>
    exact h (.loop condition body update bodyFirst) m hs ⟨p, hp, hstmt.of_loop⟩
  | leave span keyword value =>
    cases value with
    | none => exact upholds_pure hs trivial
    | some value =>
      refine (h.expr hs hp ⟨hstmt.words, hstmt.supers⟩).bind fun v m₁ hm₁ hv => ?_
      exact upholds_pure hm₁.settled hv
  | breakLoop span keyword => exact upholds_pure hs trivial
  | continueLoop span keyword => exact upholds_pure hs trivial
  | declareFunction d =>
    obtain ⟨span, name, function⟩ := d
    have hfunction : function.Listed L (p.add name.lexeme) := ⟨hstmt.words.2, hstmt.supers⟩
    have hclosure := upholds_closure hs (p := p.add name.lexeme) hp name.lexeme hfunction
    refine hclosure.bind fun f m₁ hm₁ hf => ?_
    have hvalue : Value.Suits L m₁.heap (.function f) := hf
    exact declare hm₁.settled hstmt.words.1.isVariableName hvalue

theorem stmtsStep (h : Upholding L r' r) (hs : m.heap.Settled L)
    (hp : m.heap.Serves L m.scope p.roles) {ss : List (Stmt (Option Link))}
    (hss : Stmt.ListedAll L p ss) :
    Upholds L m (stmtsStep r' ss) (stmtsStep r ss) fun m' signal => signal.Suits L m'.heap := by
  cases ss with
  | nil => exact upholds_pure hs trivial
  | cons s rest =>
    obtain ⟨hstmt, hrest⟩ := hss.of_cons
    refine (h.stmt hs hp hstmt).bind fun signal m₁ hm₁ hsignal => ?_
    cases signal with
    | next => exact h.stmts hm₁.settled (p := p.addAll s.declared) (hm₁.serves hp) hrest
    | leave v => exact upholds_pure hm₁.settled hsignal
    | breakLoop => exact upholds_pure hm₁.settled trivial
    | continueLoop => exact upholds_pure hm₁.settled trivial

theorem loopStep (h : Upholding L r' r) (hs : m.heap.Settled L)
    (hp : m.heap.Serves L m.scope p.roles) {condition : Expr (Option Link)}
    {body : Stmt (Option Link)} {update : Option (Expr (Option Link))} (skipTest : Bool)
    (hcondition : condition.Listed L p) (hbody : body.Listed L p)
    (hupdate : ∀ u ∈ update, u.Listed L p) :
    Upholds L m (loopStep r' condition body update skipTest)
      (loopStep r condition body update skipTest) fun m' signal => signal.Suits L m'.heap := by
  have htest : Upholds L m (testStep r' condition skipTest) (testStep r condition skipTest)
      fun _ _ => True := by
    unfold testStep
    split
    · exact upholds_pure hs trivial
    · exact (h.expr hs hp hcondition).imp fun _ _ _ _ => trivial
  unfold Eval.loopStep
  refine htest.bind fun c m₁ hm₁ _ => ?_
  split
  · refine (h.stmt hm₁.settled (hm₁.serves hp) hbody).bind fun signal m₂ hm₂ hsignal => ?_
    have hp₂ := hm₂.serves (hm₁.serves hp)
    split
    · exact upholds_pure hm₂.settled trivial
    · exact upholds_pure hm₂.settled hsignal
    · refine Upholds.bind (P := fun _ _ => True) ?_ fun _ m₃ hm₃ _ => ?_
      · cases update with
        | none => exact upholds_pure hm₂.settled trivial
        | some u =>
          refine (h.expr hm₂.settled hp₂ (hupdate u rfl)).bind fun _ m₃ hm₃ _ => ?_
          exact upholds_pure hm₃.settled trivial
      · exact h (.loop condition body update false) m₃ hm₃.settled
          ⟨p, hm₃.serves hp₂, hcondition, hbody, hupdate⟩
  · exact upholds_pure hm₁.settled trivial

/-- One evaluation upholds what the evaluations inside it do, if it may make its fixtures. -/
theorem step (h : Upholding L r' r) (hL : ∀ sup ∈ L.supers, sup.Linked) (t : Task)
    (hs : m.heap.Settled L) (ht : t.Suits L m) (hmade : ∀ x, t.Fixes m x → L.made x) :
    Upholds L m (step r' t) (step r t) fun m' a => t.Gives L m m' a := by
  cases t with
  | read name link => exact upholds_readLink hs name link
  | write name link value => exact upholds_writeLink hs link ht.1 ht.2
  | inherit keyword link =>
    obtain ⟨sup, hsup, rfl, rfl, hp⟩ := ht
    exact upholds_inheritance hs (hL sup hsup) hp
  | expr e =>
    obtain ⟨p, hp, he⟩ := ht
    exact h.exprStep hs hp he
  | exprs es =>
    obtain ⟨p, hp, hes⟩ := ht
    exact h.exprsStep hs hp hes
  | bound token method receiver =>
    exact h.boundStep hs token ht.1 ht.2.1 ht.2.2 (hmade _ (.bound token method receiver m))
  | call token callee args =>
    exact (h (.enter token callee args) { m with depth := m.depth + 1 } hs ht).nested
      (P := fun h v => v.Suits L h ∧ callee.Delivers m.heap h v) hs
  | enter token callee args => exact h.enterStep hs token ht.1 ht.2 hmade
  | body f args => exact h.bodyStepOr hs .none ht.1 ht.2
  | stmt s =>
    obtain ⟨p, hp, hstmt⟩ := ht
    exact h.stmtStep hs hp hstmt hmade
  | stmts ss =>
    obtain ⟨p, hp, hss⟩ := ht
    exact h.stmtsStep hs hp hss
  | loop condition body update skipTest =>
    obtain ⟨p, hp, hcondition, hbody, hupdate⟩ := ht
    exact h.loopStep hs hp skipTest hcondition hbody hupdate

end Upholding

end Eval

end Scriptlet

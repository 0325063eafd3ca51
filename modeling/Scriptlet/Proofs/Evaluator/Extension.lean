import Scriptlet.Proofs.Evaluator.Moments
import Scriptlet.Proofs.Scope.Store

/-!
# Computations that keep the heap sound

`Evaluates` compares two computations on one machine with a sound heap: they do the same there,
however they end the heap is still sound and has grown, and the machine is back in its scope. A
value at the end is as expected, and an error is one of those that are allowed. The rules for
sequencing, scopes and calls come first, then one statement for each computation that has no tasks
inside it.
-/

namespace Scriptlet

/-- A machine after a computation: in the same scope, with a sound heap that has grown. -/
structure Machine.Extends (T : List (Reference (Option Link))) (W : World) (m : Machine)
    (W' : World) (m' : Machine) : Prop where
  sound : Sound T W' m'.heap
  grows : Grows W m.heap W' m'.heap
  scope : m'.scope = m.scope

namespace Machine.Extends

variable {T : List (Reference (Option Link))} {W W' W'' : World} {m m' m'' : Machine}

theorem refl (hs : Sound T W m.heap) : Extends T W m W m := ⟨hs, .refl W m.heap, rfl⟩

theorem trans (h : Extends T W m W' m') (h' : Extends T W' m' W'' m'') : Extends T W m W'' m'' :=
  ⟨h'.sound, h.grows.trans h'.grows, h'.scope.trans h.scope⟩

/-- The current scope goes on to fit its site. -/
theorem chain (h : Extends T W m W' m') {Γ : Site} (hΓ : Chain W m.heap m.scope Γ) :
    Chain W' m'.heap m'.scope Γ := by
  rw [h.scope]
  exact hΓ.mono h.grows

end Machine.Extends

namespace Eval

variable {α β : Type}

/-- Two computations that do the same on a machine and keep its heap sound. -/
def Evaluates (T : List (Reference (Option Link))) (allowed : RuntimeError → Prop) (W : World)
    (m : Machine) (x y : Eval α) (P : World → Heap → α → Prop) : Prop :=
  x m = y m ∧ (y m).Meets (fun a m' => ∃ W', m.Extends T W W' m' ∧ P W' m'.heap a)
    fun e m' => allowed e ∧ ∃ W', m.Extends T W W' m'

section

variable {T : List (Reference (Option Link))} {allowed : RuntimeError → Prop} {W : World}
  {m : Machine} {P : World → Heap → α → Prop} {Q : World → Heap → β → Prop}

/-! ## Putting computations together -/

theorem Evaluates.of_ok {x : Eval α} {a : α} {W' : World} {m' : Machine} (hx : x m = .ok a m')
    (he : m.Extends T W W' m') (hp : P W' m'.heap a) : Evaluates T allowed W m x x P := by
  refine ⟨rfl, ?_⟩
  rw [hx]
  exact ⟨W', he, hp⟩

theorem Evaluates.of_error {x : Eval α} {e : RuntimeError} (hx : x m = .error e m)
    (hs : Sound T W m.heap) (ha : allowed e) : Evaluates T allowed W m x x P := by
  refine ⟨rfl, ?_⟩
  rw [hx]
  exact ⟨ha, W, .refl hs⟩

theorem evaluates_pure {a : α} (hs : Sound T W m.heap) (h : P W m.heap a) :
    Evaluates T allowed W m (pure a) (pure a) P :=
  .of_ok rfl (.refl hs) h

theorem evaluates_fail {fault : RuntimeFault} {token : Token} (hs : Sound T W m.heap)
    (ha : allowed ⟨fault, token⟩) :
    Evaluates T allowed W m (fail fault token) (fail fault token) P :=
  .of_error rfl hs ha

theorem Evaluates.bind {x y : Eval α} {f g : α → Eval β} (hx : Evaluates T allowed W m x y P)
    (hf : ∀ a W' m', m.Extends T W W' m' → P W' m'.heap a →
      Evaluates T allowed W' m' (f a) (g a) Q) :
    Evaluates T allowed W m (x >>= f) (y >>= g) Q := by
  obtain ⟨heq, hy⟩ := hx
  unfold Evaluates
  rw [bind_apply, bind_apply, heq]
  cases hym : y m with
  | outOfFuel => exact ⟨rfl, trivial⟩
  | error e m' => rw [hym] at hy; exact ⟨rfl, hy⟩
  | ok a m' =>
    rw [hym] at hy
    obtain ⟨W', he, hp⟩ := hy
    obtain ⟨heq', hg⟩ := hf a W' m' he hp
    exact ⟨heq', hg.imp (fun _ _ ⟨W'', he', hq⟩ => ⟨W'', he.trans he', hq⟩)
      fun _ _ ⟨ha, W'', he'⟩ => ⟨ha, W'', he.trans he'⟩⟩

theorem Evaluates.imp {x y : Eval α} {P' : World → Heap → α → Prop}
    (hx : Evaluates T allowed W m x y P) (h : ∀ a W' h', P W' h' a → P' W' h' a) :
    Evaluates T allowed W m x y P' :=
  ⟨hx.1, hx.2.imp (fun a _ ⟨W', he, hp⟩ => ⟨W', he, h a W' _ hp⟩) fun _ _ he => he⟩

theorem Evaluates.inScope {x y : Eval α} {scope : ScopeId}
    (hx : Evaluates T allowed W { m with scope := scope } x y P) :
    Evaluates T allowed W m (inScope scope x) (inScope scope y) P := by
  obtain ⟨heq, hy⟩ := hx
  unfold Evaluates Eval.inScope
  dsimp only
  rw [heq]
  refine ⟨rfl, ?_⟩
  cases hym : y { m with scope := scope } with
  | outOfFuel => trivial
  | ok a m' =>
    rw [hym] at hy
    obtain ⟨W', he, hp⟩ := hy
    exact ⟨W', ⟨he.sound, he.grows, rfl⟩, hp⟩
  | error e m' =>
    rw [hym] at hy
    obtain ⟨ha, W', he⟩ := hy
    exact ⟨ha, W', he.sound, he.grows, rfl⟩

theorem Evaluates.nested {x y : Eval α} {token : Token} (hs : Sound T W m.heap)
    (ha : allowed ⟨.stackOverflow, token⟩)
    (hx : Evaluates T allowed W { m with depth := m.depth + 1 } x y P) :
    Evaluates T allowed W m (nested token x) (nested token y) P := by
  obtain ⟨heq, hy⟩ := hx
  unfold Evaluates Eval.nested
  split
  · exact ⟨rfl, ha, W, .refl hs⟩
  · rw [heq]
    refine ⟨rfl, ?_⟩
    cases hym : y { m with depth := m.depth + 1 } with
    | outOfFuel => trivial
    | ok a m' =>
      rw [hym] at hy
      obtain ⟨W', he, hp⟩ := hy
      exact ⟨W', ⟨he.sound, he.grows, he.scope⟩, hp⟩
    | error e m' =>
      rw [hym] at hy
      obtain ⟨ha, W', he⟩ := hy
      exact ⟨ha, W', he.sound, he.grows, he.scope⟩

theorem evaluates_lift {token : Token} {result : Except RuntimeFault α} (hs : Sound T W m.heap)
    (hok : ∀ a, result = .ok a → P W m.heap a)
    (herror : ∀ fault, result = .error fault → allowed ⟨fault, token⟩) :
    Evaluates T allowed W m (lift token result) (lift token result) P := by
  cases result with
  | ok a => exact .of_ok rfl (.refl hs) (hok a rfl)
  | error fault => exact .of_error rfl hs (herror fault rfl)

/-! ## Scopes and values -/

theorem evaluates_printLine (hs : Sound T W m.heap) (t : Text) :
    Evaluates T allowed W m (printLine t) (printLine t) fun _ _ _ => True :=
  .of_ok rfl ⟨hs, .refl W m.heap, rfl⟩ trivial

/-- A name that belongs to the current scope is bound there. -/
theorem evaluates_define (hs : Sound T W m.heap) {Γ : Site} (hΓ : Chain W m.heap m.scope Γ)
    {name : Text} {value : Value} (hname : name ≠ "super")
    (hhosts : ∀ f ∈ Γ.head?, name ∈ f.names)
    (hv : value.Fits T W (m.heap.define m.scope name value)) :
    Evaluates T allowed W m (define name value) (define name value)
      fun _ h _ => (h.slots m.scope).has name := by
  have hsound : Sound T W (m.heap.define m.scope name value) := by
    refine hs.define hname (fun hne => ?_) hv
    cases Γ with
    | nil => exact absurd hΓ hne
    | cons f Γ =>
      obtain ⟨p, -, hn, -⟩ := hΓ
      exact ⟨f.names, hn, hhosts f rfl⟩
  refine .of_ok rfl ⟨hsound, Sound.grows_define _ _ _, rfl⟩ ?_
  rw [Heap.slots_define, if_pos ⟨rfl, hs.lt_nextScope hΓ⟩]
  exact (Entries.has_put ..).mpr (.inl rfl)

/-- A new scope fits inside the site of its parent. -/
theorem evaluates_newScope (hs : Sound T W m.heap) {parent : ScopeId} {Γ : Site}
    (hΓ : Chain W m.heap parent Γ) (f : Frame) {slots : Entries Value}
    (hready : ∀ x ∈ f.ready, slots.has x) (hnames : ∀ x, slots.has x → x ∈ f.names)
    (hsuper : ∀ v, slots.get? "super" = some v → ∃ c, v = .cls c)
    (hslots : ∀ x v, slots.get? x = some v → v.Fits T W m.heap) :
    Evaluates T allowed W m (newScope parent slots) (newScope parent slots)
      fun W h id => Chain W h id (f :: Γ) :=
  .of_ok rfl ⟨hs.addScope (hs.lt_nextScope hΓ) hnames hsuper hslots, Sound.grows_addScope _ _ _, rfl⟩
    (hs.chain_addScope hΓ slots hready)

theorem evaluates_emptyScope (hs : Sound T W m.heap) {parent : ScopeId} {Γ : Site}
    (hΓ : Chain W m.heap parent Γ) (names : List Text) :
    Evaluates T allowed W m (newScope parent []) (newScope parent [])
      fun W h id => Chain W h id (Γ.enter names) := by
  refine evaluates_newScope hs hΓ ⟨names, [], []⟩ nofun ?_ ?_ ?_
  · intro x hx; cases hx
  · intro v hv; cases hv
  · intro x v hv; cases hv

theorem evaluates_newObject (hs : Sound T W m.heap) :
    Evaluates T allowed W m newObject newObject fun _ _ _ => True :=
  .of_ok rfl ⟨hs.addObject, .of_scopes_eq rfl (Nat.le_refl _), rfl⟩ trivial

theorem evaluates_newIdentity (hs : Sound T W m.heap) :
    Evaluates T allowed W m newIdentity newIdentity
      fun _ h n => m.heap.nextIdentity ≤ n ∧ n < h.nextIdentity :=
  .of_ok rfl ⟨hs.addIdentity, .of_scopes_eq rfl (Nat.le_succ _), rfl⟩
    ⟨Nat.le_refl _, Nat.lt_succ_self _⟩

theorem evaluates_setField (hs : Sound T W m.heap) (id : ObjectId) (name : Text) {value : Value}
    (hv : value.Fits T W m.heap) :
    Evaluates T allowed W m (setField id name value) (setField id name value)
      fun _ _ _ => True :=
  .of_ok rfl ⟨hs.setField id name hv, .of_scopes_eq rfl (Nat.le_refl _), rfl⟩ trivial

theorem evaluates_receiverOf (hs : Sound T W m.heap) (method : Closure) :
    Evaluates T allowed W m (receiverOf method) (receiverOf method)
      fun W h v => v.Fits T W h := by
  refine .of_ok rfl (.refl hs) ?_
  cases hv : (m.heap.slots method.scope).get? "this" with
  | none => trivial
  | some v => exact hs.slots _ _ v hv

theorem evaluates_closure (hs : Sound T W m.heap) (name : Text) (function : LinkedFunction) :
    Evaluates T allowed W m (closure name function) (closure name function)
      fun _ _ c => c.function = function ∧ c.scope = m.scope :=
  .of_ok rfl ⟨hs.addIdentity, .of_scopes_eq rfl (Nat.le_succ _), rfl⟩ ⟨rfl, rfl⟩

/-- The variables of a scope that holds one value. -/
theorem get?_singleton {name x : Text} {value v : Value}
    (h : Entries.get? x [(name, value)] = some v) : x = name ∧ v = value := by
  simp only [Entries.get?, beq_iff_eq] at h
  split at h
  · next hx => exact ⟨hx.symm, (Option.some.inj h).symm⟩
  · cases h

/-- A method that is bound to its receiver fits. -/
theorem evaluates_bindReceiver (hs : Sound T W m.heap) {method : Closure} {receiver : Value}
    (hmethod : method.FitsUnbound T W m.heap) (hv : receiver.Fits T W m.heap) :
    Evaluates T allowed W m (bindReceiver method receiver) (bindReceiver method receiver)
      fun W h c => c.Fits T W h ∧ c.function = method.function := by
  obtain ⟨Γ, hΓ, hknown⟩ := hmethod
  have hscope : Evaluates T allowed W m (newScope method.scope [("this", receiver)])
      (newScope method.scope [("this", receiver)])
      fun W h id => Chain W h id Γ.withReceiver := by
    refine evaluates_newScope hs hΓ ⟨["this"], ["this"], []⟩ ?_ ?_ ?_ ?_
    · simp [Entries.has, Entries.get?]
    · intro x hx
      obtain ⟨v, hv⟩ := Option.isSome_iff_exists.mp hx
      exact List.mem_singleton.mpr (get?_singleton hv).1
    · intro v hv
      exact absurd (get?_singleton hv).1 (by decide)
    · intro x v hv
      rw [(get?_singleton hv).2]
      assumption
  refine hscope.bind fun scope W' m' he hscope => ?_
  refine (evaluates_newIdentity he.sound).bind fun _ W'' m'' he' _ => ?_
  exact evaluates_pure he'.sound ⟨⟨_, hscope.mono he'.grows, hknown⟩, rfl⟩

/-! ## Classes -/

theorem evaluates_methodClosures (hs : Sound T W m.heap) {scope : ScopeId} {Γ : Site}
    (hΓ : Chain W m.heap scope Γ) {initializers : Bool} {done : Entries Closure}
    {ds : List (Declaration (Option Link))} (hds : Declaration.KnownList T Γ.withReceiver ds)
    (hdone : MethodsFit T W m.heap done) :
    Evaluates T allowed W m (methodClosures scope initializers done ds)
      (methodClosures scope initializers done ds) fun W h ms => MethodsFit T W h ms := by
  induction ds generalizing done W m with
  | nil => exact evaluates_pure hs hdone
  | cons d ds ih =>
    obtain ⟨hd, hds⟩ := hds.of_cons
    refine (evaluates_newIdentity hs).bind fun id W' m' he _ => ?_
    have hΓ' := hΓ.mono he.grows
    exact ih he.sound hΓ' hds ((hdone.mono (List.prefix_refl T) he.grows).put ⟨Γ, hΓ', hd⟩)

/-- The class of a declaration fits if its superclass does. -/
theorem evaluates_makeClass (hs : Sound T W m.heap) {Γ : Site} (hΓ : Chain W m.heap m.scope Γ)
    (name : Text) {superclass : Option ClassValue}
    {methods classMethods : List (Declaration (Option Link))}
    (hsuper : ∀ c ∈ superclass, c.Fits T W m.heap)
    (hmethods : Declaration.KnownList T (Γ.withSuperclass superclass.isSome).withReceiver methods)
    (hclass : Declaration.KnownList T (Γ.withSuperclass superclass.isSome).withReceiver
      classMethods) :
    Evaluates T allowed W m (makeClass name superclass methods classMethods)
      (makeClass name superclass methods classMethods) fun W h c => c.Fits T W h := by
  have hscope : Evaluates T allowed W m (methodScope superclass) (methodScope superclass)
      fun W h id => Chain W h id (Γ.withSuperclass superclass.isSome) := by
    cases superclass with
    | none => exact .of_ok rfl (.refl hs) hΓ
    | some c =>
      refine evaluates_newScope hs hΓ ⟨["super"], ["super"], []⟩ ?_ ?_ ?_ ?_
      · simp [Entries.has, Entries.get?]
      · intro x hx
        obtain ⟨v, hv⟩ := Option.isSome_iff_exists.mp hx
        exact List.mem_singleton.mpr (get?_singleton hv).1
      · exact fun v hv => ⟨c, (get?_singleton hv).2⟩
      · intro x v hv
        rw [(get?_singleton hv).2]
        exact hsuper c rfl
  refine hscope.bind fun scope W₁ m₁ he₁ hscope => ?_
  refine (evaluates_methodClosures he₁.sound hscope hmethods .nil).bind fun ms W₂ m₂ he₂ hms => ?_
  refine (evaluates_methodClosures he₂.sound (hscope.mono he₂.grows) hclass .nil).bind
    fun cms W₃ m₃ he₃ hcms => ?_
  refine (evaluates_newIdentity he₃.sound).bind fun id W₄ m₄ he₄ hid => ?_
  refine evaluates_pure he₄.sound ?_
  have hms' := (hms.mono (List.prefix_refl T) he₃.grows).mono (List.prefix_refl T) he₄.grows
  have hcms' := hcms.mono (List.prefix_refl T) he₄.grows
  have hbody : ClassBody.Fits T W₄ m₄.heap ⟨id, name, ms, cms⟩ := ⟨hms', hcms', hid.2⟩
  cases superclass with
  | none => exact hbody
  | some c =>
    have hg := (he₁.grows.trans he₂.grows).trans he₃.grows
    have hc : c.Fits T W₃ m₃.heap := (hsuper c rfl).mono (List.prefix_refl T) hg
    have holder : c.identity < id := Nat.lt_of_lt_of_le hc.identity hid.1
    exact ⟨hbody, holder, hc.mono (List.prefix_refl T) he₄.grows⟩

/-! ## Properties and native functions -/

/-- A property all of whose functions fit. -/
def Property.Fits (T : List (Reference (Option Link))) (W : World) (h : Heap) : Property → Prop
  | .field v => v.Fits T W h
  | .method f => f.FitsUnbound T W h

theorem evaluates_property (hallowed : ∀ e : RuntimeError, e.fault.isInternal = false → allowed e)
    (hs : Sound T W m.heap) {object : Value} (ho : object.Fits T W m.heap) (name : Token) :
    Evaluates T allowed W m (property object name) (property object name)
      fun W h p => p.Fits T W h := by
  cases object with
  | object id c =>
    cases hfield : m.heap.field? id name.lexeme with
    | some v =>
      exact .of_ok (a := .field v) (by simp only [property, hfield]) (.refl hs)
        (hs.fields _ _ v hfield)
    | none =>
      cases hmethod : c.method? name.lexeme with
      | some f =>
        exact .of_ok (a := .method f) (by simp only [property, hfield, hmethod]) (.refl hs)
          (ClassValue.Fits.method? ho hmethod)
      | none =>
        exact .of_error (by simp only [property, hfield, hmethod]; rfl) hs (hallowed _ rfl)
  | cls c =>
    cases hmethod : c.classMethod? name.lexeme with
    | some f =>
      exact .of_ok (a := .method f) (by simp only [property, hmethod]) (.refl hs)
        (ClassValue.Fits.classMethod? ho hmethod)
    | none => exact .of_error (by simp only [property, hmethod]; rfl) hs (hallowed _ rfl)
  | _ => exact .of_error rfl hs (hallowed _ rfl)

theorem evaluates_callNative
    (hallowed : ∀ e : RuntimeError, e.fault.isInternal = false → allowed e)
    (hs : Sound T W m.heap) (token : Token) (native : Native) (args : List Value) :
    Evaluates T allowed W m (callNative token native args) (callNative token native args)
      fun W h v => v.Fits T W h := by
  cases hcall : native.call m.clock args with
  | ok v =>
    exact .of_ok (by simp only [callNative, hcall]) (.refl hs) (Native.call_isPlain hcall).fits
  | error fault =>
    exact .of_error (by simp only [callNative, hcall]; rfl) hs (hallowed _ rfl)

end

end Eval

end Scriptlet

import Scriptlet.Proofs.Scope.Jumps
import Scriptlet.Proofs.Scope.Placement
import Scriptlet.Proofs.Tree.Words

/-!
# What the scopes around a place are for

Most scopes hold variables. Around the methods of a class there is one for the receiver, and around
that of a derived class another for its superclass (`Role`). The scene of a place keeps, next to its
site, what each scope of the site is for, and for which class. The uses of `super` in a tree, each
with its scene, are `Expr.supers` and its companions.

Names of variables are no keywords, so a receiver or a superclass is only ever found in a scope for
it (`Surrounds`). Resolution refuses `super` where the innermost class is not derived; everywhere
else the superclass of this very class is found, and its receiver one scope further in
(`Surrounds.derives`).
-/

namespace Scriptlet

/-! ## Scenes -/

/-- What a scope is for. -/
inductive Role (β : Type) where
  /-- Variables. -/
  | ordinary
  /-- The receiver of a method. -/
  | receiver
  /-- The superclass of a class with some declaration. -/
  | superclass (declaration : Stmt β)

/-- The scopes around a place and what each is for, the innermost first. -/
structure Scene (β : Type) where
  site : Site := []
  roles : List (Role β) := []

namespace Scene

variable {β : Type}

/-- Inside the initializer of a name. -/
def await (x : Text) (p : Scene β) : Scene β := { p with site := p.site.await x }

/-- After a name was bound in the innermost scope. -/
def add (x : Text) (p : Scene β) : Scene β := { p with site := p.site.add x }

/-- After some names were bound in the innermost scope. -/
def addAll (xs : List Text) (p : Scene β) : Scene β := { p with site := p.site.addAll xs }

/-- At the beginning of a new scope. -/
def enter (names : List Text) (p : Scene β) : Scene β :=
  ⟨p.site.enter names, .ordinary :: p.roles⟩

/-- The body of a function, after its parameters were bound. -/
def inFunction (params : List Token) (body : List (Stmt β)) (p : Scene β) : Scene β :=
  ⟨p.site.inFunction params body, .ordinary :: p.roles⟩

/-- Inside the scope that holds the receiver of a method. -/
def withReceiver (p : Scene β) : Scene β := ⟨p.site.withReceiver, .receiver :: p.roles⟩

/-- Inside the scope that holds the superclass, if a class is derived. -/
def withSuperclass (declaration : Stmt β) (derived : Bool) (p : Scene β) : Scene β :=
  ⟨p.site.withSuperclass derived,
    if derived then .superclass declaration :: p.roles else p.roles⟩

/-- Around the methods of a class. -/
def inClass (name : Token) (declaration : Stmt β) (derived : Bool) (p : Scene β) : Scene β :=
  ((p.add name.lexeme).withSuperclass declaration derived).withReceiver

end Scene

/-- A use of `super` with its scene. -/
structure Super (β : Type) where
  scene : Scene β
  keyword : Token
  method : Token
  link : β

/-- The reference to the superclass. -/
def Super.reference {β : Type} (sup : Super β) : Reference β :=
  ⟨sup.scene.site, sup.keyword, sup.link⟩

section

variable {β : Type}

mutual

/-- The uses of `super` in an expression, in the order of its references. -/
def Expr.supers (p : Scene β) : Expr β → List (Super β)
  | .literal .. | .name .. | .receiver .. => []
  | .assign _ _ _ value _ => value.supers p
  | .binary _ left _ right => left.supers p ++ right.supers p
  | .logical _ left _ right => left.supers p ++ right.supers p
  | .unary _ _ operand _ => operand.supers p
  | .ternary _ condition onTrue onFalse =>
    condition.supers p ++ (onTrue.supers p ++ onFalse.supers p)
  | .group _ inner => inner.supers p
  | .call _ callee _ args => callee.supers p ++ Expr.supersList p args
  | .lambda function => function.supers p
  | .get _ object _ => object.supers p
  | .set _ object _ value => value.supers p ++ object.supers p
  | .inherited _ keyword method link => [⟨p, keyword, method, link⟩]

def Expr.supersList (p : Scene β) : List (Expr β) → List (Super β)
  | [] => []
  | e :: es => e.supers p ++ Expr.supersList p es

/-- The uses of `super` in a function. -/
def Function.supers (p : Scene β) : Function β → List (Super β)
  | .mk _ _ params body _ => Stmt.supersList (p.inFunction params body) body

def Declaration.supersList (p : Scene β) : List (Declaration β) → List (Super β)
  | [] => []
  | .mk _ _ function :: ds => function.supers p ++ Declaration.supersList p ds

/-- The uses of `super` in a statement. -/
def Stmt.supers (p : Scene β) : Stmt β → List (Super β)
  | .evaluate _ expr => expr.supers p
  | .print _ _ value => value.supers p
  | .declareVar _ _ none => []
  | .declareVar _ name (some init) => init.supers (p.await name.lexeme)
  | .block _ stmts => Stmt.supersList (p.enter (Stmt.declaredList stmts)) stmts
  | .branch _ condition onTrue none => condition.supers p ++ onTrue.supers p
  | .branch _ condition onTrue (some onFalse) =>
    condition.supers p ++ (onTrue.supers p ++ onFalse.supers p)
  | .loop _ condition body none _ => condition.supers p ++ body.supers p
  | .loop _ condition body (some update) _ =>
    condition.supers p ++ (body.supers p ++ update.supers p)
  | .leave _ _ none => []
  | .leave _ _ (some value) => value.supers p
  | .breakLoop .. | .continueLoop .. => []
  | .declareFunction (.mk _ name function) => function.supers (p.add name.lexeme)
  | .declareClass span name superclass methods classMethods =>
    let inside := p.inClass name (.declareClass span name superclass methods classMethods)
      superclass.isSome
    Declaration.supersList inside methods ++ Declaration.supersList inside classMethods

def Stmt.supersList (p : Scene β) : List (Stmt β) → List (Super β)
  | [] => []
  | s :: ss => s.supers p ++ Stmt.supersList (p.addAll s.declared) ss

end

end

/-! ## Names that a variable may have -/

/-- Neither a receiver nor a superclass is kept under the name of a variable. -/
def IsVariableName (x : Text) : Prop := x ≠ "this" ∧ x ≠ "super"

theorem Token.ReadsAs.isVariableName {t : Token} (h : t.ReadsAs .identifier) :
    IsVariableName t.lexeme :=
  ⟨h.ne_text (k := .kwThis) (by decide), h.ne_text (k := .kwSuper) (by decide)⟩

theorem Stmt.isVariableName_of_declared {β : Type} {s : Stmt β} (h : s.Words Token.ReadsAs) :
    ∀ x ∈ s.declared, IsVariableName x := by
  cases s with
  | declareVar _ _ init =>
    cases init with
    | none => exact List.forall_mem_singleton.mpr h.isVariableName
    | some _ => exact List.forall_mem_singleton.mpr h.1.isVariableName
  | declareFunction d => cases d; exact List.forall_mem_singleton.mpr h.1.isVariableName
  | declareClass => exact List.forall_mem_singleton.mpr h.1.isVariableName
  | _ => simp [Stmt.declared]

/-! ## What surrounds a place -/

/-- A scene whose scopes belong to functions, blocks and classes of a trail. -/
inductive Surrounds {β : Type} : Scene β → Trail → Prop where
  | top : Surrounds {} []
  | ordinary {f : Frame} {Γ : Site} {t : Trail} {roles : List (Role β)} :
    ("this" : Text) ∉ f.declared → ("super" : Text) ∉ f.declared → Surrounds ⟨Γ, roles⟩ t →
      Surrounds ⟨f :: Γ, .ordinary :: roles⟩ t
  | plain {f : Frame} {Γ : Site} {t : Trail} {roles : List (Role β)} :
    Surrounds ⟨Γ, roles⟩ t → Surrounds ⟨f :: Γ, .receiver :: roles⟩ (.cls false :: t)
  | derived {f g : Frame} {Γ : Site} {t : Trail} {roles : List (Role β)} {declaration : Stmt β} :
    ("this" : Text) ∈ f.declared → ("super" : Text) ∉ f.declared → ("super" : Text) ∈ g.declared →
      Surrounds ⟨Γ, roles⟩ t →
        Surrounds ⟨f :: g :: Γ, .receiver :: .superclass declaration :: roles⟩ (.cls true :: t)
  | other {a : Ancestor} {p : Scene β} {t : Trail} :
    a.derived? = none → Surrounds p t → Surrounds p (a :: t)

namespace Surrounds

variable {β : Type} {p : Scene β} {t : Trail}

theorem declared_add (f : Frame) (x y : Text) :
    y ∈ ({ f with ready := x :: f.ready } : Frame).declared ↔ y = x ∨ y ∈ f.declared := by
  simp only [Frame.declared, List.mem_append, List.mem_cons]
  exact or_left_comm

theorem declared_await (f : Frame) (x y : Text) :
    y ∈ ({ f with pending := x :: f.pending } : Frame).declared ↔ y = x ∨ y ∈ f.declared :=
  List.mem_cons

/-- To declare a variable in the innermost scope changes nothing. -/
theorem declare (h : Surrounds p t) {x : Text} (hx : IsVariableName x) {g : Frame → Frame}
    (hg : ∀ f y, y ∈ (g f).declared ↔ y = x ∨ y ∈ f.declared) {Γ : Site}
    (hΓ : Γ = p.site.modifyHead g) : Surrounds ⟨Γ, p.roles⟩ t := by
  subst hΓ
  have hnot : ∀ {f : Frame} {y : Text}, x ≠ y → y ∉ f.declared → y ∉ (g f).declared :=
    fun hne hf hmem => ((hg _ _).mp hmem).elim (fun heq => hne heq.symm) hf
  induction h with
  | top => exact .top
  | ordinary hthis hsuper h => exact .ordinary (hnot hx.1 hthis) (hnot hx.2 hsuper) h
  | plain h => exact .plain h
  | derived hthis hsuper hg' h =>
    exact .derived ((hg _ _).mpr (.inr hthis)) (hnot hx.2 hsuper) hg' h
  | other ha _ ih => exact .other ha ih

theorem add (h : Surrounds p t) {x : Text} (hx : IsVariableName x) : Surrounds (p.add x) t := by
  refine h.declare hx (declared_add · x) ?_
  cases p.site <;> rfl

theorem await (h : Surrounds p t) {x : Text} (hx : IsVariableName x) : Surrounds (p.await x) t := by
  refine h.declare hx (declared_await · x) ?_
  cases p.site <;> rfl

theorem addAll {xs : List Text} (h : Surrounds p t) (hxs : ∀ x ∈ xs, IsVariableName x) :
    Surrounds (p.addAll xs) t := by
  induction xs generalizing p with
  | nil => exact h
  | cons x xs ih =>
    rw [List.forall_mem_cons] at hxs
    exact ih (h.add hxs.1) hxs.2

theorem enter (h : Surrounds p t) (names : List Text) : Surrounds (p.enter names) t :=
  .ordinary List.not_mem_nil List.not_mem_nil h

theorem inFunction (h : Surrounds p t) {params : List Token} {body : List (Stmt β)}
    (hparams : ∀ x ∈ params, x.ReadsAs .identifier) {a : Ancestor} (ha : a.derived? = none) :
    Surrounds (p.inFunction params body) (a :: t) :=
  .other ha ((h.enter _).addAll
    (List.forall_mem_map.mpr fun x hx => (hparams x hx).isVariableName))

theorem inClass (h : Surrounds p t) {name : Token} (hname : name.ReadsAs .identifier)
    (declaration : Stmt β) (derived : Bool) :
    Surrounds (p.inClass name declaration derived) (.cls derived :: t) := by
  have hadd := h.add hname.isVariableName
  cases derived with
  | false => exact .plain hadd
  | true =>
    exact .derived (f := ⟨["this"], ["this"], []⟩) (g := ⟨["super"], ["super"], []⟩) (by decide)
      (by decide) (by decide) hadd

end Surrounds

/-- Some scopes of variables inside the receiver of a class, which is derived. -/
def Scene.Inside {β : Type} (p : Scene β) (n : Nat) (declaration : Stmt β) : Prop :=
  ∃ rest, p.roles = List.replicate n .ordinary ++ .receiver :: .superclass declaration :: rest

/-- A scene inside a derived class, in which the superclass is found in the scope for it, and the
receiver one scope further in. -/
structure Scene.Derives {β : Type} (p : Scene β) (n : Nat) (declaration : Stmt β) : Prop where
  inside : p.Inside n declaration
  superclass : ∀ skipped, p.site.LeavesOut "super" skipped → p.site.hops skipped "super" = n + 1
  receiver : p.site.hops 0 "this" = n

/-- A variable that is declared in neither of two ways is looked for further out. -/
theorem Site.hops_cons {f : Frame} {x : Text} (hx : x ∉ f.declared) (Γ : Site) :
    Site.hops (f :: Γ) 0 x = Γ.hops 0 x + 1 := by
  simp only [Site.hops, List.drop_zero, Nat.zero_add]
  rw [List.findIdx_cons, decide_eq_false hx]
  rfl

theorem Site.hops_head {f : Frame} {x : Text} (hx : x ∈ f.declared) (Γ : Site) :
    Site.hops (f :: Γ) 0 x = 0 := by
  simp only [Site.hops, List.drop_zero, Nat.zero_add]
  rw [List.findIdx_cons, decide_eq_true hx]
  rfl

/-- A scope is only left out if it has declared the name. -/
theorem Site.LeavesOut.eq_zero {f : Frame} {Γ : Site} {x : Text} {skipped : Nat}
    (h : Site.LeavesOut (f :: Γ) x skipped) (hx : x ∉ f.declared) : skipped = 0 := by
  obtain h | ⟨-, f', hf', hmem⟩ := h
  · exact h
  · cases hf'
    exact absurd hmem hx

/-- Where the innermost class is derived, nothing comes between a place and this class. -/
theorem Surrounds.derives {β : Type} {p : Scene β} {t : Trail} (h : Surrounds p t)
    (ht : t.class? = some true) : ∃ n declaration, p.Derives n declaration := by
  induction h with
  | top | plain => cases ht
  | @ordinary f Γ t roles hthis hsuper _ ih =>
    obtain ⟨n, declaration, ⟨rest, hroles⟩, hclass, hreceiver⟩ := ih ht
    refine ⟨n + 1, declaration, ⟨rest, congrArg (Role.ordinary :: ·) hroles⟩, ?_, ?_⟩
    · intro skipped hskipped
      rw [hskipped.eq_zero hsuper, Site.hops_cons hsuper, hclass 0 (.inl rfl)]
    · rw [Site.hops_cons hthis, hreceiver]
  | @derived f g Γ t roles declaration hthis hsuper hg =>
    refine ⟨0, declaration, ⟨roles, rfl⟩, ?_, Site.hops_head hthis _⟩
    intro skipped hskipped
    rw [hskipped.eq_zero hsuper, Site.hops_cons hsuper, Site.hops_head hg]
  | @other a p t ha _ ih =>
    refine ih ?_
    rwa [Trail.class?, List.findSome?_cons, ha] at ht

/-! ## The uses of `super` among references and spots -/

section

variable {β : Type}

/-- A use of `super` stands at a spot. -/
structure Super.StandsAt (sup : Super β) (spot : Spot) : Prop where
  item : ∃ start, spot.item = .inherited start sup.keyword sup.method
  surrounds : Surrounds sup.scene spot.trail
  keyword : sup.keyword.ReadsAs .kwSuper

/-- Uses of `super` that are among some references, in their order, and stand at some of the
spots. -/
structure Among (sups : List (Super β)) (refs : List (Reference β)) (spots : List Spot) :
    Prop where
  references : (sups.map Super.reference).Sublist refs
  spots : ∀ sup ∈ sups, ∃ spot ∈ spots, sup.StandsAt spot

namespace Among

variable {sups sups' : List (Super β)} {refs refs' : List (Reference β)} {spots spots' : List Spot}

theorem nil (refs : List (Reference β)) (spots : List Spot) : Among [] refs spots :=
  ⟨List.nil_sublist refs, fun _ hsup => absurd hsup List.not_mem_nil⟩

theorem append (h : Among sups refs spots) (h' : Among sups' refs' spots') :
    Among (sups ++ sups') (refs ++ refs') (spots ++ spots') := by
  refine ⟨?_, List.forall_mem_append.mpr ⟨fun sup hsup => ?_, fun sup hsup => ?_⟩⟩
  · rw [List.map_append]
    exact h.references.append h'.references
  · obtain ⟨spot, hspot, hs⟩ := h.spots sup hsup
    exact ⟨spot, List.mem_append_left _ hspot, hs⟩
  · obtain ⟨spot, hspot, hs⟩ := h'.spots sup hsup
    exact ⟨spot, List.mem_append_right _ hspot, hs⟩

/-- Further references and spots do not matter. -/
theorem mono (h : Among sups refs spots) (hrefs : refs.Sublist refs') (hspots : spots ⊆ spots') :
    Among sups refs' spots' := by
  refine ⟨h.references.trans hrefs, fun sup hsup => ?_⟩
  obtain ⟨spot, hspot, hs⟩ := h.spots sup hsup
  exact ⟨spot, hspots hspot, hs⟩

/-- References and spots after some others. -/
theorem after (h : Among sups refs spots) (before : List (Reference β)) (earlier : List Spot) :
    Among sups (before ++ refs) (earlier ++ spots) :=
  h.mono (List.sublist_append_right _ _) (List.subset_append_right _ _)

end Among

end

section

variable {β γ : Type} (f : β → γ)

mutual

theorem Expr.supers_among : ∀ (e : Expr β) {p : Scene β} {t : Trail} (c : Context),
    Surrounds p t → e.Words Token.ReadsAs →
      Among (e.supers p) (e.references p.site) ((e.mapLinks f).spots c t)
  | .literal .., _, _, _, _, _ | .name .., _, _, _, _, _ | .receiver .., _, _, _, _, _ =>
    .nil _ _
  | .assign _ name op value _, _, _, c, hp, h =>
    (value.supers_among c hp h.2).mono (List.sublist_append_left _ _)
      (List.subset_cons_of_subset _ (List.subset_append_left _ _))
  | .binary _ left _ right, _, _, c, hp, h | .logical _ left _ right, _, _, c, hp, h =>
    (left.supers_among c hp h.1).append (right.supers_among _ hp h.2)
  | .unary _ _ operand _, _, _, c, hp, h => operand.supers_among c hp h
  | .ternary _ condition onTrue onFalse, _, _, c, hp, h =>
    (condition.supers_among c (.other rfl hp) h.1).append
      ((onTrue.supers_among _ hp h.2.1).append (onFalse.supers_among _ hp h.2.2))
  | .group _ inner, _, _, c, hp, h => inner.supers_among c hp h
  | .call _ callee _ args, _, _, c, hp, h =>
    (callee.supers_among c hp h.1).append (Expr.supersList_among args _ hp h.2)
  | .lambda function, _, _, c, hp, h => function.supers_among c hp h rfl
  | .get _ object _, _, _, c, hp, h => object.supers_among c hp h
  | .set _ object _ value, _, _, c, hp, h =>
    (value.supers_among c hp h.2).append (object.supers_among _ hp h.1)
  | .inherited span keyword method link, _, _, c, hp, h => by
    refine ⟨List.Sublist.refl _, List.forall_mem_singleton.mpr ?_⟩
    exact ⟨_, List.mem_singleton_self _, ⟨span.start, rfl⟩, hp, h⟩

theorem Expr.supersList_among : ∀ (es : List (Expr β)) {p : Scene β} {t : Trail} (c : Context),
    Surrounds p t → Expr.WordsList Token.ReadsAs es →
      Among (Expr.supersList p es) (Expr.referencesList p.site es)
        (Expr.spotsList c t (Expr.mapLinksList f es))
  | [], _, _, _, _, _ => .nil _ _
  | e :: es, _, _, c, hp, h =>
    (e.supers_among c hp h.1).append (Expr.supersList_among es _ hp h.2)

theorem Function.supers_among : ∀ (g : Function β) {p : Scene β} {t : Trail} (c : Context)
    {a : Ancestor}, Surrounds p t → g.Words Token.ReadsAs → a.derived? = none →
      Among (g.supers p) (g.references p.site) ((g.mapLinks f).spots c (a :: t))
  | .mk _ _ _ body _, _, _, _, _, hp, h, ha =>
    (Stmt.supersList_among body _ (hp.inFunction h.1 ha) h.2).after [] _

theorem Declaration.supersList_among : ∀ (ds : List (Declaration β)) {p : Scene β} {t : Trail}
    (c : Context) {kind : Text → Ancestor}, Surrounds p t →
    Declaration.WordsList Token.ReadsAs ds → (∀ x, (kind x).derived? = none) →
      Among (Declaration.supersList p ds) (Declaration.referencesList p.site ds)
        (Declaration.spotsList c t kind (Declaration.mapLinksList f ds))
  | [], _, _, _, _, _, _, _ => .nil _ _
  | .mk _ name function :: ds, _, _, c, _, hp, h, hkind =>
    (function.supers_among c hp h.1 (hkind name.lexeme)).append
      (Declaration.supersList_among ds _ hp h.2 hkind)

theorem Stmt.supers_among : ∀ (s : Stmt β) {p : Scene β} {t : Trail} (c : Context),
    Surrounds p t → s.Words Token.ReadsAs →
      Among (s.supers p) (s.references p.site) ((s.mapLinks f).spots c t)
  | .evaluate _ expr, _, _, c, hp, h => expr.supers_among c hp h
  | .print _ _ value, _, _, c, hp, h => value.supers_among c hp h
  | .declareVar _ _ none, _, _, _, _, _ => .nil _ _
  | .declareVar _ name (some init), _, _, c, hp, h =>
    (init.supers_among _ (hp.await h.1.isVariableName) h.2).after [] [_]
  | .block _ stmts, _, _, c, hp, h => Stmt.supersList_among stmts _ (hp.enter _) h
  | .branch _ condition onTrue none, _, _, c, hp, h =>
    (condition.supers_among c (.other rfl hp) h.1).append (onTrue.supers_among _ hp h.2)
  | .branch _ condition onTrue (some onFalse), _, _, c, hp, h =>
    (condition.supers_among c (.other rfl hp) h.1).append
      ((onTrue.supers_among _ hp h.2.1).append (onFalse.supers_among _ hp h.2.2))
  | .loop _ condition body none _, _, _, c, hp, h =>
    (condition.supers_among c (.other rfl hp) h.1).append
      (body.supers_among _ (.other rfl hp) h.2)
  | .loop _ condition body (some update) _, _, _, c, hp, h =>
    (condition.supers_among c (.other rfl hp) h.1).append
      ((body.supers_among _ (.other rfl hp) h.2.1).append
        (update.supers_among _ (.other rfl hp) h.2.2))
  | .leave _ _ none, _, _, _, _, _ => .nil _ _
  | .leave _ _ (some value), _, _, c, hp, h => (value.supers_among c hp h).after [] [_]
  | .breakLoop .., _, _, _, _, _ | .continueLoop .., _, _, _, _, _ => .nil _ _
  | .declareFunction (.mk _ name function), _, _, c, hp, h =>
    (function.supers_among _ (hp.add h.1.isVariableName) h.2 rfl).after [] [_]
  | .declareClass span name none methods classMethods, _, _, c, hp, h => by
    have hinside := hp.inClass h.1 (.declareClass span name none methods classMethods) false
    exact ((Declaration.supersList_among methods _ hinside h.2.2.1 fun _ => rfl).append
      (Declaration.supersList_among classMethods _ hinside h.2.2.2 fun _ => rfl)).after [] [_]
  | .declareClass span name (some (parent, link)) methods classMethods, _, _, c, hp, h => by
    have hinside :=
      hp.inClass h.1 (.declareClass span name (some (parent, link)) methods classMethods) true
    exact ((Declaration.supersList_among methods _ hinside h.2.2.1 fun _ => rfl).append
      (Declaration.supersList_among classMethods _ hinside h.2.2.2 fun _ => rfl)).after [_] [_, _, _]

theorem Stmt.supersList_among : ∀ (ss : List (Stmt β)) {p : Scene β} {t : Trail} (c : Context),
    Surrounds p t → Stmt.WordsList Token.ReadsAs ss →
      Among (Stmt.supersList p ss) (Stmt.referencesList p.site ss)
        (Stmt.spotsList c t (Stmt.mapLinksList f ss))
  | [], _, _, _, _, _ => .nil _ _
  | s :: ss, _, _, c, hp, h =>
    (s.supers_among c hp h.1).append
      (Stmt.supersList_among ss _ (hp.addAll (Stmt.isVariableName_of_declared h.1)) h.2)

end

end

/-! ## Sources without errors -/

/-- A use of `super` in a derived class. -/
structure Super.Placed {β : Type} (sup : Super β) : Prop where
  keyword : sup.keyword.lexeme = "super"
  derives : ∃ n declaration, sup.scene.Derives n declaration

/-- What stands inside of no class, or inside of one that is not derived, is an error. -/
theorem Spot.derived_of_misplaced {s : Spot} {start : Position} {keyword method : Token}
    (hitem : s.item = .inherited start keyword method) (h : ∀ d ∈ s.misplaced, d.isError = false) :
    s.trail.class? = some true := by
  unfold misplaced at h
  rw [hitem] at h
  dsimp only at h
  split at h
  · exact absurd (h _ (List.mem_singleton_self _)) (by simp [Diagnostic.isError, ScopeFault.report,
      ScopeFault.severity])
  · exact absurd (h _ (List.mem_singleton_self _)) (by simp [Diagnostic.isError, ScopeFault.report,
      ScopeFault.severity])
  · next hclass => exact hclass

/-- If nothing about the spots is an error, every use of `super` is in a derived class. -/
theorem Among.placed {β : Type} {sups : List (Super β)} {refs : List (Reference β)}
    {spots : List Spot} (h : Among sups refs spots) {report : Report}
    (hreport : report.filter Diagnostic.isPlacement = spots.flatMap Spot.misplaced)
    (hclean : report.hasErrors = false) : ∀ sup ∈ sups, sup.Placed := by
  intro sup hsup
  obtain ⟨spot, hspot, ⟨start, hitem⟩, hsurrounds, hkeyword⟩ := h.spots sup hsup
  refine ⟨hkeyword.eq_text rfl (by decide), hsurrounds.derives ?_⟩
  refine Spot.derived_of_misplaced hitem fun d hd => ?_
  have hmem : d ∈ report.filter Diagnostic.isPlacement := by
    rw [hreport]
    exact List.mem_flatMap.mpr ⟨spot, hspot, hd⟩
  exact Bool.eq_false_iff.mpr fun herror =>
    Bool.eq_false_iff.mp hclean (List.any_eq_true.mpr ⟨d, (List.mem_filter.mp hmem).1, herror⟩)

/-- The uses of `super` in a program without errors are among its references, and each of them is in
a derived class. -/
theorem resolveStmts_supers {globals : List Text} {stmts : List (Stmt Unit)} {first : Nat}
    (hwords : Stmt.WordsList Token.ReadsAs stmts)
    (h : (resolveStmts globals stmts first).report.hasErrors = false) :
    Stmt.WordsList Token.ReadsAs (resolveStmts globals stmts first).tree ∧
      ((Stmt.supersList {} (resolveStmts globals stmts first).tree).map Super.reference).Sublist
        (Stmt.referencesList [] (resolveStmts globals stmts first).tree) ∧
      ∀ sup ∈ Stmt.supersList {} (resolveStmts globals stmts first).tree, sup.Placed := by
  have hbare := (resolveStmts_demands globals stmts first).1
  have htree : Stmt.WordsList Token.ReadsAs (resolveStmts globals stmts first).tree := by
    rw [← Stmt.wordsList_mapLinks fun _ => ()]
    exact Eq.subst (motive := Stmt.WordsList Token.ReadsAs) hbare.symm hwords
  have hamong : Among (Stmt.supersList {} (resolveStmts globals stmts first).tree)
      (Stmt.referencesList [] (resolveStmts globals stmts first).tree)
      (Stmt.spotsList { globals := globals } [] stmts) :=
    Eq.subst (motive := fun ss => Among _ _ (Stmt.spotsList _ [] ss)) hbare
      (Stmt.supersList_among (fun _ => ()) _ _ .top htree)
  exact ⟨htree, hamong.references,
    hamong.placed ((placement_exact globals first).1 stmts).1 h⟩

/-- The uses of `super` in an expression without errors are among its references, and each of them
is in a derived class. -/
theorem resolveExpr_supers {globals : List Text} {expr : Expr Unit} {first : Nat}
    (hwords : expr.Words Token.ReadsAs)
    (h : (resolveExpr globals expr first).report.hasErrors = false) :
    (resolveExpr globals expr first).tree.Words Token.ReadsAs ∧
      (((resolveExpr globals expr first).tree.supers {}).map Super.reference).Sublist
        ((resolveExpr globals expr first).tree.references []) ∧
      ∀ sup ∈ (resolveExpr globals expr first).tree.supers {}, sup.Placed := by
  have hbare := (resolveExpr_demands globals expr first).1
  have htree : (resolveExpr globals expr first).tree.Words Token.ReadsAs := by
    rw [← Expr.words_mapLinks fun _ => ()]
    exact Eq.subst (motive := Expr.Words Token.ReadsAs) hbare.symm hwords
  have hamong : Among ((resolveExpr globals expr first).tree.supers {})
      ((resolveExpr globals expr first).tree.references [])
      (expr.spots { globals := globals } []) :=
    Eq.subst (motive := fun e => Among _ _ (Expr.spots _ [] e)) hbare
      (Expr.supers_among (fun _ => ()) _ _ .top htree)
  exact ⟨htree, hamong.references,
    hamong.placed ((placement_exact globals first).2 expr).1 h⟩

end Scriptlet

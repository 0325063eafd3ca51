import Scriptlet.Proofs.Scope.Layers

/-!
# Spots stand where references do

The scopes around a spot are those that the spots before it have left, with the names that were
declared there. The site of a reference is found in another way: by going down the tree with a site
alone, where a statement adds the names that its form declares. In a well-formed tree both say the
same (`Stmt.leads_list`): the names around a place depend on what is written before it in the
scopes around it, and on nothing else.
-/

namespace Scriptlet

/-- The names that were declared in the scopes around a place. -/
def Context.scopes (c : Context) : List (List Text) := c.layers.map Layer.names

/-- Scopes with the names that the frames of a site have declared. -/
inductive Site.Names : Site → List (List Text) → Prop where
  | nil : Names [] []
  | cons {f : Frame} {names : List Text} {Γ : Site} {scopes : List (List Text)} :
    (∀ x, x ∈ names ↔ x ∈ f.declared) → Names Γ scopes → Names (f :: Γ) (names :: scopes)

/-- The scopes around a place are those of a site, with the same declared names. -/
def Context.Agrees (c : Context) (Γ : Site) : Prop := Γ.Names c.scopes

theorem Effect.names_onLayers_reads (level : Nat) (x : Text) (ls : List Layer) :
    ((Effect.reads level x).onLayers ls).map Layer.names = ls.map Layer.names := by
  induction ls with
  | nil => rfl
  | cons l ls ih =>
    rw [onLayers, List.map_cons, List.map_cons, ih]
    split
    · rw [names_onLayer_reads]
    · rfl

theorem Effect.names_onLayers (e : Effect) {ls ls' : List Layer}
    (h : ls.map Layer.names = ls'.map Layer.names) :
    (e.onLayers ls).map Layer.names = (e.onLayers ls').map Layer.names := by
  induction ls generalizing ls' with
  | nil =>
    cases ls' with
    | nil => rfl
    | cons => cases h
  | cons l ls ih =>
    cases ls' with
    | nil => cases h
    | cons l' ls' =>
      obtain ⟨hnames, hrest⟩ := List.cons.inj h
      have hlength : ls.length = ls'.length := by simpa using congrArg List.length hrest
      rw [onLayers, onLayers, List.map_cons, List.map_cons, ih hrest, hlength]
      split
      · rw [names_onLayer hnames]
      · rw [hnames]

namespace Context

variable {c : Context} {Γ : Site} {x : Text}

/-- Where nothing is declared, names stay as they are. -/
theorem scopes_note {s : Spot} (hs : ∀ name, s.item ≠ .declare name) :
    (c.note s).scopes = c.scopes := by
  have hreads : ∀ e, s.effect? = some e → ∃ level x, e = .reads level x := by
    intro e he
    unfold Spot.effect? at he
    split at he
    · next name hitem => exact absurd hitem (hs name)
    · split at he
      · split at he
        · exact ⟨_, _, (Option.some.inj he).symm⟩
        · cases he
      · cases he
  cases he : s.effect? with
  | none => rw [note_of_none he]
  | some e =>
    obtain ⟨level, x, rfl⟩ := hreads e he
    rw [note_of_effect he]
    exact Effect.names_onLayers_reads level x c.layers

/-- The initializer of a variable has the same names around it. -/
theorem scopes_await (c : Context) (x : Text) : (c.await x).scopes = c.scopes := by
  obtain ⟨layers, globals⟩ := c
  cases layers <;> rfl

/-- Which names are declared on the way depends only on those that were declared before. -/
theorem scopes_after {c' : Context} (h : c.scopes = c'.scopes) (spots : List Spot) :
    (c.after spots).scopes = (c'.after spots).scopes := by
  induction spots generalizing c c' with
  | nil => exact h
  | cons s spots ih =>
    refine ih ?_
    unfold Context.note
    split
    · next e _ => exact e.names_onLayers h
    · exact h

/-- A name that was declared counts as such in its initializer. -/
theorem agrees_await : c.Agrees (Γ.await x) ↔ c.Agrees (Γ.add x) := by
  unfold Context.Agrees
  cases Γ with
  | nil => rfl
  | cons f Γ =>
    have hsame : ∀ y, y ∈ Frame.declared { f with pending := x :: f.pending } ↔
        y ∈ Frame.declared { f with ready := x :: f.ready } := by
      intro y
      simp only [Frame.declared, List.mem_cons, List.mem_append, or_assoc]
      exact or_left_comm
    generalize c.scopes = scopes
    constructor
    · rintro (_ | ⟨hnames, hrest⟩)
      exact .cons (fun y => (hnames y).trans (hsame y)) hrest
    · rintro (_ | ⟨hnames, hrest⟩)
      exact .cons (fun y => (hnames y).trans (hsame y).symm) hrest

namespace Agrees

theorem top (globals : List Text) : Context.Agrees { globals := globals } [] := .nil

/-- To declare a name adds it to the innermost scope. -/
theorem declare (h : c.Agrees Γ) (t : Trail) (name : Token) :
    (c.note ⟨c, t, .declare name⟩).Agrees (Γ.add name.lexeme) := by
  obtain ⟨layers, globals⟩ := c
  rw [note_of_effect rfl]
  cases layers with
  | nil => cases h; exact .nil
  | cons l ls =>
    cases h with
    | cons hnames hrest =>
      change Site.Names _
        (((Effect.declares (ls.length + 1) name.lexeme).onLayers (l :: ls)).map Layer.names)
      rw [Effect.onLayers, if_pos (by rfl), Effect.onLayers_of_lt (Nat.lt_succ_self _)]
      refine .cons (fun x => ?_) hrest
      simp only [Effect.onLayer, Frame.declared, List.mem_cons, List.mem_append] at hnames ⊢
      rw [hnames, or_left_comm]

/-- In the initializer of a variable its name was declared. -/
theorem await (h : c.Agrees (Γ.add x)) : (c.await x).Agrees (Γ.await x) := by
  rw [Context.Agrees, scopes_await]
  exact agrees_await.mpr h

theorem enter (h : c.Agrees Γ) (names : List Text) : c.enter.Agrees (Γ.enter names) :=
  .cons (by simp [Frame.declared]) h

theorem enterWith (h : c.Agrees Γ) (x : Text) : (c.enterWith x).Agrees ((Γ.enter [x]).add x) :=
  .cons (by simp [Frame.declared]) h

theorem leave (h : c.Agrees Γ) : c.leave.Agrees Γ.tail := by
  obtain ⟨layers, globals⟩ := c
  cases layers with
  | nil => cases h; exact .nil
  | cons l ls => cases h with | cons _ hrest => exact hrest

end Agrees

end Context

/-! ## Spots and references -/

section

variable {β : Type}

/-- The references among some spots, each at a site that has the scopes around its spot. -/
inductive Spot.Stand : List Spot → List (Reference β) → Prop where
  | nil : Stand [] []
  | remark {s : Spot} {spots : List Spot} {refs : List (Reference β)} :
    s.item.reference? = none → Stand spots refs → Stand (s :: spots) refs
  | reference {s : Spot} {ref : Reference β} {spots : List Spot} {refs : List (Reference β)} :
    s.item.reference? = some ref.name → s.context.Agrees ref.site → Stand spots refs →
      Stand (s :: spots) (ref :: refs)

theorem Spot.Stand.append {spots spots' : List Spot} {refs refs' : List (Reference β)}
    (h : Stand spots refs) (h' : Stand spots' refs') : Stand (spots ++ spots') (refs ++ refs') := by
  induction h with
  | nil => exact h'
  | remark hs _ ih => exact .remark hs ih
  | reference hs hsite _ ih => exact .reference hs hsite ih

/-- Spots on the way from one place to another, with their references and the site at the end. -/
structure Context.Leads (c : Context) (spots : List Spot) (refs : List (Reference β)) (Γ : Site) :
    Prop where
  stand : Spot.Stand spots refs
  agrees : (c.after spots).Agrees Γ

namespace Context.Leads

variable {c : Context} {Γ Γ' : Site} {t : Trail} {spots spots' : List Spot}
  {refs refs' : List (Reference β)}

theorem nil (h : c.Agrees Γ) : c.Leads [] ([] : List (Reference β)) Γ := ⟨.nil, h⟩

theorem append (h : c.Leads spots refs Γ)
    (h' : (c.after spots).Agrees Γ → (c.after spots).Leads spots' refs' Γ') :
    c.Leads (spots ++ spots') (refs ++ refs') Γ' := by
  obtain ⟨hstand, hagrees⟩ := h' h.agrees
  refine ⟨h.stand.append hstand, ?_⟩
  rwa [after_append]

theorem declare (h : c.Agrees Γ) {name : Token}
    (h' : (c.note ⟨c, t, .declare name⟩).Agrees (Γ.add name.lexeme) →
      (c.note ⟨c, t, .declare name⟩).Leads spots refs Γ') :
    c.Leads (⟨c, t, .declare name⟩ :: spots) refs Γ' := by
  obtain ⟨hstand, hagrees⟩ := h' (h.declare t name)
  exact ⟨.remark rfl hstand, hagrees⟩

/-- Something that is neither a reference nor a declaration. -/
theorem remark (s : Spot) (hs : s.item.reference? = none) (hnone : s.effect? = none)
    (h : c.Leads spots refs Γ) : c.Leads (s :: spots) refs Γ := by
  refine ⟨.remark hs h.stand, ?_⟩
  change ((c.note s).after spots).Agrees Γ
  rw [note_of_none hnone]
  exact h.agrees

theorem reference (item : Item) {name : Token} (link : β) (h : c.Agrees Γ)
    (hname : item.reference? = some name) :
    c.Leads [⟨c, t, item⟩] [⟨Γ, name, link⟩] Γ := by
  refine ⟨.reference hname h .nil, ?_⟩
  have hs : ∀ declared, item ≠ .declare declared := by
    rintro declared rfl
    cases hname
  change Site.Names _ (c.note _).scopes
  rw [scopes_note hs]
  exact h

/-- A scope that was entered is left at its end. -/
theorem leave {c' : Context} (h : c'.Leads spots refs Γ') (hc : c'.leave = c) (hΓ : Γ'.tail = Γ) :
    c.Leads spots refs Γ := by
  refine ⟨h.stand, ?_⟩
  have hleave := h.agrees.leave
  rwa [leave_after, hc, hΓ] at hleave

theorem parameters (h : c.Agrees Γ) (params : List Token) :
    c.Leads (c.parameters t params) ([] : List (Reference β))
      (Γ.addAll (params.map Token.lexeme)) := by
  induction params generalizing c Γ with
  | nil => exact nil h
  | cons p ps ih => exact declare h fun h' => ih h'

end Context.Leads

mutual

theorem Expr.leads : ∀ (e : Expr β) {c : Context} {Γ : Site} (t : Trail), e.WellFormed →
    c.Agrees Γ → c.Leads (e.spots c t) (e.references Γ) Γ
  | .literal .., c, Γ, t, hw, h => by
    rw [Expr.spots, Expr.references]
    exact .nil h
  | .name .., c, Γ, t, hw, h => by
    rw [Expr.spots, Expr.references]
    exact .reference _ _ h rfl
  | .assign span name op value _, c, Γ, t, hw, h => by
    rw [Expr.spots, Expr.references]
    exact .remark _ rfl rfl ((value.leads t hw.2.2 h).append fun h => .reference _ _ h rfl)
  | .binary _ left _ right, c, Γ, t, hw, h => by
    rw [Expr.spots, Expr.references]
    exact (left.leads t hw.2.1 h).append fun h => right.leads t hw.2.2 h
  | .logical _ left _ right, c, Γ, t, hw, h => by
    rw [Expr.spots, Expr.references]
    exact (left.leads t hw.1 h).append fun h => right.leads t hw.2 h
  | .unary _ _ operand _, c, Γ, t, hw, h => by
    rw [Expr.spots, Expr.references]
    exact operand.leads t hw.2 h
  | .ternary _ condition onTrue onFalse, c, Γ, t, hw, h => by
    rw [Expr.spots, Expr.references]
    exact (condition.leads _ hw.1 h).append fun h =>
      (onTrue.leads t hw.2.1 h).append fun h => onFalse.leads t hw.2.2 h
  | .group _ inner, c, Γ, t, hw, h => by
    rw [Expr.spots, Expr.references]
    exact inner.leads t hw h
  | .call _ callee _ args, c, Γ, t, hw, h => by
    rw [Expr.spots, Expr.references]
    exact (callee.leads t hw.1 h).append fun h => Expr.leads_list args t hw.2 h
  | .lambda function, c, Γ, t, hw, h => by
    rw [Expr.spots, Expr.references]
    exact function.leads _ hw h
  | .get _ object _, c, Γ, t, hw, h => by
    rw [Expr.spots, Expr.references]
    exact object.leads t hw h
  | .set _ object _ value, c, Γ, t, hw, h => by
    rw [Expr.spots, Expr.references]
    exact (value.leads t hw.2 h).append fun h => object.leads t hw.1 h
  | .receiver .., c, Γ, t, hw, h => by
    rw [Expr.spots, Expr.references]
    exact .reference _ _ h rfl
  | .inherited .., c, Γ, t, hw, h => by
    rw [Expr.spots, Expr.references]
    exact .reference _ _ h rfl

theorem Expr.leads_list : ∀ (es : List (Expr β)) {c : Context} {Γ : Site} (t : Trail),
    Expr.WellFormedList es → c.Agrees Γ →
    c.Leads (Expr.spotsList c t es) (Expr.referencesList Γ es) Γ
  | [], c, Γ, t, hw, h => by
    rw [Expr.spotsList, Expr.referencesList]
    exact .nil h
  | e :: es, c, Γ, t, hw, h => by
    rw [Expr.spotsList, Expr.referencesList]
    exact (e.leads t hw.1 h).append fun h => Expr.leads_list es t hw.2 h

theorem Function.leads : ∀ (f : Function β) {c : Context} {Γ : Site} (t : Trail), f.WellFormed →
    c.Agrees Γ → c.Leads (f.spots c t) (f.references Γ) Γ
  | .mk _ _ params body _, c, Γ, t, hw, h => by
    rw [Function.spots, Function.references]
    have hparams := Context.Leads.parameters (β := β) (t := t)
      (h.enter (params.map Token.lexeme ++ Stmt.declaredList body)) params
    refine (hparams.append fun h => Stmt.leads_list body t hw.2.2 h).leave c.leave_enter ?_
    simp

theorem Declaration.leads_list : ∀ (ds : List (Declaration β)) {c : Context} {Γ : Site} (t : Trail)
    (kind : Text → Ancestor), Declaration.WellFormedList ds → c.Agrees Γ →
    c.Leads (Declaration.spotsList c t kind ds) (Declaration.referencesList Γ ds) Γ
  | [], c, Γ, t, kind, hw, h => by
    rw [Declaration.spotsList, Declaration.referencesList]
    exact .nil h
  | .mk _ name function :: ds, c, Γ, t, kind, hw, h => by
    rw [Declaration.spotsList, Declaration.referencesList]
    exact (function.leads _ hw.1 h).append fun h => Declaration.leads_list ds t kind hw.2 h

theorem Stmt.leads : ∀ (s : Stmt β) {c : Context} {Γ : Site} (t : Trail), s.WellFormed →
    c.Agrees Γ → c.Leads (s.spots c t) (s.references Γ) (Γ.addAll s.declared)
  | .evaluate _ expr, c, Γ, t, hw, h => by
    rw [Stmt.spots, Stmt.references]
    exact expr.leads t hw h
  | .print _ _ value, c, Γ, t, hw, h => by
    rw [Stmt.spots, Stmt.references]
    exact value.leads t hw h
  | .declareVar _ name none, c, Γ, t, hw, h => by
    rw [Stmt.spots, Stmt.references]
    exact .declare h fun h => .nil h
  | .declareVar _ name (some init), c, Γ, t, hw, h => by
    rw [Stmt.spots, Stmt.references]
    refine .declare h fun h => ?_
    have hinit := init.leads t hw.2 h.await
    refine ⟨hinit.stand, Context.agrees_await.mp ?_⟩
    have hend := hinit.agrees
    rwa [Context.Agrees, Context.scopes_after (Context.scopes_await _ _)] at hend
  | .block _ stmts, c, Γ, t, hw, h => by
    rw [Stmt.spots, Stmt.references]
    exact (Stmt.leads_list stmts t hw (h.enter _)).leave c.leave_enter (by simp; rfl)
  | .branch _ condition onTrue none, c, Γ, t, hw, h => by
    rw [Stmt.spots, Stmt.references]
    refine (condition.leads _ hw.1 h).append fun h => ?_
    have htrue := onTrue.leads t hw.2.1 h
    rwa [hw.2.2] at htrue
  | .branch _ condition onTrue (some onFalse), c, Γ, t, hw, h => by
    rw [Stmt.spots, Stmt.references]
    refine (condition.leads _ hw.1 h).append fun h => ?_
    have htrue := onTrue.leads t hw.2.1.1 h
    rw [hw.2.1.2] at htrue
    refine htrue.append fun h => ?_
    have hfalse := onFalse.leads t hw.2.2.1 h
    rwa [hw.2.2.2] at hfalse
  | .loop _ condition body none _, c, Γ, t, hw, h => by
    rw [Stmt.spots, Stmt.references]
    refine (condition.leads _ hw.1 h).append fun h => ?_
    have hbody := body.leads (.loop :: t) hw.2.1 h
    rwa [hw.2.2] at hbody
  | .loop _ condition body (some update) _, c, Γ, t, hw, h => by
    rw [Stmt.spots, Stmt.references]
    refine (condition.leads _ hw.1 h).append fun h => ?_
    have hbody := body.leads (.loop :: t) hw.2.1.1 h
    rw [hw.2.1.2] at hbody
    exact hbody.append fun h => update.leads _ hw.2.2 h
  | .leave _ _ none, c, Γ, t, hw, h => by
    rw [Stmt.spots, Stmt.references]
    exact .remark _ rfl rfl (.nil h)
  | .leave _ _ (some value), c, Γ, t, hw, h => by
    rw [Stmt.spots, Stmt.references]
    exact .remark _ rfl rfl (value.leads t hw h)
  | .breakLoop .., c, Γ, t, hw, h => by
    rw [Stmt.spots, Stmt.references]
    exact .remark _ rfl rfl (.nil h)
  | .continueLoop .., c, Γ, t, hw, h => by
    rw [Stmt.spots, Stmt.references]
    exact .remark _ rfl rfl (.nil h)
  | .declareFunction (.mk _ name function), c, Γ, t, hw, h => by
    rw [Stmt.spots, Stmt.references]
    exact .declare h fun h => function.leads _ hw.2 h
  | .declareClass _ name none methods classMethods, c, Γ, t, hw, h => by
    rw [Stmt.spots, Stmt.references]
    refine .declare h fun h => ?_
    have hinside := (Declaration.leads_list methods (.cls false :: t) .method hw.2.1
      (h.enterWith "this")).append fun h =>
        Declaration.leads_list classMethods (.cls false :: t) .classMethod hw.2.2 h
    exact hinside.leave (Context.leave_enterWith _ _) rfl
  | .declareClass _ name (some (parent, link)) methods classMethods, c, Γ, t, hw, h => by
    rw [Stmt.spots, Stmt.references]
    refine .declare h fun h => .remark _ rfl rfl ?_
    -- the superclass is named where the class is declared, but not yet bound
    have hread := Context.Leads.reference (t := t) (.read parent.span.start parent) link
      (Context.agrees_await.mpr h) rfl
    refine hread.append fun h => ?_
    have hinside := (Declaration.leads_list methods (.cls true :: t) .method hw.2.1
      (((Context.agrees_await.mp h).enterWith "super").enterWith "this")).append fun h =>
        Declaration.leads_list classMethods (.cls true :: t) .classMethod hw.2.2 h
    exact (hinside.leave (Context.leave_enterWith _ _) rfl).leave (Context.leave_enterWith _ _) rfl

theorem Stmt.leads_list : ∀ (ss : List (Stmt β)) {c : Context} {Γ : Site} (t : Trail),
    Stmt.WellFormedList ss → c.Agrees Γ →
    c.Leads (Stmt.spotsList c t ss) (Stmt.referencesList Γ ss) (Γ.addAll (Stmt.declaredList ss))
  | [], c, Γ, t, hw, h => by
    rw [Stmt.spotsList, Stmt.referencesList]
    exact .nil h
  | s :: ss, c, Γ, t, hw, h => by
    rw [Stmt.spotsList, Stmt.referencesList, Stmt.declaredList, List.flatMap_cons,
      Site.addAll_append]
    exact (s.leads t hw.1 h).append fun h => Stmt.leads_list ss t hw.2 h

end

end

end Scriptlet

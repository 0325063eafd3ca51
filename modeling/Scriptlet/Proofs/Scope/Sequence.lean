import Scriptlet.Proofs.Scope.Linking
import Scriptlet.Proofs.Scope.Relocation

/-!
# Resolving one program after another

To resolve two programs as one is to resolve them one after the other, if the second knows the
globals that the first declares (`resolveStmts_append`). What the first leaves behind for the second
is no open scope, the number of its links, its findings and its names: `Resolve.Publishes` says
which names a part of a resolution makes global, and these are the names that are declared in no
scope.
-/

namespace Scriptlet

namespace Resolve

variable {α β : Type} {k k' k'' : Nat} {xs ys : List Text}

/-- What a part of a resolution leaves behind if it ends with `k` open scopes and makes some names
global. -/
structure Left (k : Nat) (names : List Text) (r r' : Resolution) : Prop where
  length : r'.scopes.length = k
  globals : r'.globals = names.reverse ++ r.globals
  found : ∀ d ∈ r'.found, d ∈ r.found ∨ d.stage = .resolve

/-- A part of a resolution that starts with `k` open scopes, ends with `k'` of them and makes some
names global. -/
def Publishes (k : Nat) (x : Resolve α) (k' : Nat) (names : List Text) : Prop :=
  ∀ r : Resolution, r.scopes.length = k → Left k' names r (x.run r).2

/-- Names are made global where no scope is open. -/
def published (k : Nat) (names : List Text) : List Text := if k = 0 then names else []

@[simp]
theorem published_nil (k : Nat) : published k [] = [] := by simp [published]

@[simp]
theorem published_succ (k : Nat) (names : List Text) : published (k + 1) names = [] := rfl

theorem published_append (k : Nat) (xs ys : List Text) :
    published k (xs ++ ys) = published k xs ++ published k ys := by
  unfold published
  split <;> rfl

theorem publishes_pure (a : α) : Publishes k (pure a) k [] := fun _ hr => ⟨hr, rfl, fun _ => .inl⟩

theorem Publishes.bind {x : Resolve α} {f : α → Resolve β} (hx : Publishes k x k' xs)
    (hf : ∀ a, Publishes k' (f a) k'' ys) : Publishes k (x >>= f) k'' (xs ++ ys) := by
  intro r hr
  have h := hx r hr
  have h' := hf (x.run r).1 _ h.length
  refine ⟨h'.length, h'.globals.trans ?_, fun d hd => ?_⟩
  · rw [h.globals, List.reverse_append, List.append_assoc]
  · exact (h'.found d hd).elim (h.found d) .inr

/-- A step that makes no name global. -/
theorem Publishes.andThen {x : Resolve α} {f : α → Resolve β} (hx : Publishes k x k' [])
    (hf : ∀ a, Publishes k' (f a) k'' ys) : Publishes k (x >>= f) k'' ys :=
  hx.bind hf

/-- A last part that makes no name global. -/
theorem Publishes.silently {x : Resolve α} {f : α → Resolve β} (hx : Publishes k x k' xs)
    (hf : ∀ a, Publishes k' (f a) k'' []) : Publishes k (x >>= f) k'' xs := by
  simpa using hx.bind hf

theorem Publishes.nothing {x : Resolve α} (hx : Publishes k x k' []) :
    Publishes k x k' (published k []) := by
  rwa [published_nil]

theorem publishes_get {f : Resolution → Resolve β}
    (hf : ∀ r : Resolution, r.scopes.length = k → Publishes k (f r) k' xs) :
    Publishes k (get >>= f) k' xs :=
  fun r hr => hf r hr r hr

/-- A change of the scopes or the links. -/
theorem publishes_modify {f : Resolution → Resolution}
    (hscopes : ∀ r : Resolution, r.scopes.length = k → (f r).scopes.length = k')
    (hrest : ∀ r : Resolution, (f r).globals = r.globals ∧ (f r).found = r.found) :
    Publishes k (modify f) k' [] :=
  fun r hr => ⟨hscopes r hr, (hrest r).1, fun _ hd => .inl ((hrest r).2 ▸ hd)⟩

theorem publishes_report (f : ScopeFault) (token : Token) : Publishes k (report f token) k [] :=
  fun _ hr => ⟨hr, rfl, fun _ hd => (List.mem_cons.mp hd).elim (fun h => .inr (h ▸ rfl)) .inl⟩

theorem publishes_reportIf {c : Prop} [Decidable c] {f : ScopeFault} {token : Token}
    {rest : Unit → Resolve β} (hrest : ∀ u, Publishes k (rest u) k' xs) :
    Publishes k (if c then report f token >>= rest else rest ()) k' xs := by
  split
  · exact (publishes_report f token).andThen hrest
  · exact hrest ()

theorem publishes_openScope : Publishes k openScope (k + 1) [] :=
  publishes_modify (fun _ hr => congrArg (· + 1) hr) fun _ => ⟨rfl, rfl⟩

theorem publishes_closeScope : Publishes (k + 1) closeScope k [] := by
  rintro ⟨scopes, globals, found, links, count⟩ hr
  cases scopes with
  | nil => cases hr
  | cons top rest =>
    refine ⟨Nat.succ.inj hr, rfl, fun d hd => ?_⟩
    rcases List.mem_append.mp hd with hd | hd
    · obtain ⟨name, -, rfl⟩ := List.mem_map.mp (List.mem_reverse.mp hd)
      exact .inr rfl
    · exact .inl hd

theorem publishes_declare (name : Token) :
    Publishes k (declare name) k (published k [name.lexeme]) := by
  refine publishes_get fun r hr => ?_
  cases hs : r.scopes with
  | nil =>
    obtain rfl : k = 0 := by simpa [hs] using hr.symm
    exact fun r hr => ⟨hr, rfl, fun _ => .inl⟩
  | cons top rest =>
    rw [hs, List.length_cons] at hr
    subst hr
    exact publishes_reportIf fun _ => publishes_modify (fun _ _ => rfl) fun _ => ⟨rfl, rfl⟩

theorem publishes_define (name : Token) : Publishes k (define name) k [] :=
  publishes_modify (fun _ hr => (List.length_modify ..).trans hr) fun _ => ⟨rfl, rfl⟩

theorem publishes_bindImplicit (name : Text) : Publishes k (bindImplicit name) k [] := by
  refine publishes_modify (fun r hr => ?_) fun r => ?_
  · split
    · exact hr
    · next hs => simpa [hs] using hr
  · split <;> exact ⟨rfl, rfl⟩

theorem publishes_link (label : Text) (start : Position) (hops : Nat) :
    Publishes k (link label start hops) k [] :=
  fun _ hr => ⟨hr, rfl, fun _ => .inl⟩

theorem publishes_linkBeyond (skipped : Nat) (label : Text) (start : Position) (name : Text)
    (isRead : Bool) : Publishes k (linkBeyond skipped label start name isRead) k [] := by
  unfold linkBeyond
  refine publishes_get fun r hr => ?_
  dsimp only
  split
  · split
    · have hlength {r : Resolution} (hr : r.scopes.length = k) (m : Nat) :
          (r.scopes.markAt m name .read).length = k :=
        (List.length_modify ..).trans hr
      refine Publishes.andThen (publishes_modify (fun _ hr => hlength hr _) fun _ => ⟨rfl, rfl⟩) ?_
      exact fun _ => publishes_link _ _ _
    · exact publishes_link _ _ _
  · exact publishes_link _ _ _

theorem publishes_linkVariable (start : Position) (name : Token) :
    Publishes k (linkVariable start name) k [] := by
  unfold linkVariable
  refine publishes_get fun r hr => ?_
  extract_lets label initializing outside
  split
  · split
    · exact publishes_linkBeyond _ _ _ _ _
    · exact (publishes_report _ name).andThen fun _ => publishes_pure none
  · exact publishes_linkBeyond _ _ _ _ _

/-- Parameters stand in the scope of their function. -/
theorem publishes_parameters (params : List Token) :
    Publishes (k + 1) (parameters params) (k + 1) [] := by
  induction params with
  | nil => exact publishes_pure ()
  | cons p ps ih =>
    exact (publishes_declare p).andThen fun _ => (publishes_define p).andThen fun _ => ih

end Resolve

/-! ## Trees -/

open Resolve

mutual

theorem Expr.publishes_resolve : ∀ (e : Expr Unit) (s : Surroundings) {k : Nat}, e.WellFormed →
    Publishes k (e.resolve s) k []
  | .literal span value, s, k, h => by
    rw [Expr.resolve]
    exact publishes_pure _
  | .name span name _, s, k, h => by
    rw [Expr.resolve]
    exact (publishes_linkVariable _ _).andThen fun _ => publishes_pure _
  | .assign span name op value _, s, k, h => by
    rw [Expr.resolve]
    refine publishes_reportIf fun _ => (value.publishes_resolve s h.2.2).andThen fun _ => ?_
    exact (publishes_linkBeyond _ _ _ _ _).andThen fun _ => publishes_pure _
  | .binary span left op right, s, k, h => by
    rw [Expr.resolve]
    refine (left.publishes_resolve s h.2.1).andThen fun _ => ?_
    exact (right.publishes_resolve s h.2.2).andThen fun _ => publishes_pure _
  | .logical span left op right, s, k, h => by
    rw [Expr.resolve]
    refine (left.publishes_resolve s h.1).andThen fun _ => ?_
    exact (right.publishes_resolve s h.2).andThen fun _ => publishes_pure _
  | .unary span op operand trailing, s, k, h => by
    rw [Expr.resolve]
    exact (operand.publishes_resolve s h.2).andThen fun _ => publishes_pure _
  | .ternary span condition onTrue onFalse, s, k, h => by
    rw [Expr.resolve]
    refine (condition.publishes_resolve _ h.1).andThen fun _ => ?_
    refine (onTrue.publishes_resolve s h.2.1).andThen fun _ => ?_
    exact (onFalse.publishes_resolve s h.2.2).andThen fun _ => publishes_pure _
  | .group span inner, s, k, h => by
    rw [Expr.resolve]
    exact (inner.publishes_resolve s h).andThen fun _ => publishes_pure _
  | .call span callee paren args, s, k, h => by
    rw [Expr.resolve]
    refine (callee.publishes_resolve s h.1).andThen fun _ => ?_
    exact (Expr.publishes_resolveList args s h.2).andThen fun _ => publishes_pure _
  | .lambda function, s, k, h => by
    rw [Expr.resolve]
    exact (function.publishes_resolve _ h).andThen fun _ => publishes_pure _
  | .get span object name, s, k, h => by
    rw [Expr.resolve]
    exact (object.publishes_resolve s h).andThen fun _ => publishes_pure _
  | .set span object name value, s, k, h => by
    rw [Expr.resolve]
    refine (value.publishes_resolve s h.2).andThen fun _ => ?_
    exact (object.publishes_resolve s h.1).andThen fun _ => publishes_pure _
  | .receiver span keyword _, s, k, h => by
    rw [Expr.resolve]
    split
    · exact (publishes_report _ _).andThen fun _ => publishes_pure _
    · exact (publishes_linkBeyond _ _ _ _ _).andThen fun _ => publishes_pure _
  | .inherited span keyword method _, s, k, h => by
    rw [Expr.resolve]
    split
    · exact (publishes_report _ _).andThen fun _ => publishes_pure _
    · exact (publishes_report _ _).andThen fun _ => publishes_pure _
    · exact (publishes_linkBeyond _ _ _ _ _).andThen fun _ => publishes_pure _

theorem Expr.publishes_resolveList : ∀ (es : List (Expr Unit)) (s : Surroundings) {k : Nat},
    Expr.WellFormedList es → Publishes k (Expr.resolveList s es) k []
  | [], s, k, h => by
    rw [Expr.resolveList]
    exact publishes_pure _
  | e :: es, s, k, h => by
    rw [Expr.resolveList]
    refine (e.publishes_resolve s h.1).andThen fun _ => ?_
    exact (Expr.publishes_resolveList es s h.2).andThen fun _ => publishes_pure _

theorem Function.publishes_resolve : ∀ (f : Function Unit) (s : Surroundings) {k : Nat},
    f.WellFormed → Publishes k (f.resolve s) k []
  | .mk span keyword params body getter, s, k, h => by
    rw [Function.resolve]
    refine publishes_openScope.andThen fun _ => (publishes_parameters params).andThen fun _ => ?_
    refine (Stmt.publishes_resolveList body _ h.2.2).andThen fun _ => ?_
    exact publishes_closeScope.andThen fun _ => publishes_pure _

theorem Declaration.publishes_resolveMethods : ∀ (ds : List (Declaration Unit)) (s : Surroundings)
    (initializers : Bool) {k : Nat}, Declaration.WellFormedList ds →
    Publishes k (Declaration.resolveMethods s initializers ds) k []
  | [], s, initializers, k, h => by
    rw [Declaration.resolveMethods]
    exact publishes_pure _
  | .mk span name function :: rest, s, initializers, k, h => by
    rw [Declaration.resolveMethods]
    refine (function.publishes_resolve _ h.1).andThen fun _ => ?_
    exact (Declaration.publishes_resolveMethods rest s initializers h.2).andThen
      fun _ => publishes_pure _

theorem Stmt.publishes_resolve : ∀ (stmt : Stmt Unit) (s : Surroundings) {k : Nat},
    stmt.WellFormed → Publishes k (stmt.resolve s) k (published k stmt.declared)
  | .evaluate span expr, s, k, h => by
    rw [Stmt.resolve]
    refine Publishes.nothing ?_
    exact (expr.publishes_resolve s h).andThen fun _ => publishes_pure _
  | .print span keyword value, s, k, h => by
    rw [Stmt.resolve]
    refine Publishes.nothing ?_
    exact (value.publishes_resolve s h).andThen fun _ => publishes_pure _
  | .declareVar span name none, s, k, h => by
    rw [Stmt.resolve]
    refine (publishes_declare name).silently fun _ => ?_
    exact (publishes_define name).andThen fun _ => publishes_pure _
  | .declareVar span name (some init), s, k, h => by
    rw [Stmt.resolve]
    refine (publishes_declare name).silently fun _ => ?_
    refine (init.publishes_resolve s h.2).andThen fun _ => ?_
    exact (publishes_define name).andThen fun _ => publishes_pure _
  | .block span stmts, s, k, h => by
    rw [Stmt.resolve]
    refine Publishes.nothing ?_
    refine publishes_openScope.andThen fun _ => ?_
    refine (Stmt.publishes_resolveList stmts s h).andThen fun _ => ?_
    exact publishes_closeScope.andThen fun _ => publishes_pure _
  | .branch span condition onTrue none, s, k, h => by
    rw [Stmt.resolve]
    refine Publishes.nothing ?_
    have hTrue := onTrue.publishes_resolve s (k := k) h.2.1
    rw [h.2.2, published_nil] at hTrue
    refine (condition.publishes_resolve _ h.1).andThen fun _ => ?_
    exact hTrue.andThen fun _ => publishes_pure _
  | .branch span condition onTrue (some onFalse), s, k, h => by
    rw [Stmt.resolve]
    refine Publishes.nothing ?_
    have hTrue := onTrue.publishes_resolve s (k := k) h.2.1.1
    have hFalse := onFalse.publishes_resolve s (k := k) h.2.2.1
    rw [h.2.1.2, published_nil] at hTrue
    rw [h.2.2.2, published_nil] at hFalse
    refine (condition.publishes_resolve _ h.1).andThen fun _ => ?_
    exact hTrue.andThen fun _ => hFalse.andThen fun _ => publishes_pure _
  | .loop span condition body none bodyFirst, s, k, h => by
    rw [Stmt.resolve]
    refine Publishes.nothing ?_
    have hbody := body.publishes_resolve { s with inLoop := true } (k := k) h.2.1
    rw [h.2.2, published_nil] at hbody
    refine (condition.publishes_resolve _ h.1).andThen fun _ => ?_
    exact hbody.andThen fun _ => publishes_pure _
  | .loop span condition body (some update) bodyFirst, s, k, h => by
    rw [Stmt.resolve]
    refine Publishes.nothing ?_
    have hbody := body.publishes_resolve { s with inLoop := true } (k := k) h.2.1.1
    rw [h.2.1.2, published_nil] at hbody
    refine (condition.publishes_resolve _ h.1).andThen fun _ => hbody.andThen fun _ => ?_
    exact (update.publishes_resolve _ h.2.2).andThen fun _ => publishes_pure _
  | .leave span keyword none, s, k, h => by
    rw [Stmt.resolve]
    refine Publishes.nothing ?_
    exact publishes_reportIf fun _ => publishes_pure _
  | .leave span keyword (some value), s, k, h => by
    rw [Stmt.resolve]
    refine Publishes.nothing ?_
    refine publishes_reportIf fun _ => publishes_reportIf fun _ => ?_
    exact (value.publishes_resolve s h).andThen fun _ => publishes_pure _
  | .breakLoop span keyword, s, k, h | .continueLoop span keyword, s, k, h => by
    rw [Stmt.resolve]
    refine Publishes.nothing ?_
    split
    · exact publishes_pure _
    · exact (publishes_report _ _).andThen fun _ => publishes_pure _
  | .declareFunction (.mk span name function), s, k, h => by
    rw [Stmt.resolve]
    refine (publishes_declare name).silently fun _ => (publishes_define name).andThen fun _ => ?_
    exact (function.publishes_resolve _ h.2).andThen fun _ => publishes_pure _
  | .declareClass span name none methods classMethods, s, k, h => by
    rw [Stmt.resolve]
    refine (publishes_declare name).silently fun _ => (publishes_define name).andThen fun _ => ?_
    refine publishes_openScope.andThen fun _ => (publishes_bindImplicit _).andThen fun _ => ?_
    refine (Declaration.publishes_resolveMethods methods _ true h.2.1).andThen fun _ => ?_
    refine (Declaration.publishes_resolveMethods classMethods _ false h.2.2).andThen fun _ => ?_
    exact publishes_closeScope.andThen fun _ => publishes_pure _
  | .declareClass span name (some (parent, _)) methods classMethods, s, k, h => by
    rw [Stmt.resolve]
    refine (publishes_declare name).silently fun _ => (publishes_define name).andThen fun _ => ?_
    refine publishes_reportIf fun _ => (publishes_linkVariable _ _).andThen fun _ => ?_
    refine publishes_openScope.andThen fun _ => (publishes_bindImplicit _).andThen fun _ => ?_
    refine publishes_openScope.andThen fun _ => (publishes_bindImplicit _).andThen fun _ => ?_
    refine (Declaration.publishes_resolveMethods methods _ true h.2.1).andThen fun _ => ?_
    refine (Declaration.publishes_resolveMethods classMethods _ false h.2.2).andThen fun _ => ?_
    refine publishes_closeScope.andThen fun _ => publishes_closeScope.andThen fun _ => ?_
    exact publishes_pure _

theorem Stmt.publishes_resolveList : ∀ (stmts : List (Stmt Unit)) (s : Surroundings) {k : Nat},
    Stmt.WellFormedList stmts →
    Publishes k (Stmt.resolveList s stmts) k (published k (Stmt.declaredList stmts))
  | [], s, k, h => by
    rw [Stmt.resolveList, Stmt.declaredList, List.flatMap_nil, published_nil]
    exact publishes_pure _
  | stmt :: stmts, s, k, h => by
    rw [Stmt.resolveList, Stmt.declaredList, List.flatMap_cons, published_append]
    refine (stmt.publishes_resolve s h.1).bind fun _ => ?_
    exact (Stmt.publishes_resolveList stmts s h.2).silently fun _ => publishes_pure _

end

/-! ## Sources -/

theorem Stmt.resolveList_append (s : Surroundings) (stmts stmts' : List (Stmt Unit)) :
    Stmt.resolveList s (stmts ++ stmts') = do
      let trees ← Stmt.resolveList s stmts
      let trees' ← Stmt.resolveList s stmts'
      return trees ++ trees' := by
  induction stmts with
  | nil => simp [Stmt.resolveList]
  | cons stmt stmts ih => simp [Stmt.resolveList, ih]

/-- What the resolution of a whole program without errors leaves behind. -/
theorem Stmt.run_resolveList {stmts : List (Stmt Unit)} {globals : List Text} {first : Nat}
    (hw : Stmt.WellFormedList stmts) {r : Resolution}
    (hr : r = ((Stmt.resolveList {} stmts).run { globals := globals, linkCount := first }).2)
    (hclean : r.Clean) :
    r.scopes = [] ∧ r.globals = (Stmt.declaredList stmts).reverse ++ globals ∧
      r.linkCount = first + r.links.length := by
  let start : Resolution := { globals := globals, linkCount := first }
  obtain ⟨hscopes, hglobals, -⟩ := Stmt.publishes_resolveList stmts {} hw start rfl
  obtain ⟨-, refs, -, hvisits⟩ := Stmt.walks_resolveList stmts {} hw .nil start .nil
  rw [← hr] at hscopes hglobals hvisits
  obtain ⟨records, hlinks, hcount, -⟩ := hvisits.links hclean
  refine ⟨List.eq_nil_of_length_eq_zero hscopes, hglobals, ?_⟩
  rw [hcount, hlinks]
  simp [start]

/-- Resolution keeps the names that a program declares. -/
theorem resolveStmts_declaredList {globals : List Text} {stmts : List (Stmt Unit)} {first : Nat}
    (hw : Stmt.WellFormedList stmts)
    (h : (resolveStmts globals stmts first).report.hasErrors = false) :
    Stmt.declaredList (resolveStmts globals stmts first).tree = Stmt.declaredList stmts := by
  obtain ⟨-, ⟨-, -, hdeclared⟩, -⟩ := finish_numbered (Stmt.walks_resolveList stmts {} hw .nil) h
  exact hdeclared

/-- Whatever is found while a program is resolved is attributed to this. -/
theorem resolveStmts_stage {globals : List Text} {stmts : List (Stmt Unit)} {first : Nat}
    (hw : Stmt.WellFormedList stmts) :
    ∀ d ∈ (resolveStmts globals stmts first).report, d.stage = .resolve := by
  intro d hd
  have hleft := Stmt.publishes_resolveList stmts {} hw
    { globals := globals, linkCount := first } rfl
  exact (hleft.found d (List.mem_reverse.mp hd)).resolve_left (List.not_mem_nil)

/-- What comes out of a resolution. -/
def Resolution.resolved {α : Type} (out : α × Resolution) : Resolved α :=
  ⟨out.1, out.2.links.reverse, out.2.found.reverse⟩

theorem Resolve.Tracks.resolved {α : Type} {g : Position → Position} {reported : List Diagnostic}
    {linked : List LinkRecord} {f : α → α} {x x' : Resolve α} {r r' : Resolution}
    (h : Tracks g reported linked f x x') (hr : r.Moved g reported linked r') :
    Resolution.resolved (x'.run r') =
      ⟨f (Resolution.resolved (x.run r)).tree,
        linked.reverse ++ (Resolution.resolved (x.run r)).links.map (LinkRecord.move g),
        reported.reverse ++ (Resolution.resolved (x.run r)).report.map (Diagnostic.move g)⟩ := by
  obtain ⟨htree, hlast⟩ := h r r' hr
  simp only [Resolution.resolved, htree, hlast.links, hlast.found, List.reverse_append,
    List.map_reverse]

/-- Two programs, the second of which was moved, are resolved one after the other. -/
theorem resolveStmts_append {g : Position → Position} (hg : g .nowhere = .nowhere)
    {globals known : List Text} {first : Nat} {stmts stmts' : List (Stmt Unit)}
    {a b : Resolved (List (Stmt (Option Link)))} (hw : Stmt.WellFormedList stmts)
    (ha : resolveStmts globals stmts first = a) (hclean : a.report.hasErrors = false)
    (hknown : ∀ x, x ∈ known ↔ x ∈ globals ∨ x ∈ Stmt.declaredList stmts)
    (hb : resolveStmts known stmts' (first + a.links.length) = b) :
    resolveStmts globals (stmts ++ Stmt.moveList g stmts') first =
      ⟨a.tree ++ Stmt.moveList g b.tree, a.links ++ b.links.map (LinkRecord.move g),
        a.report ++ b.report.map (Diagnostic.move g)⟩ := by
  subst ha hb
  let start : Resolution := { globals := globals, linkCount := first }
  let out := (Stmt.resolveList {} stmts).run start
  have hcleanly : out.2.Clean := by
    change Report.hasErrors (List.reverse _) = false at hclean
    rwa [Report.hasErrors, List.any_reverse] at hclean
  obtain ⟨hscopes, hglobals, hcount⟩ := Stmt.run_resolveList hw (r := out.2) rfl hcleanly
  -- the second program starts where the first ended, but for findings and links
  let start' : Resolution := { globals := known, linkCount := first + out.2.links.reverse.length }
  have hmoved : start'.Moved g out.2.found out.2.links out.2 := by
    refine ⟨hscopes, fun x => ?_, rfl, rfl, by rw [hcount, ← List.length_reverse]⟩
    rw [Bool.eq_iff_iff, List.contains_iff_mem, List.contains_iff_mem, hglobals, hknown]
    simp [or_comm]
  have hrest := (Stmt.tracks_resolveList hg stmts' {}).resolved hmoved
  rw [resolveStmts, Stmt.resolveList_append]
  exact congrArg (fun b => Resolved.mk (out.1 ++ b.tree) b.links b.report) hrest

/-- An expression that was moved is resolved as it was where it stood. -/
theorem resolveExpr_move {g : Position → Position} (hg : g .nowhere = .nowhere)
    (globals : List Text) (expr : Expr Unit) (first : Nat) :
    resolveExpr globals (expr.move g) first =
      ⟨(resolveExpr globals expr first).tree.move g,
        (resolveExpr globals expr first).links.map (LinkRecord.move g),
        (resolveExpr globals expr first).report.map (Diagnostic.move g)⟩ := by
  let start : Resolution := { globals := globals, linkCount := first }
  have hmoved : start.Moved g [] [] start := ⟨rfl, fun _ => rfl, rfl, rfl, rfl⟩
  exact (expr.tracks_resolve hg {}).resolved hmoved

theorem resolveStmts_print (globals : List Text) (span : Span) (keyword : Token)
    (expr : Expr Unit) (first : Nat) :
    resolveStmts globals [.print span keyword expr] first =
      ⟨[.print span keyword (resolveExpr globals expr first).tree],
        (resolveExpr globals expr first).links, (resolveExpr globals expr first).report⟩ :=
  rfl

end Scriptlet

import Scriptlet.Proofs.Scope.Linking
import Scriptlet.Proofs.Tree.Jumps

/-!
# Jumps in resolved programs

Resolution keeps track of the functions and loops around a place and reports jumps that have nothing
to jump out of. So in a tree that was resolved without an error every jump is allowed where it
stands. Beyond that, resolution only adds links: without them the tree is the one that was read.
`Resolve.Demands` says both of a part of a resolution, and `resolveStmts_demands` and
`resolveExpr_demands` of whole sources.
-/

namespace Scriptlet

/-! ## Trees without links -/

/-- An expression as it was before resolution. -/
def Expr.bare (e : Expr (Option Link)) : Expr Unit := e.mapLinks fun _ => ()

def Expr.bareList (es : List (Expr (Option Link))) : List (Expr Unit) :=
  Expr.mapLinksList (fun _ => ()) es

def Function.bare (f : Function (Option Link)) : Function Unit := f.mapLinks fun _ => ()

def Declaration.bareList (ds : List (Declaration (Option Link))) : List (Declaration Unit) :=
  Declaration.mapLinksList (fun _ => ()) ds

/-- A statement as it was before resolution. -/
def Stmt.bare (s : Stmt (Option Link)) : Stmt Unit := s.mapLinks fun _ => ()

def Stmt.bareList (ss : List (Stmt (Option Link))) : List (Stmt Unit) :=
  Stmt.mapLinksList (fun _ => ()) ss

theorem Stmt.bareList_eq_map (ss : List (Stmt (Option Link))) :
    Stmt.bareList ss = ss.map Stmt.bare := by
  induction ss with
  | nil => rfl
  | cons s ss ih => exact congrArg (s.bare :: ·) ih

/-- The place that some surroundings stand for. -/
def Surroundings.place (s : Surroundings) : Place := ⟨s.function ≠ .none, s.inLoop⟩

namespace Resolve

variable {α β : Type} {c c' : Prop} {P : α → Prop} {Q : β → Prop}

/-- A part of a resolution that finds an error unless `c` holds, and yields what is stated. -/
def Demands (c : Prop) (P : α → Prop) (x : Resolve α) : Prop :=
  ∀ r : Resolution, P (x.run r).1 ∧ ((x.run r).2.Clean → r.Clean ∧ c)

/-- A part of a resolution that only adds findings. -/
abbrev Proceeds (x : Resolve α) : Prop := Demands True (fun _ => True) x

theorem Demands.imp {x : Resolve α} (h : Demands c P x) (hc : c → c') : Demands c' P x :=
  fun r => ⟨(h r).1, fun hclean => ((h r).2 hclean).imp_right hc⟩

theorem Demands.bind {x : Resolve α} {f : α → Resolve β} (hx : Demands c P x)
    (hf : ∀ a, P a → Demands c' Q (f a)) : Demands (c ∧ c') Q (x >>= f) := by
  intro r
  obtain ⟨hp, hfirst⟩ := hx r
  obtain ⟨hq, hsecond⟩ := hf _ hp (x.run r).2
  refine ⟨hq, fun hclean => ?_⟩
  obtain ⟨hclean, hc'⟩ := hsecond hclean
  obtain ⟨hclean, hc⟩ := hfirst hclean
  exact ⟨hclean, hc, hc'⟩

/-- A step that demands nothing. -/
theorem Demands.after {x : Resolve α} {f : α → Resolve β} (hx : Proceeds x)
    (hf : ∀ a, Demands c Q (f a)) : Demands c Q (x >>= f) :=
  (hx.bind fun a _ => hf a).imp And.right

/-- A part that is followed by something that demands nothing. -/
theorem Demands.before {x : Resolve α} {f : α → Resolve β} (hx : Demands c P x)
    (hf : ∀ a, P a → Demands True Q (f a)) : Demands c Q (x >>= f) :=
  (hx.bind hf).imp And.left

theorem demands_pure {a : α} (h : P a) : Demands True P (pure a) :=
  fun _ => ⟨h, fun hr => ⟨hr, trivial⟩⟩

theorem demands_get {f : Resolution → Resolve β} (hf : ∀ r, Demands c Q (f r)) :
    Demands c Q (get >>= f) :=
  fun r => hf r r

/-- A change of scopes or links. -/
theorem proceeds_modify {f : Resolution → Resolution} (hf : ∀ r, (f r).found = r.found) :
    Proceeds (modify f) :=
  fun r => ⟨trivial, fun hclean => ⟨(congrArg Report.hasErrors (hf r)).symm.trans hclean, trivial⟩⟩

theorem proceeds_report (f : ScopeFault) (token : Token) : Proceeds (report f token) :=
  fun _ => ⟨trivial, fun hclean => ⟨clean_of_append [f.report token] hclean, trivial⟩⟩

/-- A fault that is reported as an error must not be there. -/
theorem demands_reportIf {d : Prop} [Decidable d] {f : ScopeFault} {token : Token}
    {rest : Unit → Resolve β} (hf : f.severity = .error) (hrest : ∀ u, Demands c Q (rest u)) :
    Demands (¬ d ∧ c) Q (if d then report f token >>= rest else rest ()) := by
  split
  · intro r
    obtain ⟨hq, hclean⟩ := hrest () ((report f token).run r).2
    refine ⟨hq, fun h => ?_⟩
    have hnone := (hclean h).1
    rw [Resolution.Clean] at hnone
    change Report.hasErrors (f.report token :: r.found) = false at hnone
    simp [Report.hasErrors, Diagnostic.isError, ScopeFault.report, hf] at hnone
  · next hd => exact (hrest ()).imp fun hc => ⟨hd, hc⟩

/-- A check that must hold. -/
theorem demands_reportUnless {d : Prop} [Decidable d] {f : ScopeFault} {token : Token}
    {rest : Unit → Resolve β} (hf : f.severity = .error) (hrest : ∀ u, Demands c Q (rest u)) :
    Demands (d ∧ c) Q (if d then rest () else report f token >>= rest) := by
  have h : Demands (¬¬d ∧ c) Q (if ¬d then report f token >>= rest else rest ()) :=
    demands_reportIf hf hrest
  simpa only [Decidable.not_not, ite_not] using h

theorem proceeds_reportIf {d : Prop} [Decidable d] {f : ScopeFault} {token : Token}
    {rest : Unit → Resolve β} (hrest : ∀ u, Demands c Q (rest u)) :
    Demands c Q (if d then report f token >>= rest else rest ()) := by
  split
  · exact (proceeds_report f token).after hrest
  · exact hrest ()

/-! ## Steps -/

theorem proceeds_openScope : Proceeds openScope := proceeds_modify fun _ => rfl

theorem proceeds_closeScope : Proceeds closeScope := by
  rintro ⟨scopes, globals, found, links, count⟩
  cases scopes with
  | nil => exact ⟨trivial, fun hclean => ⟨hclean, trivial⟩⟩
  | cons top rest => exact ⟨trivial, fun hclean => ⟨clean_of_append _ hclean, trivial⟩⟩

theorem proceeds_declare (name : Token) : Proceeds (declare name) := by
  refine demands_get fun r => ?_
  split
  · exact proceeds_modify fun _ => rfl
  · exact proceeds_reportIf fun _ => proceeds_modify fun _ => rfl

theorem proceeds_define (name : Token) : Proceeds (define name) := proceeds_modify fun _ => rfl

theorem proceeds_bindImplicit (name : Text) : Proceeds (bindImplicit name) := by
  refine proceeds_modify fun r => ?_
  split <;> rfl

theorem proceeds_link (label : Text) (start : Position) (hops : Nat) :
    Proceeds (link label start hops) :=
  fun _ => ⟨trivial, fun hclean => ⟨hclean, trivial⟩⟩

theorem proceeds_linkBeyond (skipped : Nat) (label : Text) (start : Position) (name : Text)
    (isRead : Bool) : Proceeds (linkBeyond skipped label start name isRead) := by
  refine demands_get fun r => ?_
  dsimp only
  split
  · split
    · exact Demands.after (proceeds_modify fun _ => rfl) fun _ => proceeds_link _ _ _
    · exact proceeds_link _ _ _
  · exact proceeds_link _ _ _

theorem proceeds_linkVariable (start : Position) (name : Token) :
    Proceeds (linkVariable start name) := by
  refine demands_get fun r => ?_
  extract_lets label initializing outside
  split
  · split
    · exact proceeds_linkBeyond _ _ _ _ _
    · exact (proceeds_report _ name).after fun _ => demands_pure trivial
  · exact proceeds_linkBeyond _ _ _ _ _

theorem proceeds_parameters (params : List Token) : Proceeds (parameters params) := by
  induction params with
  | nil => exact demands_pure trivial
  | cons p ps ih => exact (proceeds_declare p).after fun _ => (proceeds_define p).after fun _ => ih

end Resolve

/-! ## Trees -/

open Resolve

/-- An expression whose jumps have something to jump out of. -/
abbrev Expr.Placed {β : Type} (e : Expr β) : Prop := e.Ruled Place.Allows

abbrev Function.Placed {β : Type} (f : Function β) : Prop := f.Ruled Place.Allows

/-- A statement at a place whose jumps have something to jump out of. -/
abbrev Stmt.Placed {β : Type} (p : Place) (s : Stmt β) : Prop := s.Ruled Place.Allows p

mutual

theorem Expr.demands_resolve : ∀ (e : Expr Unit) (s : Surroundings),
    Demands e.Placed (fun e' => e'.bare = e) (e.resolve s)
  | .literal span value, s => by
    rw [Expr.resolve, Expr.Placed, Expr.Ruled]
    exact demands_pure rfl
  | .name span name _, s => by
    rw [Expr.resolve, Expr.Placed, Expr.Ruled]
    exact (proceeds_linkVariable _ name).after fun _ => demands_pure rfl
  | .assign span name op value _, s => by
    rw [Expr.resolve, Expr.Placed, Expr.Ruled]
    refine proceeds_reportIf fun _ => (value.demands_resolve s).before fun value' hv => ?_
    exact (proceeds_linkBeyond _ _ _ _ _).after fun _ => demands_pure (by rw [← hv]; rfl)
  | .binary span left op right, s => by
    rw [Expr.resolve, Expr.Placed, Expr.Ruled]
    refine (left.demands_resolve s).bind fun left' hl => ?_
    exact (right.demands_resolve s).before fun right' hr => demands_pure (by rw [← hl, ← hr]; rfl)
  | .logical span left op right, s => by
    rw [Expr.resolve, Expr.Placed, Expr.Ruled]
    refine (left.demands_resolve s).bind fun left' hl => ?_
    exact (right.demands_resolve s).before fun right' hr => demands_pure (by rw [← hl, ← hr]; rfl)
  | .unary span op operand trailing, s => by
    rw [Expr.resolve, Expr.Placed, Expr.Ruled]
    exact (operand.demands_resolve s).before fun operand' h => demands_pure (by rw [← h]; rfl)
  | .ternary span condition onTrue onFalse, s => by
    rw [Expr.resolve, Expr.Placed, Expr.Ruled]
    refine (condition.demands_resolve _).bind fun condition' hc => ?_
    refine (onTrue.demands_resolve s).bind fun onTrue' ht => ?_
    exact (onFalse.demands_resolve s).before fun onFalse' hf =>
      demands_pure (by rw [← hc, ← ht, ← hf]; rfl)
  | .group span inner, s => by
    rw [Expr.resolve, Expr.Placed, Expr.Ruled]
    exact (inner.demands_resolve s).before fun inner' h => demands_pure (by rw [← h]; rfl)
  | .call span callee paren args, s => by
    rw [Expr.resolve, Expr.Placed, Expr.Ruled]
    refine (callee.demands_resolve s).bind fun callee' hc => ?_
    exact (Expr.demands_resolveList args s).before fun args' ha =>
      demands_pure (by rw [← hc, ← ha]; rfl)
  | .lambda function, s => by
    rw [Expr.resolve, Expr.Placed, Expr.Ruled]
    exact (function.demands_resolve _ FunctionKind.noConfusion).before fun f hf =>
      demands_pure (by rw [← hf]; rfl)
  | .get span object name, s => by
    rw [Expr.resolve, Expr.Placed, Expr.Ruled]
    exact (object.demands_resolve s).before fun object' h => demands_pure (by rw [← h]; rfl)
  | .set span object name value, s => by
    rw [Expr.resolve, Expr.Placed, Expr.Ruled, and_comm]
    refine (value.demands_resolve s).bind fun value' hv => ?_
    exact (object.demands_resolve s).before fun object' ho => demands_pure (by rw [← hv, ← ho]; rfl)
  | .receiver span keyword _, s => by
    rw [Expr.resolve, Expr.Placed, Expr.Ruled]
    split
    · exact (proceeds_report _ keyword).after fun _ => demands_pure rfl
    · exact (proceeds_linkBeyond _ _ _ _ _).after fun _ => demands_pure rfl
  | .inherited span keyword method _, s => by
    rw [Expr.resolve, Expr.Placed, Expr.Ruled]
    split
    · exact (proceeds_report _ keyword).after fun _ => demands_pure rfl
    · exact (proceeds_report _ keyword).after fun _ => demands_pure rfl
    · exact (proceeds_linkBeyond _ _ _ _ _).after fun _ => demands_pure rfl

theorem Expr.demands_resolveList : ∀ (es : List (Expr Unit)) (s : Surroundings),
    Demands (Expr.RuledList Place.Allows es) (fun es' => Expr.bareList es' = es)
      (Expr.resolveList s es)
  | [], s => by
    rw [Expr.resolveList, Expr.RuledList]
    exact demands_pure rfl
  | e :: es, s => by
    rw [Expr.resolveList, Expr.RuledList]
    refine (e.demands_resolve s).bind fun e' he => ?_
    exact (Expr.demands_resolveList es s).before fun es' hes =>
      demands_pure (by rw [← he, ← hes]; rfl)

/-- A function is a place of its own, whatever is around it. -/
theorem Function.demands_resolve : ∀ (f : Function Unit) (s : Surroundings), s.function ≠ .none →
    Demands f.Placed (fun f' => f'.bare = f) (f.resolve s)
  | .mk span keyword params body getter, s, hs => by
    rw [Function.resolve, Function.Placed, Function.Ruled]
    have hplace : Surroundings.place { s with inLoop := false } = .function := by
      simp [Surroundings.place, Place.function, hs]
    have hbody := Stmt.demands_resolveList body { s with inLoop := false }
    rw [hplace] at hbody
    refine proceeds_openScope.after fun _ => (proceeds_parameters params).after fun _ => ?_
    exact hbody.before fun body' hb =>
      proceeds_closeScope.after fun _ => demands_pure (by rw [← hb]; rfl)

theorem Declaration.demands_resolveMethods : ∀ (ds : List (Declaration Unit)) (s : Surroundings)
    (initializers : Bool), Demands (Declaration.RuledList Place.Allows ds)
      (fun ds' => Declaration.bareList ds' = ds) (Declaration.resolveMethods s initializers ds)
  | [], s, initializers => by
    rw [Declaration.resolveMethods, Declaration.RuledList]
    exact demands_pure rfl
  | .mk span name function :: rest, s, initializers => by
    rw [Declaration.resolveMethods, Declaration.RuledList]
    refine (function.demands_resolve _ ?_).bind fun f hf => ?_
    · dsimp only
      split <;> nofun
    · exact (Declaration.demands_resolveMethods rest s initializers).before fun rest' hr =>
        demands_pure (by rw [← hf, ← hr]; rfl)

theorem Stmt.demands_resolve : ∀ (stmt : Stmt Unit) (s : Surroundings),
    Demands (stmt.Placed s.place) (fun stmt' => stmt'.bare = stmt) (stmt.resolve s)
  | .evaluate span expr, s => by
    rw [Stmt.resolve, Stmt.Placed, Stmt.Ruled]
    exact (expr.demands_resolve s).before fun expr' h => demands_pure (by rw [← h]; rfl)
  | .print span keyword value, s => by
    rw [Stmt.resolve, Stmt.Placed, Stmt.Ruled]
    exact (value.demands_resolve s).before fun value' h => demands_pure (by rw [← h]; rfl)
  | .declareVar span name none, s => by
    rw [Stmt.resolve, Stmt.Placed, Stmt.Ruled]
    exact (proceeds_declare name).after fun _ => (proceeds_define name).after fun _ =>
      demands_pure rfl
  | .declareVar span name (some init), s => by
    rw [Stmt.resolve, Stmt.Placed, Stmt.Ruled]
    refine (proceeds_declare name).after fun _ => (init.demands_resolve s).before fun init' h => ?_
    exact (proceeds_define name).after fun _ => demands_pure (by rw [← h]; rfl)
  | .block span stmts, s => by
    rw [Stmt.resolve, Stmt.Placed, Stmt.Ruled]
    refine proceeds_openScope.after fun _ => ?_
    exact (Stmt.demands_resolveList stmts s).before fun stmts' h =>
      proceeds_closeScope.after fun _ => demands_pure (by rw [← h]; rfl)
  | .branch span condition onTrue none, s => by
    rw [Stmt.resolve, Stmt.Placed, Stmt.Ruled]
    refine (condition.demands_resolve _).bind fun condition' hc => ?_
    exact (onTrue.demands_resolve s).before fun onTrue' ht => demands_pure (by rw [← hc, ← ht]; rfl)
  | .branch span condition onTrue (some onFalse), s => by
    rw [Stmt.resolve, Stmt.Placed, Stmt.Ruled]
    refine (condition.demands_resolve _).bind fun condition' hc => ?_
    refine (onTrue.demands_resolve s).bind fun onTrue' ht => ?_
    exact (onFalse.demands_resolve s).before fun onFalse' hf =>
      demands_pure (by rw [← hc, ← ht, ← hf]; rfl)
  | .loop span condition body none bodyFirst, s => by
    rw [Stmt.resolve, Stmt.Placed, Stmt.Ruled]
    refine Demands.imp ?_ (And.intro trivial)
    refine (condition.demands_resolve _).bind fun condition' hc => ?_
    exact (body.demands_resolve { s with inLoop := true }).before fun body' hb =>
      demands_pure (by rw [← hc, ← hb]; rfl)
  | .loop span condition body (some update) bodyFirst, s => by
    rw [Stmt.resolve, Stmt.Placed, Stmt.Ruled]
    refine Demands.imp ?_ (And.intro trivial)
    refine (condition.demands_resolve _).bind fun condition' hc => ?_
    refine (body.demands_resolve { s with inLoop := true }).bind fun body' hb => ?_
    exact (update.demands_resolve _).before fun update' hu =>
      demands_pure (by rw [← hc, ← hb, ← hu]; rfl)
  | .leave span keyword none, s => by
    rw [Stmt.resolve, Stmt.Placed, Stmt.Ruled]
    refine Demands.imp (c := s.function ≠ .none ∧ True) ?_ fun h => decide_eq_true h.1
    exact demands_reportIf rfl fun _ => demands_pure rfl
  | .leave span keyword (some value), s => by
    rw [Stmt.resolve, Stmt.Placed, Stmt.Ruled]
    refine Demands.imp ?_ (And.imp_left decide_eq_true)
    refine demands_reportIf rfl fun _ => proceeds_reportIf fun _ => ?_
    exact (value.demands_resolve s).before fun value' h => demands_pure (by rw [← h]; rfl)
  | .breakLoop span keyword, s => by
    rw [Stmt.resolve, Stmt.Placed, Stmt.Ruled]
    exact Demands.imp (demands_reportUnless rfl fun _ => demands_pure rfl) And.left
  | .continueLoop span keyword, s => by
    rw [Stmt.resolve, Stmt.Placed, Stmt.Ruled]
    exact Demands.imp (demands_reportUnless rfl fun _ => demands_pure rfl) And.left
  | .declareFunction (.mk span name function), s => by
    rw [Stmt.resolve, Stmt.Placed, Stmt.Ruled]
    refine (proceeds_declare name).after fun _ => (proceeds_define name).after fun _ => ?_
    exact (function.demands_resolve _ FunctionKind.noConfusion).before fun f hf =>
      demands_pure (by rw [← hf]; rfl)
  | .declareClass span name none methods classMethods, s => by
    rw [Stmt.resolve, Stmt.Placed, Stmt.Ruled]
    refine (proceeds_declare name).after fun _ => (proceeds_define name).after fun _ => ?_
    refine proceeds_openScope.after fun _ => (proceeds_bindImplicit _).after fun _ => ?_
    refine (Declaration.demands_resolveMethods methods _ _).bind fun methods' hm => ?_
    exact (Declaration.demands_resolveMethods classMethods _ _).before fun classMethods' hc =>
      proceeds_closeScope.after fun _ => demands_pure (by rw [← hm, ← hc]; rfl)
  | .declareClass span name (some (parent, _)) methods classMethods, s => by
    rw [Stmt.resolve, Stmt.Placed, Stmt.Ruled]
    refine (proceeds_declare name).after fun _ => (proceeds_define name).after fun _ => ?_
    refine proceeds_reportIf fun _ => (proceeds_linkVariable _ parent).after fun _ => ?_
    refine proceeds_openScope.after fun _ => (proceeds_bindImplicit _).after fun _ => ?_
    refine proceeds_openScope.after fun _ => (proceeds_bindImplicit _).after fun _ => ?_
    refine (Declaration.demands_resolveMethods methods _ _).bind fun methods' hm => ?_
    refine (Declaration.demands_resolveMethods classMethods _ _).before fun classMethods' hc => ?_
    exact proceeds_closeScope.after fun _ => proceeds_closeScope.after fun _ =>
      demands_pure (by rw [← hm, ← hc]; rfl)

theorem Stmt.demands_resolveList : ∀ (stmts : List (Stmt Unit)) (s : Surroundings),
    Demands (Stmt.RuledList Place.Allows s.place stmts) (fun stmts' => Stmt.bareList stmts' = stmts)
      (Stmt.resolveList s stmts)
  | [], s => by
    rw [Stmt.resolveList, Stmt.RuledList]
    exact demands_pure rfl
  | stmt :: stmts, s => by
    rw [Stmt.resolveList, Stmt.RuledList]
    refine (stmt.demands_resolve s).bind fun stmt' h => ?_
    exact (Stmt.demands_resolveList stmts s).before fun stmts' hs =>
      demands_pure (by rw [← h, ← hs]; rfl)

end

/-! ## Whole sources -/

theorem Resolve.Demands.finish {α : Type} {c : Prop} {P : α → Prop} {x : Resolve α}
    (hx : Demands c P x) (globals : List Text) (first : Nat) :
    P (finish globals first x).tree ∧
      ((finish globals first x).report.hasErrors = false → c) := by
  obtain ⟨hp, hc⟩ := hx { globals := globals, linkCount := first }
  refine ⟨hp, fun herrors => (hc ?_).2⟩
  change Report.hasErrors (List.reverse _) = false at herrors
  rwa [Report.hasErrors, List.any_reverse] at herrors

/-- Resolved statements are those that were read with links; if no error was found, every jump in
them has something to jump out of. -/
theorem resolveStmts_demands (globals : List Text) (stmts : List (Stmt Unit)) (first : Nat) :
    Stmt.bareList (resolveStmts globals stmts first).tree = stmts ∧
      ((resolveStmts globals stmts first).report.hasErrors = false →
        Stmt.RuledList Place.Allows {} (resolveStmts globals stmts first).tree) := by
  obtain ⟨hbare, hplaced⟩ := (Stmt.demands_resolveList stmts {}).finish globals first
  refine ⟨hbare, fun hclean => ?_⟩
  rw [← Stmt.ruledList_mapLinks fun _ => ()]
  exact Eq.subst (motive := Stmt.RuledList Place.Allows {}) hbare.symm (hplaced hclean)

/-- A resolved expression is the one that was read with links; if no error was found, every jump in
its functions has something to jump out of. -/
theorem resolveExpr_demands (globals : List Text) (expr : Expr Unit) (first : Nat) :
    (resolveExpr globals expr first).tree.bare = expr ∧
      ((resolveExpr globals expr first).report.hasErrors = false →
        (resolveExpr globals expr first).tree.Placed) := by
  obtain ⟨hbare, hplaced⟩ := (expr.demands_resolve {}).finish globals first
  refine ⟨hbare, fun hclean => ?_⟩
  rw [Expr.Placed, ← Expr.ruled_mapLinks fun _ => ()]
  exact Eq.subst (motive := Expr.Placed) hbare.symm (hplaced hclean)

end Scriptlet

import Scriptlet.Proofs.Scope.Placement
import Scriptlet.Proofs.Scope.Usage
import Scriptlet.Proofs.Tree.Reading

/-!
# Warnings about names that nobody reads

At the end of each scope there is a warning about every name of the scope that nothing has read
outside of its own initializer, in the order of their declarations, and there are no other such
warnings (`unused_exact`). Globals, the receiver and the superclass have none.

A read in the initializer of the variable itself is noted and then forgotten, since the end of the
initializer marks the variable as defined. So there are warnings about variables that are read
(`own_initializer_read_forgotten`).
-/

namespace Scriptlet

open Resolve

mutual

theorem Expr.follows_resolve : ∀ (e : Expr Unit) {c : Context} (t : Trail),
    Follows c (e.resolve t.surroundings) (e.spots c t) (e.regions c t)
  | .literal span value, c, t => by
    rw [Expr.resolve, Expr.spots, Expr.regions]
    exact watches_pure _
  | .name span name _, c, t => by
    rw [Expr.resolve, Expr.spots, Expr.regions]
    exact (watches_linkVariable span.start name).map _
  | .assign span name op value _, c, t => by
    rw [Expr.resolve, Expr.spots, Expr.regions]
    refine .remark rfl (watches_reportIf rfl fun _ => ?_)
    rw [← List.append_nil (value.regions c t)]
    refine (value.follows_resolve t).bind fun value => ?_
    exact (watches_linkBeyond (.write span.start name op) (Nat.zero_le _) rfl rfl rfl).map _
  | .binary span left op right, c, t => by
    rw [Expr.resolve, Expr.spots, Expr.regions]
    exact (left.follows_resolve t).bind fun _ => (right.follows_resolve t).map _
  | .logical span left op right, c, t => by
    rw [Expr.resolve, Expr.spots, Expr.regions]
    exact (left.follows_resolve t).bind fun _ => (right.follows_resolve t).map _
  | .unary span op operand trailing, c, t => by
    rw [Expr.resolve, Expr.spots, Expr.regions]
    exact (operand.follows_resolve t).map _
  | .ternary span condition onTrue onFalse, c, t => by
    rw [Expr.resolve, Expr.spots, Expr.regions]
    refine (condition.follows_resolve (.condition :: t)).bind fun _ => ?_
    refine (onTrue.follows_resolve t).bind fun _ => ?_
    exact (onFalse.follows_resolve t).map _
  | .group span inner, c, t => by
    rw [Expr.resolve, Expr.spots, Expr.regions]
    exact (inner.follows_resolve t).map _
  | .call span callee paren args, c, t => by
    rw [Expr.resolve, Expr.spots, Expr.regions]
    exact (callee.follows_resolve t).bind fun _ => (Expr.follows_resolveList args t).map _
  | .lambda function, c, t => by
    rw [Expr.resolve, Expr.spots, Expr.regions]
    exact (function.follows_resolve (.function :: t) t.surroundings_function.symm).map _
  | .get span object name, c, t => by
    rw [Expr.resolve, Expr.spots, Expr.regions]
    exact (object.follows_resolve t).map _
  | .set span object name value, c, t => by
    rw [Expr.resolve, Expr.spots, Expr.regions]
    exact (value.follows_resolve t).bind fun _ => (object.follows_resolve t).map _
  | .receiver span keyword _, c, t => by
    rw [Expr.resolve, Expr.spots, Expr.regions]
    dsimp only [Trail.surroundings]
    cases h : t.class? with
    | none =>
      refine watches_refuse ?_ rfl
      simp [Spot.effect?, Spot.link?, Spot.linkWhere, h]
    | some derived =>
      have hlinked : Follows c
          (linkBeyond 0 "this" span.start keyword.lexeme true >>= fun link =>
            pure (Expr.receiver span keyword link))
          [⟨c, t, .receiver span.start keyword⟩] [] := by
        refine (watches_linkBeyond (.receiver span.start keyword) (Nat.zero_le _) rfl ?_ ?_).map _
        · simp [Spot.link?, Spot.linkWhere, h]
        · simp [Spot.faults, Spot.misplaced, Spot.unbound, Spot.unboundWhere, h]
      cases derived <;> exact hlinked
  | .inherited span keyword method _, c, t => by
    rw [Expr.resolve, Expr.spots, Expr.regions]
    dsimp only [Trail.surroundings]
    match h : t.class? with
    | none | some false =>
      refine watches_refuse ?_ rfl
      simp [Spot.effect?, Spot.link?, Spot.linkWhere, h]
    | some true =>
      refine (watches_linkBeyond (.inherited span.start keyword method) (Nat.zero_le _) rfl
        ?_ ?_).map _
      · simp [Spot.link?, Spot.linkWhere, h]
      · simp [Spot.faults, Spot.misplaced, Spot.unbound, Spot.unboundWhere, h]

theorem Expr.follows_resolveList : ∀ (es : List (Expr Unit)) {c : Context} (t : Trail),
    Follows c (Expr.resolveList t.surroundings es) (Expr.spotsList c t es) (Expr.regionsList c t es)
  | [], c, t => by
    rw [Expr.resolveList, Expr.spotsList, Expr.regionsList]
    exact watches_pure _
  | e :: es, c, t => by
    rw [Expr.resolveList, Expr.spotsList, Expr.regionsList]
    exact (e.follows_resolve t).bind fun _ => (Expr.follows_resolveList es t).map _

theorem Function.follows_resolve : ∀ (f : Function Unit) {c : Context} (t : Trail)
    {s : Surroundings}, { s with inLoop := false } = t.surroundings →
    Follows c (f.resolve s) (f.spots c t) (f.regions c t)
  | .mk span keyword params body getter, c, t, s, hs => by
    have hbody := Stmt.follows_resolveList body t
      ((Context.Idle.enter c).after (c.enter.parameters t params))
    have hboth : Follows c.enter
        (parameters params >>= fun _ => Stmt.resolveList t.surroundings body)
        ((Function.mk span keyword params body getter).spots c t)
        (Stmt.regionsList (c.enter.after (c.enter.parameters t params)) t body) :=
      (watches_parameters (.enter c) t params).bind fun _ => hbody
    rw [Function.resolve, Function.regions, hs]
    exact hboth.scope (opens_openScope c) fun body => Function.mk span keyword params body getter

theorem Declaration.follows_resolveMethods : ∀ (ds : List (Declaration Unit)) {c : Context}
    (t : Trail) (initializers : Bool) (kind : Text → Ancestor),
    (∀ name, Trail.surroundings (kind name :: t) =
      { t.surroundings with
        function := if initializers && name == ("init" : Text) then .initializer else .method,
        inLoop := false }) →
    Follows c (Declaration.resolveMethods t.surroundings initializers ds)
      (Declaration.spotsList c t kind ds) (Declaration.regionsList c t kind ds)
  | [], c, t, initializers, kind, hkind => by
    rw [Declaration.resolveMethods, Declaration.spotsList, Declaration.regionsList]
    exact watches_pure _
  | .mk span name function :: ds, c, t, initializers, kind, hkind => by
    rw [Declaration.resolveMethods, Declaration.spotsList, Declaration.regionsList]
    exact (function.follows_resolve (kind name.lexeme :: t) (hkind name.lexeme).symm).bind fun _ =>
      (Declaration.follows_resolveMethods ds t initializers kind hkind).map _

theorem Stmt.follows_resolve : ∀ (stmt : Stmt Unit) {c : Context} (t : Trail), c.Idle →
    Follows c (stmt.resolve t.surroundings) (stmt.spots c t) (stmt.regions c t)
  | .evaluate span expr, c, t, hc => by
    rw [Stmt.resolve, Stmt.spots, Stmt.regions]
    exact (expr.follows_resolve t).map _
  | .print span keyword value, c, t, hc => by
    rw [Stmt.resolve, Stmt.spots, Stmt.regions]
    exact (value.follows_resolve t).map _
  | .declareVar span name none, c, t, hc => by
    rw [Stmt.resolve, Stmt.spots, Stmt.regions]
    exact watches_introduce hc t name fun _ => watches_pure _
  | .declareVar span name (some init), c, t, hc => by
    rw [Stmt.resolve, Stmt.spots, Stmt.regions]
    have hends := (Context.Settles.await (hc.note ⟨c, t, .declare name⟩) name.lexeme).after
    refine (watches_declare hc t name).bind fun _ => ?_
    exact (init.follows_resolve t).finally fun _ => (watches_define (hends _)).map _
  | .block span stmts, c, t, hc => by
    rw [Stmt.resolve, Stmt.spots, Stmt.regions]
    exact (Stmt.follows_resolveList stmts t (.enter c)).scope (opens_openScope c) _
  | .branch span condition onTrue none, c, t, hc => by
    rw [Stmt.resolve, Stmt.spots, Stmt.regions]
    refine (condition.follows_resolve (.condition :: t)).bind fun _ => ?_
    exact (onTrue.follows_resolve t (hc.after _)).map _
  | .branch span condition onTrue (some onFalse), c, t, hc => by
    rw [Stmt.resolve, Stmt.spots, Stmt.regions]
    refine (condition.follows_resolve (.condition :: t)).bind fun _ => ?_
    refine (onTrue.follows_resolve t (hc.after _)).bind fun _ => ?_
    exact (onFalse.follows_resolve t ((hc.after _).after _)).map _
  | .loop span condition body none bodyFirst, c, t, hc => by
    rw [Stmt.resolve, Stmt.spots, Stmt.regions]
    refine (condition.follows_resolve (.condition :: t)).bind fun _ => ?_
    exact (body.follows_resolve (.loop :: t) (hc.after _)).map _
  | .loop span condition body (some update) bodyFirst, c, t, hc => by
    rw [Stmt.resolve, Stmt.spots, Stmt.regions]
    refine (condition.follows_resolve (.condition :: t)).bind fun _ => ?_
    refine (body.follows_resolve (.loop :: t) (hc.after _)).bind fun _ => ?_
    exact (update.follows_resolve (.loop :: t)).map _
  | .leave span keyword none, c, t, hc => by
    rw [Stmt.resolve, Stmt.spots, Stmt.regions]
    exact .remark rfl (watches_reportIf rfl fun _ => watches_pure _)
  | .leave span keyword (some value), c, t, hc => by
    rw [Stmt.resolve, Stmt.spots, Stmt.regions]
    refine .remark rfl (watches_reportIf rfl fun _ => watches_reportIf rfl fun _ => ?_)
    exact (value.follows_resolve t).map _
  | .breakLoop span keyword, c, t, hc => by
    rw [Stmt.resolve, Stmt.spots, Stmt.regions, ← ite_not]
    exact .remark rfl (watches_reportIf rfl fun _ => watches_pure _)
  | .continueLoop span keyword, c, t, hc => by
    rw [Stmt.resolve, Stmt.spots, Stmt.regions, ← ite_not]
    exact .remark rfl (watches_reportIf rfl fun _ => watches_pure _)
  | .declareFunction (.mk span name function), c, t, hc => by
    rw [Stmt.resolve, Stmt.spots, Stmt.regions]
    refine watches_introduce hc t name fun _ => ?_
    exact (function.follows_resolve (.function :: t) t.surroundings_function.symm).map _
  | .declareClass span name none methods classMethods, c, t, hc => by
    rw [Stmt.resolve, Stmt.spots, Stmt.regions]
    refine watches_introduce hc t name fun _ => ?_
    have hmethods := (Declaration.follows_resolveMethods methods
        (c := (c.note ⟨c, t, .declare name⟩).enterWith "this") (.cls false :: t) true .method
        fun name => Trail.surroundings_method _ name).both
      (Declaration.follows_resolveMethods classMethods (.cls false :: t) false .classMethod
        fun name => Trail.surroundings_classMethod _ name)
    have hreceiver := hmethods.scope (opens_implicit _ "this")
      fun (methods, classMethods) => Stmt.declareClass span name none methods classMethods
    rw [Context.length_note] at hreceiver
    exact hreceiver
  | .declareClass span name (some (parent, _)) methods classMethods, c, t, hc => by
    rw [Stmt.resolve, Stmt.spots, Stmt.regions]
    refine watches_introduce hc t name fun _ => ?_
    refine .remark rfl (watches_reportIf rfl fun _ => ?_)
    refine Watches.bind (watches_linkVariable parent.span.start parent) fun link => ?_
    have hmethods := (Declaration.follows_resolveMethods methods
        (c := (((c.note ⟨c, t, .declare name⟩).note
          ⟨c.note ⟨c, t, .declare name⟩, t, .read parent.span.start parent⟩).enterWith
            "super").enterWith "this") (.cls true :: t) true .method
        fun name => Trail.surroundings_method _ name).both
      (Declaration.follows_resolveMethods classMethods (.cls true :: t) false .classMethod
        fun name => Trail.surroundings_classMethod _ name)
    have hreceiver := hmethods.scope (opens_implicit _ "this") id
    have hparent := hreceiver.scope (opens_implicit _ "super") fun (methods, classMethods) =>
      Stmt.declareClass span name (some (parent, link)) methods classMethods
    rw [Context.length_enterWith, Context.length_note, Context.length_note] at hparent
    exact hparent

theorem Stmt.follows_resolveList : ∀ (ss : List (Stmt Unit)) {c : Context} (t : Trail), c.Idle →
    Follows c (Stmt.resolveList t.surroundings ss) (Stmt.spotsList c t ss) (Stmt.regionsList c t ss)
  | [], c, t, hc => by
    rw [Stmt.resolveList, Stmt.spotsList, Stmt.regionsList]
    exact watches_pure _
  | s :: ss, c, t, hc => by
    rw [Stmt.resolveList, Stmt.spotsList, Stmt.regionsList]
    exact (s.follows_resolve t hc).bind fun _ => (Stmt.follows_resolveList ss t (hc.after _)).map _

end

/-! ## Sources -/

namespace Resolve

variable {α : Type} {x : Resolve α} {globals : List Text} {spots : List Spot}
  {regions : List Region}

/-- Without findings about names that are declared twice, no name is. -/
theorem Traverses.fresh {P : α → List (Token × Option Link) → Prop}
    (h : Traverses { globals := globals } x spots P) (first : Nat)
    (hclean : ∀ d ∈ (x.finish globals first).report, d.code ≠ ("E3001" : Text)) :
    ∀ s ∈ spots, s.Fresh := by
  intro s hs name hname
  rw [Bool.eq_false_iff]
  intro hbinds
  have hfault : (ScopeFault.redeclared name.lexeme).report name ∈ s.faults := by
    refine List.mem_append_left _ ?_
    rw [Spot.misplaced, hname]
    dsimp only
    rw [if_pos hbinds]
    exact List.mem_singleton_self _
  have hmem := List.mem_flatMap_of_mem hs hfault
  rw [← h.report first] at hmem
  exact hclean _ ((List.mem_filter.mp hmem).1) rfl

theorem Follows.report (h : Follows { globals := globals } x spots regions) (first : Nat)
    (hfresh : ∀ s ∈ spots, s.Fresh) :
    (x.finish globals first).report.filter Diagnostic.isUnused = Region.warnings regions := by
  have hunused := (h (.top globals first) ⟨.nil, rfl⟩ hfresh).unused
  change (x.run (.top globals first)).2.found.reverse.filter Diagnostic.isUnused = _
  rw [List.filter_reverse]
  change (x.run (.top globals first)).2.unused.reverse = _
  rw [hunused, List.reverse_append, List.reverse_reverse]
  rfl

end Resolve

/-- If no name is declared twice in a scope, there is a warning about each local name that is not
read, but in its own initializer, and no other: scopes come in the order in which they end, and the
names of a scope in the order of their declarations. Each local declaration belongs to one scope. If
no variable is read in its own initializer, a name has a warning exactly if no read of it was linked
to it. -/
theorem unused_exact (globals : List Text) (first : Nat) :
    (∀ stmts : List (Stmt Unit),
      let spots := Stmt.spotsList { globals := globals } [] stmts
      let regions := Stmt.regionsList { globals := globals } [] stmts
      (regions.flatMap Region.declared).Perm (spots.filterMap (Spot.declaresInside? 0)) ∧
      ((∀ d ∈ (resolveStmts globals stmts first).report, d.code ≠ ("E3001" : Text)) →
        (resolveStmts globals stmts first).report.filter Diagnostic.isUnused =
          Region.warnings regions)) ∧
    (∀ expr : Expr Unit,
      let spots := expr.spots { globals := globals } []
      let regions := expr.regions { globals := globals } []
      (regions.flatMap Region.declared).Perm (spots.filterMap (Spot.declaresInside? 0)) ∧
      ((∀ d ∈ (resolveExpr globals expr first).report, d.code ≠ ("E3001" : Text)) →
        (resolveExpr globals expr first).report.filter Diagnostic.isUnused =
          Region.warnings regions)) ∧
    ∀ g : Region,
      g.unused.Sublist g.declared ∧
      (∀ name, name ∈ g.unused ↔ ∃ before s later, g.spots = before ++ s :: later ∧
        s.declares? g.level = some name ∧
        ∀ s' ∈ later, s'.uses g.level name.lexeme = false) ∧
      ((∀ s ∈ g.spots, s.readsItself g.level = false) → g.unused = g.unread) := by
  refine ⟨fun stmts => ⟨?_, fun hclean => ?_⟩, fun expr => ⟨?_, fun hclean => ?_⟩, fun g => ?_⟩
  · exact Stmt.regions_coverList stmts { globals := globals } []
  · have hfresh := (resolveStmts_traverses globals stmts).fresh first hclean
    exact (Stmt.follows_resolveList stmts [] (.top globals)).report first hfresh
  · exact expr.regions_cover { globals := globals } []
  · have hfresh := (resolveExpr_traverses globals expr).fresh first hclean
    exact (expr.follows_resolve []).report first hfresh
  · exact ⟨g.unused_sublist, fun _ => Spot.mem_unreadWhere, Region.unused_eq_unread⟩

/-- In a block with a variable that is read, nobody reads another variable, a function, its first
parameter and a class with a method. -/
theorem unused_exact_block :
    let stmts := (parseProgram (tokenize
      "\x7b var a = 1; var b = a; fun f(p, q) \x7b return q; \x7d class C \x7b m() \x7b\x7d \x7d \x7d").tokens
      ).1.stmts
    let regions := Stmt.regionsList {} [] stmts
    let expr : Expr Unit := .name .nowhere ⟨.identifier, "x", none, .nowhere⟩ ()
    (regions.flatMap Region.unused).map Token.lexeme = (["p", "b", "f", "C"] : List Text) ∧
      ((∀ d ∈ (resolveStmts [] stmts).report, d.code ≠ ("E3001" : Text)) ∧
        (resolveStmts [] stmts).report.filter Diagnostic.isUnused = Region.warnings regions) ∧
      ((∀ d ∈ (resolveExpr [] expr).report, d.code ≠ ("E3001" : Text)) ∧
        (resolveExpr [] expr).report.filter Diagnostic.isUnused = []) ∧
      (∀ g ∈ regions, ∀ s ∈ g.spots, s.readsItself g.level = false) ∧
        ∀ g ∈ regions, g.unused = g.unread := by
  intro stmts regions expr
  obtain ⟨hstmts, hexprs, hregions⟩ := unused_exact [] 0
  have hclean : ∀ d ∈ (resolveStmts [] stmts).report, d.code ≠ ("E3001" : Text) := by
    decide +kernel
  have hclean' : ∀ d ∈ (resolveExpr [] expr).report, d.code ≠ ("E3001" : Text) := by
    decide +kernel
  have hothers : ∀ g ∈ regions, ∀ s ∈ g.spots, s.readsItself g.level = false := by
    decide +kernel
  refine ⟨by decide +kernel, ⟨hclean, (hstmts stmts).2 hclean⟩, ⟨hclean', (hexprs expr).2 hclean'⟩,
    hothers, fun g hg => (hregions g).2.2 (hothers g hg)⟩

/-- Not even in all programs that are parsed is a variable without a warning whenever it is read. -/
theorem own_initializer_read_forgotten :
    ¬ ∀ (globals : List Text) (tokens : List Token),
      let stmts := (parseProgram tokens).1.stmts
      (∀ d ∈ (resolveStmts globals stmts).report, d.code ≠ ("E3001" : Text)) →
        (resolveStmts globals stmts).report.filter Diagnostic.isUnused =
          (Stmt.regionsList { globals := globals } [] stmts).flatMap fun g =>
            unusedWarnings g.unread := by
  intro hall
  have hwarnings := hall [] (tokenize "\x7b var f = fun() \x7b return f; \x7d; \x7d").tokens
  revert hwarnings
  decide +kernel

end Scriptlet

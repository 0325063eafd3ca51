import Scriptlet.Proofs.Scope.Survey

/-!
# Every tree is resolved as its spots say

For each kind of tree there is one statement: its resolution makes the links and the findings of the
spots of the tree, in their order, and puts each link where its reference stands
(`Expr.surveys_resolve`, `Stmt.surveys_resolve` and their companions). Nothing is asked of a tree;
it may be one that no source is read as. What this comes to at top level is said of any resolution
that traverses its spots (`Traverses.tree`, `Traverses.links`, `Traverses.filter`,
`Traverses.scopes`).
-/

namespace Scriptlet

/-! ## Surroundings -/

/-- The kind of a function. Among the methods of instances there are initializers. -/
def Ancestor.functionKind : Ancestor → FunctionKind
  | .method name => if name == ("init" : Text) then .initializer else .method
  | .classMethod _ => .method
  | _ => .function

theorem Ancestor.functionKind_ne_none (a : Ancestor) : a.functionKind ≠ .none := by
  cases a with
  | method name => by_cases h : name = "init" <;> simp [functionKind, h]
  | _ => simp [functionKind]

theorem Ancestor.functionKind_eq_initializer {a : Ancestor} :
    a.functionKind = .initializer ↔ a = .method "init" := by
  cases a with
  | method name => by_cases h : name = "init" <;> simp [functionKind, h]
  | _ => simp [functionKind]

/-- What resolution is told about a place. -/
def Trail.surroundings (t : Trail) : Surroundings where
  function := match t.function? with
    | none => .none
    | some a => a.functionKind
  cls := match t.class? with
    | none => .none
    | some derived => if derived then .derived else .plain
  inLoop := t.inLoop
  inCondition := t.inCondition

namespace Trail

variable (t : Trail)

theorem surroundings_function :
    surroundings (.function :: t) = { t.surroundings with function := .function, inLoop := false } := by
  rfl

theorem surroundings_method (name : Text) :
    surroundings (.method name :: t) =
      { t.surroundings with
        function := if name == ("init" : Text) then .initializer else .method, inLoop := false } := by
  rfl

theorem surroundings_classMethod (name : Text) :
    surroundings (.classMethod name :: t) =
      { t.surroundings with function := .method, inLoop := false } := by
  rfl

end Trail

/-! ## Trees -/

open Resolve

/-- The references of a resolved tree have some entries, whatever scopes are said to be around. -/
abbrev Expr.Entered (e : Expr (Option Link)) (met : List (Token × Option Link)) : Prop :=
  ∀ Γ, (e.references Γ).map Reference.entry = met

abbrev Expr.EnteredList (es : List (Expr (Option Link))) (met : List (Token × Option Link)) :
    Prop :=
  ∀ Γ, (Expr.referencesList Γ es).map Reference.entry = met

abbrev Function.Entered (f : Function (Option Link)) (met : List (Token × Option Link)) : Prop :=
  ∀ Γ, (f.references Γ).map Reference.entry = met

abbrev Declaration.EnteredList (ds : List (Declaration (Option Link)))
    (met : List (Token × Option Link)) : Prop :=
  ∀ Γ, (Declaration.referencesList Γ ds).map Reference.entry = met

abbrev Stmt.Entered (s : Stmt (Option Link)) (met : List (Token × Option Link)) : Prop :=
  ∀ Γ, (s.references Γ).map Reference.entry = met

abbrev Stmt.EnteredList (ss : List (Stmt (Option Link))) (met : List (Token × Option Link)) :
    Prop :=
  ∀ Γ, (Stmt.referencesList Γ ss).map Reference.entry = met

mutual

theorem Expr.surveys_resolve : ∀ (e : Expr Unit) {c : Context} (t : Trail),
    Traverses c (e.resolve t.surroundings) (e.spots c t) Expr.Entered
  | .literal span value, c, t => by
    rw [Expr.resolve, Expr.spots]
    exact surveys_pure fun _ => rfl
  | .name span name _, c, t => by
    rw [Expr.resolve, Expr.spots]
    refine (surveys_linkVariable span.start name).map fun link met hlink Γ => ?_
    rw [hlink]
    rfl
  | .assign span name op value _, c, t => by
    rw [Expr.resolve, Expr.spots]
    refine surveys_reportIf (s := ⟨c, t, .assignment op⟩) ⟨rfl, rfl⟩ rfl ?_ fun _ => ?_
    · exact List.append_nil _
    refine (value.surveys_resolve t).bind fun value met hvalue => ?_
    refine (surveys_linkBeyond (.write span.start name op) (Nat.zero_le _) rfl rfl rfl).map
      fun link met' hlink Γ => ?_
    rw [Expr.references, List.map_append, hvalue Γ, hlink]
    rfl
  | .binary span left op right, c, t => by
    rw [Expr.resolve, Expr.spots]
    refine (left.surveys_resolve t).bind fun left met hleft => ?_
    refine (right.surveys_resolve t).map fun right met' hright Γ => ?_
    rw [Expr.references, List.map_append, hleft Γ, hright Γ]
  | .logical span left op right, c, t => by
    rw [Expr.resolve, Expr.spots]
    refine (left.surveys_resolve t).bind fun left met hleft => ?_
    refine (right.surveys_resolve t).map fun right met' hright Γ => ?_
    rw [Expr.references, List.map_append, hleft Γ, hright Γ]
  | .unary span op operand trailing, c, t => by
    rw [Expr.resolve, Expr.spots]
    exact (operand.surveys_resolve t).map fun _ _ hoperand => hoperand
  | .ternary span condition onTrue onFalse, c, t => by
    rw [Expr.resolve, Expr.spots]
    refine (condition.surveys_resolve (.condition :: t)).bind fun condition met hcondition => ?_
    refine (onTrue.surveys_resolve t).bind fun onTrue met' htrue => ?_
    refine (onFalse.surveys_resolve t).map fun onFalse met'' hfalse Γ => ?_
    rw [Expr.references, List.map_append, List.map_append, hcondition Γ, htrue Γ, hfalse Γ]
  | .group span inner, c, t => by
    rw [Expr.resolve, Expr.spots]
    exact (inner.surveys_resolve t).map fun _ _ hinner => hinner
  | .call span callee paren args, c, t => by
    rw [Expr.resolve, Expr.spots]
    refine (callee.surveys_resolve t).bind fun callee met hcallee => ?_
    refine (Expr.surveys_resolveList args t).map fun args met' hargs Γ => ?_
    rw [Expr.references, List.map_append, hcallee Γ, hargs Γ]
  | .lambda function, c, t => by
    rw [Expr.resolve, Expr.spots]
    exact (function.surveys_resolve (.function :: t) t.surroundings_function.symm).map
      fun _ _ hfunction => hfunction
  | .get span object name, c, t => by
    rw [Expr.resolve, Expr.spots]
    exact (object.surveys_resolve t).map fun _ _ hobject => hobject
  | .set span object name value, c, t => by
    rw [Expr.resolve, Expr.spots]
    refine (value.surveys_resolve t).bind fun value met hvalue => ?_
    refine (object.surveys_resolve t).map fun object met' hobject Γ => ?_
    rw [Expr.references, List.map_append, hvalue Γ, hobject Γ]
  | .receiver span keyword _, c, t => by
    rw [Expr.resolve, Expr.spots]
    dsimp only [Trail.surroundings]
    cases h : t.class? with
    | none =>
      refine surveys_refuse rfl ?_ rfl ?_ fun _ => rfl
      · simp [Spot.link?, Spot.linkWhere, h]
      · simp [Spot.faults, Spot.misplaced, Spot.unbound, Spot.unboundWhere, h]
    | some derived =>
      have hlinked : Traverses c
          (linkBeyond 0 "this" span.start keyword.lexeme true >>= fun link =>
            pure (.receiver span keyword link))
          [⟨c, t, .receiver span.start keyword⟩] Expr.Entered := by
        refine (surveys_linkBeyond (.receiver span.start keyword) (Nat.zero_le _) rfl
          ?_ ?_).map fun link met hlink Γ => ?_
        · simp [Spot.link?, Spot.linkWhere, h]
        · simp [Spot.faults, Spot.misplaced, Spot.unbound, Spot.unboundWhere, h]
        · rw [hlink]
          rfl
      cases derived <;> exact hlinked
  | .inherited span keyword method _, c, t => by
    rw [Expr.resolve, Expr.spots]
    dsimp only [Trail.surroundings]
    match h : t.class? with
    | none | some false =>
      refine surveys_refuse rfl ?_ rfl ?_ fun _ => rfl
      · simp [Spot.link?, Spot.linkWhere, h]
      · simp [Spot.faults, Spot.misplaced, Spot.unbound, Spot.unboundWhere, h]
    | some true =>
      refine (surveys_linkBeyond (.inherited span.start keyword method) (Nat.zero_le _) rfl
        ?_ ?_).map fun link met hlink Γ => ?_
      · simp [Spot.link?, Spot.linkWhere, h]
      · simp [Spot.faults, Spot.misplaced, Spot.unbound, Spot.unboundWhere, h]
      · rw [hlink]
        rfl

theorem Expr.surveys_resolveList : ∀ (es : List (Expr Unit)) {c : Context} (t : Trail),
    Traverses c (Expr.resolveList t.surroundings es) (Expr.spotsList c t es) Expr.EnteredList
  | [], c, t => by
    rw [Expr.resolveList, Expr.spotsList]
    exact surveys_pure fun _ => rfl
  | e :: es, c, t => by
    rw [Expr.resolveList, Expr.spotsList]
    refine (e.surveys_resolve t).bind fun e met he => ?_
    refine (Expr.surveys_resolveList es t).map fun es met' hes Γ => ?_
    rw [Expr.referencesList, List.map_append, he Γ, hes Γ]

/-- Whatever loops are around a function, its body is resolved as the trail into the function
says. -/
theorem Function.surveys_resolve : ∀ (f : Function Unit) {c : Context} (t : Trail)
    {s : Surroundings}, { s with inLoop := false } = t.surroundings →
    Traverses c (f.resolve s) (f.spots c t) Function.Entered
  | .mk span keyword params body getter, c, t, s, hs => by
    rw [Function.resolve, Function.spots, hs]
    have hbody := Stmt.surveys_resolveList body t
      ((Context.Idle.enter c).after (c.enter.parameters t params))
    refine passes_openScope.andThen fun _ =>
      (passes_parameters (.enter c) t params).andThen fun _ => ?_
    refine hbody.finally fun body met hmet => ?_
    refine (passes_closeScope.andThen fun _ => surveys_pure fun Γ => hmet _).ends ?_
    rw [Context.leave_after, Context.leave_after, Context.leave_enter, Context.after_append]

theorem Declaration.surveys_resolveMethods : ∀ (ds : List (Declaration Unit)) {c : Context}
    (t : Trail) {initializers : Bool} {kind : Text → Ancestor},
    (∀ name, Trail.surroundings (kind name :: t) =
      { t.surroundings with
        function := if initializers && name == ("init" : Text) then .initializer else .method,
        inLoop := false }) →
    Traverses c (Declaration.resolveMethods t.surroundings initializers ds)
      (Declaration.spotsList c t kind ds) Declaration.EnteredList
  | [], c, t, initializers, kind, hkind => by
    rw [Declaration.resolveMethods, Declaration.spotsList]
    exact surveys_pure fun _ => rfl
  | .mk span name function :: ds, c, t, initializers, kind, hkind => by
    rw [Declaration.resolveMethods, Declaration.spotsList]
    refine (function.surveys_resolve (kind name.lexeme :: t) (hkind name.lexeme).symm).bind
      fun function met hfunction => ?_
    refine (Declaration.surveys_resolveMethods ds t hkind).map fun ds met' hds Γ => ?_
    rw [Declaration.referencesList, List.map_append, hfunction Γ, hds Γ]

theorem Stmt.surveys_resolve : ∀ (stmt : Stmt Unit) {c : Context} (t : Trail), c.Idle →
    Traverses c (stmt.resolve t.surroundings) (stmt.spots c t) Stmt.Entered
  | .evaluate span expr, c, t, hc => by
    rw [Stmt.resolve, Stmt.spots]
    exact (expr.surveys_resolve t).map fun _ _ hexpr => hexpr
  | .print span keyword value, c, t, hc => by
    rw [Stmt.resolve, Stmt.spots]
    exact (value.surveys_resolve t).map fun _ _ hvalue => hvalue
  | .declareVar span name none, c, t, hc => by
    rw [Stmt.resolve, Stmt.spots]
    exact passes_introduce hc t name fun _ => surveys_pure fun _ => rfl
  | .declareVar span name (some init), c, t, hc => by
    rw [Stmt.resolve, Stmt.spots]
    refine (passes_declare hc t name).andThen fun _ => ?_
    refine (init.surveys_resolve t).finally fun init met hinit => ?_
    have hends := (Context.Settles.await (hc.note ⟨c, t, .declare name⟩) name.lexeme).after
    exact (passes_define (hends _)).andThen fun _ => surveys_pure fun Γ => hinit _
  | .block span stmts, c, t, hc => by
    rw [Stmt.resolve, Stmt.spots]
    refine passes_openScope.andThen fun _ => ?_
    refine (Stmt.surveys_resolveList stmts t (.enter c)).finally fun stmts met hstmts => ?_
    refine (passes_closeScope.andThen fun _ => surveys_pure fun Γ => hstmts _).ends ?_
    rw [Context.leave_after, Context.leave_enter]
  | .branch span condition onTrue none, c, t, hc => by
    rw [Stmt.resolve, Stmt.spots]
    refine (condition.surveys_resolve (.condition :: t)).bind fun condition met hcondition => ?_
    refine (onTrue.surveys_resolve t (hc.after _)).map fun onTrue met' htrue Γ => ?_
    rw [Stmt.references, List.map_append, hcondition Γ, htrue Γ]
  | .branch span condition onTrue (some onFalse), c, t, hc => by
    rw [Stmt.resolve, Stmt.spots]
    refine (condition.surveys_resolve (.condition :: t)).bind fun condition met hcondition => ?_
    refine (onTrue.surveys_resolve t (hc.after _)).bind fun onTrue met' htrue => ?_
    refine (onFalse.surveys_resolve t ((hc.after _).after _)).map fun onFalse met'' hfalse Γ => ?_
    rw [Stmt.references, List.map_append, List.map_append, hcondition Γ, htrue Γ, hfalse Γ]
  | .loop span condition body none bodyFirst, c, t, hc => by
    rw [Stmt.resolve, Stmt.spots]
    refine (condition.surveys_resolve (.condition :: t)).bind fun condition met hcondition => ?_
    refine (body.surveys_resolve (.loop :: t) (hc.after _)).map fun body met' hbody Γ => ?_
    rw [Stmt.references, List.map_append, hcondition Γ, hbody Γ]
  | .loop span condition body (some update) bodyFirst, c, t, hc => by
    rw [Stmt.resolve, Stmt.spots]
    refine (condition.surveys_resolve (.condition :: t)).bind fun condition met hcondition => ?_
    refine (body.surveys_resolve (.loop :: t) (hc.after _)).bind fun body met' hbody => ?_
    refine (update.surveys_resolve (.loop :: t)).map fun update met'' hupdate Γ => ?_
    rw [Stmt.references, List.map_append, List.map_append, hcondition Γ, hbody Γ, hupdate Γ]
  | .leave span keyword none, c, t, hc => by
    rw [Stmt.resolve, Stmt.spots]
    refine surveys_reportIf (s := ⟨c, t, .leave keyword false⟩) ⟨rfl, rfl⟩ rfl ?_ fun _ =>
      surveys_pure fun _ => rfl
    cases h : t.function? <;>
      simp [Spot.faults, Spot.misplaced, Spot.unbound, Spot.unboundWhere, Trail.surroundings, h,
        Ancestor.functionKind_ne_none]
  | .leave span keyword (some value), c, t, hc => by
    rw [Stmt.resolve, Stmt.spots]
    have hvalue := (value.surveys_resolve (c := c) t).map
      (f := fun value => Stmt.leave span keyword (some value)) (Q := Stmt.Entered)
      fun _ _ hvalue => hvalue
    -- The two findings exclude each other, so in each case there is only one to decide.
    cases h : t.function? with
    | none =>
      have hkind : t.surroundings.function = .none := by simp only [Trail.surroundings, h]
      simp only [hkind, reduceCtorEq, ↓reduceIte]
      refine surveys_reportIf (b := True) (s := ⟨c, t, .leave keyword true⟩) ⟨rfl, rfl⟩ rfl ?_
        fun _ => hvalue
      simp [Spot.faults, Spot.misplaced, Spot.unbound, Spot.unboundWhere, h]
    | some a =>
      have hkind : t.surroundings.function = a.functionKind := by simp only [Trail.surroundings, h]
      simp only [hkind, a.functionKind_ne_none, Ancestor.functionKind_eq_initializer, ↓reduceIte]
      refine surveys_reportIf (s := ⟨c, t, .leave keyword true⟩) ⟨rfl, rfl⟩ rfl ?_ fun _ => hvalue
      simp [Spot.faults, Spot.misplaced, Spot.unbound, Spot.unboundWhere, h]
  | .breakLoop span keyword, c, t, hc => by
    rw [Stmt.resolve, Stmt.spots, ← ite_not]
    refine surveys_reportIf (s := ⟨c, t, .breakLoop keyword⟩) ⟨rfl, rfl⟩ rfl ?_ fun _ =>
      surveys_pure fun _ => rfl
    cases h : t.inLoop <;> simp [Spot.faults, Spot.misplaced, Spot.unbound, Spot.unboundWhere, Trail.surroundings, h]
  | .continueLoop span keyword, c, t, hc => by
    rw [Stmt.resolve, Stmt.spots, ← ite_not]
    refine surveys_reportIf (s := ⟨c, t, .continueLoop keyword⟩) ⟨rfl, rfl⟩ rfl ?_ fun _ =>
      surveys_pure fun _ => rfl
    cases h : t.inLoop <;> simp [Spot.faults, Spot.misplaced, Spot.unbound, Spot.unboundWhere, Trail.surroundings, h]
  | .declareFunction (.mk span name function), c, t, hc => by
    rw [Stmt.resolve, Stmt.spots]
    refine passes_introduce hc t name fun _ => ?_
    exact (function.surveys_resolve (.function :: t) t.surroundings_function.symm).map
      fun _ _ hfunction Γ => hfunction _
  | .declareClass span name none methods classMethods, c, t, hc => by
    rw [Stmt.resolve, Stmt.spots]
    refine passes_introduce hc t name fun _ => passes_implicit fun _ => ?_
    refine Surveys.bind (Declaration.surveys_resolveMethods methods (.cls false :: t) fun name =>
      Trail.surroundings_method _ name) fun methods met hmethods => ?_
    refine (Declaration.surveys_resolveMethods classMethods (.cls false :: t) fun name =>
      Trail.surroundings_classMethod _ name).finally fun classMethods met' hclass => ?_
    refine (passes_closeScope.andThen fun _ => surveys_pure fun Γ => ?_).ends ?_
    · rw [Stmt.references, List.nil_append, List.map_append, hmethods, hclass]
    · rw [Context.leave_after, Context.leave_after, Context.leave_enterWith, ← Context.after_append]
      rfl
  | .declareClass span name (some (parent, _)) methods classMethods, c, t, hc => by
    rw [Stmt.resolve, Stmt.spots]
    refine passes_introduce hc t name fun _ => ?_
    refine surveys_reportIf (s := ⟨_, t, .derive name parent⟩) ⟨rfl, rfl⟩ rfl ?_ fun _ => ?_
    · simp [Spot.faults, Spot.misplaced, Spot.unbound, Spot.unboundWhere]
    refine Surveys.bind (surveys_linkVariable parent.span.start parent) fun link met hlink => ?_
    refine passes_implicit fun _ => passes_implicit fun _ => ?_
    refine Surveys.bind (Declaration.surveys_resolveMethods methods (.cls true :: t) fun name =>
      Trail.surroundings_method _ name) fun methods met' hmethods => ?_
    refine (Declaration.surveys_resolveMethods classMethods (.cls true :: t) fun name =>
      Trail.surroundings_classMethod _ name).finally fun classMethods met'' hclass => ?_
    refine (passes_closeScope.andThen fun _ =>
      passes_closeScope.andThen fun _ => surveys_pure fun Γ => ?_).ends ?_
    · rw [hlink, Stmt.references, List.map_append, List.map_append, hmethods, hclass]
      rfl
    · simp only [Context.leave_after, Context.leave_enterWith, ← Context.after_append]
      rfl

theorem Stmt.surveys_resolveList : ∀ (ss : List (Stmt Unit)) {c : Context} (t : Trail), c.Idle →
    Traverses c (Stmt.resolveList t.surroundings ss) (Stmt.spotsList c t ss) Stmt.EnteredList
  | [], c, t, hc => by
    rw [Stmt.resolveList, Stmt.spotsList]
    exact surveys_pure fun _ => rfl
  | s :: ss, c, t, hc => by
    rw [Stmt.resolveList, Stmt.spotsList]
    refine (s.surveys_resolve t hc).bind fun s met hs => ?_
    refine (Stmt.surveys_resolveList ss t (hc.after _)).map fun ss met' hss Γ => ?_
    rw [Stmt.referencesList, List.map_append, hs Γ, hss _]

end

/-! ## Sources -/

/-- Where a resolution begins. -/
def Resolution.top (globals : List Text) (first : Nat) : Resolution :=
  { globals := globals, linkCount := first }

namespace Resolve

variable {α : Type} {x : Resolve α} {globals : List Text} {spots : List Spot}
  {P : α → List (Token × Option Link) → Prop}

theorem Traverses.surveyed (h : Traverses { globals := globals } x spots P) (first : Nat) :
    Surveyed (.top globals first) spots (Context.after { globals := globals } spots)
      (x.run (.top globals first)).2 :=
  (h _ ⟨.nil, rfl⟩).1

/-- The references of what a resolution yields have the entries of its spots. -/
theorem Traverses.tree (h : Traverses { globals := globals } x spots P) (first : Nat) :
    P (x.finish globals first).tree (Spot.entries first spots) :=
  (h (.top globals first) ⟨.nil, rfl⟩).2

theorem Traverses.links (h : Traverses { globals := globals } x spots P) (first : Nat) :
    (x.finish globals first).links = spots.filterMap Spot.link? := by
  have hlinks := (h.surveyed first).links
  change (x.run (.top globals first)).2.links.reverse = _
  rw [hlinks, Resolution.top, List.append_nil, List.reverse_reverse]

theorem Traverses.report (h : Traverses { globals := globals } x spots P) (first : Nat) :
    (x.finish globals first).report.filter Diagnostic.isFault = spots.flatMap Spot.faults := by
  have hfaults := (h.surveyed first).faults
  change (x.run (.top globals first)).2.found.reverse.filter Diagnostic.isFault = _
  rw [List.filter_reverse]
  change (x.run (.top globals first)).2.faults.reverse = _
  rw [hfaults, List.reverse_append, List.reverse_reverse]
  rfl

/-- Findings of some kind are those of the spots, if each spot says which of its findings are. -/
theorem Traverses.filter {p : Diagnostic → Bool} {g : Spot → Report}
    (h : Traverses { globals := globals } x spots P) (first : Nat)
    (hp : ∀ d : Diagnostic, p d = true → d.isFault = true) (hg : ∀ s, s.faults.filter p = g s) :
    (x.finish globals first).report.filter p = spots.flatMap g := by
  have hboth : ∀ d : Diagnostic, (p d && d.isFault) = p d := by
    intro d
    cases hd : p d with
    | false => rfl
    | true => exact hp d hd
  calc (x.finish globals first).report.filter p
      = ((x.finish globals first).report.filter Diagnostic.isFault).filter p := by
        simp only [List.filter_filter, hboth]
    _ = (spots.flatMap Spot.faults).filter p := by rw [h.report]
    _ = spots.flatMap g := by simp only [List.filter_flatMap, hg]

/-- A resolution closes all scopes that it has opened. -/
theorem Traverses.scopes (h : Traverses { globals := globals } x spots P) (first : Nat) :
    (x.run (.top globals first)).2.scopes = [] := by
  refine List.eq_nil_of_length_eq_zero ?_
  rw [(h.surveyed first).shows.scopes.length, Context.length_after]
  rfl

end Resolve

theorem resolveStmts_traverses (globals : List Text) (stmts : List (Stmt Unit)) :
    Traverses { globals := globals } (Stmt.resolveList {} stmts)
      (Stmt.spotsList { globals := globals } [] stmts) Stmt.EnteredList :=
  Stmt.surveys_resolveList stmts [] (.top globals)

theorem resolveExpr_traverses (globals : List Text) (expr : Expr Unit) :
    Traverses { globals := globals } (expr.resolve {}) (expr.spots { globals := globals } [])
      Expr.Entered :=
  expr.surveys_resolve []

end Scriptlet

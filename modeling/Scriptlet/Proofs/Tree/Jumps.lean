import Scriptlet.Tree

/-!
# Jumps and where they stand

A `return`, `break` or `continue` makes control jump, and a loop makes it come back. Which of them
may stand at a place depends on whether the place is in a function and whether it is in a loop of
the innermost function. A tree is ruled (`Stmt.Ruled`) if a rule allows every jump and every loop in
it where it stands, inside of functions and methods as well. There are two rules: that jumps have
something to jump out of (`Place.Allows`), and that there are no loops (`Place.Straight`).
-/

namespace Scriptlet

/-- The statements that decide where control goes on. -/
inductive Jump where
  | leave
  | breakLoop
  | continueLoop
  | loop
  deriving DecidableEq, Repr

/-- What is around a statement. A function is outside of the loops around it. -/
structure Place where
  inFunction : Bool := false
  inLoop : Bool := false
  deriving DecidableEq, Repr

namespace Place

/-- The beginning of a function. -/
def function : Place := ⟨true, false⟩

/-- Inside a loop at a place. -/
def looped (p : Place) : Place := { p with inLoop := true }

/-- A jump has a function or a loop to jump out of. -/
def Allows (p : Place) : Jump → Prop
  | .leave => p.inFunction
  | .breakLoop | .continueLoop => p.inLoop
  | .loop => True

/-- There are no loops. -/
def Straight (_ : Place) (j : Jump) : Prop := j ≠ .loop

end Place

section

variable {β : Type} (rule : Place → Jump → Prop)

mutual

/-- A rule allows all jumps in the functions of an expression. -/
def Expr.Ruled : Expr β → Prop
  | .literal .. => True
  | .name .. => True
  | .assign _ _ _ value _ => value.Ruled
  | .binary _ left _ right => left.Ruled ∧ right.Ruled
  | .logical _ left _ right => left.Ruled ∧ right.Ruled
  | .unary _ _ operand _ => operand.Ruled
  | .ternary _ condition onTrue onFalse => condition.Ruled ∧ onTrue.Ruled ∧ onFalse.Ruled
  | .group _ inner => inner.Ruled
  | .call _ callee _ args => callee.Ruled ∧ Expr.RuledList args
  | .lambda function => function.Ruled
  | .get _ object _ => object.Ruled
  | .set _ object _ value => object.Ruled ∧ value.Ruled
  | .receiver .. => True
  | .inherited .. => True

def Expr.RuledList : List (Expr β) → Prop
  | [] => True
  | e :: es => e.Ruled ∧ Expr.RuledList es

/-- A rule allows all jumps in a function. -/
def Function.Ruled : Function β → Prop
  | .mk _ _ _ body _ => Stmt.RuledList .function body

def Declaration.RuledList : List (Declaration β) → Prop
  | [] => True
  | .mk _ _ function :: ds => function.Ruled ∧ Declaration.RuledList ds

/-- A rule allows all jumps in a statement at a place. -/
def Stmt.Ruled (p : Place) : Stmt β → Prop
  | .evaluate _ expr => expr.Ruled
  | .print _ _ value => value.Ruled
  | .declareVar _ _ none => True
  | .declareVar _ _ (some init) => init.Ruled
  | .block _ stmts => Stmt.RuledList p stmts
  | .branch _ condition onTrue none => condition.Ruled ∧ onTrue.Ruled p
  | .branch _ condition onTrue (some onFalse) =>
    condition.Ruled ∧ onTrue.Ruled p ∧ onFalse.Ruled p
  | .loop _ condition body none _ => rule p .loop ∧ condition.Ruled ∧ body.Ruled p.looped
  | .loop _ condition body (some update) _ =>
    rule p .loop ∧ condition.Ruled ∧ body.Ruled p.looped ∧ update.Ruled
  | .leave _ _ none => rule p .leave
  | .leave _ _ (some value) => rule p .leave ∧ value.Ruled
  | .breakLoop .. => rule p .breakLoop
  | .continueLoop .. => rule p .continueLoop
  | .declareFunction (.mk _ _ function) => function.Ruled
  | .declareClass _ _ _ methods classMethods =>
    Declaration.RuledList methods ∧ Declaration.RuledList classMethods

def Stmt.RuledList (p : Place) : List (Stmt β) → Prop
  | [] => True
  | s :: ss => s.Ruled p ∧ Stmt.RuledList p ss

end

variable {rule}

theorem Function.Ruled.body {f : Function β} (h : f.Ruled rule) :
    Stmt.RuledList rule .function f.body := by
  cases f with
  | mk span keyword params body getter => rwa [Ruled] at h

theorem Declaration.ruledList_iff {ds : List (Declaration β)} :
    Declaration.RuledList rule ds ↔ ∀ d ∈ ds, d.function.Ruled rule := by
  induction ds with
  | nil => simp [RuledList]
  | cons d ds ih =>
    obtain ⟨span, name, function⟩ := d
    simp [RuledList, Declaration.function, ih]

theorem Stmt.ruledList_iff {p : Place} {ss : List (Stmt β)} :
    Stmt.RuledList rule p ss ↔ ∀ s ∈ ss, s.Ruled rule p := by
  induction ss with
  | nil => simp [RuledList]
  | cons s ss ih => simp [RuledList, ih]

end

/-! ## Links do not matter -/

section

variable {β γ : Type} (f : β → γ) {rule : Place → Jump → Prop}

mutual

theorem Expr.ruled_mapLinks : ∀ e : Expr β, (e.mapLinks f).Ruled rule ↔ e.Ruled rule
  | .literal .. | .name .. | .receiver .. | .inherited .. => by
    simp only [Expr.mapLinks, Expr.Ruled]
  | .assign _ _ _ value _ => by simp only [Expr.mapLinks, Expr.Ruled, value.ruled_mapLinks]
  | .binary _ left _ right | .logical _ left _ right => by
    simp only [Expr.mapLinks, Expr.Ruled, left.ruled_mapLinks, right.ruled_mapLinks]
  | .unary _ _ operand _ => by simp only [Expr.mapLinks, Expr.Ruled, operand.ruled_mapLinks]
  | .ternary _ condition onTrue onFalse => by
    simp only [Expr.mapLinks, Expr.Ruled, condition.ruled_mapLinks, onTrue.ruled_mapLinks,
      onFalse.ruled_mapLinks]
  | .group _ inner => by simp only [Expr.mapLinks, Expr.Ruled, inner.ruled_mapLinks]
  | .call _ callee _ args => by
    simp only [Expr.mapLinks, Expr.Ruled, callee.ruled_mapLinks, Expr.ruledList_mapLinks args]
  | .lambda function => by simp only [Expr.mapLinks, Expr.Ruled, function.ruled_mapLinks]
  | .get _ object _ => by simp only [Expr.mapLinks, Expr.Ruled, object.ruled_mapLinks]
  | .set _ object _ value => by
    simp only [Expr.mapLinks, Expr.Ruled, object.ruled_mapLinks, value.ruled_mapLinks]

theorem Expr.ruledList_mapLinks : ∀ es : List (Expr β),
    Expr.RuledList rule (Expr.mapLinksList f es) ↔ Expr.RuledList rule es
  | [] => by simp only [Expr.mapLinksList, Expr.RuledList]
  | e :: es => by
    simp only [Expr.mapLinksList, Expr.RuledList, e.ruled_mapLinks, Expr.ruledList_mapLinks es]

theorem Function.ruled_mapLinks : ∀ g : Function β, (g.mapLinks f).Ruled rule ↔ g.Ruled rule
  | .mk _ _ _ body _ => by
    simp only [Function.mapLinks, Function.Ruled, Stmt.ruledList_mapLinks .function body]

theorem Declaration.ruledList_mapLinks : ∀ ds : List (Declaration β),
    Declaration.RuledList rule (Declaration.mapLinksList f ds) ↔ Declaration.RuledList rule ds
  | [] => by simp only [Declaration.mapLinksList, Declaration.RuledList]
  | .mk _ _ function :: ds => by
    simp only [Declaration.mapLinksList, Declaration.mapLinks, Declaration.RuledList,
      function.ruled_mapLinks, Declaration.ruledList_mapLinks ds]

theorem Stmt.ruled_mapLinks : ∀ (p : Place) (s : Stmt β),
    (s.mapLinks f).Ruled rule p ↔ s.Ruled rule p
  | _, .evaluate _ expr => by simp only [Stmt.mapLinks, Stmt.Ruled, expr.ruled_mapLinks]
  | _, .print _ _ value => by simp only [Stmt.mapLinks, Stmt.Ruled, value.ruled_mapLinks]
  | _, .declareVar _ _ none => by simp only [Stmt.mapLinks, Stmt.Ruled]
  | _, .declareVar _ _ (some init) => by simp only [Stmt.mapLinks, Stmt.Ruled, init.ruled_mapLinks]
  | p, .block _ stmts => by simp only [Stmt.mapLinks, Stmt.Ruled, Stmt.ruledList_mapLinks p stmts]
  | p, .branch _ condition onTrue none => by
    simp only [Stmt.mapLinks, Stmt.Ruled, condition.ruled_mapLinks, onTrue.ruled_mapLinks p]
  | p, .branch _ condition onTrue (some onFalse) => by
    simp only [Stmt.mapLinks, Stmt.Ruled, condition.ruled_mapLinks, onTrue.ruled_mapLinks p,
      onFalse.ruled_mapLinks p]
  | p, .loop _ condition body none _ => by
    simp only [Stmt.mapLinks, Stmt.Ruled, condition.ruled_mapLinks, body.ruled_mapLinks p.looped]
  | p, .loop _ condition body (some update) _ => by
    simp only [Stmt.mapLinks, Stmt.Ruled, condition.ruled_mapLinks, body.ruled_mapLinks p.looped,
      update.ruled_mapLinks]
  | _, .leave _ _ none | _, .breakLoop .. | _, .continueLoop .. => by
    simp only [Stmt.mapLinks, Stmt.Ruled]
  | _, .leave _ _ (some value) => by simp only [Stmt.mapLinks, Stmt.Ruled, value.ruled_mapLinks]
  | _, .declareFunction (.mk _ _ function) => by
    simp only [Stmt.mapLinks, Declaration.mapLinks, Stmt.Ruled, function.ruled_mapLinks]
  | _, .declareClass _ _ _ methods classMethods => by
    simp only [Stmt.mapLinks, Stmt.Ruled, Declaration.ruledList_mapLinks methods,
      Declaration.ruledList_mapLinks classMethods]

theorem Stmt.ruledList_mapLinks : ∀ (p : Place) (ss : List (Stmt β)),
    Stmt.RuledList rule p (Stmt.mapLinksList f ss) ↔ Stmt.RuledList rule p ss
  | _, [] => by simp only [Stmt.mapLinksList, Stmt.RuledList]
  | p, s :: ss => by
    simp only [Stmt.mapLinksList, Stmt.RuledList, s.ruled_mapLinks p, Stmt.ruledList_mapLinks p ss]

end

end

/-! ## Checking a rule -/

section

variable {β : Type} {rule : Place → Jump → Prop} [∀ p j, Decidable (rule p j)]

mutual

/-- Whether a rule allows all jumps in the functions of an expression. -/
def Expr.decideRuled : (e : Expr β) → Decidable (e.Ruled rule)
  | .literal .. | .name .. | .receiver .. | .inherited .. => .isTrue trivial
  | .assign _ _ _ value _ => value.decideRuled
  | .unary _ _ operand _ => operand.decideRuled
  | .group _ inner => inner.decideRuled
  | .get _ object _ => object.decideRuled
  | .lambda function => function.decideRuled
  | .binary _ left _ right | .logical _ left _ right =>
    @instDecidableAnd _ _ left.decideRuled right.decideRuled
  | .ternary _ condition onTrue onFalse =>
    @instDecidableAnd _ _ condition.decideRuled
      (@instDecidableAnd _ _ onTrue.decideRuled onFalse.decideRuled)
  | .call _ callee _ args => @instDecidableAnd _ _ callee.decideRuled (Expr.decideRuledList args)
  | .set _ object _ value => @instDecidableAnd _ _ object.decideRuled value.decideRuled

def Expr.decideRuledList : (es : List (Expr β)) → Decidable (Expr.RuledList rule es)
  | [] => .isTrue trivial
  | e :: es => @instDecidableAnd _ _ e.decideRuled (Expr.decideRuledList es)

def Function.decideRuled : (f : Function β) → Decidable (f.Ruled rule)
  | .mk _ _ _ body _ => Stmt.decideRuledList .function body

def Declaration.decideRuledList : (ds : List (Declaration β)) →
    Decidable (Declaration.RuledList rule ds)
  | [] => .isTrue trivial
  | .mk _ _ function :: ds =>
    @instDecidableAnd _ _ function.decideRuled (Declaration.decideRuledList ds)

/-- Whether a rule allows all jumps in a statement at a place. -/
def Stmt.decideRuled (p : Place) : (s : Stmt β) → Decidable (s.Ruled rule p)
  | .evaluate _ e | .print _ _ e | .declareVar _ _ (some e) => e.decideRuled
  | .declareVar _ _ none => .isTrue trivial
  | .block _ stmts => Stmt.decideRuledList p stmts
  | .branch _ condition onTrue none =>
    @instDecidableAnd _ _ condition.decideRuled (onTrue.decideRuled p)
  | .branch _ condition onTrue (some onFalse) =>
    @instDecidableAnd _ _ condition.decideRuled
      (@instDecidableAnd _ _ (onTrue.decideRuled p) (onFalse.decideRuled p))
  | .loop _ condition body none _ =>
    @instDecidableAnd _ _ inferInstance
      (@instDecidableAnd _ _ condition.decideRuled (body.decideRuled p.looped))
  | .loop _ condition body (some update) _ =>
    @instDecidableAnd _ _ inferInstance (@instDecidableAnd _ _ condition.decideRuled
      (@instDecidableAnd _ _ (body.decideRuled p.looped) update.decideRuled))
  | .leave _ _ none => inferInstanceAs (Decidable (rule p .leave))
  | .leave _ _ (some value) => @instDecidableAnd _ _ inferInstance value.decideRuled
  | .breakLoop .. => inferInstanceAs (Decidable (rule p .breakLoop))
  | .continueLoop .. => inferInstanceAs (Decidable (rule p .continueLoop))
  | .declareFunction (.mk _ _ function) => function.decideRuled
  | .declareClass _ _ _ methods classMethods =>
    @instDecidableAnd _ _ (Declaration.decideRuledList methods)
      (Declaration.decideRuledList classMethods)

def Stmt.decideRuledList (p : Place) : (ss : List (Stmt β)) → Decidable (Stmt.RuledList rule p ss)
  | [] => .isTrue trivial
  | s :: ss => @instDecidableAnd _ _ (s.decideRuled p) (Stmt.decideRuledList p ss)

end

instance (p : Place) (ss : List (Stmt β)) : Decidable (Stmt.RuledList rule p ss) :=
  Stmt.decideRuledList p ss

end

instance (p : Place) (j : Jump) : Decidable (p.Straight j) := inferInstanceAs (Decidable (j ≠ .loop))

end Scriptlet

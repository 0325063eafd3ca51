import Scriptlet.Tree

/-!
# Well-formed trees

The type of trees allows more than the reader of programs makes. Where a name stands, it is never
the word `super`; an operator is one that the place allows; a getter has no parameters; and the
body of a loop and the choices of a branch are statements that declare nothing, so that every
declaration stands directly in the scope that holds its name. `Expr.WellFormed` and its companions
say so, of trees before and after resolution.
-/

namespace Scriptlet

/-- A token that may name a variable. -/
def Token.Ordinary (t : Token) : Prop := t.lexeme ≠ ("super" : Text)

namespace Kind

/-- Whether a kind is an operator that combines two values. -/
def isBinary : Kind → Bool
  | .equal | .notEqual | .less | .lessEqual | .greater | .greaterEqual | .plus | .minus | .star
  | .slash | .starStar => true
  | _ => false

/-- Whether a kind is an operator on one value. -/
def isUnary : Kind → Bool
  | .bang | .minus | .plusPlus | .minusMinus => true
  | _ => false

end Kind

section

variable {β : Type}

/-- The names that a statement adds to the scope it stands in. -/
def Stmt.declared : Stmt β → List Text
  | .declareVar _ name _ => [name.lexeme]
  | .declareFunction d => [d.name.lexeme]
  | .declareClass _ name .. => [name.lexeme]
  | _ => []

/-- The names that statements add to the scope they stand in. -/
def Stmt.declaredList (stmts : List (Stmt β)) : List Text := stmts.flatMap Stmt.declared

mutual

/-- An expression that the reader of programs can make. -/
def Expr.WellFormed : Expr β → Prop
  | .literal .. => True
  | .name _ name _ => name.Ordinary
  | .assign _ name op value _ =>
    name.Ordinary ∧ (op.kind = .assign ∨ op.kind.isCompoundAssign) ∧ value.WellFormed
  | .binary _ left op right =>
    (op.kind = .comma ∨ op.kind.isBinary) ∧ left.WellFormed ∧ right.WellFormed
  | .logical _ left _ right => left.WellFormed ∧ right.WellFormed
  | .unary _ op operand _ => op.kind.isUnary ∧ operand.WellFormed
  | .ternary _ condition onTrue onFalse =>
    condition.WellFormed ∧ onTrue.WellFormed ∧ onFalse.WellFormed
  | .group _ inner => inner.WellFormed
  | .call _ callee _ args => callee.WellFormed ∧ Expr.WellFormedList args
  | .lambda function => function.WellFormed
  | .get _ object _ => object.WellFormed
  | .set _ object _ value => object.WellFormed ∧ value.WellFormed
  | .receiver .. => True
  | .inherited _ keyword _ _ => keyword.lexeme = "super"

def Expr.WellFormedList : List (Expr β) → Prop
  | [] => True
  | e :: es => e.WellFormed ∧ Expr.WellFormedList es

/-- A function that the reader of programs can make. -/
def Function.WellFormed : Function β → Prop
  | .mk _ _ params body getter =>
    (∀ p ∈ params, p.Ordinary) ∧ (getter → params = []) ∧ Stmt.WellFormedList body

def Declaration.WellFormedList : List (Declaration β) → Prop
  | [] => True
  | .mk _ _ function :: ds => function.WellFormed ∧ Declaration.WellFormedList ds

/-- A statement that the reader of programs can make. -/
def Stmt.WellFormed : Stmt β → Prop
  | .evaluate _ expr => expr.WellFormed
  | .print _ _ value => value.WellFormed
  | .declareVar _ name none => name.Ordinary
  | .declareVar _ name (some init) => name.Ordinary ∧ init.WellFormed
  | .block _ stmts => Stmt.WellFormedList stmts
  | .branch _ condition onTrue none =>
    condition.WellFormed ∧ onTrue.WellFormed ∧ onTrue.declared = []
  | .branch _ condition onTrue (some onFalse) =>
    condition.WellFormed ∧ (onTrue.WellFormed ∧ onTrue.declared = []) ∧
      onFalse.WellFormed ∧ onFalse.declared = []
  | .loop _ condition body none _ =>
    condition.WellFormed ∧ body.WellFormed ∧ body.declared = []
  | .loop _ condition body (some update) _ =>
    condition.WellFormed ∧ (body.WellFormed ∧ body.declared = []) ∧ update.WellFormed
  | .leave _ _ none => True
  | .leave _ _ (some value) => value.WellFormed
  | .breakLoop .. => True
  | .continueLoop .. => True
  | .declareFunction (.mk _ name function) => name.Ordinary ∧ function.WellFormed
  | .declareClass _ name _ methods classMethods =>
    name.Ordinary ∧ Declaration.WellFormedList methods ∧ Declaration.WellFormedList classMethods

def Stmt.WellFormedList : List (Stmt β) → Prop
  | [] => True
  | s :: ss => s.WellFormed ∧ Stmt.WellFormedList ss

end

theorem Stmt.WellFormedList.of_append {ss ss' : List (Stmt β)}
    (h : Stmt.WellFormedList (ss ++ ss')) : Stmt.WellFormedList ss ∧ Stmt.WellFormedList ss' := by
  induction ss with
  | nil => exact ⟨trivial, h⟩
  | cons s ss ih =>
    simp only [Stmt.WellFormedList, List.cons_append] at h ⊢
    exact ⟨⟨h.1, (ih h.2).1⟩, (ih h.2).2⟩

theorem Expr.wellFormedList_iff {es : List (Expr β)} :
    Expr.WellFormedList es ↔ ∀ e ∈ es, e.WellFormed := by
  induction es with
  | nil => simp [Expr.WellFormedList]
  | cons e es ih => simp [Expr.WellFormedList, ih]

theorem Stmt.wellFormedList_iff {ss : List (Stmt β)} :
    Stmt.WellFormedList ss ↔ ∀ s ∈ ss, s.WellFormed := by
  induction ss with
  | nil => simp [Stmt.WellFormedList]
  | cons s ss ih => simp [Stmt.WellFormedList, ih]

theorem Function.WellFormed.body {f : Function β} (h : f.WellFormed) :
    Stmt.WellFormedList f.body := by
  cases f with
  | mk => exact h.2.2

theorem Function.WellFormed.params_eq_nil {f : Function β} (h : f.WellFormed) (hgetter : f.getter) :
    f.params = [] := by
  cases f with
  | mk => exact h.2.1 hgetter

theorem Declaration.wellFormedList_iff {ds : List (Declaration β)} :
    Declaration.WellFormedList ds ↔ ∀ d ∈ ds, d.function.WellFormed := by
  induction ds with
  | nil => simp [Declaration.WellFormedList]
  | cons d ds ih =>
    obtain ⟨span, name, function⟩ := d
    simp [Declaration.WellFormedList, Declaration.function, ih]

end

/-! ## Links do not matter -/

section

variable {β γ : Type} (f : β → γ)

theorem Stmt.declared_mapLinks (s : Stmt β) : (s.mapLinks f).declared = s.declared := by
  match s with
  | .declareVar _ _ none | .declareVar _ _ (some _) | .declareFunction (.mk ..)
  | .declareClass .. | .branch _ _ _ none | .branch _ _ _ (some _) | .loop _ _ _ none _
  | .loop _ _ _ (some _) _ | .leave _ _ none | .leave _ _ (some _) | .evaluate .. | .print ..
  | .block .. | .breakLoop .. | .continueLoop .. => rfl

mutual

theorem Expr.wellFormed_mapLinks : ∀ e : Expr β, (e.mapLinks f).WellFormed ↔ e.WellFormed
  | .literal .. | .name .. | .receiver .. | .inherited .. => by
    simp only [Expr.mapLinks, Expr.WellFormed]
  | .assign _ _ _ value _ => by
    simp only [Expr.mapLinks, Expr.WellFormed, value.wellFormed_mapLinks]
  | .binary _ left _ right | .logical _ left _ right => by
    simp only [Expr.mapLinks, Expr.WellFormed, left.wellFormed_mapLinks,
      right.wellFormed_mapLinks]
  | .unary _ _ operand _ => by
    simp only [Expr.mapLinks, Expr.WellFormed, operand.wellFormed_mapLinks]
  | .ternary _ condition onTrue onFalse => by
    simp only [Expr.mapLinks, Expr.WellFormed, condition.wellFormed_mapLinks,
      onTrue.wellFormed_mapLinks, onFalse.wellFormed_mapLinks]
  | .group _ inner => by simp only [Expr.mapLinks, Expr.WellFormed, inner.wellFormed_mapLinks]
  | .call _ callee _ args => by
    simp only [Expr.mapLinks, Expr.WellFormed, callee.wellFormed_mapLinks,
      Expr.wellFormedList_mapLinks args]
  | .lambda function => by
    simp only [Expr.mapLinks, Expr.WellFormed, function.wellFormed_mapLinks]
  | .get _ object _ => by simp only [Expr.mapLinks, Expr.WellFormed, object.wellFormed_mapLinks]
  | .set _ object _ value => by
    simp only [Expr.mapLinks, Expr.WellFormed, object.wellFormed_mapLinks,
      value.wellFormed_mapLinks]

theorem Expr.wellFormedList_mapLinks : ∀ es : List (Expr β),
    Expr.WellFormedList (Expr.mapLinksList f es) ↔ Expr.WellFormedList es
  | [] => by simp only [Expr.mapLinksList, Expr.WellFormedList]
  | e :: es => by
    simp only [Expr.mapLinksList, Expr.WellFormedList, e.wellFormed_mapLinks,
      Expr.wellFormedList_mapLinks es]

theorem Function.wellFormed_mapLinks : ∀ g : Function β,
    (g.mapLinks f).WellFormed ↔ g.WellFormed
  | .mk _ _ _ body _ => by
    simp only [Function.mapLinks, Function.WellFormed, Stmt.wellFormedList_mapLinks body]

theorem Declaration.wellFormedList_mapLinks : ∀ ds : List (Declaration β),
    Declaration.WellFormedList (Declaration.mapLinksList f ds) ↔ Declaration.WellFormedList ds
  | [] => by simp only [Declaration.mapLinksList, Declaration.WellFormedList]
  | .mk _ _ function :: ds => by
    simp only [Declaration.mapLinksList, Declaration.mapLinks, Declaration.WellFormedList,
      function.wellFormed_mapLinks, Declaration.wellFormedList_mapLinks ds]

theorem Stmt.wellFormed_mapLinks : ∀ s : Stmt β, (s.mapLinks f).WellFormed ↔ s.WellFormed
  | .evaluate _ expr => by simp only [Stmt.mapLinks, Stmt.WellFormed, expr.wellFormed_mapLinks]
  | .print _ _ value => by simp only [Stmt.mapLinks, Stmt.WellFormed, value.wellFormed_mapLinks]
  | .declareVar _ _ none | .leave _ _ none | .breakLoop .. | .continueLoop .. => by
    simp only [Stmt.mapLinks, Stmt.WellFormed]
  | .declareVar _ _ (some init) => by
    simp only [Stmt.mapLinks, Stmt.WellFormed, init.wellFormed_mapLinks]
  | .block _ stmts => by
    simp only [Stmt.mapLinks, Stmt.WellFormed, Stmt.wellFormedList_mapLinks stmts]
  | .branch _ condition onTrue none => by
    simp only [Stmt.mapLinks, Stmt.WellFormed, condition.wellFormed_mapLinks,
      onTrue.wellFormed_mapLinks, onTrue.declared_mapLinks f]
  | .branch _ condition onTrue (some onFalse) => by
    simp only [Stmt.mapLinks, Stmt.WellFormed, condition.wellFormed_mapLinks,
      onTrue.wellFormed_mapLinks, onTrue.declared_mapLinks f, onFalse.wellFormed_mapLinks,
      onFalse.declared_mapLinks f]
  | .loop _ condition body none _ => by
    simp only [Stmt.mapLinks, Stmt.WellFormed, condition.wellFormed_mapLinks,
      body.wellFormed_mapLinks, body.declared_mapLinks f]
  | .loop _ condition body (some update) _ => by
    simp only [Stmt.mapLinks, Stmt.WellFormed, condition.wellFormed_mapLinks,
      body.wellFormed_mapLinks, body.declared_mapLinks f, update.wellFormed_mapLinks]
  | .leave _ _ (some value) => by
    simp only [Stmt.mapLinks, Stmt.WellFormed, value.wellFormed_mapLinks]
  | .declareFunction (.mk _ _ function) => by
    simp only [Stmt.mapLinks, Declaration.mapLinks, Stmt.WellFormed,
      function.wellFormed_mapLinks]
  | .declareClass _ _ _ methods classMethods => by
    simp only [Stmt.mapLinks, Stmt.WellFormed, Declaration.wellFormedList_mapLinks methods,
      Declaration.wellFormedList_mapLinks classMethods]

theorem Stmt.wellFormedList_mapLinks : ∀ ss : List (Stmt β),
    Stmt.WellFormedList (Stmt.mapLinksList f ss) ↔ Stmt.WellFormedList ss
  | [] => by simp only [Stmt.mapLinksList, Stmt.WellFormedList]
  | s :: ss => by
    simp only [Stmt.mapLinksList, Stmt.WellFormedList, s.wellFormed_mapLinks,
      Stmt.wellFormedList_mapLinks ss]

end

end

end Scriptlet

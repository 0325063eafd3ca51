import Scriptlet.Proofs.Tree.Requirement

/-!
# The numbers in a tree

The numbers in a tree are constants, and the reader of programs takes every constant from a token.
So what is asked of the numbers in the tokens of a source holds of the numbers in its tree
(`parseProgram_numbers`), also if parts of the source were given up because of faults.
-/

namespace Scriptlet

section

variable {β : Type} (P : Float → Prop)

/-- What is asked of numbers holds of a constant if it is one. -/
def Literal.Numbers : Literal → Prop
  | .number x => P x
  | _ => True

/-- What is asked of numbers holds of the one that a token stands for, if it does. -/
def Token.Numbers (t : Token) : Prop := ∀ v ∈ t.literal, v.Numbers P

mutual

/-- What is asked of numbers holds of those in an expression. -/
def Expr.Numbers : Expr β → Prop
  | .literal _ value => value.Numbers P
  | .name .. | .receiver .. | .inherited .. => True
  | .assign _ _ _ value _ => value.Numbers
  | .binary _ left _ right => left.Numbers ∧ right.Numbers
  | .logical _ left _ right => left.Numbers ∧ right.Numbers
  | .unary _ _ operand _ => operand.Numbers
  | .ternary _ condition onTrue onFalse => condition.Numbers ∧ onTrue.Numbers ∧ onFalse.Numbers
  | .group _ inner => inner.Numbers
  | .call _ callee _ args => callee.Numbers ∧ Expr.NumbersList args
  | .lambda function => function.Numbers
  | .get _ object _ => object.Numbers
  | .set _ object _ value => object.Numbers ∧ value.Numbers

def Expr.NumbersList : List (Expr β) → Prop
  | [] => True
  | e :: es => e.Numbers ∧ Expr.NumbersList es

def Function.Numbers : Function β → Prop
  | .mk _ _ _ body _ => Stmt.NumbersList body

def Declaration.Numbers : Declaration β → Prop
  | .mk _ _ function => function.Numbers

def Declaration.NumbersList : List (Declaration β) → Prop
  | [] => True
  | d :: ds => d.Numbers ∧ Declaration.NumbersList ds

/-- What is asked of numbers holds of those in a statement. -/
def Stmt.Numbers : Stmt β → Prop
  | .evaluate _ expr => expr.Numbers
  | .print _ _ value => value.Numbers
  | .declareVar _ _ none => True
  | .declareVar _ _ (some init) => init.Numbers
  | .block _ stmts => Stmt.NumbersList stmts
  | .branch _ condition onTrue none => condition.Numbers ∧ onTrue.Numbers
  | .branch _ condition onTrue (some onFalse) =>
    condition.Numbers ∧ onTrue.Numbers ∧ onFalse.Numbers
  | .loop _ condition body none _ => condition.Numbers ∧ body.Numbers
  | .loop _ condition body (some update) _ => condition.Numbers ∧ body.Numbers ∧ update.Numbers
  | .leave _ _ none | .breakLoop .. | .continueLoop .. => True
  | .leave _ _ (some value) => value.Numbers
  | .declareFunction declaration => declaration.Numbers
  | .declareClass _ _ _ methods classMethods =>
    Declaration.NumbersList methods ∧ Declaration.NumbersList classMethods

def Stmt.NumbersList : List (Stmt β) → Prop
  | [] => True
  | s :: ss => s.Numbers ∧ Stmt.NumbersList ss

end

variable {P}

theorem Expr.numbersList_iff {es : List (Expr β)} :
    Expr.NumbersList P es ↔ ∀ e ∈ es, e.Numbers P := by
  induction es with
  | nil => simp [Expr.NumbersList]
  | cons e es ih => simp [Expr.NumbersList, ih]

theorem Stmt.numbersList_iff {ss : List (Stmt β)} :
    Stmt.NumbersList P ss ↔ ∀ s ∈ ss, s.Numbers P := by
  induction ss with
  | nil => simp [Stmt.NumbersList]
  | cons s ss ih => simp [Stmt.NumbersList, ih]

theorem Declaration.numbersList_iff {ds : List (Declaration β)} :
    Declaration.NumbersList P ds ↔ ∀ d ∈ ds, d.Numbers P := by
  induction ds with
  | nil => simp [Declaration.NumbersList]
  | cons d ds ih => simp [Declaration.NumbersList, ih]

end

/-! ## What is asked of trees -/

namespace Requirement

variable {P : Float → Prop}

variable (P) in
/-- What is asked of numbers holds of those in a source and in its tree. -/
def numbers : Requirement where
  token := Token.Numbers P
  fault _ := True
  expr := Expr.Numbers P
  stmt := Stmt.Numbers P
  method := Declaration.Numbers P
  report _ _ := trivial

/-- The value of a constant is copied from its token. -/
theorem numbers_literal {t : Token} (h : t.Numbers P) : (t.literal.getD .none).Numbers P := by
  cases hvalue : t.literal with
  | none => trivial
  | some value => exact h value hvalue

theorem numbers_combine {left right : Expr Unit} {op : Token} (hleft : left.Numbers P)
    (hright : right.Numbers P) : (Parser.combine left op right).Numbers P := by
  unfold Parser.combine
  dsimp only
  split
  · exact ⟨hleft, hright⟩
  · exact ⟨hleft, hright⟩

theorem numbers_assignment? {target value expr : Expr Unit} {op : Token} (ht : target.Numbers P)
    (hv : value.Numbers P) (h : Parser.assignment? target op value = some expr) :
    expr.Numbers P := by
  unfold Parser.assignment? at h
  split at h
  · cases h
    exact hv
  · split at h
    · cases h
      exact ⟨ht, hv⟩
    · cases h
  · cases h

theorem numbers_closedStatements : (numbers P).ClosedStatements where
  evaluate h := h
  print _ h := h
  declareVar := by
    rintro _ name (_ | init) - hinit
    · trivial
    · exact hinit init rfl
  block h := Stmt.numbersList_iff.mpr h
  branch := by
    rintro _ condition onTrue (_ | onFalse) hcondition hTrue hFalse
    · exact ⟨hcondition, hTrue.1⟩
    · exact ⟨hcondition, hTrue.1, (hFalse onFalse rfl).1⟩
  loop := by
    rintro _ condition body (_ | update) after hcondition hbody hupdate
    · exact ⟨hcondition, hbody.1⟩
    · exact ⟨hcondition, hbody.1, hupdate update rfl⟩
  always := trivial
  leave := by
    rintro _ keyword (_ | value) - hvalue
    · trivial
    · exact hvalue value rfl
  breakLoop _ := trivial
  continueLoop _ := trivial
  declareFunction _ _ _ hbody := Stmt.numbersList_iff.mpr hbody
  declareClass _ _ hmethods hclassMethods :=
    ⟨Declaration.numbersList_iff.mpr hmethods, Declaration.numbersList_iff.mpr hclassMethods⟩
  member _ _ _ hbody := Stmt.numbersList_iff.mpr hbody

theorem numbers_closed : (numbers P).Closed where
  toClosedStatements := numbers_closedStatements
  never := trivial
  nothing := trivial
  constant h := numbers_literal h
  name _ := trivial
  receiver _ := trivial
  inherited _ _ := trivial
  group h := h
  lambda _ _ hbody := Stmt.numbersList_iff.mpr hbody
  call hcallee _ hargs := ⟨hcallee, Expr.numbersList_iff.mpr hargs⟩
  get hobject _ := hobject
  unary _ _ hoperand := hoperand
  combine hleft _ _ hright := numbers_combine hleft hright
  ternary hcondition hTrue hFalse := ⟨hcondition, hTrue, hFalse⟩
  assignment? htarget _ _ hvalue h := numbers_assignment? htarget hvalue h
  comma hleft _ hright := ⟨hleft, hright⟩

end Requirement

/-- What is asked of the numbers in the tokens of a program holds of those in its tree. -/
theorem parseProgram_numbers {P : Float → Prop} {tokens : List Token}
    (h : ∀ t ∈ tokens, t.Numbers P) : Stmt.NumbersList P (parseProgram tokens).1.stmts :=
  Stmt.numbersList_iff.mpr (parseProgram_meets Requirement.numbers_closed h nofun).1

end Scriptlet

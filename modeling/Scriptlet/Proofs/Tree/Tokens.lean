import Scriptlet.Proofs.Token.Lexemes
import Scriptlet.Proofs.Tree.Requirement

/-!
# The tokens in a tree

The reader of programs takes every token of a tree from its source. Names are identifiers, each
operator is of a kind that is spelled in one way only, and every other token is the keyword or the
parenthesis that its node stands for. So what is asked of the tokens of a source, by their kinds,
holds of the tokens of its tree (`parseProgram_tokens`, `parseExpression_tokens`), also if parts of
the source were given up because of faults.
-/

namespace Scriptlet

/-- The token that a function begins with: `fun`, or the name of a method. -/
def Function.keyword {β : Type} : Function β → Token
  | .mk _ keyword .. => keyword

section

variable {β : Type} (P : Kind → Token → Prop)

/-- A token that satisfies what is asked of its kind and is spelled in one way. -/
def Token.Operates (op : Token) : Prop := op.kind ∈ Kind.fixed ∧ P op.kind op

mutual

/-- What is asked of their kinds holds of the tokens in an expression. -/
def Expr.Tokens : Expr β → Prop
  | .literal .. => True
  | .name _ name _ => P .identifier name
  | .assign _ name op value _ => P .identifier name ∧ op.Operates P ∧ value.Tokens
  | .binary _ left op right => left.Tokens ∧ op.Operates P ∧ right.Tokens
  | .logical _ left op right => left.Tokens ∧ op.Operates P ∧ right.Tokens
  | .unary _ op operand _ => op.Operates P ∧ operand.Tokens
  | .ternary _ condition onTrue onFalse => condition.Tokens ∧ onTrue.Tokens ∧ onFalse.Tokens
  | .group _ inner => inner.Tokens
  | .call _ callee paren args => callee.Tokens ∧ P .rightParen paren ∧ Expr.TokensList args
  | .lambda function => P .kwFun function.keyword ∧ function.Tokens
  | .get _ object name => object.Tokens ∧ P .identifier name
  | .set _ object name value => object.Tokens ∧ P .identifier name ∧ value.Tokens
  | .receiver _ keyword _ => P .kwThis keyword
  | .inherited _ keyword method _ => P .kwSuper keyword ∧ P .identifier method

def Expr.TokensList : List (Expr β) → Prop
  | [] => True
  | e :: es => e.Tokens ∧ Expr.TokensList es

def Function.Tokens : Function β → Prop
  | .mk _ _ params body _ => (∀ p ∈ params, P .identifier p) ∧ Stmt.TokensList body

/-- The same for methods, whose functions begin with their names. -/
def Declaration.TokensList : List (Declaration β) → Prop
  | [] => True
  | .mk _ name function :: ds =>
    (P .identifier name ∧ function.keyword = name ∧ function.Tokens) ∧ Declaration.TokensList ds

/-- What is asked of their kinds holds of the tokens in a statement. -/
def Stmt.Tokens : Stmt β → Prop
  | .evaluate _ expr => expr.Tokens
  | .print _ keyword value => P .kwPrint keyword ∧ value.Tokens
  | .declareVar _ name none => P .identifier name
  | .declareVar _ name (some init) => P .identifier name ∧ init.Tokens
  | .block _ stmts => Stmt.TokensList stmts
  | .branch _ condition onTrue none => condition.Tokens ∧ onTrue.Tokens
  | .branch _ condition onTrue (some onFalse) =>
    condition.Tokens ∧ onTrue.Tokens ∧ onFalse.Tokens
  | .loop _ condition body none _ => condition.Tokens ∧ body.Tokens
  | .loop _ condition body (some update) _ => condition.Tokens ∧ body.Tokens ∧ update.Tokens
  | .leave _ keyword none => P .kwReturn keyword
  | .leave _ keyword (some value) => P .kwReturn keyword ∧ value.Tokens
  | .breakLoop _ keyword => P .kwBreak keyword
  | .continueLoop _ keyword => P .kwContinue keyword
  | .declareFunction (.mk _ name function) =>
    P .identifier name ∧ P .kwFun function.keyword ∧ function.Tokens
  | .declareClass _ name superclass methods classMethods =>
    P .identifier name ∧ (∀ p ∈ superclass, P .identifier p.1) ∧
      Declaration.TokensList methods ∧ Declaration.TokensList classMethods

def Stmt.TokensList : List (Stmt β) → Prop
  | [] => True
  | s :: ss => s.Tokens ∧ Stmt.TokensList ss

end

variable {P}

theorem Expr.tokensList_iff {es : List (Expr β)} :
    Expr.TokensList P es ↔ ∀ e ∈ es, e.Tokens P := by
  induction es with
  | nil => simp [Expr.TokensList]
  | cons e es ih => simp [Expr.TokensList, ih]

theorem Stmt.tokensList_iff {ss : List (Stmt β)} :
    Stmt.TokensList P ss ↔ ∀ s ∈ ss, s.Tokens P := by
  induction ss with
  | nil => simp [Stmt.TokensList]
  | cons s ss ih => simp [Stmt.TokensList, ih]

theorem Declaration.tokensList_iff {ds : List (Declaration β)} :
    Declaration.TokensList P ds ↔
      ∀ d ∈ ds, P .identifier d.name ∧ d.function.keyword = d.name ∧ d.function.Tokens P := by
  induction ds with
  | nil => simp [Declaration.TokensList]
  | cons d ds ih =>
    obtain ⟨span, name, function⟩ := d
    simp [Declaration.TokensList, Declaration.name, Declaration.function, ih]

end

/-! ## What is asked of trees -/

section

variable {P : Kind → Token → Prop}

theorem Kind.fixed_of_assign {k : Kind} (h : k = .assign ∨ k.isCompoundAssign) :
    k ∈ Kind.fixed := by
  revert h
  cases k <;> decide

theorem Kind.fixed_of_bindingPower {k : Kind} (h : 0 < Parser.bindingPower k) :
    k ∈ Kind.fixed := by
  revert h
  cases k <;> decide

theorem Kind.fixed_of_isUnary {k : Kind} (h : k.isUnary) : k ∈ Kind.fixed := by
  revert h
  cases k <;> decide

namespace Requirement

variable (P) in
/-- What is asked of their kinds holds of the tokens in a source and in its tree. -/
def tokens : Requirement where
  token t := P t.kind t
  fault _ := True
  expr := Expr.Tokens P
  stmt := Stmt.Tokens P
  method d := P .identifier d.name ∧ d.function.keyword = d.name ∧ d.function.Tokens P
  report _ _ := trivial

theorem TokenOf.asked {kind : Kind} {t : Token} (h : (tokens P).TokenOf kind t) : P kind t :=
  h.1 ▸ h.2

theorem Names.asked {ts : List Token} (h : (tokens P).Names ts) : ∀ t ∈ ts, P .identifier t :=
  fun t ht => (h t ht).asked

theorem tokens_combine {left right : Expr Unit} {op : Token} (hleft : left.Tokens P)
    (hop : op.Operates P) (hright : right.Tokens P) : (Parser.combine left op right).Tokens P := by
  unfold Parser.combine
  dsimp only
  split
  · exact ⟨hleft, hop, hright⟩
  · exact ⟨hleft, hop, hright⟩

theorem tokens_assignment? {target value expr : Expr Unit} {op : Token} (ht : target.Tokens P)
    (hop : op.Operates P) (hv : value.Tokens P)
    (h : Parser.assignment? target op value = some expr) : expr.Tokens P := by
  unfold Parser.assignment? at h
  split at h
  · cases h
    exact ⟨ht, hop, hv⟩
  · split at h
    · cases h
      exact ⟨ht.1, ht.2, hv⟩
    · cases h
  · cases h

theorem tokens_closedStatements : (tokens P).ClosedStatements where
  evaluate h := h
  print hkeyword hvalue := ⟨hkeyword.asked, hvalue⟩
  declareVar := by
    rintro _ name (_ | init) hname hinit
    · exact hname.asked
    · exact ⟨hname.asked, hinit init rfl⟩
  block h := Stmt.tokensList_iff.mpr h
  branch := by
    rintro _ condition onTrue (_ | onFalse) hcondition hTrue hFalse
    · exact ⟨hcondition, hTrue.1⟩
    · exact ⟨hcondition, hTrue.1, (hFalse onFalse rfl).1⟩
  loop := by
    rintro _ condition body (_ | update) after hcondition hbody hupdate
    · exact ⟨hcondition, hbody.1⟩
    · exact ⟨hcondition, hbody.1, hupdate update rfl⟩
  always := trivial
  leave := by
    rintro _ keyword (_ | value) hkeyword hvalue
    · exact hkeyword.asked
    · exact ⟨hkeyword.asked, hvalue value rfl⟩
  breakLoop h := h.asked
  continueLoop h := h.asked
  declareFunction hname hkeyword hparams hbody :=
    ⟨hname.asked, hkeyword.asked, hparams.asked, Stmt.tokensList_iff.mpr hbody⟩
  declareClass hname hsuper hmethods hclassMethods :=
    ⟨hname.asked, fun p hp => (hsuper p hp).asked, Declaration.tokensList_iff.mpr hmethods,
      Declaration.tokensList_iff.mpr hclassMethods⟩
  member hname hparams _ hbody :=
    ⟨hname.asked, rfl, hparams.asked, Stmt.tokensList_iff.mpr hbody⟩

theorem tokens_closed : (tokens P).Closed where
  toClosedStatements := tokens_closedStatements
  never := trivial
  nothing := trivial
  constant _ := trivial
  name h := h.asked
  receiver h := h.asked
  inherited hkeyword hmethod := ⟨hkeyword.asked, hmethod.asked⟩
  group h := h
  lambda hkeyword hparams hbody :=
    ⟨hkeyword.asked, hparams.asked, Stmt.tokensList_iff.mpr hbody⟩
  call hcallee hparen hargs := ⟨hcallee, hparen.asked, Expr.tokensList_iff.mpr hargs⟩
  get hobject hname := ⟨hobject, hname.asked⟩
  unary hkind hop hoperand := ⟨⟨Kind.fixed_of_isUnary hkind, hop⟩, hoperand⟩
  combine hleft hbinds hop hright :=
    tokens_combine hleft ⟨Kind.fixed_of_bindingPower hbinds, hop⟩ hright
  ternary hcondition hTrue hFalse := ⟨hcondition, hTrue, hFalse⟩
  assignment? htarget hassign hop hvalue h :=
    tokens_assignment? htarget ⟨Kind.fixed_of_assign hassign, hop⟩ hvalue h
  comma hleft hop hright := ⟨hleft, ⟨by rw [hop.1]; decide, hop.2⟩, hright⟩

end Requirement

end

/-! ## Sources -/

section

variable {P : Kind → Token → Prop} {tokens : List Token}

/-- What is asked of the tokens of a program holds of those in its tree. -/
theorem parseProgram_tokens (h : ∀ t ∈ tokens, P t.kind t) (hend : P .endOfInput .missingEnd) :
    Stmt.TokensList P (parseProgram tokens).1.stmts :=
  Stmt.tokensList_iff.mpr (parseProgram_meets Requirement.tokens_closed h hend).1

/-- What is asked of the tokens of an expression holds of those in its tree. -/
theorem parseExpression_tokens (h : ∀ t ∈ tokens, P t.kind t) (hend : P .endOfInput .missingEnd)
    {expr : Expr Unit} (hexpr : (parseExpression tokens).1 = some expr) : expr.Tokens P :=
  (parseExpression_meets Requirement.tokens_closed h hend).1 expr hexpr

end

end Scriptlet

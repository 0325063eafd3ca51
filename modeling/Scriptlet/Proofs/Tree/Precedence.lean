import Scriptlet.Proofs.Tree.Spelling

/-!
# Operators bind as their precedence says

Every expression has a tightness, and in a tree that the reader makes, operands that are no groups
are at least as tight as their place demands (`Expr.Layered`): all infix operators associate to the
left, as commas do, and assignments and choices to the right. This holds of every tree that is read,
with faults or without, and also inside the function literals of an expression.

For infix operators the reader loops inside a recursion. What it keeps is that the next operator
binds no more tightly than the left operand so far holds together
(`Parser.ReadsLayered.operators_succ`). Statements only hand on what is asked of their expressions,
by the clauses for them (`Requirement.layered_closedStatements`).
-/

namespace Scriptlet

section

variable {β : Type}

/-- How tightly an expression holds together. Infix operators have their binding power, from 10 to
70; a comma has none. Looser than all of them are choices and, below them, assignments; tighter are
operators on one value and, above them, whatever needs no parentheses to be called. -/
def Expr.tightness : Expr β → Nat
  | .binary _ _ op _ | .logical _ _ op _ => Parser.bindingPower op.kind
  | .assign .. | .set .. => 1
  | .ternary .. => 2
  | .unary .. => 80
  | _ => 90

mutual

/-- An expression in which every operand is as tight as its place demands. -/
def Expr.Layered : Expr β → Prop
  | .literal .. | .name .. | .receiver .. | .inherited .. => True
  | .assign _ _ _ value _ => value.Layered ∧ 1 ≤ value.tightness
  | .binary _ left op right | .logical _ left op right =>
    left.Layered ∧ right.Layered ∧ (op.kind = .comma ∨ 0 < Parser.bindingPower op.kind) ∧
      Parser.bindingPower op.kind ≤ left.tightness ∧ Parser.bindingPower op.kind < right.tightness
  | .unary _ _ operand trailing =>
    operand.Layered ∧ (if trailing then 90 else 80) ≤ operand.tightness
  | .ternary _ condition onTrue onFalse =>
    condition.Layered ∧ onTrue.Layered ∧ onFalse.Layered ∧ 2 < condition.tightness ∧
      2 ≤ onFalse.tightness
  | .group _ inner => inner.Layered
  | .call _ callee _ args => callee.Layered ∧ 90 ≤ callee.tightness ∧ Expr.LayeredList args
  | .lambda function => function.Layered
  | .get _ object _ => object.Layered ∧ 90 ≤ object.tightness
  | .set _ object _ value =>
    object.Layered ∧ 90 ≤ object.tightness ∧ value.Layered ∧ 1 ≤ value.tightness

/-- Expressions with commas between them, so that none of them is a comma. -/
def Expr.LayeredList : List (Expr β) → Prop
  | [] => True
  | e :: es => e.Layered ∧ 1 ≤ e.tightness ∧ Expr.LayeredList es

def Function.Layered : Function β → Prop
  | .mk _ _ _ body _ => Stmt.LayeredList body

def Declaration.LayeredList : List (Declaration β) → Prop
  | [] => True
  | .mk _ _ function :: ds => function.Layered ∧ Declaration.LayeredList ds

/-- A statement with such expressions. -/
def Stmt.Layered : Stmt β → Prop
  | .evaluate _ expr => expr.Layered
  | .print _ _ value => value.Layered
  | .declareVar _ _ none => True
  | .declareVar _ _ (some init) => init.Layered
  | .block _ stmts => Stmt.LayeredList stmts
  | .branch _ condition onTrue none => condition.Layered ∧ onTrue.Layered
  | .branch _ condition onTrue (some onFalse) =>
    condition.Layered ∧ onTrue.Layered ∧ onFalse.Layered
  | .loop _ condition body none _ => condition.Layered ∧ body.Layered
  | .loop _ condition body (some update) _ => condition.Layered ∧ body.Layered ∧ update.Layered
  | .leave _ _ none => True
  | .leave _ _ (some value) => value.Layered
  | .breakLoop .. | .continueLoop .. => True
  | .declareFunction (.mk _ _ function) => function.Layered
  | .declareClass _ _ _ methods classMethods =>
    Declaration.LayeredList methods ∧ Declaration.LayeredList classMethods

def Stmt.LayeredList : List (Stmt β) → Prop
  | [] => True
  | s :: ss => s.Layered ∧ Stmt.LayeredList ss

end

theorem Stmt.layeredList_iff {ss : List (Stmt β)} :
    Stmt.LayeredList ss ↔ ∀ s ∈ ss, s.Layered := by
  induction ss with
  | nil => simp [Stmt.LayeredList]
  | cons s ss ih => simp [Stmt.LayeredList, ih]

theorem Declaration.layeredList_iff {ds : List (Declaration β)} :
    Declaration.LayeredList ds ↔ ∀ d ∈ ds, d.function.Layered := by
  induction ds with
  | nil => simp [Declaration.LayeredList]
  | cons d ds ih =>
    obtain ⟨span, name, function⟩ := d
    simp [Declaration.LayeredList, Declaration.function, ih]

end

/-! ## Statements

What is asked of a statement does not depend on where it stands, so the clauses about statements are
all that is needed for them. -/

namespace Requirement

/-- Trees with layered expressions, whatever the tokens. -/
def layered : Requirement where
  token _ := True
  fault _ := True
  expr := Expr.Layered
  stmt := Stmt.Layered
  method d := d.function.Layered
  report _ _ := trivial

theorem layered_closedStatements : layered.ClosedStatements where
  evaluate h := h
  print _ h := h
  declareVar := by
    rintro _ name (_ | init) - hinit
    · trivial
    · exact hinit init rfl
  block h := Stmt.layeredList_iff.mpr h
  branch := by
    rintro _ condition onTrue (_ | onFalse) hcondition hTrue hFalse
    · exact ⟨hcondition, hTrue.1⟩
    · exact ⟨hcondition, hTrue.1, (hFalse onFalse rfl).1⟩
  loop := by
    rintro _ condition body (_ | update) after hcondition hbody hupdate
    · exact ⟨hcondition, hbody.1⟩
    · exact ⟨hcondition, hbody.1, hupdate update rfl⟩
  always := trivial
  leave := by
    rintro _ keyword (_ | value) - hvalue
    · trivial
    · exact hvalue value rfl
  breakLoop _ := trivial
  continueLoop _ := trivial
  declareFunction _ _ _ hbody := Stmt.layeredList_iff.mpr hbody
  declareClass _ _ hmethods hclassMethods :=
    ⟨Declaration.layeredList_iff.mpr hmethods, Declaration.layeredList_iff.mpr hclassMethods⟩
  member _ _ _ hbody := Stmt.layeredList_iff.mpr hbody

/-- Nothing is asked of places. -/
theorem layered_meets (c : Cursor) : c.Meets layered :=
  ⟨trivial, fun _ _ => trivial, fun _ _ => trivial⟩

end Requirement

namespace Parser

theorem bindingPower_le (k : Kind) : bindingPower k ≤ 70 := by
  cases k <;> decide

/-! ## What readers give -/

section

variable {α β : Type} {p : Parser α} {f : α → Parser β} {P : α → Prop} {Q : β → Prop}

/-- Whatever a reader reads, with faults or without, has a property. -/
def Gives (p : Parser α) (P : α → Prop) : Prop := ∀ c a c', p c = .ok a c' → P a

theorem Gives.bind (hp : Gives p P) (hf : ∀ a, P a → Gives (f a) Q) : Gives (p >>= f) Q := by
  intro c b c'' h
  obtain ⟨a, c', ha, hb⟩ := bind_ok h
  exact hf a (hp c a c' ha) c' b c'' hb

/-- A step that says nothing about what is read. -/
theorem gives_seq (hf : ∀ a, Gives (f a) Q) : Gives (p >>= f) Q := by
  intro c b c'' h
  obtain ⟨a, c', -, hb⟩ := bind_ok h
  exact hf a c' b c'' hb

theorem gives_pure {a : α} (h : P a) : Gives (pure a) P := by
  rintro c _ _ ⟨⟩
  exact h

theorem gives_fail (fault : SyntaxFault) (t : Token) : Gives (fail fault t) P := by
  intro c a c' h
  cases h

theorem starve_ne_ok (c : Cursor) (a : α) (c' : Cursor) : starve c ≠ .ok a c' := by
  intro h
  cases h

theorem gives_starve : Gives (starve : Parser α) P :=
  fun c a c' h => absurd h (starve_ne_ok c a c')

theorem Gives.yields (hp : Gives p P) : p.Yields .layered P := by
  intro c _
  cases hpc : p c with
  | ok a c' => exact ⟨hp c a c' hpc, Requirement.layered_meets c'⟩
  | failed c' => exact Requirement.layered_meets c'
  | starved => trivial

theorem Yields.gives (hp : p.Yields .layered P) : Gives p P := by
  intro c a c' h
  have hread := hp c (Requirement.layered_meets c)
  rw [h] at hread
  exact hread.1

end

/-- What is read of infix operators that bind more tightly than a power, and what comes next. -/
def Climbed (power : Nat) (e : Expr Unit) (next : Kind) : Prop :=
  e.Layered ∧ 2 < e.tightness ∧ power < e.tightness ∧ bindingPower next ≤ power

/-- With some fuel, the reader makes layered trees, and expressions as tight as their place
demands. -/
structure ReadsLayered (fuel : Nat) : Prop where
  statements : ReadsStatements .layered fuel
  commas : ∀ left : Expr Unit, left.Layered → Gives (commas fuel left) Expr.Layered
  assignment : Gives (assignment fuel) fun e => e.Layered ∧ 1 ≤ e.tightness
  ternary : Gives (ternary fuel) fun e => e.Layered ∧ 2 ≤ e.tightness
  binary : ∀ power c e c', power ≤ 70 → binary fuel power c = .ok e c' →
    Climbed power e c'.current.kind
  operators : ∀ power (left : Expr Unit) c e c', left.Layered → 2 < left.tightness →
    power < left.tightness → bindingPower c.current.kind ≤ left.tightness →
    operators fuel power left c = .ok e c' → Climbed power e c'.current.kind
  unary : Gives (unary fuel) fun e => e.Layered ∧ 80 ≤ e.tightness
  trailing : Gives (trailing fuel) fun e => e.Layered ∧ 80 ≤ e.tightness
  call : Gives (call fuel) fun e => e.Layered ∧ 90 ≤ e.tightness
  callRest : ∀ callee : Expr Unit, callee.Layered ∧ 90 ≤ callee.tightness →
    Gives (callRest fuel callee) fun e => e.Layered ∧ 90 ≤ e.tightness
  arguments : ∀ count, Gives (arguments fuel count) Expr.LayeredList
  primary : Gives (primary fuel) fun e => e.Layered ∧ 90 ≤ e.tightness

theorem readsLayered_zero : ReadsLayered 0 := by
  constructor
  case statements => exact readsStatements_zero
  case binary => exact fun _ c e c' _ h => absurd h (starve_ne_ok c e c')
  case operators => exact fun _ _ c e c' _ _ _ _ h => absurd h (starve_ne_ok c e c')
  all_goals intros; exact gives_starve

namespace ReadsLayered

variable {fuel : Nat}

theorem expression (h : ReadsLayered fuel) : Gives (Parser.expression fuel) Expr.Layered :=
  h.statements.expression.gives

theorem block (h : ReadsLayered fuel) : Gives (Parser.block fuel) Stmt.LayeredList :=
  fun c stmts c' hread => Stmt.layeredList_iff.mpr (h.statements.block.gives c stmts c' hread)

theorem commas_succ (h : ReadsLayered fuel) (left : Expr Unit) (hleft : left.Layered) :
    Gives (Parser.commas (fuel + 1) left) Expr.Layered := by
  intro c e c' hread
  rw [Parser.commas, sees_bind] at hread
  split at hread
  · next hcomma =>
    have hkind : c.current.kind = .comma := of_decide_eq_true hcomma
    have hpower : bindingPower c.current.kind = 0 := by rw [hkind]; rfl
    obtain ⟨op, c₁, ⟨⟩, hread⟩ := bind_ok hread
    obtain ⟨right, c₂, hright, hread⟩ := bind_ok hread
    obtain ⟨hright, htight⟩ := h.assignment _ _ _ hright
    have hboth (span : Span) : (Expr.binary span left c.current right).Layered := by
      refine ⟨hleft, hright, .inl hkind, ?_, ?_⟩
      · rw [hpower]
        exact Nat.zero_le _
      · rwa [hpower]
    exact h.commas _ (hboth _) _ _ _ hread
  · cases hread
    exact hleft

theorem layered_assignment? {target value e : Expr Unit} {op : Token} (htarget : target.Layered)
    (hvalue : value.Layered) (htight : 1 ≤ value.tightness)
    (h : assignment? target op value = some e) : e.Layered ∧ 1 ≤ e.tightness := by
  unfold assignment? at h
  split at h
  · cases h
    exact ⟨⟨hvalue, htight⟩, Nat.le_refl 1⟩
  · split at h
    · cases h
      exact ⟨⟨htarget.1, htarget.2, hvalue, htight⟩, Nat.le_refl 1⟩
    · cases h
  · cases h

theorem assignment_succ (h : ReadsLayered fuel) :
    Gives (Parser.assignment (fuel + 1)) fun e => e.Layered ∧ 1 ≤ e.tightness := by
  unfold Parser.assignment
  refine h.ternary.bind fun target htarget => gives_seq fun op => ?_
  have htarget' : target.Layered ∧ 1 ≤ target.tightness := ⟨htarget.1, by omega⟩
  split
  · refine gives_seq fun _ => h.assignment.bind fun value hvalue => ?_
    split
    · next hassign => exact gives_pure (layered_assignment? htarget.1 hvalue.1 hvalue.2 hassign)
    · exact gives_seq fun _ => gives_pure htarget'
  · exact gives_pure htarget'

theorem ternary_succ (h : ReadsLayered fuel) :
    Gives (Parser.ternary (fuel + 1)) fun e => e.Layered ∧ 2 ≤ e.tightness := by
  unfold Parser.ternary
  have hcondition : Gives (Parser.binary fuel 0) fun e => e.Layered ∧ 2 < e.tightness := by
    intro c e c' hread
    have hclimbed := h.binary 0 c e c' (Nat.zero_le 70) hread
    exact ⟨hclimbed.1, hclimbed.2.1⟩
  refine hcondition.bind fun condition hcondition => gives_seq fun _ => ?_
  split
  · refine h.expression.bind fun onTrue hTrue => gives_seq fun _ => ?_
    refine h.ternary.bind fun onFalse hFalse => gives_pure ⟨?_, Nat.le_refl 2⟩
    exact ⟨hcondition.1, hTrue, hFalse.1, hcondition.2, hFalse.2⟩
  · exact gives_pure ⟨hcondition.1, by omega⟩

theorem binary_succ (h : ReadsLayered fuel) {power : Nat} {c c' : Cursor} {e : Expr Unit}
    (hpower : power ≤ 70) (hread : Parser.binary (fuel + 1) power c = .ok e c') :
    Climbed power e c'.current.kind := by
  rw [Parser.binary] at hread
  obtain ⟨left, c₁, hleft, hread⟩ := bind_ok hread
  obtain ⟨hleft, htight⟩ := h.unary _ _ _ hleft
  have hnext := bindingPower_le c₁.current.kind
  exact h.operators power left c₁ e c' hleft (by omega) (by omega) (by omega) hread

theorem layered_combine {left right : Expr Unit} {op : Token} (hleft : left.Layered)
    (hright : right.Layered) (hop : 0 < bindingPower op.kind)
    (hleft' : bindingPower op.kind ≤ left.tightness)
    (hright' : bindingPower op.kind < right.tightness) :
    (combine left op right).Layered ∧ (combine left op right).tightness = bindingPower op.kind := by
  unfold combine
  dsimp only
  split
  · exact ⟨⟨hleft, hright, .inr hop, hleft', hright'⟩, rfl⟩
  · exact ⟨⟨hleft, hright, .inr hop, hleft', hright'⟩, rfl⟩

/-- Every infix operator binds more tightly than a choice. -/
theorem two_lt_bindingPower {k : Kind} (h : 0 < bindingPower k) : 2 < bindingPower k := by
  revert h
  cases k <;> decide

/-- The operator that comes next binds no more tightly than the left operand, so the left operand
may be its own; what is read to the right of it ends before an operator that binds no more tightly
than this one, so that the same holds of both together. -/
theorem operators_succ (h : ReadsLayered fuel) {power : Nat} {left e : Expr Unit} {c c' : Cursor}
    (hleft : left.Layered) (hchoice : 2 < left.tightness) (hpower : power < left.tightness)
    (hnext : bindingPower c.current.kind ≤ left.tightness)
    (hread : Parser.operators (fuel + 1) power left c = .ok e c') :
    Climbed power e c'.current.kind := by
  rw [Parser.operators, peek_bind] at hread
  split at hread
  · next hend =>
    cases hread
    exact ⟨hleft, hchoice, hpower, hend⟩
  · next hmore =>
    have hop : 0 < bindingPower c.current.kind := by omega
    obtain ⟨_, c₁, -, hread⟩ := bind_ok hread
    obtain ⟨right, c₂, hright, hread⟩ := bind_ok hread
    obtain ⟨hright, -, hright', hnext'⟩ := h.binary _ _ _ _ (bindingPower_le _) hright
    obtain ⟨hboth, htight⟩ := layered_combine hleft hright hop hnext hright'
    have hchoice' := two_lt_bindingPower hop
    refine h.operators power _ c₂ e c' hboth ?_ ?_ ?_ hread
    all_goals rw [htight]; omega

theorem unary_succ (h : ReadsLayered fuel) :
    Gives (Parser.unary (fuel + 1)) fun e => e.Layered ∧ 80 ≤ e.tightness := by
  have hprefix : Gives
      (do
        let op ← advance
        let operand ← Parser.unary fuel
        return Expr.unary ⟨op.span.start, operand.span.stop⟩ op operand false)
      fun e => e.Layered ∧ 80 ≤ e.tightness :=
    gives_seq fun op => h.unary.bind fun operand hoperand =>
      gives_pure ⟨hoperand, Nat.le_refl 80⟩
  unfold Parser.unary
  refine gives_seq fun op => ?_
  split
  · exact hprefix
  · exact hprefix
  · exact hprefix
  · exact hprefix
  · exact h.trailing

theorem trailing_succ (h : ReadsLayered fuel) :
    Gives (Parser.trailing (fuel + 1)) fun e => e.Layered ∧ 80 ≤ e.tightness := by
  unfold Parser.trailing
  refine h.call.bind fun operand hoperand => gives_seq fun op => ?_
  split
  · exact gives_seq fun _ => gives_pure ⟨hoperand, Nat.le_refl 80⟩
  · exact gives_pure ⟨hoperand.1, by omega⟩

theorem call_succ (h : ReadsLayered fuel) :
    Gives (Parser.call (fuel + 1)) fun e => e.Layered ∧ 90 ≤ e.tightness :=
  h.primary.bind h.callRest

theorem callRest_succ (h : ReadsLayered fuel) (callee : Expr Unit)
    (hcallee : callee.Layered ∧ 90 ≤ callee.tightness) :
    Gives (Parser.callRest (fuel + 1) callee) fun e => e.Layered ∧ 90 ≤ e.tightness := by
  unfold Parser.callRest
  refine gives_seq fun _ => ?_
  split
  · refine gives_seq fun _ => ?_
    extract_lets rest
    have hrest : ∀ args : List (Expr Unit), Expr.LayeredList args →
        Gives (rest args) fun e => e.Layered ∧ 90 ≤ e.tightness := fun args hargs =>
      gives_seq fun _ => h.callRest _ ⟨⟨hcallee.1, hcallee.2, hargs⟩, Nat.le_refl 90⟩
    split
    · exact hrest [] trivial
    · exact (h.arguments 0).bind hrest
  · refine gives_seq fun _ => ?_
    split
    · exact gives_seq fun _ => h.callRest _ ⟨hcallee, Nat.le_refl 90⟩
    · exact gives_pure hcallee

theorem arguments_succ (h : ReadsLayered fuel) (count : Nat) :
    Gives (Parser.arguments (fuel + 1) count) Expr.LayeredList := by
  unfold Parser.arguments
  extract_lets rest
  have hrest : ∀ u, Gives (rest u) Expr.LayeredList := by
    intro u
    refine h.assignment.bind fun arg harg => gives_seq fun _ => ?_
    split
    · refine (h.arguments _).bind fun args hargs => gives_pure ?_
      exact ⟨harg.1, harg.2, hargs⟩
    · exact gives_pure ⟨harg.1, harg.2, trivial⟩
  split
  · exact gives_seq fun _ => gives_seq hrest
  · exact hrest ()

theorem primary_succ (h : ReadsLayered fuel) :
    Gives (Parser.primary (fuel + 1)) fun e => e.Layered ∧ 90 ≤ e.tightness := by
  unfold Parser.primary
  refine gives_seq fun token => ?_
  split
  · exact gives_seq fun _ => gives_pure ⟨trivial, Nat.le_refl 90⟩
  · exact gives_seq fun _ => gives_pure ⟨trivial, Nat.le_refl 90⟩
  · exact gives_seq fun _ => gives_pure ⟨trivial, Nat.le_refl 90⟩
  · exact gives_seq fun _ => gives_pure ⟨trivial, Nat.le_refl 90⟩
  · exact gives_seq fun _ => gives_pure ⟨trivial, Nat.le_refl 90⟩
  · exact gives_seq fun _ => gives_pure ⟨trivial, Nat.le_refl 90⟩
  · exact gives_seq fun _ => gives_pure ⟨trivial, Nat.le_refl 90⟩
  · refine gives_seq fun _ => gives_seq fun _ => gives_seq fun method => ?_
    exact gives_pure ⟨trivial, Nat.le_refl 90⟩
  · refine gives_seq fun _ => h.expression.bind fun inner hinner => gives_seq fun _ => ?_
    exact gives_pure ⟨hinner, Nat.le_refl 90⟩
  · refine gives_seq fun _ => gives_seq fun params => h.block.bind fun body hbody => ?_
    exact gives_seq fun _ => gives_pure ⟨hbody, Nat.le_refl 90⟩
  · exact gives_fail _ _

theorem statements_succ (h : ReadsLayered fuel) : ReadsStatements .layered (fuel + 1) := by
  have hexpression : Gives (Parser.expression (fuel + 1)) Expr.Layered :=
    h.assignment.bind fun left hleft => h.commas left hleft.1
  have hassignment : Gives (Parser.assignment (fuel + 1)) Expr.Layered :=
    fun c e c' hread => (h.assignment_succ c e c' hread).1
  exact h.statements.succ Requirement.layered_closedStatements hexpression.yields
    hassignment.yields

end ReadsLayered

/-- The reader makes layered trees, whatever its fuel. -/
theorem readsLayered (fuel : Nat) : ReadsLayered fuel := by
  induction fuel with
  | zero => exact readsLayered_zero
  | succ fuel ih =>
    exact {
      statements := ih.statements_succ
      commas := ih.commas_succ
      assignment := ih.assignment_succ
      ternary := ih.ternary_succ
      binary := fun _ _ _ _ => ih.binary_succ
      operators := fun _ _ _ _ _ => ih.operators_succ
      unary := ih.unary_succ
      trailing := ih.trailing_succ
      call := ih.call_succ
      callRest := ih.callRest_succ
      arguments := ih.arguments_succ
      primary := ih.primary_succ }

end Parser

/-- An expression that is read without a fault gives back the tokens it was read from, and all its
operands are as tight as their places demand. -/
theorem parseExpression_layered {tokens : List Token} {e : Expr Unit}
    (h : parseExpression tokens = (some e, [])) : e.Spells (beforeEnd tokens) ∧ e.Layered := by
  refine ⟨parseExpression_spells h, ?_⟩
  obtain ⟨e', c, hread, hend, -⟩ := parseExpression_clean (congrArg Prod.snd h)
  have heq := parseExpression_eq hread hend
  rw [h] at heq
  obtain rfl : e = e' := Option.some.inj (congrArg Prod.fst heq)
  exact (Parser.readsLayered _).expression _ _ _ hread

/-- All tiers in one expression, which is a comma at its root. -/
theorem parseExpression_layered_allTiers :
    let tokens := (tokenize
      "a.b = c = -x++ - 1 - y * 2 ** 3 ** z < 4 and d or e ? f : g ? (h, i) : f(fun(p) \x7b return p + p * p; \x7d)(j, k).l, m").tokens
    ∃ e, parseExpression tokens = (some e, []) ∧ e.tightness = 0 ∧
      e.Spells (beforeEnd tokens) ∧ e.Layered := by
  intro tokens
  have hread : (parseExpression tokens).2 = [] ∧
      (parseExpression tokens).1.any fun e => e.tightness = 0 := by
    decide +kernel
  obtain ⟨e, he, hcomma⟩ := (Option.any_eq_true _ _).mp hread.2
  have h : parseExpression tokens = (some e, []) := Prod.ext he hread.1
  exact ⟨e, h, of_decide_eq_true hcomma, parseExpression_layered h⟩

end Scriptlet

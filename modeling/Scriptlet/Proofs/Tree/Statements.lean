import Scriptlet.Proofs.Tree.Recognition

/-!
# Statements and declarations are read without a fault

The recognition lemmas for everything that is not an expression. Those for statements say whether an
`else` may come next: it may not after a choice that has none yet.
-/

namespace Scriptlet

namespace Parser

variable {β : Type}

section

variable {ts us : List Token} {e : Expr Unit}

/-! ## Parameters and variables -/

theorem parameterNames_eq {count : Nat} (fuel : Nat) (h : count < maxArguments) :
    parameterNames (fuel + 1) count = (do
      let name ← expect .identifier .parameterName
      if ← accepts .comma then
        let names ← parameterNames fuel (count + 1)
        return name :: names
      else return [name]) := by
  rw [parameterNames, if_neg (by omega)]

theorem recognizes_parameterNames {n count : Nat}
    (h : Enumerated (fun ts => ∃ t : Token, t.kind = .identifier ∧ ts = [t]) (n + 1) ts)
    (hn : count + (n + 1) ≤ maxArguments) :
    ∃ names : List Token, Recognizes (parameterNames · count) (fun k => k == .rightParen) ts
      (fun g => names.map (·.move g)) := by
  induction n generalizing count ts with
  | zero =>
    cases h with
    | one h =>
      obtain ⟨t, ht, rfl⟩ := h
      refine ⟨[t], fun g fuel previous faults rest hrest => ?_⟩
      cases fuel with
      | zero => exact .inl rfl
      | succ fuel =>
        simp only [List.map_cons, List.map_nil, List.cons_append, List.nil_append]
        rw [parameterNames_eq fuel (by omega), expect_bind ht (by decide) hrest.ne_nil]
        obtain ⟨u, rest, rfl⟩ := List.exists_cons_of_ne_nil hrest.ne_nil
        rw [not_accepts_bind .comma (hrest.ne (by decide))]
        exact becomes_refl _
  | succ n ih =>
    cases h with
    | more h hcomma hmore =>
      obtain ⟨t, ht, rfl⟩ := h
      obtain ⟨names, hnames⟩ := @ih _ (count + 1) hmore (by omega)
      refine ⟨t :: names, fun g fuel previous faults rest hrest => ?_⟩
      cases fuel with
      | zero => exact .inl rfl
      | succ fuel =>
        simp only [List.map_cons, List.cons_append, List.nil_append, Cursor.last_cons]
        rw [parameterNames_eq fuel (by omega), expect_bind ht (by decide) (by simp),
          accepts_bind hcomma (by decide) (by simp [hrest.ne_nil])]
        exact hnames.bind hrest (becomes_refl _)

theorem recognizes_parameters {left right : Token} {n : Nat} (hleft : left.kind = .leftParen)
    (h : Enumerated (fun ts => ∃ t : Token, t.kind = .identifier ∧ ts = [t]) n ts)
    (hn : n ≤ maxArguments) (hright : right.kind = .rightParen) :
    ∃ names : List Token, Recognizes parameters any (left :: (ts ++ [right]))
      (fun g => names.map (·.move g)) := by
  cases n with
  | zero =>
    cases h
    refine ⟨[], fun g fuel previous faults rest hrest => .inr ?_⟩
    simp only [List.nil_append, List.map_cons, List.map_nil, List.cons_append, parameters]
    rw [expect_bind hleft (by decide) (by simp)]
    simp only [sees_bind, Cursor.place_sees, Token.relocate_kind, hright, decide_true, ↓reduceIte]
    rw [pure_bind, expect_bind hright (by decide) hrest.ne_nil]
    rfl
  | succ n =>
    obtain ⟨names, hnames⟩ := @recognizes_parameterNames _ _ 0 h (by omega)
    have hbegins : Phrase.Begins Kind.identifier ts := by
      cases h with
      | one h | more h =>
        obtain ⟨t, ht, rfl⟩ := h
        exact Phrase.begins_token ht (by decide) (by decide) _
    refine ⟨names, fun g fuel previous faults rest hrest => ?_⟩
    simp only [List.map_cons, List.map_append, List.map_nil, List.cons_append, List.append_assoc,
      List.nil_append, parameters]
    rw [expect_bind hleft (by decide) (by simp), not_sees_bind .rightParen g hbegins (by decide),
      if_neg Bool.false_ne_true]
    refine hnames.bind (.cons hright (by decide)) ?_
    rw [expect_bind hright (by decide) hrest.ne_nil]
    simp only [Cursor.last_cons, Cursor.last_append, Cursor.last_nil]
    exact becomes_refl _

theorem recognizes_furtherVariables {C : List Token → Prop}
    (hC : ∀ ts, C ts → ∃ (comma name eq : Token) (us : List Token) (e : Expr Unit),
      comma.kind = .comma ∧ name.kind = .identifier ∧ eq.kind = .assign ∧
      ts = comma :: name :: eq :: us ∧ Recognizes assignment (stops 5) us (e.move ·))
    (h : Repeated C ts) :
    ∃ ss : List (Stmt Unit), Recognizes furtherVariables (fun k => k == .semicolon) ts
      (Stmt.moveList · ss) := by
  induction h with
  | nil =>
    refine ⟨[], fun g fuel previous faults rest hrest => ?_⟩
    cases fuel with
    | zero => exact .inl rfl
    | succ fuel =>
      obtain ⟨u, rest, rfl⟩ := List.exists_cons_of_ne_nil hrest.ne_nil
      simp only [List.map_nil, List.nil_append]
      rw [furtherVariables, not_accepts_bind .comma (hrest.ne (by decide))]
      exact becomes_refl _
  | @cons ts vs hts hvs ih =>
    obtain ⟨comma, name, eq, us, e, hcomma, hname, heq, rfl, he⟩ := hC ts hts
    obtain ⟨ss, hss⟩ := ih
    refine ⟨.declareVar ⟨name.span.start, Cursor.stopAfter eq us⟩ name (some e) :: ss, ?_⟩
    intro g fuel previous faults rest hrest
    cases fuel with
    | zero => exact .inl rfl
    | succ fuel =>
      simp only [List.map_append, List.map_cons, List.append_assoc, List.cons_append,
        Cursor.last_append, Cursor.last_cons]
      rw [furtherVariables, accepts_bind hcomma (by decide) (by simp), if_pos rfl,
        expect_bind hname (by decide) (by simp),
        expect_bind heq (by decide) (by simp [hrest.ne_nil])]
      refine he.bind (.repeated g hvs (fun ts hts => ?_) (hrest.mono fun k hk => ?_)) ?_
      · obtain ⟨t, _, _, _, _, ht, -, -, rfl, -⟩ := hC ts hts
        exact .cons ht (by decide)
      · rw [eq_of_beq hk]; decide
      · rw [lastStop_bind, Cursor.lastStop_place]
        exact hss.bind hrest (becomes_refl _)

/-- Variables and the semicolon after them, the first one without a value. -/
theorem recognizes_variables {var name semi : Token} {ss : List (Stmt Unit)}
    (hvar : var.kind = .kwVar) (hname : name.kind = .identifier)
    (hmore : Recognizes furtherVariables (fun k => k == .semicolon) us (Stmt.moveList · ss))
    (hus : ∀ g rest, Follows (fun k => k == .semicolon) rest →
      Follows (fun k => k == .semicolon || k == .comma) (us.map (·.move g) ++ rest))
    (hsemi : semi.kind = .semicolon) :
    Recognizes varDeclarations any (var :: name :: (us ++ [semi]))
      (Stmt.moveList · (.declareVar ⟨var.span.start, name.span.stop⟩ name none :: ss)) := by
  intro g fuel previous faults rest hrest
  have hnext : Follows (fun k => k == .semicolon) (semi.move g :: rest) := .cons hsemi (by decide)
  cases fuel with
  | zero => exact .inl rfl
  | succ fuel =>
    simp only [List.map_append, List.map_cons, List.map_nil, List.append_assoc, List.cons_append,
      List.nil_append, Cursor.last_append, Cursor.last_cons, Cursor.last_nil]
    rw [varDeclarations, advance_bind (by rw [hvar]; decide) (by simp),
      expect_bind hname (by decide) (by simp)]
    have hfirst := hus g _ hnext
    obtain ⟨u, rest', hcons⟩ := List.exists_cons_of_ne_nil hfirst.ne_nil
    rw [hcons] at hfirst ⊢
    rw [not_accepts_bind .assign (hfirst.ne (by decide)), ← hcons, if_neg Bool.false_ne_true]
    simp only [pure_bind, lastStop_bind, Cursor.lastStop_token]
    refine hmore.bind hnext ?_
    rw [expect_bind hsemi (by decide) hrest.ne_nil]
    exact becomes_refl _

/-- Variables and the semicolon after them, the first one with a value. -/
theorem recognizes_variables_init {var name eq semi : Token} {ss : List (Stmt Unit)}
    (hvar : var.kind = .kwVar) (hname : name.kind = .identifier) (heq : eq.kind = .assign)
    (he : Recognizes assignment (stops 5) ts (e.move ·))
    (hmore : Recognizes furtherVariables (fun k => k == .semicolon) us (Stmt.moveList · ss))
    (hus : ∀ g rest, Follows (fun k => k == .semicolon) rest →
      Follows (fun k => k == .semicolon || k == .comma) (us.map (·.move g) ++ rest))
    (hsemi : semi.kind = .semicolon) :
    Recognizes varDeclarations any (var :: name :: eq :: (ts ++ (us ++ [semi])))
      (Stmt.moveList · (.declareVar ⟨var.span.start, Cursor.stopAfter eq ts⟩ name (some e) :: ss)) := by
  intro g fuel previous faults rest hrest
  have hnext : Follows (fun k => k == .semicolon) (semi.move g :: rest) := .cons hsemi (by decide)
  cases fuel with
  | zero => exact .inl rfl
  | succ fuel =>
    simp only [List.map_append, List.map_cons, List.map_nil, List.append_assoc, List.cons_append,
      List.nil_append, Cursor.last_append, Cursor.last_cons, Cursor.last_nil]
    rw [varDeclarations, advance_bind (by rw [hvar]; decide) (by simp),
      expect_bind hname (by decide) (by simp), accepts_bind heq (by decide) (by simp), if_pos rfl]
    refine he.bind ((hus g _ hnext).mono fun k hk => ?_) ?_
    · revert hk
      cases k <;> decide
    · simp only [pure_bind, lastStop_bind, Cursor.lastStop_place]
      refine hmore.bind hnext ?_
      rw [expect_bind hsemi (by decide) hrest.ne_nil]
      exact becomes_refl _

/-! ## Statements -/

theorem recognizes_expressionStatement {semi : Token}
    (h : Recognizes expression (stops 6) ts (e.move ·)) (hsemi : semi.kind = .semicolon) :
    Recognizes expressionStatement any (ts ++ [semi])
      ((Stmt.evaluate ⟨e.span.start, semi.span.stop⟩ e).move ·) := by
  intro g fuel previous faults rest hrest
  cases fuel with
  | zero => exact .inl rfl
  | succ fuel =>
    simp only [List.map_append, List.map_cons, List.map_nil, List.append_assoc, List.cons_append,
      List.nil_append, Cursor.last_append, Cursor.last_cons, Cursor.last_nil]
    rw [expressionStatement]
    refine h.bind (.cons hsemi (by decide)) ?_
    rw [expect_bind hsemi (by decide) hrest.ne_nil, lastStop_bind,
      Cursor.lastStop_token, Expr.relocate_span]
    exact becomes_refl _

/-- A statement that is read by the reader `p` because of its first token. -/
theorem recognizes_by {p : Nat → Parser (Stmt Unit)} {F : Kind → Bool}
    {a : (Position → Position) → Stmt Unit}
    (hp : ∀ g fuel previous faults rest, statement (fuel + 1) (.place previous faults
      (ts.map (·.move g) ++ rest)) = p fuel (.place previous faults (ts.map (·.move g) ++ rest)))
    (h : Recognizes p F ts a) : Recognizes statement F ts a := by
  intro g fuel previous faults rest hrest
  cases fuel with
  | zero => exact .inl rfl
  | succ fuel =>
    rw [hp]
    exact h g fuel previous faults rest hrest

theorem statement_eq_expression {c : Cursor} (fuel : Nat)
    (h : c.current.kind ∈ Phrase.expr.starts) :
    statement (fuel + 1) c = expressionStatement fuel c := by
  rw [statement, peek_bind]
  cases hk : c.current.kind
  case kwFor | kwIf | kwPrint | kwReturn | kwDo | kwWhile | kwBreak | kwContinue | leftBrace =>
    rw [hk] at h
    exact absurd h (by decide)
  all_goals rfl

theorem recognizes_evaluate {semi : Token} (h : Recognizes expression (stops 6) ts (e.move ·))
    (hbegins : Phrase.expr.Begins ts) (hsemi : semi.kind = .semicolon) :
    Recognizes statement any (ts ++ [semi])
      ((Stmt.evaluate ⟨e.span.start, semi.span.stop⟩ e).move ·) := by
  refine recognizes_by (fun g fuel previous faults rest => ?_) (recognizes_expressionStatement h hsemi)
  rw [List.map_append, List.append_assoc]
  exact statement_eq_expression fuel (begins_current g hbegins)

theorem recognizes_print {keyword semi : Token} (hkeyword : keyword.kind = .kwPrint)
    (h : Recognizes expression (stops 6) ts (e.move ·)) (hsemi : semi.kind = .semicolon) :
    Recognizes statement any (keyword :: (ts ++ [semi]))
      ((Stmt.print ⟨keyword.span.start, semi.span.stop⟩ keyword e).move ·) := by
  intro g fuel previous faults rest hrest
  cases fuel with
  | zero => exact .inl rfl
  | succ fuel =>
    simp only [List.map_append, List.map_cons, List.map_nil, List.append_assoc, List.cons_append,
      List.nil_append, Cursor.last_append, Cursor.last_cons, Cursor.last_nil]
    simp only [statement, peek_bind, Cursor.place_current, Token.relocate_kind, hkeyword]
    rw [advance_bind (by rw [hkeyword]; decide) (by simp)]
    refine h.bind (.cons hsemi (by decide)) ?_
    rw [expect_bind hsemi (by decide) hrest.ne_nil, lastStop_bind, Cursor.lastStop_token]
    exact becomes_refl _

theorem recognizes_return {keyword semi : Token} (hkeyword : keyword.kind = .kwReturn)
    (hsemi : semi.kind = .semicolon) :
    Recognizes statement any [keyword, semi]
      ((Stmt.leave ⟨keyword.span.start, semi.span.stop⟩ keyword none).move ·) := by
  intro g fuel previous faults rest hrest
  cases fuel with
  | zero => exact .inl rfl
  | succ fuel =>
    refine .inr ?_
    simp only [List.map_cons, List.map_nil, List.cons_append, List.nil_append]
    simp only [statement, peek_bind, Cursor.place_current, Token.relocate_kind, hkeyword]
    rw [advance_bind (by rw [hkeyword]; decide) (by simp), sees_bind, Cursor.place_sees,
      Token.relocate_kind, decide_eq_true hsemi, if_pos rfl, pure_bind,
      expect_bind hsemi (by decide) hrest.ne_nil, lastStop_bind, Cursor.lastStop_token]
    rfl

theorem recognizes_return_value {keyword semi : Token} (hkeyword : keyword.kind = .kwReturn)
    (h : Recognizes expression (stops 6) ts (e.move ·)) (hbegins : Phrase.expr.Begins ts)
    (hsemi : semi.kind = .semicolon) :
    Recognizes statement any (keyword :: (ts ++ [semi]))
      ((Stmt.leave ⟨keyword.span.start, semi.span.stop⟩ keyword (some e)).move ·) := by
  intro g fuel previous faults rest hrest
  cases fuel with
  | zero => exact .inl rfl
  | succ fuel =>
    simp only [List.map_append, List.map_cons, List.map_nil, List.append_assoc, List.cons_append,
      List.nil_append, Cursor.last_append, Cursor.last_cons, Cursor.last_nil]
    simp only [statement, peek_bind, Cursor.place_current, Token.relocate_kind, hkeyword]
    rw [advance_bind (by rw [hkeyword]; decide) (by simp),
      not_sees_bind .semicolon g hbegins (by decide), if_neg Bool.false_ne_true]
    refine h.bind (.cons hsemi (by decide)) ?_
    rw [pure_bind, expect_bind hsemi (by decide) hrest.ne_nil, lastStop_bind,
      Cursor.lastStop_token]
    exact becomes_refl _

theorem recognizes_break {keyword semi : Token} (hkeyword : keyword.kind = .kwBreak)
    (hsemi : semi.kind = .semicolon) :
    Recognizes statement any [keyword, semi]
      ((Stmt.breakLoop ⟨keyword.span.start, semi.span.stop⟩ keyword).move ·) := by
  intro g fuel previous faults rest hrest
  cases fuel with
  | zero => exact .inl rfl
  | succ fuel =>
    refine .inr ?_
    simp only [List.map_cons, List.map_nil, List.cons_append, List.nil_append]
    simp only [statement, peek_bind, Cursor.place_current, Token.relocate_kind, hkeyword]
    rw [advance_bind (by rw [hkeyword]; decide) (by simp),
      expect_bind hsemi (by decide) hrest.ne_nil, lastStop_bind, Cursor.lastStop_token]
    rfl

theorem recognizes_continue {keyword semi : Token} (hkeyword : keyword.kind = .kwContinue)
    (hsemi : semi.kind = .semicolon) :
    Recognizes statement any [keyword, semi]
      ((Stmt.continueLoop ⟨keyword.span.start, semi.span.stop⟩ keyword).move ·) := by
  intro g fuel previous faults rest hrest
  cases fuel with
  | zero => exact .inl rfl
  | succ fuel =>
    refine .inr ?_
    simp only [List.map_cons, List.map_nil, List.cons_append, List.nil_append]
    simp only [statement, peek_bind, Cursor.place_current, Token.relocate_kind, hkeyword]
    rw [advance_bind (by rw [hkeyword]; decide) (by simp),
      expect_bind hsemi (by decide) hrest.ne_nil, lastStop_bind, Cursor.lastStop_token]
    rfl

theorem recognizes_while {keyword left right : Token} {F : Kind → Bool} {body : Stmt Unit}
    (hkeyword : keyword.kind = .kwWhile) (hleft : left.kind = .leftParen)
    (h : Recognizes expression (stops 6) ts (e.move ·)) (hright : right.kind = .rightParen)
    (hbody : Recognizes statement F us (body.move ·)) :
    Recognizes statement F (keyword :: left :: (ts ++ right :: us))
      ((Stmt.loop ⟨keyword.span.start, Cursor.stopAfter right us⟩ e body none false).move ·) := by
  refine @recognizes_by _ whileStatement _ _ (fun g fuel previous faults rest => ?_) ?_
  · simp only [List.map_cons, List.cons_append, statement, peek_bind, Cursor.place_current,
      Token.relocate_kind, hkeyword]
  · intro g fuel previous faults rest hrest
    cases fuel with
    | zero => exact .inl rfl
    | succ fuel =>
      simp only [List.map_append, List.map_cons, List.append_assoc, List.cons_append,
        Cursor.last_append, Cursor.last_cons]
      rw [whileStatement, advance_bind (by rw [hkeyword]; decide) (by simp),
        expect_bind hleft (by decide) (by simp)]
      refine h.bind (.cons hright (by decide)) ?_
      rw [expect_bind hright (by decide) (by simp [hrest.ne_nil])]
      refine hbody.bind hrest ?_
      rw [lastStop_bind, Cursor.lastStop_place]
      exact becomes_refl _

theorem recognizes_do {keyword test left right semi : Token} {body : Stmt Unit}
    (hkeyword : keyword.kind = .kwDo) (hbody : Recognizes statement notElse us (body.move ·))
    (htest : test.kind = .kwWhile) (hleft : left.kind = .leftParen)
    (h : Recognizes expression (stops 6) ts (e.move ·)) (hright : right.kind = .rightParen)
    (hsemi : semi.kind = .semicolon) :
    Recognizes statement any (keyword :: (us ++ test :: left :: (ts ++ [right, semi])))
      ((Stmt.loop ⟨keyword.span.start, semi.span.stop⟩ e body none true).move ·) := by
  refine @recognizes_by _ doStatement _ _ (fun g fuel previous faults rest => ?_) ?_
  · simp only [List.map_cons, List.cons_append, statement, peek_bind, Cursor.place_current,
      Token.relocate_kind, hkeyword]
  · intro g fuel previous faults rest hrest
    cases fuel with
    | zero => exact .inl rfl
    | succ fuel =>
      simp only [List.map_append, List.map_cons, List.map_nil, List.append_assoc, List.cons_append,
        List.nil_append, Cursor.last_append, Cursor.last_cons, Cursor.last_nil]
      rw [doStatement, advance_bind (by rw [hkeyword]; decide) (by simp)]
      refine hbody.bind (.cons htest (by decide)) ?_
      rw [expect_bind htest (by decide) (by simp), expect_bind hleft (by decide) (by simp)]
      refine h.bind (.cons hright (by decide)) ?_
      rw [expect_bind hright (by decide) (by simp), expect_bind hsemi (by decide) hrest.ne_nil,
        lastStop_bind, Cursor.lastStop_token]
      exact becomes_refl _

theorem recognizes_if {keyword left right : Token} {onTrue : Stmt Unit}
    (hkeyword : keyword.kind = .kwIf) (hleft : left.kind = .leftParen)
    (h : Recognizes expression (stops 6) ts (e.move ·)) (hright : right.kind = .rightParen)
    (hTrue : Recognizes statement notElse us (onTrue.move ·)) :
    Recognizes statement notElse (keyword :: left :: (ts ++ right :: us))
      ((Stmt.branch ⟨keyword.span.start, Cursor.stopAfter right us⟩ e onTrue none).move ·) := by
  refine @recognizes_by _ ifStatement _ _ (fun g fuel previous faults rest => ?_) ?_
  · simp only [List.map_cons, List.cons_append, statement, peek_bind, Cursor.place_current,
      Token.relocate_kind, hkeyword]
  · intro g fuel previous faults rest hrest
    cases fuel with
    | zero => exact .inl rfl
    | succ fuel =>
      simp only [List.map_append, List.map_cons, List.append_assoc, List.cons_append,
        Cursor.last_append, Cursor.last_cons]
      rw [ifStatement, advance_bind (by rw [hkeyword]; decide) (by simp),
        expect_bind hleft (by decide) (by simp)]
      refine h.bind (.cons hright (by decide)) ?_
      rw [expect_bind hright (by decide) (by simp [hrest.ne_nil])]
      refine hTrue.bind hrest ?_
      obtain ⟨u, rest, rfl⟩ := List.exists_cons_of_ne_nil hrest.ne_nil
      rw [not_accepts_bind .kwElse (hrest.ne (by decide)), if_neg Bool.false_ne_true]
      simp only [pure_bind, lastStop_bind, Cursor.lastStop_place]
      exact becomes_refl _

theorem recognizes_if_else {keyword left right els : Token} {F : Kind → Bool}
    {onTrue onFalse : Stmt Unit} {vs : List Token}
    (hkeyword : keyword.kind = .kwIf) (hleft : left.kind = .leftParen)
    (h : Recognizes expression (stops 6) ts (e.move ·)) (hright : right.kind = .rightParen)
    (hTrue : Recognizes statement any us (onTrue.move ·)) (hels : els.kind = .kwElse)
    (hFalse : Recognizes statement F vs (onFalse.move ·)) :
    Recognizes statement F (keyword :: left :: (ts ++ right :: (us ++ els :: vs)))
      ((Stmt.branch ⟨keyword.span.start, Cursor.stopAfter els vs⟩ e onTrue
        (some onFalse)).move ·) := by
  refine @recognizes_by _ ifStatement _ _ (fun g fuel previous faults rest => ?_) ?_
  · simp only [List.map_cons, List.cons_append, statement, peek_bind, Cursor.place_current,
      Token.relocate_kind, hkeyword]
  · intro g fuel previous faults rest hrest
    cases fuel with
    | zero => exact .inl rfl
    | succ fuel =>
      simp only [List.map_append, List.map_cons, List.append_assoc, List.cons_append,
        Cursor.last_append, Cursor.last_cons]
      rw [ifStatement, advance_bind (by rw [hkeyword]; decide) (by simp),
        expect_bind hleft (by decide) (by simp)]
      refine h.bind (.cons hright (by decide)) ?_
      rw [expect_bind hright (by decide) (by simp)]
      refine hTrue.bind (.cons hels (by decide)) ?_
      rw [accepts_bind hels (by decide) (by simp [hrest.ne_nil]), if_pos rfl]
      refine hFalse.bind hrest ?_
      simp only [pure_bind, lastStop_bind, Cursor.lastStop_place]
      exact becomes_refl _

theorem recognizes_block_statement {ss : List (Stmt Unit)} (h : Recognizes block any ts (Stmt.moveList · ss))
    (hbegins : Phrase.block.Begins ts) : ∃ s : Stmt Unit, Recognizes statement any ts (s.move ·) := by
  cases ts with
  | nil => exact hbegins.elim
  | cons t ts =>
    refine ⟨.block ⟨t.span.start, Cursor.stopAfter t ts⟩ ss, ?_⟩
    have ht : t.kind = .leftBrace := List.mem_singleton.mp hbegins.1
    intro g fuel previous faults rest hrest
    cases fuel with
    | zero => exact .inl rfl
    | succ fuel =>
      have hblock := h g fuel previous faults rest hrest
      simp only [List.map_cons, List.cons_append, Cursor.last_cons] at hblock ⊢
      simp only [statement, peek_bind, Cursor.place_current, Token.relocate_kind, ht]
      refine Becomes.bind hblock ?_
      rw [lastStop_bind, Cursor.lastStop_place]
      exact becomes_refl _

/-! ## Loops with clauses -/

/-- What a `for` statement is given to begin with. -/
inductive Initial : List Token → Option (List (Stmt Unit)) → Prop where
  | absent {semi : Token} : semi.kind = .semicolon → Initial [semi] none
  | vars {ts : List Token} {ss : List (Stmt Unit)} : Phrase.vars.Begins ts →
    Recognizes varDeclarations any ts (Stmt.moveList · ss) → Initial ts (some ss)
  | expr {ts : List Token} {s : Stmt Unit} : Phrase.expr.Begins ts →
    Recognizes expressionStatement any ts (s.move ·) → Initial ts (some [s])

/-- An expression that may be left out. -/
inductive Optional : List Token → Option (Expr Unit) → Prop where
  | absent : Optional [] none
  | present {ts : List Token} {e : Expr Unit} : Phrase.expr.Begins ts →
    Recognizes expression (stops 6) ts (e.move ·) → Optional ts (some e)

/-- The statement that a `for` loop stands for. -/
def forLoop (span place : Span) (init : Option (List (Stmt Unit))) (test update : Option (Expr Unit))
    (body : Stmt Unit) : Stmt Unit :=
  let loop : Stmt Unit := .loop span (test.getD (.literal place (.bool true))) body update false
  match init with
  | none => loop
  | some ss => .block span (ss ++ [loop])

theorem move_forLoop (g : Position → Position) (span place : Span)
    (init : Option (List (Stmt Unit))) (test update : Option (Expr Unit)) (body : Stmt Unit) :
    (forLoop span place init test update body).move g =
      forLoop (span.move g) (place.move g) (init.map (Stmt.moveList g)) (test.map (·.move g))
        (update.map (·.move g)) (body.move g) := by
  have hloop : ∀ condition : Expr Unit, (Stmt.loop span condition body update false).move g =
      .loop (span.move g) (condition.move g) (body.move g) (update.map (·.move g)) false := by
    intro condition
    cases update <;> rfl
  have htest : (test.getD (.literal place (.bool true))).move g =
      (test.map (·.move g)).getD (.literal (place.move g) (.bool true)) := by
    cases test <;> rfl
  cases init with
  | none => simp only [forLoop, hloop, htest, Option.map_none]
  | some ss =>
    simp only [forLoop, Stmt.relocate, Stmt.relocateList_append, Stmt.relocateList, hloop, htest,
      Option.map_some]

section

variable {g : Position → Position} {fuel : Nat} {previous : Option Token}
  {faults : List Diagnostic} {rest : List Token} {r : Parsed β}

/-- The first clause of a `for` statement. -/
theorem Initial.becomes {init : Option (List (Stmt Unit))}
    {f : Option (List (Stmt Unit)) → Parser β} (h : Initial ts init) (hrest : rest ≠ [])
    (hf : (f (init.map (Stmt.moveList g))
      (.place (Cursor.last previous (ts.map (·.move g))) faults rest)).Becomes r) :
    ((accepts .semicolon >>= fun none? => sees .kwVar >>= fun vars? =>
      if none? = true then pure none >>= f
      else if vars? = true then varDeclarations fuel >>= fun ss => pure (some ss) >>= f
      else expressionStatement fuel >>= fun s => pure (some [s]) >>= f)
        (.place previous faults (ts.map (·.move g) ++ rest))).Becomes r := by
  cases h with
  | absent hsemi =>
    simp only [List.map_cons, List.map_nil, List.cons_append, List.nil_append]
    rw [accepts_bind hsemi (by decide) hrest, sees_bind, if_pos rfl]
    exact hf
  | vars hbegins h =>
    have hvar : (Cursor.place previous faults (ts.map (·.move g) ++ rest)).current.kind =
        .kwVar := List.mem_singleton.mp (begins_current g hbegins)
    obtain ⟨u, us, hcons⟩ := List.exists_cons_of_ne_nil
      (List.append_ne_nil_of_right_ne_nil (ts.map (·.move g)) hrest)
    rw [hcons, Cursor.place_current] at hvar
    rw [hcons, not_accepts_bind .semicolon (by rw [hvar]; decide), sees_bind, Cursor.place_sees,
      decide_eq_true hvar, if_neg Bool.false_ne_true, if_pos rfl, ← hcons]
    exact h.bind (.of_ne_nil hrest) hf
  | expr hbegins h =>
    have hmem : (Cursor.place previous faults (ts.map (·.move g) ++ rest)).current.kind ∈
        Phrase.expr.starts := begins_current g hbegins
    obtain ⟨u, us, hcons⟩ := List.exists_cons_of_ne_nil
      (List.append_ne_nil_of_right_ne_nil (ts.map (·.move g)) hrest)
    rw [hcons, Cursor.place_current] at hmem
    have hsemi : u.kind ≠ .semicolon := fun hk => absurd (hk ▸ hmem) (by decide)
    rw [hcons, not_accepts_bind .semicolon hsemi, ← hcons,
      not_sees_bind .kwVar g hbegins (by decide), if_neg Bool.false_ne_true,
      if_neg Bool.false_ne_true]
    exact h.bind (.of_ne_nil hrest) hf

/-- A clause that may be left out before a token of some kind. -/
theorem Optional.becomes {clause : Option (Expr Unit)} {f : Option (Expr Unit) → Parser β}
    {t : Token} {k : Kind} (h : Optional ts clause) (ht : t.kind = k) (hk : k ∉ Phrase.expr.starts)
    (hstops : stops 6 k)
    (hf : (f (clause.map (·.move g)) (.place (Cursor.last previous (ts.map (·.move g))) faults
      (t.move g :: rest))).Becomes r) :
    ((sees k >>= fun none? => if none? = true then pure none >>= f
      else expression fuel >>= fun e => pure (some e) >>= f)
        (.place previous faults (ts.map (·.move g) ++ t.move g :: rest))).Becomes r := by
  cases h with
  | absent =>
    simp only [List.map_nil, List.nil_append]
    rw [sees_bind, Cursor.place_sees, Token.relocate_kind, decide_eq_true ht, if_pos rfl]
    exact hf
  | present hbegins h =>
    rw [not_sees_bind k g hbegins hk, if_neg Bool.false_ne_true]
    exact h.bind (.cons ht hstops) hf

end

theorem recognizes_for {keyword left semi right : Token} {is vs ws : List Token} {F : Kind → Bool}
    {init : Option (List (Stmt Unit))} {test update : Option (Expr Unit)} {body : Stmt Unit}
    (hkeyword : keyword.kind = .kwFor) (hleft : left.kind = .leftParen) (hinit : Initial is init)
    (htest : Optional vs test) (hsemi : semi.kind = .semicolon) (hupdate : Optional ws update)
    (hright : right.kind = .rightParen) (hbody : Recognizes statement F us (body.move ·)) :
    Recognizes statement F
      (keyword :: left :: (is ++ (vs ++ semi :: (ws ++ right :: us))))
      ((forLoop ⟨keyword.span.start, Cursor.stopAfter right us⟩ semi.span init test update
        body).move ·) := by
  refine @recognizes_by _ forStatement _ _ (fun g fuel previous faults rest => ?_) ?_
  · simp only [List.map_cons, List.cons_append, statement, peek_bind, Cursor.place_current,
      Token.relocate_kind, hkeyword]
  · intro g fuel previous faults rest hrest
    cases fuel with
    | zero => exact .inl rfl
    | succ fuel =>
      simp only [List.map_append, List.map_cons, List.append_assoc, List.cons_append,
        Cursor.last_append, Cursor.last_cons, move_forLoop]
      rw [forStatement, advance_bind (by rw [hkeyword]; decide) (by simp),
        expect_bind hleft (by decide) (by simp)]
      refine hinit.becomes (by simp) (htest.becomes hsemi (by decide) (by decide) ?_)
      dsimp only
      rw [expect_bind hsemi (by decide) (by simp)]
      refine hupdate.becomes hright (by decide) (by decide) ?_
      rw [expect_bind hright (by decide) (by simp [hrest.ne_nil])]
      refine hbody.bind hrest ?_
      simp only [lastStop_bind, Cursor.lastStop_place]
      cases init with
      | none => exact becomes_refl _
      | some ss => exact becomes_refl _

/-! ## Blocks and functions -/

theorem recognizes_block {left right : Token} {ss : List (Stmt Unit)}
    (hleft : left.kind = .leftBrace)
    (h : Recognizes blockItems (fun k => k == .rightBrace) ts (Stmt.moveList · ss))
    (hright : right.kind = .rightBrace) :
    Recognizes block any (left :: (ts ++ [right])) (Stmt.moveList · ss) := by
  intro g fuel previous faults rest hrest
  cases fuel with
  | zero => exact .inl rfl
  | succ fuel =>
    simp only [List.map_append, List.map_cons, List.map_nil, List.append_assoc, List.cons_append,
      List.nil_append, Cursor.last_append, Cursor.last_cons, Cursor.last_nil]
    rw [block, expect_bind hleft (by decide) (by simp)]
    refine h.bind (.cons hright (by decide)) ?_
    rw [expect_bind hright (by decide) hrest.ne_nil]
    exact becomes_refl _

/-- What is known of a declaration. -/
def DeclReadable (ts : List Token) : Prop :=
  Phrase.decl.Begins ts ∧
    ∃ ss : List (Stmt Unit), Recognizes declaration notElse ts (Stmt.moveList · ss)

theorem DeclReadable.follows {F : Kind → Bool} (g : Position → Position)
    (h : Repeated DeclReadable ts) {rest : List Token} (hF : ∀ k ∈ Phrase.decl.starts, F k)
    (hrest : Follows F rest) : Follows F (ts.map (·.move g) ++ rest) := by
  refine .repeated g h (fun us hus => ?_) hrest
  cases us with
  | nil => exact hus.1.elim
  | cons u us => exact hF _ hus.1.1

theorem recognizes_blockItems (h : Repeated DeclReadable ts) :
    ∃ ss : List (Stmt Unit),
      Recognizes blockItems (fun k => k == .rightBrace) ts (Stmt.moveList · ss) := by
  induction h with
  | nil =>
    refine ⟨[], fun g fuel previous faults rest hrest => ?_⟩
    cases fuel with
    | zero => exact .inl rfl
    | succ fuel =>
      obtain ⟨u, rest, rfl⟩ := List.exists_cons_of_ne_nil hrest.ne_nil
      have hu : u.kind = .rightBrace := eq_of_beq hrest
      simp only [List.map_nil, List.nil_append]
      simp only [blockItems, sees_bind, atEnd_bind, Cursor.place_sees, hu, decide_true,
        Bool.true_or, ↓reduceIte]
      exact becomes_refl _
  | @cons ts us hts hus ih =>
    obtain ⟨ss, hss⟩ := hts.2
    obtain ⟨more, hmore⟩ := ih
    refine ⟨ss ++ more, fun g fuel previous faults rest hrest => ?_⟩
    cases fuel with
    | zero => exact .inl rfl
    | succ fuel =>
      simp only [List.map_append, List.append_assoc, Cursor.last_append, Stmt.relocateList_append]
      rw [blockItems, not_sees_bind .rightBrace g hts.1 (by decide),
        not_atEnd_bind g hts.1 (by decide), if_neg (by decide)]
      refine hss.bind (DeclReadable.follows g hus (by decide) (hrest.mono fun k hk => ?_)) ?_
      · rw [eq_of_beq hk]; decide
      · exact hmore.bind hrest (becomes_refl _)

/-! ## Declarations -/

theorem Becomes.declaration {fuel : Nat} {c c' : Cursor} {ss : List (Stmt Unit)}
    (h : (if c.sees .kwClass then (classDeclaration fuel >>= fun s => pure [s]) c
      else if c.sees .kwFun && c.nextKind = .identifier then
        (functionDeclaration fuel >>= fun s => pure [s]) c
      else if c.sees .kwVar then varDeclarations fuel c
      else (statement fuel >>= fun s => pure [s]) c).Becomes (.ok ss c')) :
    (declaration (fuel + 1) c).Becomes (.ok ss c') := by
  rw [Parser.declaration]
  exact Becomes.recovering h

theorem recognizes_declareFunction {keyword name : Token} {params : List Token}
    {body : List (Stmt Unit)} (hkeyword : keyword.kind = .kwFun) (hname : name.kind = .identifier)
    (hparams : Recognizes parameters any ts (fun g => params.map (·.move g)))
    (hbegins : Phrase.block.Begins us)
    (hbody : Recognizes block any us (Stmt.moveList · body)) :
    ∃ ss : List (Stmt Unit), Recognizes declaration any (keyword :: name :: (ts ++ us))
      (Stmt.moveList · ss) := by
  refine ⟨[.declareFunction (.mk ⟨keyword.span.start, Cursor.stopAfter name (ts ++ us)⟩ name
    (.mk ⟨keyword.span.start, Cursor.stopAfter name (ts ++ us)⟩ keyword params body false))], ?_⟩
  intro g fuel previous faults rest hrest
  cases fuel with
  | zero => exact .inl rfl
  | succ fuel =>
    simp only [List.map_append, List.map_cons, List.append_assoc, List.cons_append,
      Cursor.last_cons]
    refine Becomes.declaration ?_
    rw [if_neg (by simp [hkeyword]), 
      if_pos (by simp [hkeyword, hname, Cursor.place, Cursor.sees, Cursor.nextKind])]
    cases fuel with
    | zero => exact .inl rfl
    | succ fuel =>
      refine Becomes.bind ?_ (becomes_refl _)
      rw [functionDeclaration, advance_bind (by rw [hkeyword]; decide) (by simp),
        expect_bind hname (by decide) (by simp [hrest.ne_nil])]
      refine hparams.bind (.phrase g hbegins (by decide)) (hbody.bind hrest ?_)
      rw [lastStop_bind, ← Cursor.last_append, ← List.map_append, Cursor.lastStop_place]
      exact becomes_refl _

/-- A method after the word `class`, if it has it. -/
def MemberReadable (ts : List Token) : Prop :=
  ∃ (us : List Token) (d : Declaration Unit), Phrase.Begins Kind.identifier us ∧
    Recognizes method any us (d.move ·) ∧ (ts = us ∨ ∃ t : Token, t.kind = .kwClass ∧ ts = t :: us)

theorem recognizes_method {name : Token} {params : List Token} {body : List (Stmt Unit)}
    (hname : name.kind = .identifier)
    (hparams : Recognizes parameters any ts (fun g => params.map (·.move g)))
    (hbegins : Phrase.params.Begins ts) (hbegins' : Phrase.block.Begins us)
    (hbody : Recognizes block any us (Stmt.moveList · body)) :
    ∃ d : Declaration Unit, Recognizes method any (name :: (ts ++ us)) (d.move ·) := by
  refine ⟨.mk ⟨name.span.start, Cursor.stopAfter name (ts ++ us)⟩ name
    (.mk ⟨name.span.start, Cursor.stopAfter name (ts ++ us)⟩ name params body false), ?_⟩
  intro g fuel previous faults rest hrest
  cases fuel with
  | zero => exact .inl rfl
  | succ fuel =>
    simp only [List.map_append, List.map_cons, List.append_assoc, List.cons_append,
      Cursor.last_cons]
    rw [method, expect_bind hname (by decide) (by simp [hrest.ne_nil])]
    have hsees : (Cursor.place (some (name.move g)) faults
        (ts.map (·.move g) ++ (us.map (·.move g) ++ rest))).sees .leftParen = true :=
      decide_eq_true (List.mem_singleton.mp (begins_current g hbegins))
    simp only [sees_bind, hsees, Bool.not_true, Bool.false_eq_true, ↓reduceIte]
    refine hparams.bind (.phrase g hbegins' (by decide)) (hbody.bind hrest ?_)
    rw [lastStop_bind, ← Cursor.last_append, ← List.map_append, Cursor.lastStop_place]
    exact becomes_refl _

theorem recognizes_getter {name : Token} {body : List (Stmt Unit)} (hname : name.kind = .identifier)
    (hbegins : Phrase.block.Begins us) (hbody : Recognizes block any us (Stmt.moveList · body)) :
    ∃ d : Declaration Unit, Recognizes method any (name :: us) (d.move ·) := by
  refine ⟨.mk ⟨name.span.start, Cursor.stopAfter name us⟩ name
    (.mk ⟨name.span.start, Cursor.stopAfter name us⟩ name [] body true), ?_⟩
  intro g fuel previous faults rest hrest
  cases fuel with
  | zero => exact .inl rfl
  | succ fuel =>
    simp only [List.map_cons, List.cons_append, Cursor.last_cons]
    rw [method, expect_bind hname (by decide) (by simp [hrest.ne_nil]),
      not_sees_bind .leftParen g hbegins (by decide)]
    simp only [Bool.not_false, ↓reduceIte, pure_bind]
    refine hbody.bind hrest ?_
    rw [lastStop_bind, Cursor.lastStop_place]
    exact becomes_refl _

theorem recognizes_members (h : Repeated MemberReadable ts) :
    ∃ methods classMethods : List (Declaration Unit),
      Recognizes members (fun k => k == .rightBrace) ts
        (fun g => (Declaration.moveList g methods, Declaration.moveList g classMethods)) := by
  induction h with
  | nil =>
    refine ⟨[], [], fun g fuel previous faults rest hrest => ?_⟩
    cases fuel with
    | zero => exact .inl rfl
    | succ fuel =>
      obtain ⟨u, rest, rfl⟩ := List.exists_cons_of_ne_nil hrest.ne_nil
      have hu : u.kind = .rightBrace := eq_of_beq hrest
      simp only [List.map_nil, List.nil_append]
      simp only [members, sees_bind, atEnd_bind, Cursor.place_sees, hu, decide_true,
        Bool.true_or, ↓reduceIte]
      exact becomes_refl _
  | @cons ts vs hts _ ih =>
    obtain ⟨us, d, hbegins, hd, rfl | ⟨cls, hcls, rfl⟩⟩ := hts
    · obtain ⟨methods, classMethods, hms⟩ := ih
      refine ⟨d :: methods, classMethods, fun g fuel previous faults rest hrest => ?_⟩
      cases fuel with
      | zero => exact .inl rfl
      | succ fuel =>
        simp only [List.map_append, List.append_assoc, Cursor.last_append]
        rw [members, not_sees_bind .rightBrace g hbegins (by decide),
          not_atEnd_bind g hbegins (by decide), if_neg (by decide),
          not_accepts_phrase .kwClass g hbegins (by decide), if_neg (by decide)]
        refine hd.bind (.of_ne_nil (by simp [hrest.ne_nil])) (hms.bind hrest ?_)
        exact becomes_refl _
    · obtain ⟨methods, classMethods, hms⟩ := ih
      refine ⟨methods, d :: classMethods, fun g fuel previous faults rest hrest => ?_⟩
      cases fuel with
      | zero => exact .inl rfl
      | succ fuel =>
        simp only [List.map_append, List.map_cons, List.append_assoc, List.cons_append,
          Cursor.last_append, Cursor.last_cons]
        simp only [members, sees_bind, atEnd_bind, Cursor.place_sees, Cursor.place_atEnd,
          Token.relocate_kind, hcls, reduceCtorEq, decide_false, Bool.or_false, Bool.false_eq_true,
          ↓reduceIte]
        rw [accepts_bind hcls (by decide) (by simp [hrest.ne_nil]), if_pos rfl]
        refine hd.bind (.of_ne_nil (by simp [hrest.ne_nil])) (hms.bind hrest ?_)
        exact becomes_refl _

theorem recognizes_declareClass {keyword name left right : Token}
    {parent : Option (Token × Token)} (hkeyword : keyword.kind = .kwClass)
    (hname : name.kind = .identifier)
    (hparent : ∀ p ∈ parent, p.1.kind = .less ∧ p.2.kind = .identifier)
    (hleft : left.kind = .leftBrace) (h : Repeated MemberReadable ts)
    (hright : right.kind = .rightBrace) :
    ∃ ss : List (Stmt Unit), Recognizes declaration any
      (keyword :: name :: ((parent.elim [] fun p => [p.1, p.2]) ++ left :: (ts ++ [right])))
      (Stmt.moveList · ss) := by
  obtain ⟨methods, classMethods, hmembers⟩ := recognizes_members h
  refine ⟨[.declareClass ⟨keyword.span.start, right.span.stop⟩ name
    (parent.map fun p => (p.2, ())) methods classMethods], ?_⟩
  intro g fuel previous faults rest hrest
  cases fuel with
  | zero => exact .inl rfl
  | succ fuel =>
    simp only [List.map_append, List.map_cons, List.map_nil, List.append_assoc, List.cons_append,
      List.nil_append, Cursor.last_append, Cursor.last_cons, Cursor.last_nil]
    refine Becomes.declaration ?_
    rw [if_pos (by simp [hkeyword])]
    cases fuel with
    | zero => exact .inl rfl
    | succ fuel =>
      refine Becomes.bind ?_ (becomes_refl _)
      rw [classDeclaration, advance_bind (by rw [hkeyword]; decide) (by simp),
        expect_bind hname (by decide) (by simp)]
      cases parent with
      | none =>
        simp only [Option.elim_none, List.map_nil, List.nil_append]
        rw [not_accepts_bind .less (by simp [hleft]), if_neg (by decide), pure_bind]
        rw [expect_bind hleft (by decide) (by simp)]
        refine hmembers.bind (.cons hright (by decide)) ?_
        rw [expect_bind hright (by decide) hrest.ne_nil, lastStop_bind, Cursor.lastStop_token]
        exact becomes_refl _
      | some p =>
        obtain ⟨hless, hsuper⟩ := hparent p rfl
        simp only [Option.elim_some, List.map_cons, List.map_nil, List.cons_append,
          List.nil_append]
        rw [accepts_bind hless (by decide) (by simp), if_pos rfl,
          expect_bind hsuper (by decide) (by simp), pure_bind]
        rw [expect_bind hleft (by decide) (by simp)]
        refine hmembers.bind (.cons hright (by decide)) ?_
        rw [expect_bind hright (by decide) hrest.ne_nil, lastStop_bind, Cursor.lastStop_token]
        exact becomes_refl _

theorem recognizes_declareVars {ss : List (Stmt Unit)}
    (h : Recognizes varDeclarations any ts (Stmt.moveList · ss)) (hbegins : Phrase.vars.Begins ts) :
    Recognizes declaration any ts (Stmt.moveList · ss) := by
  intro g fuel previous faults rest hrest
  cases fuel with
  | zero => exact .inl rfl
  | succ fuel =>
    refine Becomes.declaration ?_
    have hvar : (Cursor.place previous faults (ts.map (·.move g) ++ rest)).current.kind =
        .kwVar := List.mem_singleton.mp (begins_current g hbegins)
    rw [if_neg (by simp [Cursor.sees, hvar]), if_neg (by simp [Cursor.sees, hvar]),
      if_pos (by simp [Cursor.sees, hvar])]
    exact h g fuel previous faults rest hrest

/-- A function literal that begins a statement is not taken for a declaration: it has no name. -/
theorem recognizes_declareStatement {F : Kind → Bool} {s : Stmt Unit}
    (h : Recognizes statement F ts (s.move ·)) (hbegins : Phrase.stmt.Begins ts) :
    Recognizes declaration F ts (Stmt.moveList · [s]) := by
  intro g fuel previous faults rest hrest
  cases fuel with
  | zero => exact .inl rfl
  | succ fuel =>
    refine Becomes.declaration ?_
    have hmem := @begins_current _ previous faults _ rest g hbegins
    have hother : ∀ k ∈ Phrase.stmt.starts, k ≠ .kwClass ∧ k ≠ .kwVar := by decide
    obtain ⟨hclass, hvar⟩ := hother _ hmem
    have hfun : ¬ ((Cursor.place previous faults (ts.map (·.move g) ++ rest)).sees .kwFun &&
        decide ((Cursor.place previous faults (ts.map (·.move g) ++ rest)).nextKind =
          .identifier)) = true := by
      cases ts with
      | nil => exact hbegins.elim
      | cons t ts =>
        intro hboth
        obtain ⟨hkw, hnext⟩ := Bool.and_eq_true_iff.mp hboth
        obtain ⟨u, us, rfl, hu⟩ := hbegins.2 (of_decide_eq_true hkw) nofun
        have hident : u.kind = .identifier := of_decide_eq_true hnext
        rw [hu] at hident
        cases hident
    rw [if_neg (by simpa [Cursor.sees] using hclass), if_neg hfun,
      if_neg (by simpa [Cursor.sees] using hvar)]
    exact h.bind hrest (becomes_refl _)

end

end Parser

end Scriptlet

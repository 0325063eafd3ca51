import Scriptlet.Proofs.Tree.Completeness

/-!
# The operand of a statement that prints

An expression may stand alone, up to the end of the input, or as the operand of a statement that
prints, up to a semicolon. The readers of expressions take neither of the two, so they do the same
in both places, also where the expression is wrong: they go on abreast (`Parser.Abreast`). What is
read is the same expression, and there are as many faults, but a fault at the end of the expression
is told in another way (`PrintsTokens.parseProgram`).
-/

namespace Scriptlet

/-- A finding without its place; if it is a fault of syntax, also without its code, its message and
the text of its token. -/
def Diagnostic.outline (d : Diagnostic) : Diagnostic :=
  if d.code.take 2 = ("E2" : Text) then
    { d with span := .nowhere, code := [], message := [], lexeme := [] }
  else { d with span := .nowhere }

theorem SyntaxFault.code_take (f : SyntaxFault) : f.code.take 2 = ("E2" : Text) := by
  cases f with
  | _ => rfl

theorem SyntaxFault.outline_report (f f' : SyntaxFault) (t t' : Token) :
    (f.report t).outline = (f'.report t').outline :=
  (if_pos f.code_take).trans (if_pos f'.code_take).symm

/-- A token inside an expression without function literals. -/
def Token.IsInner (t : Token) : Prop :=
  t.kind ≠ .endOfInput ∧ t.kind ≠ .semicolon ∧ Cursor.beginsStatement t.kind = false

namespace Cursor

/-- Two places in the same expression: one ends with the input, and the other was moved and ends
with a semicolon. -/
structure Abreast (g : Position → Position) (c c' : Cursor) : Prop where
  tokens : ∃ ts last semi last', (∀ t ∈ ts, t.IsInner) ∧ last.kind = .endOfInput ∧
    semi.kind = .semicolon ∧ last'.kind = .endOfInput ∧ c.tokens = ts ++ [last] ∧
    c'.tokens = ts.map (·.move g) ++ [semi, last']
  faults : c'.faults.map Diagnostic.outline = c.faults.map Diagnostic.outline

/-- The place after a token. -/
theorem advance_eq {c : Cursor} {t u : Token} {us : List Token} (h : c.tokens = t :: u :: us)
    (ht : t.kind ≠ .endOfInput) : c.advance = ⟨some t, u, us, c.faults⟩ := by
  obtain ⟨rfl, hus⟩ := List.cons.inj h
  unfold advance
  rw [if_neg (by simpa [atEnd] using ht), hus]

/-- After a fault, what is inside the expression is skipped up to the semicolon. -/
theorem skip_inner {faults : List Diagnostic} {ts rest : List Token} {semi next : Token}
    (hts : ∀ t ∈ ts, t.IsInner) (hsemi : semi.kind = .semicolon) (previous : Option Token)
    (hprevious : ¬ previous.any fun t => t.kind = .semicolon) {current : Token}
    {following : List Token} (h : current :: following = ts ++ semi :: next :: rest) :
    skip faults previous current following = ⟨some semi, next, rest, faults⟩ := by
  induction ts generalizing previous current following with
  | nil =>
    cases h
    rw [skip, if_neg (by simp [hsemi, beginsStatement, hprevious])]
    cases rest with
    | nil => rfl
    | cons u us => rw [skip, if_pos (by simp [hsemi])]
  | cons t ts ih =>
    obtain ⟨rfl, rfl⟩ := List.cons.inj h
    rw [List.forall_mem_cons] at hts
    obtain ⟨⟨hend, hne, hbegins⟩, hts⟩ := hts
    obtain ⟨u, us, hus⟩ : ∃ u us, ts ++ semi :: next :: rest = u :: us :=
      List.exists_cons_of_ne_nil (by simp)
    rw [List.append_eq, hus, skip, if_neg (by simp [hend, hbegins, hprevious])]
    exact ih hts (some current) (by simpa using hne) hus.symm

namespace Abreast

variable {g : Position → Position} {c c' : Cursor}

theorem record (h : c.Abreast g c') (fault fault' : SyntaxFault) (t t' : Token) :
    (c.record fault t).Abreast g (c'.record fault' t') := by
  refine ⟨h.tokens, ?_⟩
  simp only [Cursor.record, List.map_cons, h.faults, fault'.outline_report fault t' t]

theorem current (h : c.Abreast g c') :
    (c.current.kind = .endOfInput ∧ c'.current.kind = .semicolon) ∨
      (c.current.IsInner ∧ c'.current = c.current.move g) := by
  obtain ⟨ts, last, semi, last', hts, hlast, hsemi, -, hc, hc'⟩ := h.tokens
  cases ts with
  | nil =>
    obtain ⟨rfl, -⟩ := List.cons.inj hc
    obtain ⟨rfl, -⟩ := List.cons.inj hc'
    exact .inl ⟨hlast, hsemi⟩
  | cons t ts =>
    obtain ⟨rfl, -⟩ := List.cons.inj hc
    obtain ⟨heq, -⟩ := List.cons.inj hc'
    exact .inr ⟨hts _ List.mem_cons_self, heq⟩

theorem advance (h : c.Abreast g c') (hinner : c.current.IsInner) :
    c.advance.Abreast g c'.advance := by
  obtain ⟨ts, last, semi, last', hts, hlast, hsemi, hlast', hc, hc'⟩ := h.tokens
  cases ts with
  | nil =>
    obtain ⟨rfl, -⟩ := List.cons.inj hc
    exact absurd hlast hinner.1
  | cons t ts =>
    rw [List.forall_mem_cons] at hts
    obtain ⟨u, us, hus⟩ : ∃ u us, ts ++ [last] = u :: us := List.exists_cons_of_ne_nil (by simp)
    obtain ⟨u', us', hus'⟩ : ∃ u us, ts.map (·.move g) ++ [semi, last'] = u :: us :=
      List.exists_cons_of_ne_nil (by simp)
    rw [List.cons_append, hus] at hc
    rw [List.map_cons, List.cons_append, hus'] at hc'
    rw [advance_eq hc hts.1.1, advance_eq hc' hts.1.1]
    exact ⟨⟨ts, last, semi, last', hts.2, hlast, hsemi, hlast', hus.symm, hus'.symm⟩, h.faults⟩

/-- After the expression come the semicolon and the end of the input. -/
theorem advance_atEnd (h : c.Abreast g c') (hend : c.current.kind = .endOfInput) :
    c'.advance.atEnd ∧ c'.advance.faults = c'.faults := by
  obtain ⟨ts, last, semi, last', hts, -, hsemi, hlast', hc, hc'⟩ := h.tokens
  cases ts with
  | nil =>
    rw [advance_eq hc' (by simp [hsemi])]
    exact ⟨decide_eq_true hlast', rfl⟩
  | cons t ts =>
    obtain ⟨rfl, -⟩ := List.cons.inj hc
    exact absurd hend (hts _ List.mem_cons_self).1

/-- After a fault, reading goes on at the end of the input. -/
theorem synchronize (h : c.Abreast g c') :
    c'.synchronize.atEnd ∧ c'.synchronize.faults = c'.faults := by
  obtain ⟨ts, last, semi, last', hts, -, hsemi, hlast', -, hc'⟩ := h.tokens
  unfold Cursor.synchronize
  cases ts with
  | nil =>
    rw [advance_eq hc' (by simp [hsemi])]
    exact ⟨decide_eq_true hlast', rfl⟩
  | cons t ts =>
    rw [List.forall_mem_cons] at hts
    obtain ⟨u, us, hus⟩ : ∃ u us, ts.map (·.move g) ++ [semi, last'] = u :: us :=
      List.exists_cons_of_ne_nil (by simp)
    rw [List.map_cons, List.cons_append, hus] at hc'
    have hinner : ∀ u ∈ ts.map (·.move g), u.IsInner := List.forall_mem_map.mpr hts.2
    rw [advance_eq hc' hts.1.1]
    dsimp only
    rw [skip_inner hinner hsemi _ (by simp [hts.1.2.1]) hus.symm]
    exact ⟨decide_eq_true hlast', rfl⟩

end Abreast

end Cursor

/-- Two attempts that end abreast, where `f` says what the second one makes of the same value. The
first one may lack fuel. -/
def Parsed.Abreast {α : Type} (g : Position → Position) (f : α → α) : Parsed α → Parsed α → Prop
  | .ok a c, .ok a' c' => a' = f a ∧ c.Abreast g c'
  | .failed c, .failed c' => c.Abreast g c'
  | .starved, _ => True
  | _, _ => False

namespace Parser

variable {α β : Type} {g : Position → Position} {f : α → α} {h : β → β} {t : Token}

/-- Two readers that end abreast wherever they begin abreast. -/
def Abreast (g : Position → Position) (f : α → α) (p p' : Parser α) : Prop :=
  ∀ c c', c.Abreast g c' → (p c).Abreast g f (p' c')

/-- Two readers that do so where the first one sees a token. -/
def AbreastAt (g : Position → Position) (t : Token) (f : α → α) (p p' : Parser α) : Prop :=
  ∀ c c', c.Abreast g c' → c.current = t → (p c).Abreast g f (p' c')

theorem Abreast.at {p p' : Parser α} (hp : Abreast g f p p') (t : Token) : AbreastAt g t f p p' :=
  fun c c' hc _ => hp c c' hc

theorem abreast_pure {a a' : α} (ha : a' = f a) : Abreast g f (pure a) (pure a') :=
  fun _ _ hc => ⟨ha, hc⟩

theorem Abreast.bind {p p' : Parser α} {k k' : α → Parser β} (hp : Abreast g f p p')
    (hk : ∀ a, Abreast g h (k a) (k' (f a))) : Abreast g h (p >>= k) (p' >>= k') := by
  intro c c' hc
  have hpc := hp c c' hc
  change (Parser.bind p k c).Abreast g h (Parser.bind p' k' c')
  unfold Parser.bind
  generalize p c = r at hpc
  generalize p' c' = r' at hpc
  cases r with
  | starved => trivial
  | failed c =>
    cases r' with
    | failed c' => exact hpc
    | ok | starved => exact hpc.elim
  | ok a c =>
    cases r' with
    | ok a' c' =>
      obtain ⟨rfl, hc⟩ := hpc
      exact hk a c c' hc
    | failed | starved => exact hpc.elim

theorem abreast_fail (fault fault' : SyntaxFault) (t t' : Token) :
    Abreast g f (fail fault t) (fail fault' t') :=
  fun _ _ hc => hc.record fault fault' t t'

theorem abreast_record (fault fault' : SyntaxFault) (t t' : Token) :
    Abreast g id (record fault t) (record fault' t') :=
  fun _ _ hc => ⟨rfl, hc.record fault fault' t t'⟩

/-- What is done with the next token. -/
theorem abreast_peek {k k' : Token → Parser α}
    (hend : ∀ t t' : Token, t.kind = .endOfInput → t'.kind = .semicolon →
      Abreast g f (k t) (k' t'))
    (hinner : ∀ t : Token, t.IsInner → AbreastAt g t f (k t) (k' (t.move g))) :
    Abreast g f (peek >>= k) (peek >>= k') := by
  intro c c' hc
  change (k c.current c).Abreast g f (k' c'.current c')
  obtain ⟨hkind, hkind'⟩ | ⟨hin, heq⟩ := hc.current
  · exact hend _ _ hkind hkind' c c' hc
  · rw [heq]
    exact hinner _ hin c c' hc rfl

theorem abreast_advance {k k' : Token → Parser α} (ht : t.IsInner)
    (hk : Abreast g f (k t) (k' (t.move g))) :
    AbreastAt g t f (advance >>= k) (advance >>= k') := by
  rintro c c' hc rfl
  change (k c.current c.advance).Abreast g f (k' c'.current c'.advance)
  obtain ⟨hkind, -⟩ | ⟨-, heq⟩ := hc.current
  · exact absurd hkind ht.1
  · rw [heq]
    exact hk _ _ (hc.advance ht)

section

variable {kind : Kind}

/-- Both see the same kinds, but for those of their ends. -/
theorem sees_abreast {c c' : Cursor} (hc : c.Abreast g c') (hend : kind ≠ .endOfInput)
    (hsemi : kind ≠ .semicolon) : c'.sees kind = c.sees kind := by
  unfold Cursor.sees
  obtain ⟨hkind, hkind'⟩ | ⟨-, heq⟩ := hc.current
  · rw [hkind, hkind', decide_eq_false hend.symm, decide_eq_false hsemi.symm]
  · rw [heq, Token.relocate_kind]

theorem abreast_sees (hend : kind ≠ .endOfInput) (hsemi : kind ≠ .semicolon) :
    Abreast g id (sees kind) (sees kind) :=
  fun _ _ hc => ⟨sees_abreast hc hend hsemi, hc⟩

theorem inner_of_sees {c c' : Cursor} (hc : c.Abreast g c') (hsees : c.sees kind)
    (hend : kind ≠ .endOfInput) : c.current.IsInner ∧ c'.current = c.current.move g := by
  refine hc.current.resolve_left fun ⟨hkind, _⟩ => hend ?_
  exact (of_decide_eq_true hsees).symm.trans hkind

theorem abreast_accepts (hend : kind ≠ .endOfInput) (hsemi : kind ≠ .semicolon) :
    Abreast g id (accepts kind) (accepts kind) := by
  intro c c' hc
  unfold accepts
  rw [sees_abreast hc hend hsemi]
  split
  · next hsees => exact ⟨rfl, hc.advance (inner_of_sees hc hsees hend).1⟩
  · exact ⟨rfl, hc⟩

theorem abreast_expect (hend : kind ≠ .endOfInput) (hsemi : kind ≠ .semicolon)
    (what : Expected) : Abreast g (Token.move g) (expect kind what) (expect kind what) := by
  intro c c' hc
  unfold expect
  rw [sees_abreast hc hend hsemi]
  split
  · next hsees =>
    obtain ⟨hinner, heq⟩ := inner_of_sees hc hsees hend
    exact ⟨heq, hc.advance hinner⟩
  · exact hc.record _ _ _ _

/-- A token that both see may be taken. -/
theorem abreast_sees_bind {k k' : Bool → Parser α} (hend : kind ≠ .endOfInput)
    (hsemi : kind ≠ .semicolon)
    (htrue : ∀ t : Token, t.IsInner → AbreastAt g t f (k true) (k' true))
    (hfalse : Abreast g f (k false) (k' false)) :
    Abreast g f (sees kind >>= k) (sees kind >>= k') := by
  intro c c' hc
  change (k (c.sees kind) c).Abreast g f (k' (c'.sees kind) c')
  rw [sees_abreast hc hend hsemi]
  cases hsees : c.sees kind with
  | true => exact htrue _ (inner_of_sees hc hsees hend).1 c c' hc rfl
  | false => exact hfalse c c' hc

end

/-! ## Readers of expressions -/

/-- The readers of expressions, with some fuel and with maybe more of it. -/
structure ExpressionsAbreast (g : Position → Position) (n n' : Nat) : Prop where
  expression : Abreast g (Expr.move g) (expression n) (expression n')
  commas : ∀ left, Abreast g (Expr.move g) (commas n left) (commas n' (left.move g))
  assignment : Abreast g (Expr.move g) (assignment n) (assignment n')
  ternary : Abreast g (Expr.move g) (ternary n) (ternary n')
  binary : ∀ power, Abreast g (Expr.move g) (binary n power) (binary n' power)
  operators : ∀ power left,
    Abreast g (Expr.move g) (operators n power left) (operators n' power (left.move g))
  unary : Abreast g (Expr.move g) (unary n) (unary n')
  trailing : Abreast g (Expr.move g) (trailing n) (trailing n')
  call : Abreast g (Expr.move g) (call n) (call n')
  callRest : ∀ callee, Abreast g (Expr.move g) (callRest n callee) (callRest n' (callee.move g))
  arguments : ∀ count, Abreast g (Expr.moveList g) (arguments n count) (arguments n' count)
  primary : Abreast g (Expr.move g) (primary n) (primary n')

theorem abreast_starve {p : Parser α} : Abreast g f starve p := fun _ _ _ => trivial

namespace ExpressionsAbreast

variable {n n' : Nat}

theorem zero (g : Position → Position) (n' : Nat) : ExpressionsAbreast g 0 n' := by
  constructor <;> intros <;> exact abreast_starve

theorem expressionStep (hr : ExpressionsAbreast g n n') :
    Abreast g (Expr.move g) (Parser.expression (n + 1)) (Parser.expression (n' + 1)) := by
  rw [Parser.expression, Parser.expression]
  exact hr.assignment.bind hr.commas

theorem commasStep (hr : ExpressionsAbreast g n n') (left : Expr Unit) :
    Abreast g (Expr.move g) (Parser.commas (n + 1) left)
      (Parser.commas (n' + 1) (left.move g)) := by
  rw [Parser.commas, Parser.commas]
  refine abreast_sees_bind (by decide) (by decide) (fun t ht => ?_) (abreast_pure rfl)
  refine abreast_advance ht (hr.assignment.bind fun right => ?_)
  have hmore := hr.commas (.binary ⟨left.span.start, right.span.stop⟩ left t right)
  simpa only [Expr.relocate, Span.move, Expr.relocate_span] using hmore

theorem assignmentStep (hr : ExpressionsAbreast g n n') :
    Abreast g (Expr.move g) (Parser.assignment (n + 1)) (Parser.assignment (n' + 1)) := by
  rw [Parser.assignment, Parser.assignment]
  refine hr.ternary.bind fun target => abreast_peek (fun t t' ht ht' => ?_) fun t ht => ?_
  · rw [ht, ht']
    exact abreast_pure rfl
  · rw [Token.relocate_kind]
    split
    · refine abreast_advance ht (hr.assignment.bind fun value => ?_)
      rw [move_assignment?]
      cases assignment? target t value with
      | some expr => exact abreast_pure rfl
      | none => exact (abreast_record _ _ _ _).bind fun _ => abreast_pure rfl
    · exact (abreast_pure rfl).at t

theorem ternaryStep (hr : ExpressionsAbreast g n n') :
    Abreast g (Expr.move g) (Parser.ternary (n + 1)) (Parser.ternary (n' + 1)) := by
  rw [Parser.ternary, Parser.ternary]
  refine (hr.binary 0).bind fun condition => (abreast_accepts (by decide) (by decide)).bind ?_
  rintro (_ | _)
  · exact abreast_pure rfl
  · refine hr.expression.bind fun onTrue => ?_
    refine (abreast_expect (by decide) (by decide) _).bind fun _ => ?_
    refine hr.ternary.bind fun onFalse => abreast_pure ?_
    simp only [Expr.relocate, Span.move, Expr.relocate_span]

theorem binaryStep (hr : ExpressionsAbreast g n n') (power : Nat) :
    Abreast g (Expr.move g) (Parser.binary (n + 1) power) (Parser.binary (n' + 1) power) := by
  rw [Parser.binary, Parser.binary]
  exact hr.unary.bind (hr.operators power)

theorem operatorsStep (hr : ExpressionsAbreast g n n') (power : Nat) (left : Expr Unit) :
    Abreast g (Expr.move g) (Parser.operators (n + 1) power left)
      (Parser.operators (n' + 1) power (left.move g)) := by
  rw [Parser.operators, Parser.operators]
  refine abreast_peek (fun t t' ht ht' => ?_) fun t ht => ?_
  · rw [ht, ht']
    exact abreast_pure rfl
  · rw [Token.relocate_kind]
    dsimp only
    split
    · exact (abreast_pure rfl).at t
    · refine abreast_advance ht ((hr.binary _).bind fun right => ?_)
      rw [← move_combine]
      exact hr.operators power _

theorem unaryStep (hr : ExpressionsAbreast g n n') :
    Abreast g (Expr.move g) (Parser.unary (n + 1)) (Parser.unary (n' + 1)) := by
  rw [Parser.unary, Parser.unary]
  refine abreast_peek (fun t t' ht ht' => ?_) fun t ht => ?_
  · rw [ht, ht']
    exact hr.trailing
  · rw [Token.relocate_kind]
    have hprefix : AbreastAt g t (Expr.move g)
        (do
          let op ← advance
          let operand ← Parser.unary n
          return .unary ⟨op.span.start, operand.span.stop⟩ op operand false)
        (do
          let op ← advance
          let operand ← Parser.unary n'
          return .unary ⟨op.span.start, operand.span.stop⟩ op operand false) := by
      refine abreast_advance ht (hr.unary.bind fun operand => abreast_pure ?_)
      simp only [Expr.relocate, Span.move, Expr.relocate_span, Token.relocate_span]
    split
    · exact hprefix
    · exact hprefix
    · exact hprefix
    · exact hprefix
    · exact hr.trailing.at t

theorem trailingStep (hr : ExpressionsAbreast g n n') :
    Abreast g (Expr.move g) (Parser.trailing (n + 1)) (Parser.trailing (n' + 1)) := by
  rw [Parser.trailing, Parser.trailing]
  refine hr.call.bind fun operand => abreast_peek (fun t t' ht ht' => ?_) fun t ht => ?_
  · rw [ht, ht']
    exact abreast_pure rfl
  · rw [Token.relocate_kind]
    split
    · refine abreast_advance ht (abreast_pure ?_)
      simp only [Expr.relocate, Span.move, Expr.relocate_span, Token.relocate_span]
    · exact (abreast_pure rfl).at t

theorem callStep (hr : ExpressionsAbreast g n n') :
    Abreast g (Expr.move g) (Parser.call (n + 1)) (Parser.call (n' + 1)) := by
  rw [Parser.call, Parser.call]
  exact hr.primary.bind hr.callRest

theorem callRestStep (hr : ExpressionsAbreast g n n') (callee : Expr Unit) :
    Abreast g (Expr.move g) (Parser.callRest (n + 1) callee)
      (Parser.callRest (n' + 1) (callee.move g)) := by
  rw [Parser.callRest, Parser.callRest]
  refine (abreast_accepts (by decide) (by decide)).bind fun opens => ?_
  cases opens with
  | true =>
    have hrest : ∀ args : List (Expr Unit), Abreast g (Expr.move g)
        (do
          let paren ← expect .rightParen .argumentsEnd
          Parser.callRest n (.call ⟨callee.span.start, paren.span.stop⟩ callee paren args))
        (do
          let paren ← expect .rightParen .argumentsEnd
          Parser.callRest n' (.call ⟨(callee.move g).span.start, paren.span.stop⟩ (callee.move g)
            paren (Expr.moveList g args))) := by
      intro args
      refine (abreast_expect (by decide) (by decide) _).bind fun paren => ?_
      have hmore := hr.callRest (.call ⟨callee.span.start, paren.span.stop⟩ callee paren args)
      simpa only [Expr.relocate, Span.move, Expr.relocate_span, Token.relocate_span] using hmore
    refine (abreast_sees (by decide) (by decide)).bind fun closes => ?_
    cases closes with
    | true => exact hrest []
    | false => exact (hr.arguments 0).bind hrest
  | false =>
    refine (abreast_accepts (by decide) (by decide)).bind fun dot => ?_
    cases dot with
    | true =>
      refine (abreast_expect (by decide) (by decide) _).bind fun name => ?_
      have hmore := hr.callRest (.get ⟨callee.span.start, name.span.stop⟩ callee name)
      simpa only [Expr.relocate, Span.move, Expr.relocate_span, Token.relocate_span] using hmore
    | false => exact abreast_pure rfl

theorem argumentsStep (hr : ExpressionsAbreast g n n') (count : Nat) :
    Abreast g (Expr.moveList g) (Parser.arguments (n + 1) count)
      (Parser.arguments (n' + 1) count) := by
  rw [Parser.arguments, Parser.arguments]
  have hrest : Abreast g (Expr.moveList g)
      (do
        let arg ← Parser.assignment n
        if ← accepts .comma then
          let args ← Parser.arguments n (count + 1)
          return arg :: args
        else return [arg])
      (do
        let arg ← Parser.assignment n'
        if ← accepts .comma then
          let args ← Parser.arguments n' (count + 1)
          return arg :: args
        else return [arg]) := by
    refine hr.assignment.bind fun arg => (abreast_accepts (by decide) (by decide)).bind ?_
    intro more
    cases more with
    | true => exact (hr.arguments (count + 1)).bind fun args => abreast_pure rfl
    | false => exact abreast_pure rfl
  split
  · refine abreast_peek (fun t t' _ _ => ?_) fun t _ => ?_
    · exact (abreast_record _ _ t t').bind fun _ => hrest
    · exact ((abreast_record _ _ t (t.move g)).bind fun _ => hrest).at t
  · exact hrest

theorem primaryStep (hr : ExpressionsAbreast g n n') :
    Abreast g (Expr.move g) (Parser.primary (n + 1)) (Parser.primary (n' + 1)) := by
  rw [Parser.primary, Parser.primary]
  refine abreast_peek (fun t t' ht ht' => ?_) fun t ht => ?_
  · rw [ht, ht']
    exact abreast_fail _ _ _ _
  · rw [Token.relocate_kind]
    split
    · exact abreast_advance ht (abreast_pure rfl)
    · exact abreast_advance ht (abreast_pure rfl)
    · exact abreast_advance ht (abreast_pure rfl)
    · exact abreast_advance ht (abreast_pure rfl)
    · exact abreast_advance ht (abreast_pure rfl)
    · exact abreast_advance ht (abreast_pure rfl)
    · exact abreast_advance ht (abreast_pure rfl)
    · refine abreast_advance ht ((abreast_expect (by decide) (by decide) _).bind fun _ => ?_)
      refine (abreast_expect (by decide) (by decide) _).bind fun method => abreast_pure ?_
      simp only [Expr.relocate, Span.move, Token.relocate_span]
    · refine abreast_advance ht (hr.expression.bind fun inner => ?_)
      refine (abreast_expect (by decide) (by decide) _).bind fun close => abreast_pure ?_
      simp only [Expr.relocate, Span.move, Token.relocate_span]
    · next hfun => exact absurd ht.2.2 (by rw [hfun]; decide)
    · exact (abreast_fail _ _ _ _).at t

theorem succ (hr : ExpressionsAbreast g n n') : ExpressionsAbreast g (n + 1) (n' + 1) where
  expression := hr.expressionStep
  commas := hr.commasStep
  assignment := hr.assignmentStep
  ternary := hr.ternaryStep
  binary := hr.binaryStep
  operators := hr.operatorsStep
  unary := hr.unaryStep
  trailing := hr.trailingStep
  call := hr.callStep
  callRest := hr.callRestStep
  arguments := hr.argumentsStep
  primary := hr.primaryStep

end ExpressionsAbreast

theorem expressionsAbreast (g : Position → Position) {n n' : Nat} (h : n ≤ n') :
    ExpressionsAbreast g n n' := by
  induction n generalizing n' with
  | zero => exact .zero g n'
  | succ n ih =>
    cases n' with
    | zero => exact absurd h (Nat.not_succ_le_zero n)
    | succ n' => exact (ih (Nat.le_of_succ_le_succ h)).succ

/-! ## Statements that print -/

section

variable {fuel : Nat} {keyword : Token} {c c₁ : Cursor}

/-- What comes after the keyword of a statement that prints. -/
def printOperand (fuel : Nat) (keyword : Token) : Parser (Stmt Unit) := do
  let value ← expression fuel
  let _ ← expect .semicolon .printEnd
  return .print ⟨keyword.span.start, ← lastStop⟩ keyword value

theorem bind_of_ok {p : Parser α} {k : α → Parser β} {a : α} (h : p c = .ok a c₁) :
    (p >>= k) c = k a c₁ := by
  change Parser.bind p k c = _
  rw [Parser.bind, h]

theorem bind_of_failed {p : Parser α} {k : α → Parser β} (h : p c = .failed c₁) :
    (p >>= k) c = .failed c₁ := by
  change Parser.bind p k c = _
  rw [Parser.bind, h]

theorem recovering_of_ok {p : Parser (List α)} {as : List α} (h : p c = .ok as c₁) :
    recovering p c = .ok as c₁ := by
  unfold recovering
  rw [h]

theorem recovering_of_failed {p : Parser (List α)} (h : p c = .failed c₁) :
    recovering p c = .ok [] c₁.synchronize := by
  unfold recovering
  rw [h]

theorem recovering_congr {p q : Parser (List α)} (h : p c = q c) :
    recovering p c = recovering q c := by
  unfold recovering
  rw [h]

theorem declaration_print (h : c.current.kind = .kwPrint) :
    declaration (fuel + 2) c =
      recovering (fun c => (printOperand fuel c.current >>= fun s => pure [s]) c.advance) c := by
  have hsees {kind : Kind} (hk : kind ≠ .kwPrint) : ¬ c.sees kind = true := by
    intro hkind
    exact hk ((of_decide_eq_true hkind).symm.trans h)
  have hstatement : statement (fuel + 1) c = printOperand fuel c.current c.advance := by
    simp only [statement, peek_bind, h]
    rfl
  have hfun : ¬ (c.sees .kwFun && c.nextKind = .identifier) = true := by
    rw [Bool.and_eq_true]
    exact fun hboth => hsees (by decide) hboth.1
  rw [declaration]
  refine recovering_congr ?_
  rw [if_neg (hsees (by decide)), if_neg hfun, if_neg (hsees (by decide))]
  change Parser.bind _ _ c = Parser.bind _ _ c.advance
  rw [Parser.bind, Parser.bind, hstatement]

/-- After the last declaration the end is reached. -/
theorem declarations_last {stmts : List (Stmt Unit)} (hstart : c.atEnd = false)
    (h : declaration (fuel + 1) c = .ok stmts c₁) (hend : c₁.atEnd) :
    declarations (fuel + 2) c = .ok stmts c₁ := by
  have hnone : declarations (fuel + 1) c₁ = .ok [] c₁ := by
    rw [declarations, atEnd_bind, hend]
    rfl
  rw [declarations, atEnd_bind, hstart]
  refine (bind_of_ok h).trans ((bind_of_ok hnone).trans ?_)
  exact congrArg (Parsed.ok · c₁) (List.append_nil stmts)

theorem printOperand_of_semicolon {e : Expr Unit} (h : expression fuel c = .ok e c₁)
    (hsemi : c₁.current.kind = .semicolon) (keyword : Token) :
    ∃ span, printOperand fuel keyword c = .ok (.print span keyword e) c₁.advance := by
  have hexpect : expect .semicolon .printEnd c₁ = .ok c₁.current c₁.advance :=
    if_pos (decide_eq_true hsemi)
  exact ⟨_, (bind_of_ok h).trans (bind_of_ok hexpect)⟩

theorem printOperand_of_other {e : Expr Unit} (h : expression fuel c = .ok e c₁)
    (hother : c₁.current.kind ≠ .semicolon) (keyword : Token) :
    printOperand fuel keyword c = .failed (c₁.record (.missing .printEnd) c₁.current) := by
  have hexpect : expect .semicolon .printEnd c₁ =
      .failed (c₁.record (.missing .printEnd) c₁.current) :=
    if_neg (by simpa [Cursor.sees] using hother)
  exact (bind_of_ok h).trans (bind_of_failed hexpect)

theorem declarations_of_ok {stmt : Stmt Unit} (hkeyword : c.current.kind = .kwPrint)
    (h : printOperand fuel c.current c.advance = .ok stmt c₁) (hend : c₁.atEnd) :
    declarations (fuel + 3) c = .ok [stmt] c₁ := by
  refine declarations_last (by simp [Cursor.atEnd, hkeyword]) ?_ hend
  rw [declaration_print hkeyword]
  exact recovering_of_ok (bind_of_ok h)

theorem declarations_of_failed (hkeyword : c.current.kind = .kwPrint)
    (h : printOperand fuel c.current c.advance = .failed c₁) (hend : c₁.synchronize.atEnd) :
    declarations (fuel + 3) c = .ok [] c₁.synchronize := by
  refine declarations_last (by simp [Cursor.atEnd, hkeyword]) ?_ hend
  rw [declaration_print hkeyword]
  exact recovering_of_failed (bind_of_failed h)

end

end Parser

/-- The tokens of an expression that stands alone, and those of a statement that prints it somewhere
else. -/
structure PrintsTokens (g : Position → Position) (tokens all : List Token) : Prop where
  exists_eq : ∃ ts last keyword semi last', (∀ t ∈ ts, t.IsInner) ∧ last.kind = .endOfInput ∧
    keyword.kind = .kwPrint ∧ semi.kind = .semicolon ∧ last'.kind = .endOfInput ∧
    tokens = ts ++ [last] ∧ all = keyword :: (ts.map (·.move g) ++ [semi]) ++ [last']

namespace PrintsTokens

variable {g : Position → Position} {tokens all : List Token}

theorem abreast (h : PrintsTokens g tokens all) : (Cursor.ofTokens all).current.kind = .kwPrint ∧
    (Cursor.ofTokens tokens).Abreast g (Cursor.ofTokens all).advance := by
  obtain ⟨ts, last, keyword, semi, last', hts, hlast, hkeyword, hsemi, hlast', rfl, rfl⟩ :=
    h.exists_eq
  have hne : keyword.kind ≠ .endOfInput := by
    rw [hkeyword]
    decide
  have hrest : ts.map (·.move g) ++ [semi] ++ [last'] = ts.map (·.move g) ++ [semi, last'] :=
    List.append_assoc ..
  rw [Cursor.ofTokens_concat hlast, Cursor.ofTokens_concat hlast', List.cons_append, hrest,
    Cursor.place_advance hne (by simp)]
  refine ⟨hkeyword, ⟨ts, last, semi, last', hts, hlast, hsemi, hlast', ?_, ?_⟩, ?_⟩
  · exact Cursor.place_tokens (by simp)
  · exact Cursor.place_tokens (by simp)
  · cases ts with
    | nil => rfl
    | cons t ts => rfl

theorem fuelFor (h : PrintsTokens g tokens all) :
    Parser.fuelFor all = Parser.fuelFor tokens + 29 + 3 := by
  obtain ⟨ts, last, keyword, semi, last', -, -, -, -, -, rfl, rfl⟩ := h.exists_eq
  simp only [Parser.fuelFor, List.length_cons, List.length_append, List.length_map,
    List.length_nil]
  omega

/-- What is read of an expression that stands alone is read of the operand of a statement that
prints, and the faults are the same, but for the way in which they are told. -/
theorem parseProgram (h : PrintsTokens g tokens all) :
    (parseProgram all).2.map Diagnostic.outline =
        (parseExpression tokens).2.map Diagnostic.outline ∧
      ∀ e, (parseExpression tokens).1 = some e →
        ∃ span keyword, (parseProgram all).1.stmts = [.print span keyword (e.move g)] := by
  obtain ⟨hkeyword, habreast⟩ := h.abreast
  have hprogram {stmts : List (Stmt Unit)} {c : Cursor}
      (hall : Parser.declarations (Parser.fuelFor tokens + 29 + 3) (.ofTokens all) = .ok stmts c) :
      (Scriptlet.parseProgram all).1.stmts = stmts ∧
        (Scriptlet.parseProgram all).2 = c.faults.reverse :=
    parseProgram_eq (h.fuelFor ▸ hall)
  -- reading goes abreast, and not for lack of fuel
  have hle : Parser.fuelFor tokens ≤ Parser.fuelFor tokens + 29 := Nat.le_add_right ..
  have hread := (Parser.expressionsAbreast g hle).expression _ _ habreast
  have hsound := Parser.sound_expression tokens
  unfold parseExpression
  cases hr : Parser.expression (Parser.fuelFor tokens) (.ofTokens tokens) with
  | starved =>
    rw [hr] at hsound
    exact hsound.elim
  | failed c =>
    cases hr' : Parser.expression (Parser.fuelFor tokens + 29) (Cursor.ofTokens all).advance with
    | failed c' =>
      rw [hr, hr'] at hread
      have hc : c.Abreast g c' := hread
      obtain ⟨hend, hsame⟩ := hc.synchronize
      have hall := Parser.declarations_of_failed hkeyword (Parser.bind_of_failed hr') hend
      refine ⟨?_, nofun⟩
      rw [(hprogram hall).2, hsame, List.map_reverse, List.map_reverse, hc.faults]
    | ok | starved =>
      rw [hr, hr'] at hread
      exact hread.elim
  | ok e c =>
    cases hr' : Parser.expression (Parser.fuelFor tokens + 29) (Cursor.ofTokens all).advance with
    | ok e' c' =>
      rw [hr, hr'] at hread
      obtain ⟨rfl, hc⟩ : e' = e.move g ∧ c.Abreast g c' := hread
      dsimp only
      obtain ⟨hend, hsemi⟩ | ⟨hinner, heq⟩ := hc.current
      · -- after the expression, one place is at the end and the other at the semicolon
        obtain ⟨span, hstmt⟩ := Parser.printOperand_of_semicolon hr' hsemi _
        obtain ⟨hend', hsame⟩ := hc.advance_atEnd hend
        have hlast : c.atEnd = true := decide_eq_true hend
        obtain ⟨hstmts, hfaults⟩ :=
          hprogram (Parser.declarations_of_ok hkeyword hstmt hend')
        rw [hfaults, hstmts, if_pos hlast, hsame, List.map_reverse, List.map_reverse, hc.faults]
        refine ⟨rfl, ?_⟩
        rintro _ ⟨⟩
        exact ⟨span, _, rfl⟩
      · -- both places see a token that is too much
        have hother : c'.current.kind ≠ .semicolon := by
          rw [heq]
          exact hinner.2.1
        have hfailed := Parser.printOperand_of_other hr' hother (Cursor.ofTokens all).current
        have hrecord := hc.record (.afterExpression c.current.lexeme) (.missing .printEnd)
          c.current c'.current
        obtain ⟨hend, hsame⟩ := hrecord.synchronize
        have hall := Parser.declarations_of_failed hkeyword hfailed hend
        have hmore : ¬ c.atEnd = true := fun h => hinner.1 (of_decide_eq_true h)
        rw [(hprogram hall).2, if_neg hmore, hsame, List.map_reverse, List.map_reverse,
          hrecord.faults]
        exact ⟨rfl, nofun⟩
    | failed | starved =>
      rw [hr, hr'] at hread
      exact hread.elim

end PrintsTokens

end Scriptlet

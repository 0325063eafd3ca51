import Scriptlet.Proofs.Tree.WellFormed
import Scriptlet.Tree.Parser

/-!
# What is asked of every tree that is read

The reader makes a tree node by node, from tokens and from parts that it read before. So what holds
of a node whenever it holds of its tokens and its parts holds of every tree that is read, with
faults or without. A `Requirement` says what is asked of tokens and of trees. There is a clause for
each way in which the reader makes a node (`Requirement.Closed`), with what the reader knows there:
the kinds of the tokens, and that the body of a loop and the choices of a branch declare nothing.

The functions of the reader are gone through once, by induction on their fuel (`Parser.readsTrees`),
and the results are `parseProgram_meets` and `parseExpression_meets`. What is asked of an expression
may also depend on the level it was read at. Then only the clauses about statements apply
(`Requirement.ClosedStatements`), and `Parser.ReadsStatements.succ` goes on from any proof about
expressions.
-/

namespace Scriptlet

/-- What is asked of tokens, of faults and of what is read. Every fault that the reader reports is
as required. -/
structure Requirement where
  token : Token → Prop
  fault : Diagnostic → Prop
  expr : Expr Unit → Prop
  stmt : Stmt Unit → Prop
  method : Declaration Unit → Prop
  report : ∀ (f : SyntaxFault) (t : Token), fault (f.report t)

namespace Requirement

variable (R : Requirement)

/-- A token of a kind that is as required. -/
def TokenOf (kind : Kind) (t : Token) : Prop := t.kind = kind ∧ R.token t

def Names (ts : List Token) : Prop := ∀ t ∈ ts, R.TokenOf .identifier t

def Exprs (es : List (Expr Unit)) : Prop := ∀ e ∈ es, R.expr e

def Stmts (ss : List (Stmt Unit)) : Prop := ∀ s ∈ ss, R.stmt s

def Methods (ds : List (Declaration Unit)) : Prop := ∀ d ∈ ds, R.method d

/-- A statement that declares nothing. -/
def Plain (s : Stmt Unit) : Prop := R.stmt s ∧ s.declared = []

/-- The statements and methods that are made of parts as required are so themselves. -/
structure ClosedStatements : Prop where
  evaluate : ∀ {span : Span} {e : Expr Unit}, R.expr e → R.stmt (.evaluate span e)
  print : ∀ {span : Span} {keyword : Token} {e : Expr Unit}, R.TokenOf .kwPrint keyword →
    R.expr e → R.stmt (.print span keyword e)
  declareVar : ∀ {span : Span} {name : Token} {init : Option (Expr Unit)},
    R.TokenOf .identifier name → (∀ e ∈ init, R.expr e) → R.stmt (.declareVar span name init)
  block : ∀ {span : Span} {body : List (Stmt Unit)}, R.Stmts body → R.stmt (.block span body)
  branch : ∀ {span : Span} {condition : Expr Unit} {onTrue : Stmt Unit}
    {onFalse : Option (Stmt Unit)}, R.expr condition → R.Plain onTrue →
    (∀ s ∈ onFalse, R.Plain s) → R.stmt (.branch span condition onTrue onFalse)
  loop : ∀ {span : Span} {condition : Expr Unit} {body : Stmt Unit} {update : Option (Expr Unit)}
    {after : Bool}, R.expr condition → R.Plain body → (∀ e ∈ update, R.expr e) →
    R.stmt (.loop span condition body update after)
  /-- The condition of a loop that is given none. -/
  always : ∀ {span : Span}, R.expr (.literal span (.bool true))
  leave : ∀ {span : Span} {keyword : Token} {value : Option (Expr Unit)},
    R.TokenOf .kwReturn keyword → (∀ e ∈ value, R.expr e) → R.stmt (.leave span keyword value)
  breakLoop : ∀ {span : Span} {keyword : Token}, R.TokenOf .kwBreak keyword →
    R.stmt (.breakLoop span keyword)
  continueLoop : ∀ {span : Span} {keyword : Token}, R.TokenOf .kwContinue keyword →
    R.stmt (.continueLoop span keyword)
  declareFunction : ∀ {span : Span} {name keyword : Token} {params : List Token}
    {body : List (Stmt Unit)}, R.TokenOf .identifier name → R.TokenOf .kwFun keyword →
    R.Names params → R.Stmts body →
    R.stmt (.declareFunction (.mk span name (.mk span keyword params body false)))
  declareClass : ∀ {span : Span} {name : Token} {superclass : Option (Token × Unit)}
    {methods classMethods : List (Declaration Unit)}, R.TokenOf .identifier name →
    (∀ p ∈ superclass, R.TokenOf .identifier p.1) → R.Methods methods → R.Methods classMethods →
    R.stmt (.declareClass span name superclass methods classMethods)
  member : ∀ {span : Span} {name : Token} {params : List Token} {body : List (Stmt Unit)}
    {getter : Bool}, R.TokenOf .identifier name → R.Names params → (getter → params = []) →
    R.Stmts body → R.method (.mk span name (.mk span name params body getter))

/-- What is made of parts as required is so itself. -/
structure Closed : Prop extends R.ClosedStatements where
  never : ∀ {span : Span}, R.expr (.literal span (.bool false))
  nothing : ∀ {span : Span}, R.expr (.literal span .none)
  constant : ∀ {span : Span} {t : Token}, R.token t → R.expr (.literal span (t.literal.getD .none))
  name : ∀ {span : Span} {t : Token}, R.TokenOf .identifier t → R.expr (.name span t ())
  receiver : ∀ {span : Span} {t : Token}, R.TokenOf .kwThis t → R.expr (.receiver span t ())
  inherited : ∀ {span : Span} {keyword method : Token}, R.TokenOf .kwSuper keyword →
    R.TokenOf .identifier method → R.expr (.inherited span keyword method ())
  group : ∀ {span : Span} {e : Expr Unit}, R.expr e → R.expr (.group span e)
  lambda : ∀ {span : Span} {keyword : Token} {params : List Token} {body : List (Stmt Unit)},
    R.TokenOf .kwFun keyword → R.Names params → R.Stmts body →
    R.expr (.lambda (.mk span keyword params body false))
  call : ∀ {span : Span} {callee : Expr Unit} {paren : Token} {args : List (Expr Unit)},
    R.expr callee → R.TokenOf .rightParen paren → R.Exprs args →
    R.expr (.call span callee paren args)
  get : ∀ {span : Span} {object : Expr Unit} {name : Token}, R.expr object →
    R.TokenOf .identifier name → R.expr (.get span object name)
  unary : ∀ {span : Span} {op : Token} {operand : Expr Unit} {trailing : Bool},
    op.kind.isUnary → R.token op → R.expr operand → R.expr (.unary span op operand trailing)
  combine : ∀ {left right : Expr Unit} {op : Token}, R.expr left →
    0 < Parser.bindingPower op.kind → R.token op → R.expr right →
    R.expr (Parser.combine left op right)
  ternary : ∀ {span : Span} {condition onTrue onFalse : Expr Unit}, R.expr condition →
    R.expr onTrue → R.expr onFalse → R.expr (.ternary span condition onTrue onFalse)
  assignment? : ∀ {target value e : Expr Unit} {op : Token}, R.expr target →
    op.kind = .assign ∨ op.kind.isCompoundAssign → R.token op → R.expr value →
    Parser.assignment? target op value = some e → R.expr e
  comma : ∀ {span : Span} {left right : Expr Unit} {op : Token}, R.expr left →
    R.TokenOf .comma op → R.expr right → R.expr (.binary span left op right)

end Requirement

/-! ## Parts that may be absent -/

theorem forall_mem_none {α : Type} {Q : α → Prop} : ∀ a ∈ (none : Option α), Q a := by
  intro a ha
  cases ha

theorem forall_mem_some {α : Type} {Q : α → Prop} {a : α} (h : Q a) : ∀ b ∈ some a, Q b := by
  intro b hb
  cases hb
  exact h

/-! ## Places -/

/-- A place where tokens and faults are as required. -/
structure Cursor.Meets (R : Requirement) (c : Cursor) : Prop where
  current : R.token c.current
  following : ∀ t ∈ c.following, R.token t
  faults : ∀ d ∈ c.faults, R.fault d

namespace Cursor.Meets

variable {R : Requirement} {c : Cursor}

theorem ofTokens {tokens : List Token} (h : ∀ t ∈ tokens, R.token t)
    (hend : R.token .missingEnd) : (Cursor.ofTokens tokens).Meets R := by
  have hall : ∀ t ∈ tokens ++ [Token.missingEnd], R.token t := by
    intro t ht
    rcases List.mem_append.mp ht with ht | ht
    · exact h t ht
    · rw [List.mem_singleton.mp ht]
      exact hend
  unfold Cursor.ofTokens
  dsimp only
  split
  · exact ⟨hend, List.forall_mem_nil _, List.forall_mem_nil _⟩
  · next t rest heq =>
    have hmem : ∀ u ∈ t :: rest, u ∈ tokens ++ [Token.missingEnd] := by
      intro u hu
      rw [← heq] at hu
      split at hu
      · exact List.mem_append_left _ hu
      · exact hu
    exact ⟨hall t (hmem t List.mem_cons_self),
      fun u hu => hall u (hmem u (List.mem_cons_of_mem _ hu)), List.forall_mem_nil _⟩

theorem record (h : c.Meets R) (fault : SyntaxFault) (token : Token) :
    (c.record fault token).Meets R :=
  ⟨h.current, h.following, List.forall_mem_cons.mpr ⟨R.report fault token, h.faults⟩⟩

theorem advance (h : c.Meets R) : c.advance.Meets R := by
  unfold Cursor.advance
  split
  · exact h
  · split
    · exact h
    · next t rest heq =>
      have hfollowing := h.following
      rw [heq, List.forall_mem_cons] at hfollowing
      exact ⟨hfollowing.1, hfollowing.2, h.faults⟩

theorem skip {faults : List Diagnostic} {previous : Option Token} {current : Token}
    {following : List Token} (h : (⟨previous, current, following, faults⟩ : Cursor).Meets R) :
    (Cursor.skip faults previous current following).Meets R := by
  induction following generalizing previous current with
  | nil => exact h
  | cons next rest ih =>
    unfold Cursor.skip
    split
    · exact h
    · have hfollowing := List.forall_mem_cons.mp h.following
      exact ih ⟨hfollowing.1, hfollowing.2, h.faults⟩

theorem synchronize (h : c.Meets R) : c.synchronize.Meets R := skip h.advance

end Cursor.Meets

/-! ## Readers -/

/-- What holds of an attempt to read something where tokens and faults are as required. -/
def Parsed.Meets {α : Type} (R : Requirement) (Q : α → Prop) : Parsed α → Prop
  | .ok a c => Q a ∧ c.Meets R
  | .failed c => c.Meets R
  | .starved => True

namespace Parser

variable {α β : Type} {R : Requirement}

/-- A reader that makes something with a property where tokens and faults are as required. -/
def Yields (R : Requirement) (p : Parser α) (Q : α → Prop) : Prop :=
  ∀ c : Cursor, c.Meets R → (p c).Meets R Q

/-- The same where the token to be read next is known. -/
def YieldsAt (R : Requirement) (t : Token) (p : Parser α) (Q : α → Prop) : Prop :=
  ∀ c : Cursor, c.current = t → c.Meets R → (p c).Meets R Q

section

variable {Q : α → Prop} {S : β → Prop} {p : Parser α} {f : α → Parser β} {t : Token}

theorem Yields.at (hp : p.Yields R Q) (t : Token) : p.YieldsAt R t Q := fun c _ => hp c

theorem yields_at (hp : ∀ t, R.token t → p.YieldsAt R t Q) : p.Yields R Q :=
  fun c hc => hp c.current hc.current c rfl hc

theorem YieldsAt.bind (hp : p.YieldsAt R t Q) (hf : ∀ a, Q a → (f a).Yields R S) :
    (p >>= f).YieldsAt R t S := by
  intro c ht hc
  change (Parser.bind p f c).Meets R S
  have hread := hp c ht hc
  unfold Parser.bind
  cases hpc : p c with
  | ok a c' => rw [hpc] at hread; exact hf a hread.1 c' hread.2
  | failed c' => rw [hpc] at hread; exact hread
  | starved => trivial

/-- Readers in a row. -/
theorem Yields.bind (hp : p.Yields R Q) (hf : ∀ a, Q a → (f a).Yields R S) :
    (p >>= f).Yields R S :=
  yields_at fun t _ => (hp.at t).bind hf

/-- A reader after which only the place matters. -/
theorem Yields.then (hp : p.Yields R Q) (hf : ∀ a, (f a).Yields R S) : (p >>= f).Yields R S :=
  hp.bind fun a _ => hf a

theorem yields_pure {a : α} (h : Q a) : (pure a : Parser α).Yields R Q := fun _ hc => ⟨h, hc⟩

theorem yields_starve : (starve : Parser α).Yields R Q := fun _ _ => trivial

theorem yields_fail (fault : SyntaxFault) (token : Token) :
    (fail fault token : Parser α).Yields R Q :=
  fun _ hc => hc.record fault token

theorem Yields.recovering {Q : List α → Prop} {p : Parser (List α)} (hp : p.Yields R Q)
    (hnil : Q []) : (recovering p).Yields R Q := by
  intro c hc
  have hread := hp c hc
  unfold Parser.recovering
  cases hpc : p c with
  | ok a c' => rw [hpc] at hread; exact hread
  | failed c' => rw [hpc] at hread; exact ⟨hnil, hread.synchronize⟩
  | starved => trivial

end

theorem yields_peek : peek.Yields R R.token := fun _ hc => ⟨hc.current, hc⟩

theorem yields_sees (kind : Kind) : (sees kind).Yields R fun _ => True := fun _ hc => ⟨trivial, hc⟩

theorem yields_atEnd : atEnd.Yields R fun _ => True := fun _ hc => ⟨trivial, hc⟩

theorem yields_lastStop : lastStop.Yields R fun _ => True := fun _ hc => ⟨trivial, hc⟩

theorem yields_advance : advance.Yields R fun _ => True := fun _ hc => ⟨trivial, hc.advance⟩

theorem yields_record (fault : SyntaxFault) (token : Token) :
    (record fault token).Yields R fun _ => True :=
  fun _ hc => ⟨trivial, hc.record fault token⟩

theorem yields_accepts (kind : Kind) : (accepts kind).Yields R fun _ => True := by
  intro c hc
  unfold accepts
  split
  · exact ⟨trivial, hc.advance⟩
  · exact ⟨trivial, hc⟩

/-- A token of the kind that was asked for. -/
theorem yields_expect (kind : Kind) (what : Expected) :
    (expect kind what).Yields R (R.TokenOf kind) := by
  intro c hc
  unfold expect
  split
  · next h => exact ⟨⟨of_decide_eq_true h, hc.current⟩, hc.advance⟩
  · exact hc.record _ _

section

variable {S : β → Prop} {t : Token}

/-- The token that is seen first and taken then is the same one. -/
theorem YieldsAt.peek {f : Token → Parser β} (hf : (f t).YieldsAt R t S) :
    (peek >>= f).YieldsAt R t S := by
  intro c ht hc
  change (f c.current c).Meets R S
  rw [ht]
  exact hf c ht hc

theorem YieldsAt.sees {f : Bool → Parser β} {kind : Kind}
    (hf : (f (t.kind = kind)).YieldsAt R t S) : (sees kind >>= f).YieldsAt R t S := by
  intro c ht hc
  change (f (c.current.kind = kind) c).Meets R S
  rw [ht]
  exact hf c ht hc

theorem YieldsAt.advance {f : Token → Parser β} (hf : (f t).Yields R S) :
    (advance >>= f).YieldsAt R t S := by
  intro c ht hc
  change (f c.current c.advance).Meets R S
  rw [ht]
  exact hf c.advance hc.advance

end

theorem peek_bind (f : Token → Parser β) (c : Cursor) : (peek >>= f) c = f c.current c := rfl

theorem sees_bind (kind : Kind) (f : Bool → Parser β) (c : Cursor) :
    (sees kind >>= f) c = f (c.sees kind) c :=
  rfl

/-! ### Parameters -/

theorem yields_parameterNames (fuel count : Nat) :
    (parameterNames fuel count).Yields R R.Names := by
  induction fuel generalizing count with
  | zero => exact yields_starve
  | succ fuel ih =>
    unfold parameterNames
    extract_lets rest
    have hrest (u : Unit) : (rest u).Yields R R.Names := by
      refine (yields_expect _ _).bind fun name hname => (yields_accepts _).then fun more => ?_
      split
      · refine (ih _).bind fun names hnames => yields_pure ?_
        exact List.forall_mem_cons.mpr ⟨hname, hnames⟩
      · exact yields_pure (List.forall_mem_singleton.mpr hname)
    split
    · exact yields_peek.then fun _ => (yields_record _ _).then hrest
    · exact hrest ()

theorem yields_parameters (fuel : Nat) : (parameters fuel).Yields R R.Names := by
  unfold parameters
  refine (yields_expect _ _).then fun _ => (yields_sees _).then fun none => ?_
  extract_lets rest
  have hrest (params : List Token) (hparams : R.Names params) : (rest params).Yields R R.Names :=
    (yields_expect _ _).then fun _ => yields_pure hparams
  split
  · exact hrest [] (List.forall_mem_nil _)
  · exact (yields_parameterNames fuel 0).bind hrest

/-! ### Statements -/

/-- With some fuel, declarations, statements and the expressions in them are read as required.
Statements that are no declarations declare nothing. -/
structure ReadsStatements (R : Requirement) (fuel : Nat) : Prop where
  declaration : (declaration fuel).Yields R R.Stmts
  classDeclaration : (classDeclaration fuel).Yields R R.stmt
  members : (members fuel).Yields R fun ms => R.Methods ms.1 ∧ R.Methods ms.2
  method : (method fuel).Yields R R.method
  functionDeclaration : ∀ t : Token, t.kind = .kwFun →
    (functionDeclaration fuel).YieldsAt R t R.stmt
  varDeclarations : (varDeclarations fuel).Yields R R.Stmts
  furtherVariables : (furtherVariables fuel).Yields R R.Stmts
  statement : (statement fuel).Yields R R.Plain
  block : (block fuel).Yields R R.Stmts
  blockItems : (blockItems fuel).Yields R R.Stmts
  expressionStatement : (expressionStatement fuel).Yields R R.Plain
  ifStatement : (ifStatement fuel).Yields R R.Plain
  whileStatement : (whileStatement fuel).Yields R R.Plain
  doStatement : (doStatement fuel).Yields R R.Plain
  forStatement : (forStatement fuel).Yields R R.Plain
  expression : (expression fuel).Yields R R.expr
  assignment : (assignment fuel).Yields R R.expr

theorem readsStatements_zero : ReadsStatements R 0 := by
  constructor
  case functionDeclaration => exact fun t _ => yields_starve.at t
  all_goals exact yields_starve

namespace ReadsStatements

variable {fuel : Nat}

theorem declaration_succ (h : ReadsStatements R fuel) :
    (Parser.declaration (fuel + 1)).Yields R R.Stmts := by
  refine Yields.recovering ?_ (List.forall_mem_nil _)
  intro c hc
  dsimp only
  split
  · exact (h.classDeclaration.bind fun s hs => yields_pure (List.forall_mem_singleton.mpr hs)) c hc
  · split
    · next hfun =>
      have hkind : c.current.kind = .kwFun := of_decide_eq_true (Bool.and_eq_true_iff.mp hfun).1
      exact ((h.functionDeclaration c.current hkind).bind fun s hs =>
        yields_pure (List.forall_mem_singleton.mpr hs)) c rfl hc
    · split
      · exact h.varDeclarations c hc
      · exact (h.statement.bind fun s hs => yields_pure (List.forall_mem_singleton.mpr hs.1)) c hc

theorem classDeclaration_succ (hR : R.ClosedStatements) (h : ReadsStatements R fuel) :
    (Parser.classDeclaration (fuel + 1)).Yields R R.stmt := by
  unfold Parser.classDeclaration
  refine yields_advance.then fun start => (yields_expect _ _).bind fun name hname => ?_
  refine (yields_accepts _).then fun derived => ?_
  extract_lets rest
  have hrest (superclass : Option (Token × Unit))
      (hsuper : ∀ p ∈ superclass, R.TokenOf .identifier p.1) :
      (rest superclass).Yields R R.stmt := by
    refine (yields_expect _ _).then fun _ => h.members.bind fun ms hms => ?_
    refine (yields_expect _ _).then fun _ => yields_lastStop.then fun _ => ?_
    exact yields_pure (hR.declareClass hname hsuper hms.1 hms.2)
  split
  · exact (yields_expect _ _).bind fun token htoken =>
      hrest (some (token, ())) (forall_mem_some htoken)
  · exact hrest none forall_mem_none

theorem members_succ (h : ReadsStatements R fuel) :
    (Parser.members (fuel + 1)).Yields R fun ms => R.Methods ms.1 ∧ R.Methods ms.2 := by
  unfold Parser.members
  refine (yields_sees _).then fun _ => yields_atEnd.then fun _ => ?_
  split
  · exact yields_pure ⟨List.forall_mem_nil _, List.forall_mem_nil _⟩
  · refine (yields_accepts _).then fun _ => ?_
    split
    · exact h.method.bind fun m hm => h.members.bind fun ms hms =>
        yields_pure ⟨hms.1, List.forall_mem_cons.mpr ⟨hm, hms.2⟩⟩
    · exact h.method.bind fun m hm => h.members.bind fun ms hms =>
        yields_pure ⟨List.forall_mem_cons.mpr ⟨hm, hms.1⟩, hms.2⟩

theorem method_succ (hR : R.ClosedStatements) (h : ReadsStatements R fuel) :
    (Parser.method (fuel + 1)).Yields R R.method := by
  unfold Parser.method
  refine (yields_expect _ _).bind fun name hname => (yields_sees _).then fun _ => ?_
  extract_lets getter rest
  have hrest (params : List Token) (hparams : R.Names params) (hgetter : getter → params = []) :
      (rest params).Yields R R.method :=
    h.block.bind fun body hbody => yields_lastStop.then fun _ =>
      yields_pure (hR.member hname hparams hgetter hbody)
  split
  · exact hrest [] (List.forall_mem_nil _) fun _ => rfl
  · next hg => exact (yields_parameters fuel).bind fun params hp => hrest params hp (absurd · hg)

theorem functionDeclaration_succ (hR : R.ClosedStatements) (h : ReadsStatements R fuel) (t : Token)
    (hkind : t.kind = .kwFun) : (Parser.functionDeclaration (fuel + 1)).YieldsAt R t R.stmt := by
  unfold Parser.functionDeclaration
  intro c ht hc
  have hstart : R.TokenOf .kwFun t := ⟨hkind, ht ▸ hc.current⟩
  refine YieldsAt.advance ((yields_expect _ _).bind fun name hname => ?_) c ht hc
  refine (yields_parameters fuel).bind fun params hparams => h.block.bind fun body hbody => ?_
  exact yields_lastStop.then fun _ => yields_pure (hR.declareFunction hname hstart hparams hbody)

theorem varDeclarations_succ (hR : R.ClosedStatements) (h : ReadsStatements R fuel) :
    (Parser.varDeclarations (fuel + 1)).Yields R R.Stmts := by
  unfold Parser.varDeclarations
  refine yields_advance.then fun start => (yields_expect _ _).bind fun name hname => ?_
  refine (yields_accepts _).then fun _ => ?_
  extract_lets rest
  have hrest (init : Option (Expr Unit)) (hinit : ∀ e ∈ init, R.expr e) :
      (rest init).Yields R R.Stmts := by
    refine yields_lastStop.then fun _ => h.furtherVariables.bind fun more hmore => ?_
    refine (yields_expect _ _).then fun _ => yields_pure ?_
    exact List.forall_mem_cons.mpr ⟨hR.declareVar hname hinit, hmore⟩
  split
  · exact h.assignment.bind fun value hvalue => hrest (some value) (forall_mem_some hvalue)
  · exact hrest none forall_mem_none

theorem furtherVariables_succ (hR : R.ClosedStatements) (h : ReadsStatements R fuel) :
    (Parser.furtherVariables (fuel + 1)).Yields R R.Stmts := by
  unfold Parser.furtherVariables
  refine (yields_accepts _).then fun _ => ?_
  split
  · refine (yields_expect _ _).bind fun name hname => (yields_expect _ _).then fun _ => ?_
    refine h.assignment.bind fun init hinit => yields_lastStop.then fun _ => ?_
    refine h.furtherVariables.bind fun more hmore => yields_pure ?_
    exact List.forall_mem_cons.mpr ⟨hR.declareVar hname (forall_mem_some hinit), hmore⟩
  · exact yields_pure (List.forall_mem_nil _)

theorem statement_succ (hR : R.ClosedStatements) (h : ReadsStatements R fuel) :
    (Parser.statement (fuel + 1)).Yields R R.Plain := by
  unfold Parser.statement
  refine yields_at fun keyword hkeyword => .peek ?_
  split
  · exact h.forStatement.at _
  · exact h.ifStatement.at _
  · next hk =>
    refine .advance (h.expression.bind fun value hvalue => (yields_expect _ _).then fun _ => ?_)
    exact yields_lastStop.then fun _ => yields_pure ⟨hR.print ⟨hk, hkeyword⟩ hvalue, rfl⟩
  · next hk =>
    refine .advance ((yields_sees _).then fun _ => ?_)
    extract_lets rest
    have hrest (value : Option (Expr Unit)) (hvalue : ∀ e ∈ value, R.expr e) :
        (rest value).Yields R R.Plain := by
      refine (yields_expect _ _).then fun _ => yields_lastStop.then fun _ => yields_pure ?_
      exact ⟨hR.leave ⟨hk, hkeyword⟩ hvalue, rfl⟩
    split
    · exact hrest none forall_mem_none
    · exact h.expression.bind fun value hvalue => hrest (some value) (forall_mem_some hvalue)
  · exact h.doStatement.at _
  · exact h.whileStatement.at _
  · next hk =>
    refine .advance ((yields_expect _ _).then fun _ => yields_lastStop.then fun _ => ?_)
    exact yields_pure ⟨hR.breakLoop ⟨hk, hkeyword⟩, rfl⟩
  · next hk =>
    refine .advance ((yields_expect _ _).then fun _ => yields_lastStop.then fun _ => ?_)
    exact yields_pure ⟨hR.continueLoop ⟨hk, hkeyword⟩, rfl⟩
  · refine .peek (Yields.at ?_ _)
    refine h.block.bind fun stmts hstmts => yields_lastStop.then fun _ => ?_
    exact yields_pure ⟨hR.block hstmts, rfl⟩
  · exact h.expressionStatement.at _

theorem block_succ (h : ReadsStatements R fuel) :
    (Parser.block (fuel + 1)).Yields R R.Stmts := by
  unfold Parser.block
  refine (yields_expect _ _).then fun _ => h.blockItems.bind fun stmts hstmts => ?_
  exact (yields_expect _ _).then fun _ => yields_pure hstmts

theorem blockItems_succ (h : ReadsStatements R fuel) :
    (Parser.blockItems (fuel + 1)).Yields R R.Stmts := by
  unfold Parser.blockItems
  refine (yields_sees _).then fun _ => yields_atEnd.then fun _ => ?_
  split
  · exact yields_pure (List.forall_mem_nil _)
  · refine h.declaration.bind fun stmts hstmts => h.blockItems.bind fun rest hrest => ?_
    exact yields_pure (List.forall_mem_append.mpr ⟨hstmts, hrest⟩)

theorem expressionStatement_succ (hR : R.ClosedStatements) (h : ReadsStatements R fuel) :
    (Parser.expressionStatement (fuel + 1)).Yields R R.Plain := by
  unfold Parser.expressionStatement
  refine h.expression.bind fun expr hexpr => (yields_expect _ _).then fun _ => ?_
  exact yields_lastStop.then fun _ => yields_pure ⟨hR.evaluate hexpr, rfl⟩

theorem ifStatement_succ (hR : R.ClosedStatements) (h : ReadsStatements R fuel) :
    (Parser.ifStatement (fuel + 1)).Yields R R.Plain := by
  unfold Parser.ifStatement
  refine yields_advance.then fun start => (yields_expect _ _).then fun _ => ?_
  refine h.expression.bind fun condition hcondition => (yields_expect _ _).then fun _ => ?_
  refine h.statement.bind fun onTrue hTrue => (yields_accepts _).then fun _ => ?_
  extract_lets rest
  have hrest (onFalse : Option (Stmt Unit)) (hFalse : ∀ s ∈ onFalse, R.Plain s) :
      (rest onFalse).Yields R R.Plain :=
    yields_lastStop.then fun _ => yields_pure ⟨hR.branch hcondition hTrue hFalse, rfl⟩
  split
  · exact h.statement.bind fun s hs => hrest (some s) (forall_mem_some hs)
  · exact hrest none forall_mem_none

theorem whileStatement_succ (hR : R.ClosedStatements) (h : ReadsStatements R fuel) :
    (Parser.whileStatement (fuel + 1)).Yields R R.Plain := by
  unfold Parser.whileStatement
  refine yields_advance.then fun start => (yields_expect _ _).then fun _ => ?_
  refine h.expression.bind fun condition hcondition => (yields_expect _ _).then fun _ => ?_
  refine h.statement.bind fun body hbody => yields_lastStop.then fun _ => ?_
  exact yields_pure ⟨hR.loop hcondition hbody forall_mem_none, rfl⟩

theorem doStatement_succ (hR : R.ClosedStatements) (h : ReadsStatements R fuel) :
    (Parser.doStatement (fuel + 1)).Yields R R.Plain := by
  unfold Parser.doStatement
  refine yields_advance.then fun start => h.statement.bind fun body hbody => ?_
  refine (yields_expect _ _).then fun _ => (yields_expect _ _).then fun _ => ?_
  refine h.expression.bind fun condition hcondition => (yields_expect _ _).then fun _ => ?_
  refine (yields_expect _ _).then fun _ => yields_lastStop.then fun _ => ?_
  exact yields_pure ⟨hR.loop hcondition hbody forall_mem_none, rfl⟩

theorem forStatement_succ (hR : R.ClosedStatements) (h : ReadsStatements R fuel) :
    (Parser.forStatement (fuel + 1)).Yields R R.Plain := by
  unfold Parser.forStatement
  refine yields_advance.then fun start => (yields_expect _ _).then fun _ => ?_
  refine (yields_accepts _).then fun _ => (yields_sees _).then fun _ => ?_
  extract_lets afterInit
  have hinit (init : Option (List (Stmt Unit))) (hinit : ∀ ss ∈ init, R.Stmts ss) :
      (afterInit init).Yields R R.Plain := by
    refine (yields_sees _).then fun _ => ?_
    extract_lets afterTest
    have htest (test : Option (Expr Unit)) (htest : ∀ e ∈ test, R.expr e) :
        (afterTest test).Yields R R.Plain := by
      refine (yields_expect _ _).then fun semicolon => (yields_sees _).then fun _ => ?_
      extract_lets condition afterUpdate
      have hcondition : R.expr condition := by
        cases test with
        | none => exact hR.always
        | some e => exact htest e rfl
      have hupdate (update : Option (Expr Unit)) (hupdate : ∀ e ∈ update, R.expr e) :
          (afterUpdate update).Yields R R.Plain := by
        refine (yields_expect _ _).then fun _ => h.statement.bind fun body hbody => ?_
        refine yields_lastStop.then fun stop => ?_
        have hloop : R.stmt (.loop ⟨start.span.start, stop⟩ condition body update false) :=
          hR.loop hcondition hbody hupdate
        cases init with
        | none => exact yields_pure ⟨hloop, rfl⟩
        | some stmts =>
          refine yields_pure ⟨hR.block (List.forall_mem_append.mpr ⟨hinit stmts rfl, ?_⟩), rfl⟩
          exact List.forall_mem_singleton.mpr hloop
      split
      · exact hupdate none forall_mem_none
      · exact h.expression.bind fun u hu => hupdate (some u) (forall_mem_some hu)
    split
    · exact htest none forall_mem_none
    · exact h.expression.bind fun t ht => htest (some t) (forall_mem_some ht)
  split
  · exact hinit none forall_mem_none
  · split
    · exact h.varDeclarations.bind fun ss hss => hinit (some ss) (forall_mem_some hss)
    · exact h.expressionStatement.bind fun s hs =>
        hinit (some [s]) (forall_mem_some (List.forall_mem_singleton.mpr hs.1))

/-- With more fuel, statements are read as required if expressions are. -/
theorem succ (hR : R.ClosedStatements) (h : ReadsStatements R fuel)
    (hexpression : (Parser.expression (fuel + 1)).Yields R R.expr)
    (hassignment : (Parser.assignment (fuel + 1)).Yields R R.expr) :
    ReadsStatements R (fuel + 1) where
  declaration := h.declaration_succ
  classDeclaration := h.classDeclaration_succ hR
  members := h.members_succ
  method := h.method_succ hR
  functionDeclaration := h.functionDeclaration_succ hR
  varDeclarations := h.varDeclarations_succ hR
  furtherVariables := h.furtherVariables_succ hR
  statement := h.statement_succ hR
  block := h.block_succ
  blockItems := h.blockItems_succ
  expressionStatement := h.expressionStatement_succ hR
  ifStatement := h.ifStatement_succ hR
  whileStatement := h.whileStatement_succ hR
  doStatement := h.doStatement_succ hR
  forStatement := h.forStatement_succ hR
  expression := hexpression
  assignment := hassignment

end ReadsStatements

/-! ### Expressions -/

/-- With some fuel, everything is read as required. -/
structure ReadsTrees (R : Requirement) (fuel : Nat) : Prop extends ReadsStatements R fuel where
  commas : ∀ left : Expr Unit, R.expr left → (commas fuel left).Yields R R.expr
  ternary : (ternary fuel).Yields R R.expr
  binary : ∀ power, (binary fuel power).Yields R R.expr
  operators : ∀ (power : Nat) (left : Expr Unit), R.expr left →
    (operators fuel power left).Yields R R.expr
  unary : (unary fuel).Yields R R.expr
  trailing : (trailing fuel).Yields R R.expr
  call : (call fuel).Yields R R.expr
  callRest : ∀ callee : Expr Unit, R.expr callee → (callRest fuel callee).Yields R R.expr
  arguments : ∀ count, (arguments fuel count).Yields R R.Exprs
  primary : (primary fuel).Yields R R.expr

theorem readsTrees_zero : ReadsTrees R 0 where
  toReadsStatements := readsStatements_zero
  commas _ _ := yields_starve
  ternary := yields_starve
  binary _ := yields_starve
  operators _ _ _ := yields_starve
  unary := yields_starve
  trailing := yields_starve
  call := yields_starve
  callRest _ _ := yields_starve
  arguments _ := yields_starve
  primary := yields_starve

namespace ReadsTrees

variable {fuel : Nat}

theorem commas_succ (hR : R.Closed) (h : ReadsTrees R fuel) (left : Expr Unit)
    (hleft : R.expr left) : (Parser.commas (fuel + 1) left).Yields R R.expr := by
  unfold Parser.commas
  refine yields_at fun op hop => .sees ?_
  split
  · next hcomma =>
    refine .advance (h.assignment.bind fun right hright => ?_)
    exact h.commas _ (hR.comma hleft ⟨of_decide_eq_true hcomma, hop⟩ hright)
  · exact (yields_pure hleft).at op

theorem assignment_succ (hR : R.Closed) (h : ReadsTrees R fuel) :
    (Parser.assignment (fuel + 1)).Yields R R.expr := by
  unfold Parser.assignment
  refine h.ternary.bind fun target htarget => yields_peek.bind fun op hop => ?_
  split
  · next hassign =>
    have hkind : op.kind = .assign ∨ op.kind.isCompoundAssign := by simpa using hassign
    refine yields_advance.then fun _ => h.assignment.bind fun value hvalue => ?_
    split
    · next hexpr => exact yields_pure (hR.assignment? htarget hkind hop hvalue hexpr)
    · exact (yields_record _ _).then fun _ => yields_pure htarget
  · exact yields_pure htarget

theorem ternary_succ (hR : R.Closed) (h : ReadsTrees R fuel) :
    (Parser.ternary (fuel + 1)).Yields R R.expr := by
  unfold Parser.ternary
  refine (h.binary 0).bind fun condition hcondition => (yields_accepts _).then fun _ => ?_
  split
  · refine h.expression.bind fun onTrue hTrue => (yields_expect _ _).then fun _ => ?_
    exact h.ternary.bind fun onFalse hFalse => yields_pure (hR.ternary hcondition hTrue hFalse)
  · exact yields_pure hcondition

theorem operators_succ (hR : R.Closed) (h : ReadsTrees R fuel) (power : Nat) (left : Expr Unit)
    (hleft : R.expr left) : (Parser.operators (fuel + 1) power left).Yields R R.expr := by
  unfold Parser.operators
  refine yields_peek.bind fun op hop => ?_
  dsimp only
  split
  · exact yields_pure hleft
  · next hbinds =>
    refine yields_advance.then fun _ => (h.binary _).bind fun right hright => ?_
    exact h.operators power _ (hR.combine hleft (by omega) hop hright)

theorem unary_succ (hR : R.Closed) (h : ReadsTrees R fuel) :
    (Parser.unary (fuel + 1)).Yields R R.expr := by
  unfold Parser.unary
  refine yields_at fun op hop => .peek ?_
  have hunary (hkind : op.kind.isUnary) : (do
      let op ← advance
      let operand ← Parser.unary fuel
      return .unary ⟨op.span.start, operand.span.stop⟩ op operand false :
        Parser (Expr Unit)).YieldsAt R op R.expr :=
    .advance (h.unary.bind fun operand hoperand => yields_pure (hR.unary hkind hop hoperand))
  split
  · next hk => exact hunary (by rw [hk]; rfl)
  · next hk => exact hunary (by rw [hk]; rfl)
  · next hk => exact hunary (by rw [hk]; rfl)
  · next hk => exact hunary (by rw [hk]; rfl)
  · exact h.trailing.at op

theorem trailing_succ (hR : R.Closed) (h : ReadsTrees R fuel) :
    (Parser.trailing (fuel + 1)).Yields R R.expr := by
  unfold Parser.trailing
  refine h.call.bind fun operand hoperand => yields_peek.bind fun op hop => ?_
  split
  · next hkind =>
    have hkind : op.kind.isUnary := by
      rcases Bool.or_eq_true_iff.mp hkind with hk | hk
      · rw [of_decide_eq_true hk]; rfl
      · rw [of_decide_eq_true hk]; rfl
    exact yields_advance.then fun _ => yields_pure (hR.unary hkind hop hoperand)
  · exact yields_pure hoperand

theorem callRest_succ (hR : R.Closed) (h : ReadsTrees R fuel) (callee : Expr Unit)
    (hcallee : R.expr callee) : (Parser.callRest (fuel + 1) callee).Yields R R.expr := by
  unfold Parser.callRest
  refine (yields_accepts _).then fun _ => ?_
  split
  · refine (yields_sees _).then fun _ => ?_
    extract_lets rest
    have hrest (args : List (Expr Unit)) (hargs : R.Exprs args) : (rest args).Yields R R.expr :=
      (yields_expect _ _).bind fun paren hparen => h.callRest _ (hR.call hcallee hparen hargs)
    split
    · exact hrest [] (List.forall_mem_nil _)
    · exact (h.arguments 0).bind hrest
  · refine (yields_accepts _).then fun _ => ?_
    split
    · exact (yields_expect _ _).bind fun name hname => h.callRest _ (hR.get hcallee hname)
    · exact yields_pure hcallee

theorem arguments_succ (h : ReadsTrees R fuel) (count : Nat) :
    (Parser.arguments (fuel + 1) count).Yields R R.Exprs := by
  unfold Parser.arguments
  extract_lets rest
  have hrest (u : Unit) : (rest u).Yields R R.Exprs := by
    refine h.assignment.bind fun arg harg => (yields_accepts _).then fun _ => ?_
    split
    · exact (h.arguments _).bind fun args hargs =>
        yields_pure (List.forall_mem_cons.mpr ⟨harg, hargs⟩)
    · exact yields_pure (List.forall_mem_singleton.mpr harg)
  split
  · exact yields_peek.then fun _ => (yields_record _ _).then hrest
  · exact hrest ()

theorem primary_succ (hR : R.Closed) (h : ReadsTrees R fuel) :
    (Parser.primary (fuel + 1)).Yields R R.expr := by
  unfold Parser.primary
  refine yields_peek.bind fun token htoken => ?_
  split
  · exact yields_advance.then fun _ => yields_pure hR.never
  · exact yields_advance.then fun _ => yields_pure hR.always
  · exact yields_advance.then fun _ => yields_pure hR.nothing
  · exact yields_advance.then fun _ => yields_pure (hR.constant htoken)
  · exact yields_advance.then fun _ => yields_pure (hR.constant htoken)
  · next hk => exact yields_advance.then fun _ => yields_pure (hR.name ⟨hk, htoken⟩)
  · next hk => exact yields_advance.then fun _ => yields_pure (hR.receiver ⟨hk, htoken⟩)
  · next hk =>
    refine yields_advance.then fun _ => (yields_expect _ _).then fun _ => ?_
    exact (yields_expect _ _).bind fun method hmethod =>
      yields_pure (hR.inherited ⟨hk, htoken⟩ hmethod)
  · refine yields_advance.then fun _ => h.expression.bind fun inner hinner => ?_
    exact (yields_expect _ _).then fun _ => yields_pure (hR.group hinner)
  · next hk =>
    refine yields_advance.then fun _ => (yields_parameters fuel).bind fun params hparams => ?_
    refine h.block.bind fun body hbody => yields_lastStop.then fun _ => ?_
    exact yields_pure (hR.lambda ⟨hk, htoken⟩ hparams hbody)
  · exact yields_fail _ _

theorem succ (hR : R.Closed) (h : ReadsTrees R fuel) : ReadsTrees R (fuel + 1) where
  toReadsStatements := h.toReadsStatements.succ hR.toClosedStatements
    (h.assignment.bind h.commas) (h.assignment_succ hR)
  commas := h.commas_succ hR
  ternary := h.ternary_succ hR
  binary power := h.unary.bind (h.operators power)
  operators := h.operators_succ hR
  unary := h.unary_succ hR
  trailing := h.trailing_succ hR
  call := h.primary.bind h.callRest
  callRest := h.callRest_succ hR
  arguments := h.arguments_succ
  primary := h.primary_succ hR

end ReadsTrees

/-- Whatever its fuel, the reader makes everything as required. -/
theorem readsTrees (hR : R.Closed) (fuel : Nat) : ReadsTrees R fuel := by
  induction fuel with
  | zero => exact readsTrees_zero
  | succ fuel ih => exact ih.succ hR

theorem yields_declarations (hR : R.Closed) (fuel : Nat) :
    (declarations fuel).Yields R R.Stmts := by
  induction fuel with
  | zero => exact yields_starve
  | succ fuel ih =>
    unfold declarations
    refine yields_atEnd.then fun _ => ?_
    split
    · exact yields_pure (List.forall_mem_nil _)
    · refine (readsTrees hR fuel).declaration.bind fun stmts hstmts => ih.bind fun rest hrest => ?_
      exact yields_pure (List.forall_mem_append.mpr ⟨hstmts, hrest⟩)

end Parser

/-! ## Sources -/

section

variable {R : Requirement} {tokens : List Token}

/-- If its tokens are as required, so are the statements of a program and what is found wrong. -/
theorem parseProgram_meets (hR : R.Closed) (h : ∀ t ∈ tokens, R.token t)
    (hend : R.token .missingEnd) :
    R.Stmts (parseProgram tokens).1.stmts ∧ ∀ d ∈ (parseProgram tokens).2, R.fault d := by
  have hread := Parser.yields_declarations hR (Parser.fuelFor tokens) _
    (Cursor.Meets.ofTokens h hend)
  unfold parseProgram
  dsimp only
  split
  · next heq =>
    rw [heq] at hread
    exact ⟨hread.1, fun d hd => hread.2.faults d (List.mem_reverse.mp hd)⟩
  · next heq =>
    rw [heq] at hread
    exact ⟨List.forall_mem_nil _, fun d hd => hread.faults d (List.mem_reverse.mp hd)⟩
  · exact ⟨List.forall_mem_nil _, List.forall_mem_nil _⟩

/-- If its tokens are as required, so is an expression and what is found wrong. -/
theorem parseExpression_meets (hR : R.Closed) (h : ∀ t ∈ tokens, R.token t)
    (hend : R.token .missingEnd) :
    (∀ e ∈ (parseExpression tokens).1, R.expr e) ∧
      ∀ d ∈ (parseExpression tokens).2, R.fault d := by
  have hread := (Parser.readsTrees hR (Parser.fuelFor tokens)).expression _
    (Cursor.Meets.ofTokens h hend)
  unfold parseExpression
  split
  · next e c heq =>
    rw [heq] at hread
    split
    · exact ⟨forall_mem_some hread.1,
        fun d hd => hread.2.faults d (List.mem_reverse.mp hd)⟩
    · exact ⟨forall_mem_none,
        fun d hd => (hread.2.record _ _).faults d (List.mem_reverse.mp hd)⟩
  · next heq =>
    rw [heq] at hread
    exact ⟨forall_mem_none, fun d hd => hread.faults d (List.mem_reverse.mp hd)⟩
  · exact ⟨forall_mem_none, List.forall_mem_nil _⟩

end

end Scriptlet

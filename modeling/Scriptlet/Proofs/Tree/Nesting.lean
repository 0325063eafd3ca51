import Scriptlet.Proofs.Tree.Spans

/-!
# Spans nest

In the tree of every source, with syntax errors or without, every node holds its children together
(`spans_nest`).

Whatever the reader makes while it goes from one place to another lies between the token where it
began and the last one that it took (`Parser.Makes`); what goes on with an operand that was read
before keeps the place where this began (`Parser.GoesOn`). `Parser.ReadsNested` says so of every
function of the reader, by induction on its fuel. Nothing is asked of the faults: a reader that
gives up only goes on to a later place, and one that recovers has made nothing.
-/

namespace Scriptlet

namespace Parser

variable {α : Type}

/-- What a reader makes lies between the place where it begins and the place where it ends. -/
def Makes (p : Parser α) (tree : α → Tree Unit) : Prop :=
  ∀ c, c.InLine → Spans c p fun a c' => (tree a).Lies c.ahead c'.behind

def MakesAll (p : Parser α) (trees : α → List (Tree Unit)) : Prop :=
  ∀ c, c.InLine → Spans c p fun a c' => Tree.LieAll c.ahead c'.behind (trees a)

/-- What a reader makes of what was read before lies between the beginning of this and the place
where the reader ends. -/
def GoesOn (p : Expr Unit → Parser (Expr Unit)) : Prop :=
  ∀ c left first, c.InLine → (Tree.expr left).Lies first c.behind →
    Spans c (p left) fun e c' => (Tree.expr e).Lies first c'.behind

/-- With some fuel, what every function of the reader makes is nested and lies between the places
where it began and where it ended. -/
structure ReadsNested (fuel : Nat) : Prop where
  declaration : MakesAll (declaration fuel) (·.map .stmt)
  classDeclaration : Makes (classDeclaration fuel) .stmt
  members : MakesAll (members fuel) fun ms =>
    (ms.1 ++ ms.2).map fun d => .stmt (.declareFunction d)
  method : Makes (method fuel) fun d => .stmt (.declareFunction d)
  functionDeclaration : Makes (functionDeclaration fuel) .stmt
  varDeclarations : MakesAll (varDeclarations fuel) (·.map .stmt)
  furtherVariables : MakesAll (furtherVariables fuel) (·.map .stmt)
  statement : Makes (statement fuel) .stmt
  block : ∀ c, c.InLine → Spans c (block fuel) fun ss c' =>
    Tree.LieAll c.ahead c'.behind (ss.map .stmt) ∧ c.ahead ≤ c'.behind
  blockItems : MakesAll (blockItems fuel) (·.map .stmt)
  expressionStatement : Makes (expressionStatement fuel) .stmt
  ifStatement : Makes (ifStatement fuel) .stmt
  whileStatement : Makes (whileStatement fuel) .stmt
  doStatement : Makes (doStatement fuel) .stmt
  forStatement : Makes (forStatement fuel) .stmt
  expression : Makes (expression fuel) .expr
  commas : GoesOn (commas fuel)
  assignment : Makes (assignment fuel) .expr
  ternary : Makes (ternary fuel) .expr
  binary : ∀ power, Makes (binary fuel power) .expr
  operators : ∀ power, GoesOn (operators fuel power)
  unary : Makes (unary fuel) .expr
  trailing : Makes (trailing fuel) .expr
  call : Makes (call fuel) .expr
  callRest : GoesOn (callRest fuel)
  arguments : ∀ count, MakesAll (arguments fuel count) (·.map .expr)
  primary : Makes (primary fuel) .expr

theorem spans_parameterNames {c : Cursor} (hc : c.InLine) (fuel count : Nat) :
    Spans c (parameterNames fuel count) fun _ _ => True := by
  induction fuel generalizing c count with
  | zero => exact spans_starve
  | succ fuel ih =>
    unfold parameterNames
    extract_lets rest
    have hrest : ∀ (u : PUnit) (c : Cursor), c.InLine → Spans c (rest u) fun _ _ => True := by
      intro u c hc
      refine (spans_expect hc .identifier _ (by decide)).bind fun name c₁ h₁ _ => ?_
      refine (spans_accepts h₁.inLine .comma (by decide)).bind fun more c₂ h₂ _ => ?_
      split
      · exact (ih h₂.inLine _).bind fun names c₃ h₃ _ => spans_pure h₃.inLine trivial
      · exact spans_pure h₂.inLine trivial
    split
    · refine spans_peek ((spans_record hc _ _).bind fun u c₁ h₁ _ => ?_)
      exact hrest u c₁ h₁.inLine
    · exact hrest ⟨⟩ c hc

theorem spans_parameters {c : Cursor} (hc : c.InLine) (fuel : Nat) :
    Spans c (parameters fuel) fun _ _ => True := by
  unfold parameters
  refine (spans_expect hc .leftParen _ (by decide)).bind fun _ c₁ h₁ _ => ?_
  extract_lets rest
  have hrest : ∀ (names : List Token) (c : Cursor), c.InLine →
      Spans c (rest names) fun _ _ => True := by
    intro names c hc
    exact (spans_expect hc .rightParen _ (by decide)).bind fun _ c₁ h₁ _ =>
      spans_pure h₁.inLine trivial
  refine spans_sees ?_
  split
  · exact hrest [] c₁ h₁.inLine
  · exact (spans_parameterNames h₁.inLine fuel 0).bind fun names c₂ h₂ _ => hrest names c₂ h₂.inLine

namespace ReadsNested

variable {fuel : Nat}

theorem declaration_succ (h : ReadsNested fuel) :
    MakesAll (Parser.declaration (fuel + 1)) (·.map .stmt) := by
  intro c hc
  have hone {p : Parser (Stmt Unit)} (hp : Makes p .stmt) :
      Spans c (do return [← p]) fun ss c' => Tree.LieAll c.ahead c'.behind (ss.map .stmt) := by
    refine (hp c hc).bind fun s c₁ h₁ hs => ?_
    exact spans_pure h₁.inLine ⟨hs, trivial⟩
  unfold Parser.declaration
  refine Spans.recovering ?_ fun c' => trivial
  unfold Spans
  dsimp only
  by_cases hclass : c.sees .kwClass
  · rw [if_pos hclass]
    exact hone h.classDeclaration
  · rw [if_neg hclass]
    by_cases hfun : c.sees .kwFun && c.nextKind = .identifier
    · rw [if_pos hfun]
      exact hone h.functionDeclaration
    · rw [if_neg hfun]
      by_cases hvar : c.sees .kwVar
      · rw [if_pos hvar]
        exact h.varDeclarations c hc
      · rw [if_neg hvar]
        exact hone h.statement

theorem classDeclaration_succ (h : ReadsNested fuel) :
    Makes (Parser.classDeclaration (fuel + 1)) .stmt := by
  intro c hc
  unfold Parser.classDeclaration
  refine (spans_keyword hc).seq fun start c₁ hc₁ _ ha₁ _ hstart => ?_
  refine (spans_expect hc₁ .identifier _ (by decide)).seq fun name c₂ hc₂ _ ha₂ _ _ => ?_
  refine (spans_accepts hc₂ .less (by decide)).seq fun inherits c₃ hc₃ _ ha₃ _ _ => ?_
  extract_lets rest
  have hrest : ∀ (superclass : Option (Token × Unit)) (c₄ : Cursor), c₃.Later c₄ →
      (∀ t ∈ superclass, Taken c₃ t.1 c₄) →
      Spans c₄ (rest superclass) fun s c' => (Tree.stmt s).Lies c.ahead c'.behind := by
    rintro superclass c₄ ⟨hc₄, _, ha₄, _⟩ hsuper
    refine (spans_expect hc₄ .leftBrace _ (by decide)).seq fun _ c₅ hc₅ hb₅ ha₅ _ _ => ?_
    refine (h.members c₅ hc₅).seq fun ms c₆ hc₆ hb₆ ha₆ _ hmembers => ?_
    refine (spans_expect hc₆ .rightBrace _ (by decide)).seq fun _ c₇ hc₇ hb₇ _ _ hend => ?_
    refine spans_lastStop fun stop hstop => spans_pure hc₇ ?_
    have hproper := hend.proper
    refine lies_between rfl hstart hstop (by omega) (.append ?_ (hmembers.mono ?_ ?_))
    · cases superclass with
      | none => trivial
      | some t =>
        have hname : (Tree.expr (.name t.1.span t.1 ())).Lies c₃.ahead c₄.behind :=
          lies_token (hsuper t rfl) rfl rfl
        exact ⟨hname.mono (by omega) (by omega), trivial⟩
    all_goals omega
  split
  · refine (spans_expect hc₃ .identifier _ (by decide)).bind fun token c₄ h₄ htoken => ?_
    refine hrest (some (token, ())) c₄ h₄ fun t ht => ?_
    obtain rfl := Option.mem_some.mp ht
    exact htoken
  · refine hrest none c₃ (.refl hc₃) fun t ht => ?_
    cases ht

theorem members_succ (h : ReadsNested fuel) :
    MakesAll (Parser.members (fuel + 1)) fun ms =>
      (ms.1 ++ ms.2).map fun d => .stmt (.declareFunction d) := by
  intro c hc
  unfold Parser.members
  change Spans c (if c.sees .rightBrace || c.atEnd then _ else _) _
  split
  · exact spans_pure hc trivial
  · refine (spans_accepts hc .kwClass (by decide)).seq fun ofClass c₁ hc₁ _ ha₁ _ _ => ?_
    split
    · refine (h.method c₁ hc₁).seq fun m c₂ hc₂ _ ha₂ _ hm => ?_
      refine (h.members c₂ hc₂).seq fun ms c₃ hc₃ hb₃ _ _ hms => spans_pure hc₃ ?_
      have hms' : Tree.LieAll c.ahead c₃.behind
          ((ms.1 ++ ms.2).map fun d => .stmt (.declareFunction d)) :=
        hms.mono (by omega) (by omega)
      change Tree.LieAll c.ahead c₃.behind
        ((ms.1 ++ m :: ms.2).map fun d => .stmt (.declareFunction d))
      rw [List.map_append] at hms' ⊢
      refine (hms'.of_sublist (List.sublist_append_left ..)).append ⟨?_, ?_⟩
      · exact hm.mono (by omega) (by omega)
      · exact hms'.of_sublist (List.sublist_append_right ..)
    · refine (h.method c₁ hc₁).seq fun m c₂ hc₂ _ ha₂ _ hm => ?_
      refine (h.members c₂ hc₂).seq fun ms c₃ hc₃ hb₃ _ _ hms => spans_pure hc₃ ?_
      exact ⟨hm.mono (by omega) (by omega), hms.mono (by omega) (by omega)⟩

theorem method_succ (h : ReadsNested fuel) :
    Makes (Parser.method (fuel + 1)) fun d => .stmt (.declareFunction d) := by
  intro c hc
  unfold Parser.method
  refine (spans_expect hc .identifier _ (by decide)).seq fun name c₁ hc₁ _ ha₁ _ hname => ?_
  refine spans_sees ?_
  extract_lets getter rest
  have hrest : ∀ (params : List Token) (c₂ : Cursor), c₁.Later c₂ →
      Spans c₂ (rest params) fun d c' =>
        (Tree.stmt (.declareFunction d)).Lies c.ahead c'.behind := by
    rintro params c₂ ⟨hc₂, _, ha₂, _⟩
    refine (h.block c₂ hc₂).seq fun body c₃ hc₃ _ _ _ hblock => ?_
    obtain ⟨hbody, hproper⟩ := hblock
    refine spans_lastStop fun stop hstop => spans_pure hc₃ ?_
    have hstart := hname.starts
    refine lies_between rfl hstart hstop (by omega) ⟨?_, trivial⟩
    refine lies_between rfl hstart hstop (by omega) (hbody.mono ?_ ?_)
    all_goals omega
  split
  · exact hrest [] c₁ (.refl hc₁)
  · exact (spans_parameters hc₁ fuel).bind fun params c₂ h₂ _ => hrest params c₂ h₂

theorem functionDeclaration_succ (h : ReadsNested fuel) :
    Makes (Parser.functionDeclaration (fuel + 1)) .stmt := by
  intro c hc
  unfold Parser.functionDeclaration
  refine (spans_keyword hc).seq fun start c₁ hc₁ _ ha₁ _ hstart => ?_
  refine (spans_expect hc₁ .identifier _ (by decide)).seq fun name c₂ hc₂ _ ha₂ _ _ => ?_
  refine (spans_parameters hc₂ fuel).seq fun params c₃ hc₃ _ ha₃ _ _ => ?_
  refine (h.block c₃ hc₃).seq fun body c₄ hc₄ _ _ _ hblock => ?_
  obtain ⟨hbody, hproper⟩ := hblock
  refine spans_lastStop fun stop hstop => spans_pure hc₄ ?_
  refine lies_between rfl hstart hstop (by omega) ⟨?_, trivial⟩
  refine lies_between rfl hstart hstop (by omega) (hbody.mono ?_ ?_)
  all_goals omega

theorem varDeclarations_succ (h : ReadsNested fuel) :
    MakesAll (Parser.varDeclarations (fuel + 1)) (·.map .stmt) := by
  intro c hc
  unfold Parser.varDeclarations
  refine (spans_keyword hc).seq fun start c₁ hc₁ _ ha₁ _ hstart => ?_
  refine (spans_expect hc₁ .identifier _ (by decide)).seq fun name c₂ hc₂ _ ha₂ _ hname => ?_
  refine (spans_accepts hc₂ .assign (by decide)).seq fun initialized c₃ hc₃ hb₃ ha₃ _ _ => ?_
  extract_lets rest
  have hrest : ∀ (init : Option (Expr Unit)) (c₄ : Cursor), c₃.Later c₄ →
      Tree.LieAll c₃.ahead c₄.behind (init.toList.map .expr) →
      Spans c₄ (rest init) fun ss c' => Tree.LieAll c.ahead c'.behind (ss.map .stmt) := by
    rintro init c₄ ⟨hc₄, hb₄, ha₄, _⟩ hinit
    refine spans_lastStop fun stop hstop => ?_
    refine (h.furtherVariables c₄ hc₄).seq fun more c₅ hc₅ hb₅ ha₅ _ hmore => ?_
    refine (spans_expect hc₅ .semicolon _ (by decide)).seq fun _ c₆ hc₆ hb₆ _ _ _ => ?_
    refine spans_pure hc₆ ⟨?_, hmore.mono (by omega) (by omega)⟩
    have hproper := hname.proper
    have hfirst : (Tree.stmt (.declareVar ⟨start.span.start, stop⟩ name init)).Lies
        c.ahead c₄.behind :=
      lies_between rfl hstart hstop (by omega) (hinit.mono (by omega) (by omega))
    exact hfirst.mono (by omega) (by omega)
  split
  · refine (h.assignment c₃ hc₃).bind fun value c₄ h₄ hvalue => ?_
    exact hrest (some value) c₄ h₄ ⟨hvalue, trivial⟩
  · exact hrest none c₃ (.refl hc₃) trivial

theorem furtherVariables_succ (h : ReadsNested fuel) :
    MakesAll (Parser.furtherVariables (fuel + 1)) (·.map .stmt) := by
  intro c hc
  unfold Parser.furtherVariables
  refine (spans_accepts hc .comma (by decide)).seq fun more c₁ hc₁ _ ha₁ _ _ => ?_
  split
  · refine (spans_expect hc₁ .identifier _ (by decide)).seq
      fun name c₂ hc₂ hb₂ ha₂ _ hname => ?_
    refine (spans_expect hc₂ .assign _ (by decide)).seq fun _ c₃ hc₃ hb₃ ha₃ _ _ => ?_
    refine (h.assignment c₃ hc₃).seq fun init c₄ hc₄ hb₄ ha₄ _ hinit => ?_
    refine spans_lastStop fun stop hstop => ?_
    refine (h.furtherVariables c₄ hc₄).seq fun more c₅ hc₅ hb₅ _ _ hmore => ?_
    refine spans_pure hc₅ ⟨?_, hmore.mono (by omega) (by omega)⟩
    have hproper := hname.proper
    have hone : (Tree.stmt (.declareVar ⟨name.span.start, stop⟩ name (some init))).Lies
        c₁.ahead c₄.behind :=
      lies_between rfl hname.starts hstop (by omega) ⟨hinit.mono (by omega) (by omega), trivial⟩
    exact hone.mono (by omega) (by omega)
  · exact spans_pure hc₁ trivial

theorem statement_succ (h : ReadsNested fuel) :
    Makes (Parser.statement (fuel + 1)) .stmt := by
  intro c hc
  unfold Parser.statement
  refine spans_peek ?_
  split
  · exact h.forStatement c hc
  · exact h.ifStatement c hc
  · refine (spans_keyword hc).seq fun keyword c₁ hc₁ _ ha₁ _ hstart => ?_
    refine (h.expression c₁ hc₁).seq fun value c₂ hc₂ _ ha₂ _ hvalue => ?_
    refine (spans_expect hc₂ .semicolon _ (by decide)).seq fun _ c₃ hc₃ hb₃ _ _ _ => ?_
    refine spans_lastStop fun stop hstop => spans_pure hc₃ ?_
    have hproper := hvalue.expr
    exact lies_between rfl hstart hstop (by omega) ⟨hvalue.mono (by omega) (by omega), trivial⟩
  · refine (spans_keyword hc).seq fun keyword c₁ hc₁ _ ha₁ _ hstart => ?_
    refine spans_sees ?_
    extract_lets rest
    have hrest : ∀ (value : Option (Expr Unit)) (c₂ : Cursor), c₁.Later c₂ →
        Tree.LieAll c₁.ahead c₂.behind (value.toList.map .expr) →
        Spans c₂ (rest value) fun s c' => (Tree.stmt s).Lies c.ahead c'.behind := by
      rintro value c₂ ⟨hc₂, _, ha₂, _⟩ hvalue
      refine (spans_expect hc₂ .semicolon _ (by decide)).seq fun _ c₃ hc₃ hb₃ _ _ hend => ?_
      refine spans_lastStop fun stop hstop => spans_pure hc₃ ?_
      have hproper := hend.proper
      exact lies_between rfl hstart hstop (by omega) (hvalue.mono (by omega) (by omega))
    split
    · exact hrest none c₁ (.refl hc₁) trivial
    · exact (h.expression c₁ hc₁).bind fun e c₂ h₂ he => hrest (some e) c₂ h₂ ⟨he, trivial⟩
  · exact h.doStatement c hc
  · exact h.whileStatement c hc
  · refine (spans_keyword hc).seq fun keyword c₁ hc₁ _ ha₁ _ hstart => ?_
    refine (spans_expect hc₁ .semicolon _ (by decide)).seq fun _ c₂ hc₂ _ _ _ hend => ?_
    refine spans_lastStop fun stop hstop => spans_pure hc₂ ?_
    have hproper := hend.proper
    exact lies_between rfl hstart hstop (by omega) trivial
  · refine (spans_keyword hc).seq fun keyword c₁ hc₁ _ ha₁ _ hstart => ?_
    refine (spans_expect hc₁ .semicolon _ (by decide)).seq fun _ c₂ hc₂ _ _ _ hend => ?_
    refine spans_lastStop fun stop hstop => spans_pure hc₂ ?_
    have hproper := hend.proper
    exact lies_between rfl hstart hstop (by omega) trivial
  · refine spans_peek ((h.block c hc).seq fun ss c₁ hc₁ _ _ _ hblock => ?_)
    obtain ⟨hss, hproper⟩ := hblock
    refine spans_lastStop fun stop hstop => spans_pure hc₁ ?_
    exact lies_between rfl rfl hstop hproper hss
  · exact h.expressionStatement c hc

theorem block_succ (h : ReadsNested fuel) (c : Cursor) (hc : c.InLine) :
    Spans c (Parser.block (fuel + 1)) fun ss c' =>
      Tree.LieAll c.ahead c'.behind (ss.map .stmt) ∧ c.ahead ≤ c'.behind := by
  unfold Parser.block
  refine (spans_expect hc .leftBrace _ (by decide)).seq fun _ c₁ hc₁ _ ha₁ _ _ => ?_
  refine (h.blockItems c₁ hc₁).seq fun ss c₂ hc₂ _ ha₂ _ hss => ?_
  refine (spans_expect hc₂ .rightBrace _ (by decide)).seq fun _ c₃ hc₃ hb₃ _ _ hend => ?_
  have hproper := hend.proper
  exact spans_pure hc₃ ⟨hss.mono (by omega) (by omega), by omega⟩

theorem blockItems_succ (h : ReadsNested fuel) :
    MakesAll (Parser.blockItems (fuel + 1)) (·.map .stmt) := by
  intro c hc
  unfold Parser.blockItems
  change Spans c (if c.sees .rightBrace || c.atEnd then _ else _) _
  split
  · exact spans_pure hc trivial
  · refine (h.declaration c hc).seq fun ss c₁ hc₁ _ ha₁ _ hss => ?_
    refine (h.blockItems c₁ hc₁).seq fun rest c₂ hc₂ hb₂ _ _ hrest => spans_pure hc₂ ?_
    change Tree.LieAll c.ahead c₂.behind ((ss ++ rest).map .stmt)
    rw [List.map_append]
    exact (hss.mono (by omega) (by omega)).append (hrest.mono (by omega) (by omega))

theorem expressionStatement_succ (h : ReadsNested fuel) :
    Makes (Parser.expressionStatement (fuel + 1)) .stmt := by
  intro c hc
  unfold Parser.expressionStatement
  refine (h.expression c hc).seq fun expr c₁ hc₁ _ ha₁ _ hexpr => ?_
  refine (spans_expect hc₁ .semicolon _ (by decide)).seq fun _ c₂ hc₂ hb₂ _ _ _ => ?_
  refine spans_lastStop fun stop hstop => spans_pure hc₂ ?_
  obtain ⟨he₁, he₂, he₃⟩ := hexpr.expr
  refine .node rfl ⟨hexpr.within ?_ ?_, trivial⟩ ?_ ?_ ?_
  all_goals omega

theorem ifStatement_succ (h : ReadsNested fuel) :
    Makes (Parser.ifStatement (fuel + 1)) .stmt := by
  intro c hc
  unfold Parser.ifStatement
  refine (spans_keyword hc).seq fun start c₁ hc₁ _ ha₁ _ hstart => ?_
  refine (spans_expect hc₁ .leftParen _ (by decide)).seq fun _ c₂ hc₂ _ ha₂ _ _ => ?_
  refine (h.expression c₂ hc₂).seq fun condition c₃ hc₃ _ ha₃ _ hcondition => ?_
  refine (spans_expect hc₃ .rightParen _ (by decide)).seq fun _ c₄ hc₄ hb₄ ha₄ _ _ => ?_
  refine (h.statement c₄ hc₄).seq fun onTrue c₅ hc₅ hb₅ ha₅ _ hTrue => ?_
  refine (spans_accepts hc₅ .kwElse (by decide)).seq fun other c₆ hc₆ hb₆ ha₆ _ _ => ?_
  extract_lets rest
  have hrest : ∀ (onFalse : Option (Stmt Unit)) (c₇ : Cursor), c₆.Later c₇ →
      Tree.LieAll c₆.ahead c₇.behind (onFalse.toList.map .stmt) →
      Spans c₇ (rest onFalse) fun s c' => (Tree.stmt s).Lies c.ahead c'.behind := by
    rintro onFalse c₇ ⟨hc₇, hb₇, _, _⟩ hFalse
    refine spans_lastStop fun stop hstop => spans_pure hc₇ ?_
    have hproper := hcondition.expr
    refine lies_between rfl hstart hstop (by omega)
      ⟨hcondition.mono ?_ ?_, hTrue.mono ?_ ?_, hFalse.mono ?_ ?_⟩
    all_goals omega
  split
  · refine (h.statement c₆ hc₆).bind fun s c₇ h₇ hs => ?_
    exact hrest (some s) c₇ h₇ ⟨hs, trivial⟩
  · exact hrest none c₆ (.refl hc₆) trivial

theorem whileStatement_succ (h : ReadsNested fuel) :
    Makes (Parser.whileStatement (fuel + 1)) .stmt := by
  intro c hc
  unfold Parser.whileStatement
  refine (spans_keyword hc).seq fun start c₁ hc₁ _ ha₁ _ hstart => ?_
  refine (spans_expect hc₁ .leftParen _ (by decide)).seq fun _ c₂ hc₂ _ ha₂ _ _ => ?_
  refine (h.expression c₂ hc₂).seq fun condition c₃ hc₃ _ ha₃ _ hcondition => ?_
  refine (spans_expect hc₃ .rightParen _ (by decide)).seq fun _ c₄ hc₄ hb₄ ha₄ _ _ => ?_
  refine (h.statement c₄ hc₄).seq fun body c₅ hc₅ hb₅ _ _ hbody => ?_
  refine spans_lastStop fun stop hstop => spans_pure hc₅ ?_
  have hproper := hcondition.expr
  refine lies_between rfl hstart hstop (by omega)
    ⟨hcondition.mono ?_ ?_, hbody.mono ?_ ?_, trivial⟩
  all_goals omega

theorem doStatement_succ (h : ReadsNested fuel) :
    Makes (Parser.doStatement (fuel + 1)) .stmt := by
  intro c hc
  unfold Parser.doStatement
  refine (spans_keyword hc).seq fun start c₁ hc₁ _ ha₁ _ hstart => ?_
  refine (h.statement c₁ hc₁).seq fun body c₂ hc₂ _ ha₂ _ hbody => ?_
  refine (spans_expect hc₂ .kwWhile _ (by decide)).seq fun _ c₃ hc₃ hb₃ ha₃ _ _ => ?_
  refine (spans_expect hc₃ .leftParen _ (by decide)).seq fun _ c₄ hc₄ hb₄ ha₄ _ _ => ?_
  refine (h.expression c₄ hc₄).seq fun condition c₅ hc₅ hb₅ ha₅ _ hcondition => ?_
  refine (spans_expect hc₅ .rightParen _ (by decide)).seq fun _ c₆ hc₆ hb₆ ha₆ _ _ => ?_
  refine (spans_expect hc₆ .semicolon _ (by decide)).seq fun _ c₇ hc₇ hb₇ _ _ _ => ?_
  refine spans_lastStop fun stop hstop => spans_pure hc₇ ?_
  have hproper := hcondition.expr
  refine lies_between rfl hstart hstop (by omega)
    ⟨hcondition.mono ?_ ?_, hbody.mono ?_ ?_, trivial⟩
  all_goals omega

theorem forStatement_succ (h : ReadsNested fuel) :
    Makes (Parser.forStatement (fuel + 1)) .stmt := by
  intro c hc
  unfold Parser.forStatement
  refine (spans_keyword hc).seq fun start c₁ hc₁ _ ha₁ _ hstart => ?_
  refine (spans_expect hc₁ .leftParen _ (by decide)).seq fun _ c₂ hc₂ _ ha₂ _ _ => ?_
  refine (spans_accepts hc₂ .semicolon (by decide)).seq fun bare c₃ hc₃ _ ha₃ _ _ => ?_
  extract_lets afterInit
  have hinit : ∀ (init : Option (List (Stmt Unit))) (c₄ : Cursor), c₃.Later c₄ →
      (∀ ss ∈ init, Tree.LieAll c₃.ahead c₄.behind (ss.map .stmt)) →
      Spans c₄ (afterInit init) fun s c' => (Tree.stmt s).Lies c.ahead c'.behind := by
    rintro init c₄ ⟨hc₄, hb₄, ha₄, _⟩ hinit
    refine spans_sees ?_
    extract_lets afterTest
    have htest : ∀ (test : Option (Expr Unit)) (c₅ : Cursor), c₄.Later c₅ →
        (∀ e ∈ test, (Tree.expr e).Lies c₄.ahead c₅.behind) →
        Spans c₅ (afterTest test) fun s c' => (Tree.stmt s).Lies c.ahead c'.behind := by
      rintro test c₅ ⟨hc₅, hb₅, ha₅, _⟩ htest
      refine (spans_expect hc₅ .semicolon _ (by decide)).seq
        fun semicolon c₆ hc₆ hb₆ ha₆ _ hsemicolon => ?_
      refine spans_sees ?_
      extract_lets condition afterUpdate
      have hcondition : (Tree.expr condition).Lies c₄.ahead c₆.behind := by
        cases test with
        | none =>
          have htrue : (Tree.expr condition).Lies c₅.ahead c₆.behind :=
            lies_token hsemicolon rfl rfl
          exact htrue.mono ha₅ (Int.le_refl _)
        | some e => exact (htest e rfl).mono (Int.le_refl _) hb₆
      have hupdate : ∀ (update : Option (Expr Unit)) (c₇ : Cursor), c₆.Later c₇ →
          Tree.LieAll c₆.ahead c₇.behind (update.toList.map .expr) →
          Spans c₇ (afterUpdate update) fun s c' => (Tree.stmt s).Lies c.ahead c'.behind := by
        rintro update c₇ ⟨hc₇, hb₇, ha₇, _⟩ hupdate
        refine (spans_expect hc₇ .rightParen _ (by decide)).seq
          fun _ c₈ hc₈ hb₈ ha₈ _ _ => ?_
        refine (h.statement c₈ hc₈).seq fun body c₉ hc₉ hb₉ _ _ hbody => ?_
        refine spans_lastStop fun stop hstop => ?_
        have hproper := hcondition.expr
        have hloop : (Tree.stmt (.loop ⟨start.span.start, stop⟩ condition body update false)).Lies
            c.ahead c₉.behind := by
          refine lies_between rfl hstart hstop (by omega)
            ⟨hcondition.mono ?_ ?_, hbody.mono ?_ ?_, hupdate.mono ?_ ?_⟩
          all_goals omega
        cases init with
        | none => exact spans_pure hc₉ hloop
        | some stmts =>
          refine spans_pure hc₉ (lies_between rfl hstart hstop (by omega) ?_)
          change Tree.LieAll c.ahead c₉.behind ((stmts ++ [_]).map .stmt)
          rw [List.map_append]
          exact ((hinit stmts rfl).mono (by omega) (by omega)).append ⟨hloop, trivial⟩
      split
      · exact hupdate none c₆ (.refl hc₆) trivial
      · exact (h.expression c₆ hc₆).bind fun e c₇ h₇ he => hupdate (some e) c₇ h₇ ⟨he, trivial⟩
    split
    · exact htest none c₄ (.refl hc₄) fun e he => by cases he
    · refine (h.expression c₄ hc₄).bind fun e c₅ h₅ he => htest (some e) c₅ h₅ fun e' he' => ?_
      obtain rfl := Option.mem_some.mp he'
      exact he
  split
  · exact hinit none c₃ (.refl hc₃) fun ss hss => by cases hss
  · refine spans_sees ?_
    split
    · refine (h.varDeclarations c₃ hc₃).bind fun ss c₄ h₄ hss =>
        hinit (some ss) c₄ h₄ fun ss' hss' => ?_
      obtain rfl := Option.mem_some.mp hss'
      exact hss
    · refine (h.expressionStatement c₃ hc₃).bind fun s c₄ h₄ hs =>
        hinit (some [s]) c₄ h₄ fun ss hss => ?_
      obtain rfl := Option.mem_some.mp hss
      exact ⟨hs, trivial⟩

theorem expression_succ (h : ReadsNested fuel) : Makes (Parser.expression (fuel + 1)) .expr := by
  intro c hc
  unfold Parser.expression
  refine (h.assignment c hc).bind fun left c₁ h₁ hleft => ?_
  exact h.commas c₁ left _ h₁.inLine hleft

theorem commas_succ (h : ReadsNested fuel) : GoesOn (Parser.commas (fuel + 1)) := by
  intro c left first hc hleft
  unfold Parser.commas
  refine spans_sees ?_
  split
  · next hcomma =>
    have hkind : c.current.kind = .comma := of_decide_eq_true hcomma
    refine (spans_advance hc (by rw [hkind]; decide)).bind fun op c₁ h₁ hop => ?_
    refine (h.assignment c₁ h₁.inLine).bind fun right c₂ h₂ hright => ?_
    have horder : c.behind ≤ c₁.ahead := Int.le_trans hc.behind_le h₁.ahead
    exact h.commas c₂ _ first h₂.inLine (hleft.pair hright horder rfl rfl)
  · exact spans_pure hc hleft

theorem lies_assignment? {target value e : Expr Unit} {op : Token} {first mid mid' last : Int}
    (htarget : (Tree.expr target).Lies first mid) (hvalue : (Tree.expr value).Lies mid' last)
    (hmid : mid ≤ mid') (h : assignment? target op value = some e) :
    (Tree.expr e).Lies first last := by
  obtain ⟨ht₁, ht₂, ht₃⟩ := htarget.expr
  obtain ⟨hv₁, hv₂, hv₃⟩ := hvalue.expr
  have hvalue' : (Tree.expr value).Lies target.span.start.offset value.span.stop.offset :=
    hvalue.within (by omega) (Int.le_refl _)
  unfold assignment? at h
  split at h
  · cases h
    exact htarget.join hvalue hmid rfl ⟨hvalue', trivial⟩
  · split at h
    · cases h
      obtain ⟨hobject, -⟩ := htarget.children
      refine htarget.join hvalue hmid rfl ⟨hobject.mono (Int.le_refl _) ?_, hvalue', trivial⟩
      exact Int.le_trans ht₃ (Int.le_trans hmid (Int.le_trans hv₁ hv₂))
    · cases h
  · cases h

theorem assignment_succ (h : ReadsNested fuel) : Makes (Parser.assignment (fuel + 1)) .expr := by
  intro c hc
  unfold Parser.assignment
  refine (h.ternary c hc).bind fun target c₁ h₁ htarget => ?_
  refine spans_peek ?_
  split
  · next hop =>
    have hmore : c₁.current.kind ≠ .endOfInput := by
      intro hend
      rw [hend] at hop
      exact absurd hop (by decide)
    refine (spans_advance h₁.inLine hmore).bind fun _ c₂ h₂ _ => ?_
    refine (h.assignment c₂ h₂.inLine).bind fun value c₃ h₃ hvalue => ?_
    have horder : c₁.behind ≤ c₂.ahead := Int.le_trans h₁.order h₂.ahead
    split
    · next hassign =>
      exact spans_pure h₃.inLine (lies_assignment? htarget hvalue horder hassign)
    · refine (spans_record h₃.inLine _ _).bind fun _ c₄ h₄ _ => spans_pure h₄.inLine ?_
      have hbehind := ((h₂.trans h₃).trans h₄).behind
      exact htarget.mono (Int.le_refl _) hbehind
  · exact spans_pure h₁.inLine htarget

theorem ternary_succ (h : ReadsNested fuel) : Makes (Parser.ternary (fuel + 1)) .expr := by
  intro c hc
  unfold Parser.ternary
  refine (h.binary 0 c hc).bind fun condition c₁ h₁ hcondition => ?_
  refine (spans_accepts h₁.inLine .question (by decide)).bind fun more c₂ h₂ _ => ?_
  split
  · refine (h.expression c₂ h₂.inLine).bind fun onTrue c₃ h₃ hTrue => ?_
    refine (spans_expect h₃.inLine .colon _ (by decide)).bind fun _ c₄ h₄ _ => ?_
    refine (h.ternary c₄ h₄.inLine).bind fun onFalse c₅ h₅ hFalse => spans_pure h₅.inLine ?_
    have h₁₂ : c₁.behind ≤ c₂.ahead := Int.le_trans h₁.order h₂.ahead
    have h₃₄ : c₃.behind ≤ c₄.ahead := Int.le_trans h₃.order h₄.ahead
    have h₁₄ : c₁.behind ≤ c₄.ahead :=
      Int.le_trans h₁₂ (Int.le_trans h₃.ahead h₄.ahead)
    obtain ⟨hc₁, hc₂, hc₃⟩ := hcondition.expr
    obtain ⟨ht₁, ht₂, ht₃⟩ := hTrue.expr
    obtain ⟨hf₁, hf₂, hf₃⟩ := hFalse.expr
    refine hcondition.join hFalse h₁₄ rfl ⟨hcondition.within ?_ ?_, hTrue.within ?_ ?_,
      hFalse.within ?_ ?_, trivial⟩
    all_goals omega
  · exact spans_pure h₂.inLine (hcondition.mono (Int.le_refl _) h₂.behind)

theorem binary_succ (h : ReadsNested fuel) (power : Nat) :
    Makes (Parser.binary (fuel + 1) power) .expr := by
  intro c hc
  unfold Parser.binary
  refine (h.unary c hc).bind fun left c₁ h₁ hleft => ?_
  exact h.operators power c₁ left _ h₁.inLine hleft

theorem lies_combine {left right : Expr Unit} {op : Token} {first mid mid' last : Int}
    (hleft : (Tree.expr left).Lies first mid) (hright : (Tree.expr right).Lies mid' last)
    (hmid : mid ≤ mid') : (Tree.expr (combine left op right)).Lies first last := by
  unfold combine
  dsimp only
  split
  · exact hleft.pair hright hmid rfl rfl
  · exact hleft.pair hright hmid rfl rfl

theorem operators_succ (h : ReadsNested fuel) (power : Nat) :
    GoesOn (Parser.operators (fuel + 1) power) := by
  intro c left first hc hleft
  unfold Parser.operators
  refine spans_peek ?_
  dsimp only
  split
  · exact spans_pure hc hleft
  · next hop =>
    have hmore : c.current.kind ≠ .endOfInput := by
      intro hend
      rw [hend] at hop
      exact hop (Nat.zero_le power)
    refine (spans_advance hc hmore).bind fun _ c₁ h₁ _ => ?_
    refine (h.binary _ c₁ h₁.inLine).bind fun right c₂ h₂ hright => ?_
    have horder : c.behind ≤ c₁.ahead := Int.le_trans hc.behind_le h₁.ahead
    exact h.operators power c₂ _ first h₂.inLine (lies_combine hleft hright horder)

theorem unary_succ (h : ReadsNested fuel) : Makes (Parser.unary (fuel + 1)) .expr := by
  intro c hc
  have hprefix : Spans c
      (do
        let op ← advance
        let operand ← Parser.unary fuel
        return Expr.unary ⟨op.span.start, operand.span.stop⟩ op operand false)
      fun e c' => (Tree.expr e).Lies c.ahead c'.behind := by
    refine (spans_keyword hc).seq fun op c₁ hc₁ _ ha₁ _ hop => ?_
    refine (h.unary c₁ hc₁).seq fun operand c₂ hc₂ _ _ _ hoperand => spans_pure hc₂ ?_
    obtain ⟨ho₁, ho₂, ho₃⟩ := hoperand.expr
    refine .node rfl ⟨hoperand.within ?_ ?_, trivial⟩ ?_ ?_ ?_
    all_goals omega
  unfold Parser.unary
  refine spans_peek ?_
  split
  · exact hprefix
  · exact hprefix
  · exact hprefix
  · exact hprefix
  · exact h.trailing c hc

theorem trailing_succ (h : ReadsNested fuel) : Makes (Parser.trailing (fuel + 1)) .expr := by
  intro c hc
  unfold Parser.trailing
  refine (h.call c hc).bind fun operand c₁ h₁ hoperand => ?_
  refine spans_peek ?_
  split
  · next hop =>
    have hmore : c₁.current.kind ≠ .endOfInput := by
      intro hend
      rw [hend] at hop
      exact absurd hop (by decide)
    refine (spans_advance h₁.inLine hmore).seq fun _ c₂ hc₂ hb₂ _ _ hop => ?_
    have hstops := hop.stops
    obtain ⟨ho₁, ho₂, ho₃⟩ := hoperand.expr
    refine spans_pure hc₂ (.node rfl ⟨hoperand.within ?_ ?_, trivial⟩ ?_ ?_ ?_)
    all_goals omega
  · exact spans_pure h₁.inLine hoperand

theorem call_succ (h : ReadsNested fuel) : Makes (Parser.call (fuel + 1)) .expr := by
  intro c hc
  unfold Parser.call
  refine (h.primary c hc).bind fun first c₁ h₁ hfirst => ?_
  exact h.callRest c₁ first _ h₁.inLine hfirst

theorem callRest_succ (h : ReadsNested fuel) : GoesOn (Parser.callRest (fuel + 1)) := by
  intro c callee first hc hcallee
  obtain ⟨he₁, he₂, he₃⟩ := hcallee.expr
  unfold Parser.callRest
  refine (spans_accepts hc .leftParen (by decide)).seq fun opens c₁ hc₁ hb₁ ha₁ ho₁ _ => ?_
  split
  · refine spans_sees ?_
    extract_lets rest
    have hrest : ∀ (args : List (Expr Unit)) (c₂ : Cursor), c₁.Later c₂ →
        Tree.LieAll c₁.ahead c₂.behind (args.map .expr) →
        Spans c₂ (rest args) fun e c' => (Tree.expr e).Lies first c'.behind := by
      rintro args c₂ ⟨hc₂, hb₂, _, _⟩ hargs
      refine (spans_expect hc₂ .rightParen _ (by decide)).seq
        fun paren c₃ hc₃ hb₃ _ _ hparen => ?_
      have hstops := hparen.stops
      refine h.callRest c₃ _ first hc₃
        (.node rfl ⟨hcallee.within ?_ ?_, hargs.mono ?_ ?_⟩ ?_ ?_ ?_)
      all_goals omega
    split
    · exact hrest [] c₁ (.refl hc₁) trivial
    · exact (h.arguments 0 c₁ hc₁).bind fun args c₂ h₂ hargs => hrest args c₂ h₂ hargs
  · refine (spans_accepts hc₁ .dot (by decide)).seq fun dot c₂ hc₂ hb₂ _ _ _ => ?_
    split
    · refine (spans_expect hc₂ .identifier _ (by decide)).seq
        fun name c₃ hc₃ hb₃ _ _ hname => ?_
      have hstops := hname.stops
      refine h.callRest c₃ _ first hc₃ (.node rfl ⟨hcallee.within ?_ ?_, trivial⟩ ?_ ?_ ?_)
      all_goals omega
    · exact spans_pure hc₂ (hcallee.mono (by omega) (by omega))

theorem arguments_succ (h : ReadsNested fuel) (count : Nat) :
    MakesAll (Parser.arguments (fuel + 1) count) (·.map .expr) := by
  intro c hc
  unfold Parser.arguments
  extract_lets rest
  have hrest : ∀ (u : PUnit) (c₁ : Cursor), c.Later c₁ →
      Spans c₁ (rest u) fun es c' => Tree.LieAll c.ahead c'.behind (es.map .expr) := by
    rintro u c₁ ⟨hc₁, _, ha₁, _⟩
    refine (h.assignment c₁ hc₁).seq fun arg c₂ hc₂ _ ha₂ _ harg => ?_
    refine (spans_accepts hc₂ .comma (by decide)).seq fun more c₃ hc₃ hb₃ ha₃ _ _ => ?_
    split
    · refine (h.arguments _ c₃ hc₃).seq fun args c₄ hc₄ hb₄ _ _ hargs => ?_
      exact spans_pure hc₄ ⟨harg.mono (by omega) (by omega), hargs.mono (by omega) (by omega)⟩
    · exact spans_pure hc₃ ⟨harg.mono (by omega) (by omega), trivial⟩
  split
  · exact spans_peek ((spans_record hc _ _).bind fun u c₁ h₁ _ => hrest u c₁ h₁)
  · exact hrest ⟨⟩ c (.refl hc)

theorem primary_succ (h : ReadsNested fuel) : Makes (Parser.primary (fuel + 1)) .expr := by
  intro c hc
  -- nodes of one token
  have hone {e : Expr Unit} (hmore : c.current.kind ≠ .endOfInput)
      (hspan : e.span = c.current.span) (hchildren : e.children = []) :
      Spans c (do let _ ← advance; return e) fun e c' => (Tree.expr e).Lies c.ahead c'.behind :=
    ⟨(hc.advance hmore).1, lies_token (taken_current hc hmore) hspan hchildren⟩
  have hkind {kind : Kind} (heq : c.current.kind = kind) (hne : kind ≠ .endOfInput) :
      c.current.kind ≠ .endOfInput :=
    heq ▸ hne
  unfold Parser.primary
  refine spans_peek ?_
  split
  · next heq => exact hone (hkind heq (by decide)) rfl rfl
  · next heq => exact hone (hkind heq (by decide)) rfl rfl
  · next heq => exact hone (hkind heq (by decide)) rfl rfl
  · next heq => exact hone (hkind heq (by decide)) rfl rfl
  · next heq => exact hone (hkind heq (by decide)) rfl rfl
  · next heq => exact hone (hkind heq (by decide)) rfl rfl
  · next heq => exact hone (hkind heq (by decide)) rfl rfl
  · refine (spans_keyword hc).seq fun _ c₁ hc₁ _ ha₁ _ _ => ?_
    refine (spans_expect hc₁ .dot _ (by decide)).seq fun _ c₂ hc₂ _ ha₂ _ _ => ?_
    refine (spans_expect hc₂ .identifier _ (by decide)).seq
      fun method c₃ hc₃ _ _ _ hmethod => spans_pure hc₃ ?_
    have hproper := hmethod.proper
    exact lies_between rfl rfl hmethod.stops (by omega) trivial
  · refine (spans_keyword hc).seq fun _ c₁ hc₁ _ ha₁ _ _ => ?_
    refine (h.expression c₁ hc₁).seq fun inner c₂ hc₂ _ ha₂ _ hinner => ?_
    refine (spans_expect hc₂ .rightParen _ (by decide)).seq
      fun close c₃ hc₃ hb₃ _ _ hclose => spans_pure hc₃ ?_
    have hproper := hclose.proper
    exact lies_between rfl rfl hclose.stops (by omega)
      ⟨hinner.mono (by omega) (by omega), trivial⟩
  · refine (spans_keyword hc).seq fun _ c₁ hc₁ _ ha₁ _ _ => ?_
    refine (spans_parameters hc₁ fuel).seq fun params c₂ hc₂ _ ha₂ _ _ => ?_
    refine (h.block c₂ hc₂).seq fun body c₃ hc₃ _ _ _ hblock => ?_
    obtain ⟨hbody, hproper⟩ := hblock
    refine spans_lastStop fun stop hstop => spans_pure hc₃ ?_
    exact lies_between rfl rfl hstop (by omega) (hbody.mono (by omega) (by omega))
  · exact spans_fail hc _ _

end ReadsNested

theorem makes_starve {tree : α → Tree Unit} : Makes starve tree := fun _ _ => spans_starve

theorem makesAll_starve {trees : α → List (Tree Unit)} : MakesAll starve trees :=
  fun _ _ => spans_starve

theorem goesOn_starve : GoesOn fun _ => starve := fun _ _ _ _ _ => spans_starve

theorem readsNested_zero : ReadsNested 0 where
  declaration := makesAll_starve
  classDeclaration := makes_starve
  members := makesAll_starve
  method := makes_starve
  functionDeclaration := makes_starve
  varDeclarations := makesAll_starve
  furtherVariables := makesAll_starve
  statement := makes_starve
  block _ _ := spans_starve
  blockItems := makesAll_starve
  expressionStatement := makes_starve
  ifStatement := makes_starve
  whileStatement := makes_starve
  doStatement := makes_starve
  forStatement := makes_starve
  expression := makes_starve
  commas := goesOn_starve
  assignment := makes_starve
  ternary := makes_starve
  binary _ := makes_starve
  operators _ := goesOn_starve
  unary := makes_starve
  trailing := makes_starve
  call := makes_starve
  callRest := goesOn_starve
  arguments _ := makesAll_starve
  primary := makes_starve

/-- What the reader makes is nested, whatever its fuel. -/
theorem readsNested (fuel : Nat) : ReadsNested fuel := by
  induction fuel with
  | zero => exact readsNested_zero
  | succ fuel ih =>
    exact {
      declaration := ih.declaration_succ
      classDeclaration := ih.classDeclaration_succ
      members := ih.members_succ
      method := ih.method_succ
      functionDeclaration := ih.functionDeclaration_succ
      varDeclarations := ih.varDeclarations_succ
      furtherVariables := ih.furtherVariables_succ
      statement := ih.statement_succ
      block := ih.block_succ
      blockItems := ih.blockItems_succ
      expressionStatement := ih.expressionStatement_succ
      ifStatement := ih.ifStatement_succ
      whileStatement := ih.whileStatement_succ
      doStatement := ih.doStatement_succ
      forStatement := ih.forStatement_succ
      expression := ih.expression_succ
      commas := ih.commas_succ
      assignment := ih.assignment_succ
      ternary := ih.ternary_succ
      binary := ih.binary_succ
      operators := ih.operators_succ
      unary := ih.unary_succ
      trailing := ih.trailing_succ
      call := ih.call_succ
      callRest := ih.callRest_succ
      arguments := ih.arguments_succ
      primary := ih.primary_succ }

theorem makesAll_declarations (fuel : Nat) : MakesAll (declarations fuel) (·.map .stmt) := by
  intro c hc
  induction fuel generalizing c with
  | zero => exact spans_starve
  | succ fuel ih =>
    unfold declarations
    change Spans c (if c.atEnd then _ else _) _
    split
    · exact spans_pure hc trivial
    · refine ((readsNested fuel).declaration c hc).seq fun ss c₁ hc₁ _ ha₁ _ hss => ?_
      refine (ih c₁ hc₁).seq fun rest c₂ hc₂ hb₂ _ _ hrest => spans_pure hc₂ ?_
      change Tree.LieAll c.ahead c₂.behind ((ss ++ rest).map .stmt)
      rw [List.map_append]
      exact (hss.mono (by omega) (by omega)).append (hrest.mono (by omega) (by omega))

end Parser

/-! ## Programs -/

/-- Tokens that lie on a source end with an end of input. -/
theorem Covers.ends {source : Text} {unclosed : Prop} {i : Nat} {ts : List Token}
    (h : Covers source unclosed i ts) : ∃ us t, ts = us ++ [t] ∧ t.kind = .endOfInput := by
  induction ts generalizing i with
  | nil => exact h.elim
  | cons t ts ih =>
    cases ts with
    | nil => exact ⟨[], t, rfl, h.1⟩
    | cons u ts =>
      obtain ⟨-, j, k, -, -, -, -, -, -, hrest⟩ := h
      obtain ⟨us, v, heq, hv⟩ := ih hrest
      exact ⟨t :: us, v, by rw [heq]; rfl, hv⟩

/-- Reading begins in line. -/
theorem Cursor.inLine_ofTokens (source : Text) : (ofTokens (tokenize source).tokens).InLine := by
  have hcovers := tokenize_covers source
  obtain ⟨hlaid, -⟩ := hcovers.laid (Nat.zero_le _)
  obtain ⟨ts, t, heq, ht⟩ := hcovers.ends
  have haround : (ofTokens (tokenize source).tokens).around = (tokenize source).tokens := by
    rw [heq, ofTokens_concat ht, around, place_tokens (by simp)]
    cases ts <;> rfl
  exact ⟨(ofTokens_ended _).1, by rwa [haround]⟩

theorem Tree.nested_program {start stop : Position} {stmts : List (Stmt Unit)}
    (hproper : start.offset ≤ stop.offset)
    (h : LieAll start.offset stop.offset (stmts.map .stmt)) :
    (Tree.program ⟨⟨start, stop⟩, stmts⟩).Nested := by
  have hlies : (Tree.program ⟨⟨start, stop⟩, stmts⟩).Lies start.offset stop.offset :=
    .node rfl h hproper (Int.le_refl _) (Int.le_refl _)
  exact hlies.nested

/-- For every source, with syntax errors or without, no span in the tree of its program ends before
it begins, and the span of every statement and expression lies inside that of its parent, up to the
program. -/
theorem spans_nest (source : Text) :
    (Tree.program (parseProgram (tokenize source).tokens).1).Nested := by
  have hline := Cursor.inLine_ofTokens source
  have hspans := Parser.makesAll_declarations (Parser.fuelFor (tokenize source).tokens) _ hline
  unfold Parser.Spans at hspans
  -- the span of a program goes from its first token to the end of input, where reading stops
  unfold parseProgram
  dsimp only
  cases hread : Parser.declarations (Parser.fuelFor (tokenize source).tokens)
      (.ofTokens (tokenize source).tokens) with
  | starved => exact Tree.nested_program (Int.le_refl _) trivial
  | failed c =>
    rw [hread] at hspans
    obtain ⟨hc, -, hahead, -⟩ := hspans
    exact Tree.nested_program (Int.le_trans hahead hc.proper) trivial
  | ok stmts c =>
    rw [hread] at hspans
    obtain ⟨⟨hc, -, hahead, horder⟩, hstmts⟩ := hspans
    refine Tree.nested_program (Int.le_trans hahead hc.proper) (hstmts.mono (Int.le_refl _) ?_)
    exact Int.le_trans horder hc.proper

end Scriptlet

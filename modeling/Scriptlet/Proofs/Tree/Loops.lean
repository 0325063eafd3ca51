import Scriptlet.Proofs.Scope.Jumps
import Scriptlet.Proofs.Tree.Precedence

/-!
# Loops as they are written

There is one loop in a tree, but there are three in a source (`LoopForm`): `while`, `do` and `for`.
`LoopForm.Written` says how the clauses of a loop stand in the tokens, one after the other, and
`LoopForm.Desugars` which statement stands for it: a `for` loop without a test tests a constant, and
one with an initializer is a block of the initializer and the loop.

The reader makes of every loop the statement that stands for it (`Parser.statement_written`), and
links do not change what loop a statement stands for (`LoopForm.Desugars.of_bare`).
-/

namespace Scriptlet

/-- A loop as it is written. -/
inductive LoopForm (β : Type) where
  | whileDo (condition : Expr β) (body : Stmt β)
  | doWhile (body : Stmt β) (condition : Expr β)
  /-- Every clause may be absent. -/
  | forDo (init : Option (List (Stmt β))) (test update : Option (Expr β)) (body : Stmt β)

/-- A statement that may stand in an initializer: the declaration of a variable or an expression. -/
def Stmt.IsClause {β : Type} : Stmt β → Prop
  | .declareVar .. | .evaluate .. => True
  | _ => False

namespace LoopForm

/-- The same loop without links. -/
def bare : LoopForm (Option Link) → LoopForm Unit
  | .whileDo condition body => .whileDo condition.bare body.bare
  | .doWhile body condition => .doWhile body.bare condition.bare
  | .forDo init test update body =>
    .forDo (init.map Stmt.bareList) (test.map Expr.bare) (update.map Expr.bare) body.bare

section

variable {β : Type}

/-- The statements that stand for a loop. The constant for an absent test has the span of some
token. -/
inductive Desugars : LoopForm β → Stmt β → Prop where
  | whileDo {span : Span} {condition : Expr β} {body : Stmt β} :
    Desugars (.whileDo condition body) (.loop span condition body none false)
  | doWhile {span : Span} {condition : Expr β} {body : Stmt β} :
    Desugars (.doWhile body condition) (.loop span condition body none true)
  | forDo {span place : Span} {test update : Option (Expr β)} {body : Stmt β} :
    Desugars (.forDo none test update body)
      (.loop span (test.getD (.literal place (.bool true))) body update false)
  | forInit {span place : Span} {init : List (Stmt β)} {test update : Option (Expr β)}
    {body : Stmt β} :
    Desugars (.forDo (some init) test update body)
      (.block span
        (init ++ [.loop span (test.getD (.literal place (.bool true))) body update false]))

/-- A loop whose initializer, if it has one, only declares variables or evaluates an expression. -/
def Plain : LoopForm β → Prop
  | .forDo (some init) .. => ∀ s ∈ init, s.IsClause
  | _ => True

end

end LoopForm

/-! ## Linked loops -/

theorem Stmt.bare_eq_loop {s : Stmt (Option Link)} {span : Span} {condition : Expr Unit}
    {body : Stmt Unit} {update : Option (Expr Unit)} {bodyFirst : Bool}
    (h : s.bare = .loop span condition body update bodyFirst) :
    ∃ condition' body' update', s = .loop span condition' body' update' bodyFirst ∧
      condition'.bare = condition ∧ body'.bare = body ∧ update'.map Expr.bare = update := by
  cases s with
  | loop span' condition' body' update' bodyFirst' =>
    cases update' with
    | _ =>
      cases h
      exact ⟨condition', body', _, rfl, rfl, rfl, rfl⟩
  | declareVar _ _ init => cases init <;> cases h
  | branch _ _ _ onFalse => cases onFalse <;> cases h
  | leave _ _ value => cases value <;> cases h
  | _ => cases h

theorem Stmt.bare_eq_block {s : Stmt (Option Link)} {span : Span} {stmts : List (Stmt Unit)}
    (h : s.bare = .block span stmts) :
    ∃ stmts', s = .block span stmts' ∧ bareList stmts' = stmts := by
  cases s with
  | block span' stmts' =>
    cases h
    exact ⟨stmts', rfl, rfl⟩
  | loop _ _ _ update _ => cases update <;> cases h
  | declareVar _ _ init => cases init <;> cases h
  | branch _ _ _ onFalse => cases onFalse <;> cases h
  | leave _ _ value => cases value <;> cases h
  | _ => cases h

theorem Stmt.isClause_bare {s : Stmt (Option Link)} : s.bare.IsClause ↔ s.IsClause := by
  cases s with
  | loop _ _ _ update _ => cases update <;> exact Iff.rfl
  | declareVar _ _ init => cases init <;> exact Iff.rfl
  | branch _ _ _ onFalse => cases onFalse <;> exact Iff.rfl
  | leave _ _ value => cases value <;> exact Iff.rfl
  | _ => exact Iff.rfl

namespace LoopForm

/-- The test of a linked loop: it is absent where it was absent before. -/
theorem test_of_bare {condition : Expr (Option Link)} {test : Option (Expr Unit)} {place : Span}
    (h : condition.bare = test.getD (.literal place (.bool true))) :
    ∃ test' : Option (Expr (Option Link)), test'.map Expr.bare = test ∧
      condition = test'.getD (.literal place (.bool true)) := by
  cases test with
  | some e => exact ⟨some condition, congrArg some h, rfl⟩
  | none =>
    refine ⟨none, rfl, ?_⟩
    cases condition with
    | literal => cases h; rfl
    | _ => cases h

/-- A linked statement stands for a linked loop if it stands for the loop without its links. -/
theorem Desugars.of_bare {loop : LoopForm Unit} {s : Stmt (Option Link)}
    (h : loop.Desugars s.bare) : ∃ loop' : LoopForm (Option Link),
      loop'.bare = loop ∧ loop'.Desugars s := by
  generalize hs : s.bare = t at h
  cases h with
  | whileDo =>
    obtain ⟨condition, body, update, rfl, rfl, rfl, hupdate⟩ := Stmt.bare_eq_loop hs
    obtain rfl := Option.map_eq_none_iff.mp hupdate
    exact ⟨.whileDo condition body, rfl, .whileDo⟩
  | doWhile =>
    obtain ⟨condition, body, update, rfl, rfl, rfl, hupdate⟩ := Stmt.bare_eq_loop hs
    obtain rfl := Option.map_eq_none_iff.mp hupdate
    exact ⟨.doWhile body condition, rfl, .doWhile⟩
  | forDo =>
    obtain ⟨condition, body, update, rfl, hcondition, rfl, rfl⟩ := Stmt.bare_eq_loop hs
    obtain ⟨test, rfl, rfl⟩ := test_of_bare hcondition
    exact ⟨.forDo none test update body, rfl, .forDo⟩
  | forInit =>
    obtain ⟨stmts, rfl, hstmts⟩ := Stmt.bare_eq_block hs
    rw [Stmt.bareList_eq_map] at hstmts
    obtain ⟨init, last, rfl, rfl, hlast⟩ := List.map_eq_append_iff.mp hstmts
    obtain ⟨l, rfl, hl⟩ := List.map_eq_singleton_iff.mp hlast
    obtain ⟨condition, body, update, rfl, hcondition, rfl, rfl⟩ := Stmt.bare_eq_loop hl
    obtain ⟨test, rfl, rfl⟩ := test_of_bare hcondition
    refine ⟨.forDo (some init) test update body, ?_, .forInit⟩
    rw [bare, Option.map_some, Stmt.bareList_eq_map]

theorem plain_bare {loop : LoopForm (Option Link)} : loop.bare.Plain ↔ loop.Plain := by
  cases loop with
  | whileDo | doWhile => exact Iff.rfl
  | forDo init =>
    cases init with
    | none => exact Iff.rfl
    | some init =>
      change (∀ s ∈ Stmt.bareList init, s.IsClause) ↔ ∀ s ∈ init, s.IsClause
      simp only [Stmt.bareList_eq_map, List.mem_map, forall_exists_index, and_imp,
        forall_apply_eq_imp_iff₂, Stmt.isClause_bare]

end LoopForm

/-! ## Reading loops -/

/-- A token of some kind stands at a place, and another place is the one after it. -/
def Cursor.Passes (kind : Kind) (c c' : Cursor) : Prop := c.current.kind = kind ∧ c' = c.advance

/-- Whether something was read. -/
def Parsed.isOk {α : Type} : Parsed α → Bool
  | .ok .. => true
  | .failed _ | .starved => false

namespace Parser

variable {α β : Type}

/-- With some amount of fuel, a reader reads something from one place up to another. -/
def ReadsUpTo (p : Nat → Parser α) (c : Cursor) (a : α) (c' : Cursor) : Prop :=
  ∃ fuel, p fuel c = .ok a c'

/-- The initializer of a `for` loop with the semicolon behind it. -/
inductive Initializer : Cursor → Option (List (Stmt Unit)) → Cursor → Prop where
  | absent {c c' : Cursor} : c.Passes .semicolon c' → Initializer c none c'
  | vars {c c' : Cursor} {stmts : List (Stmt Unit)} : c.current.kind = .kwVar →
    ReadsUpTo varDeclarations c stmts c' → Initializer c (some stmts) c'
  | expr {c c' : Cursor} {s : Stmt Unit} : c.current.kind ≠ .semicolon → c.current.kind ≠ .kwVar →
    ReadsUpTo expressionStatement c s c' → Initializer c (some [s]) c'

/-- An expression before a token of some kind, or nothing. -/
inductive Clause (stop : Kind) : Cursor → Option (Expr Unit) → Cursor → Prop where
  | absent {c : Cursor} : c.current.kind = stop → Clause stop c none c
  | present {c c' : Cursor} {e : Expr Unit} : c.current.kind ≠ stop →
    ReadsUpTo expression c e c' → Clause stop c (some e) c'

end Parser

open Scriptlet.Parser in
/-- A loop that is written between two places: its keywords, parentheses and semicolons, and what
stands between them. -/
inductive LoopForm.Written : Cursor → LoopForm Unit → Cursor → Prop where
  | whileDo {c c₁ c₂ c₃ c₄ c₅ : Cursor} {condition : Expr Unit} {body : Stmt Unit} :
    c.Passes .kwWhile c₁ → c₁.Passes .leftParen c₂ → ReadsUpTo expression c₂ condition c₃ →
    c₃.Passes .rightParen c₄ → ReadsUpTo statement c₄ body c₅ →
    Written c (.whileDo condition body) c₅
  | doWhile {c c₁ c₂ c₃ c₄ c₅ c₆ c₇ : Cursor} {condition : Expr Unit} {body : Stmt Unit} :
    c.Passes .kwDo c₁ → ReadsUpTo statement c₁ body c₂ → c₂.Passes .kwWhile c₃ →
    c₃.Passes .leftParen c₄ → ReadsUpTo expression c₄ condition c₅ → c₅.Passes .rightParen c₆ →
    c₆.Passes .semicolon c₇ → Written c (.doWhile body condition) c₇
  | forDo {c c₁ c₂ c₃ c₄ c₅ c₆ c₇ c₈ : Cursor} {init : Option (List (Stmt Unit))}
    {test update : Option (Expr Unit)} {body : Stmt Unit} :
    c.Passes .kwFor c₁ → c₁.Passes .leftParen c₂ → Initializer c₂ init c₃ →
    Clause .semicolon c₃ test c₄ → c₄.Passes .semicolon c₅ → Clause .rightParen c₅ update c₆ →
    c₆.Passes .rightParen c₇ → ReadsUpTo statement c₇ body c₈ →
    Written c (.forDo init test update body) c₈

namespace Parser

variable {fuel : Nat} {c c' : Cursor} {s : Stmt Unit}

theorem expect_passes {kind : Kind} {what : Expected} {t : Token}
    (h : expect kind what c = .ok t c') : c.Passes kind c' ∧ t = c.current := by
  unfold expect at h
  split at h
  · next hsees =>
    cases h
    exact ⟨⟨of_decide_eq_true hsees, rfl⟩, rfl⟩
  · cases h

theorem accepts_cases {kind : Kind} {b : Bool} (h : accepts kind c = .ok b c') :
    (b = true ∧ c.Passes kind c') ∨ (b = false ∧ c.current.kind ≠ kind ∧ c' = c) := by
  unfold accepts at h
  split at h
  · next hsees =>
    cases h
    exact .inl ⟨rfl, of_decide_eq_true hsees, rfl⟩
  · next hsees =>
    cases h
    exact .inr ⟨rfl, fun hk => hsees (decide_eq_true hk), rfl⟩

theorem whileStatement_written (hkind : c.current.kind = .kwWhile)
    (h : whileStatement fuel c = .ok s c') :
    ∃ loop : LoopForm Unit, loop.Written c c' ∧ loop.Desugars s := by
  cases fuel with
  | zero => cases h
  | succ fuel =>
    rw [whileStatement] at h
    obtain ⟨_, c₁, ⟨⟩, h⟩ := bind_ok h
    obtain ⟨_, c₂, hopen, h⟩ := bind_ok h
    obtain ⟨condition, c₃, hcondition, h⟩ := bind_ok h
    obtain ⟨_, c₄, hclose, h⟩ := bind_ok h
    obtain ⟨body, c₅, hbody, h⟩ := bind_ok h
    obtain ⟨_, _, ⟨⟩, ⟨⟩⟩ := bind_ok h
    exact ⟨.whileDo condition body, .whileDo ⟨hkind, rfl⟩ (expect_passes hopen).1
      ⟨fuel, hcondition⟩ (expect_passes hclose).1 ⟨fuel, hbody⟩, .whileDo⟩

theorem doStatement_written (hkind : c.current.kind = .kwDo)
    (h : doStatement fuel c = .ok s c') :
    ∃ loop : LoopForm Unit, loop.Written c c' ∧ loop.Desugars s := by
  cases fuel with
  | zero => cases h
  | succ fuel =>
    rw [doStatement] at h
    obtain ⟨_, c₁, ⟨⟩, h⟩ := bind_ok h
    obtain ⟨body, c₂, hbody, h⟩ := bind_ok h
    obtain ⟨_, c₃, hwhile, h⟩ := bind_ok h
    obtain ⟨_, c₄, hopen, h⟩ := bind_ok h
    obtain ⟨condition, c₅, hcondition, h⟩ := bind_ok h
    obtain ⟨_, c₆, hclose, h⟩ := bind_ok h
    obtain ⟨_, c₇, hsemi, h⟩ := bind_ok h
    obtain ⟨_, _, ⟨⟩, ⟨⟩⟩ := bind_ok h
    exact ⟨.doWhile body condition, .doWhile ⟨hkind, rfl⟩ ⟨fuel, hbody⟩ (expect_passes hwhile).1
      (expect_passes hopen).1 ⟨fuel, hcondition⟩ (expect_passes hclose).1
      (expect_passes hsemi).1, .doWhile⟩

/-- What the reader does with the first clause of a `for` loop. -/
theorem initializer_read {f : Option (List (Stmt Unit)) → Parser (Stmt Unit)}
    (h : (accepts .semicolon >>= fun none? => sees .kwVar >>= fun vars? =>
      if none? = true then pure none >>= f
      else if vars? = true then varDeclarations fuel >>= fun ss => pure (some ss) >>= f
      else expressionStatement fuel >>= fun stmt => pure (some [stmt]) >>= f) c = .ok s c') :
    ∃ init c₁, Initializer c init c₁ ∧ f init c₁ = .ok s c' := by
  obtain ⟨none?, c₁, haccepts, hrest⟩ := bind_ok h
  rw [sees_bind] at hrest
  rcases accepts_cases haccepts with ⟨rfl, hpasses⟩ | ⟨rfl, hsemi, hstay⟩
  · exact ⟨none, c₁, .absent hpasses, hrest⟩
  · rw [if_neg Bool.false_ne_true, hstay] at hrest
    split at hrest
    · next hvar =>
      obtain ⟨stmts, c₂, hread, hrest⟩ := bind_ok hrest
      exact ⟨some stmts, c₂, .vars (of_decide_eq_true hvar) ⟨fuel, hread⟩, hrest⟩
    · next hvar =>
      obtain ⟨stmt, c₂, hread, hrest⟩ := bind_ok hrest
      refine ⟨some [stmt], c₂, .expr hsemi ?_ ⟨fuel, hread⟩, hrest⟩
      intro hkind
      exact hvar (decide_eq_true hkind)

/-- What the reader does with a clause that may be absent. -/
theorem clause_read {stop : Kind} {f : Option (Expr Unit) → Parser (Stmt Unit)}
    (h : (sees stop >>= fun none? => if none? = true then pure none >>= f
      else expression fuel >>= fun e => pure (some e) >>= f) c = .ok s c') :
    ∃ clause c₁, Clause stop c clause c₁ ∧ f clause c₁ = .ok s c' := by
  rw [sees_bind] at h
  split at h
  · next hstop => exact ⟨none, c, .absent (of_decide_eq_true hstop), h⟩
  · next hstop =>
    obtain ⟨e, c₁, hread, h⟩ := bind_ok h
    refine ⟨some e, c₁, .present ?_ ⟨fuel, hread⟩, h⟩
    intro hkind
    exact hstop (decide_eq_true hkind)

theorem forStatement_written (hkind : c.current.kind = .kwFor)
    (h : forStatement fuel c = .ok s c') :
    ∃ loop : LoopForm Unit, loop.Written c c' ∧ loop.Desugars s := by
  cases fuel with
  | zero => cases h
  | succ fuel =>
    rw [forStatement] at h
    obtain ⟨_, c₁, ⟨⟩, h⟩ := bind_ok h
    obtain ⟨_, c₂, hopen, h⟩ := bind_ok h
    dsimp only at h
    obtain ⟨init, c₃, hinit, h⟩ := initializer_read h
    obtain ⟨test, c₄, htest, h⟩ := clause_read h
    obtain ⟨semicolon, c₅, hsemi, h⟩ := bind_ok h
    obtain ⟨update, c₆, hupdate, h⟩ := clause_read h
    obtain ⟨_, c₇, hclose, h⟩ := bind_ok h
    obtain ⟨body, c₈, hbody, h⟩ := bind_ok h
    obtain ⟨stop, _, ⟨⟩, h⟩ := bind_ok h
    have hwritten {c'' : Cursor} (hend : c'' = c₈) :
        (LoopForm.forDo init test update body).Written c c'' :=
      hend ▸ .forDo ⟨hkind, rfl⟩ (expect_passes hopen).1 hinit htest (expect_passes hsemi).1
        hupdate (expect_passes hclose).1 ⟨fuel, hbody⟩
    cases init with
    | none =>
      cases h
      exact ⟨_, hwritten rfl, .forDo⟩
    | some stmts =>
      cases h
      exact ⟨_, hwritten rfl, .forInit⟩

/-- Words that loops begin with. -/
def BeginsLoop (kind : Kind) : Prop := kind = .kwFor ∨ kind = .kwWhile ∨ kind = .kwDo

/-- A statement that is read where a loop begins stands for the loop that is written there. -/
theorem statement_written (hloop : BeginsLoop c.current.kind) (h : statement fuel c = .ok s c') :
    ∃ loop : LoopForm Unit, loop.Written c c' ∧ loop.Desugars s := by
  cases fuel with
  | zero => cases h
  | succ fuel =>
    rw [statement, peek_bind] at h
    rcases hloop with hkind | hkind | hkind
    · rw [hkind] at h
      exact forStatement_written hkind h
    · rw [hkind] at h
      exact whileStatement_written hkind h
    · rw [hkind] at h
      exact doStatement_written hkind h

/-! ## Initializers -/

theorem clauses_furtherVariables (fuel : Nat) :
    Gives (furtherVariables fuel) fun stmts => ∀ s ∈ stmts, s.IsClause := by
  induction fuel with
  | zero => exact gives_starve
  | succ fuel ih =>
    unfold furtherVariables
    refine gives_seq fun more => ?_
    split
    · refine gives_seq fun name => gives_seq fun _ => gives_seq fun init => gives_seq fun stop => ?_
      exact ih.bind fun rest hrest => gives_pure (List.forall_mem_cons.mpr ⟨trivial, hrest⟩)
    · exact gives_pure (List.forall_mem_nil _)

theorem clauses_varDeclarations (fuel : Nat) :
    Gives (varDeclarations fuel) fun stmts => ∀ s ∈ stmts, s.IsClause := by
  cases fuel with
  | zero => exact gives_starve
  | succ fuel =>
    unfold varDeclarations
    refine gives_seq fun start => gives_seq fun name => gives_seq fun initialized => ?_
    extract_lets rest
    have hrest : ∀ init, Gives (rest init) fun stmts => ∀ s ∈ stmts, s.IsClause := by
      intro init
      refine gives_seq fun stop => (clauses_furtherVariables fuel).bind fun more hmore => ?_
      exact gives_seq fun _ => gives_pure (List.forall_mem_cons.mpr ⟨trivial, hmore⟩)
    split
    · exact gives_seq fun value => hrest (some value)
    · exact hrest none

theorem clause_expressionStatement (fuel : Nat) :
    Gives (expressionStatement fuel) Stmt.IsClause := by
  cases fuel with
  | zero => exact gives_starve
  | succ fuel =>
    unfold expressionStatement
    exact gives_seq fun _ => gives_seq fun _ => gives_seq fun _ => gives_pure trivial

end Parser

open Scriptlet.Parser in
theorem LoopForm.Written.plain {c c' : Cursor} {loop : LoopForm Unit} (h : loop.Written c c') :
    loop.Plain := by
  cases h with
  | whileDo | doWhile => trivial
  | forDo _ _ hinit =>
    cases hinit with
    | absent => trivial
    | vars _ hread =>
      obtain ⟨fuel, hread⟩ := hread
      exact clauses_varDeclarations fuel _ _ _ hread
    | expr _ _ hread =>
      obtain ⟨fuel, hread⟩ := hread
      exact List.forall_mem_singleton.mpr (clause_expressionStatement fuel _ _ _ hread)

end Scriptlet

import Scriptlet.Proofs.Tree.Requirement
import Scriptlet.Token.Lexer

/-!
# Trees that are read are well-formed

The lexer makes a token of kind `super` exactly of the word `super`, so that no identifier is that
word (`tokenize_spelled`). From such tokens the reader makes well-formed trees, and what it finds
wrong are errors: both are asked for at once (`Requirement.wellFormed`). The results are
`parseProgram_wellFormed` and `parseExpression_wellFormed`.
-/

namespace Scriptlet

/-! ## Tokens -/

/-- A token that is of the kind of `super` exactly if it is this word, where it is a word. -/
structure Token.Spelled (t : Token) : Prop where
  identifier : t.kind = .identifier → t.Ordinary
  inherited : t.kind = .kwSuper → t.lexeme = "super"

theorem Token.spelled_of_kind {t : Token} (h : t.kind ≠ .identifier) (h' : t.kind ≠ .kwSuper) :
    t.Spelled :=
  ⟨fun hk => absurd hk h, fun hk => absurd hk h'⟩

theorem Kind.text_of_ofWord {word : Text} {k : Kind} (h : Kind.ofWord word = k)
    (hk : k ≠ .identifier) : word = k.text := by
  unfold Kind.ofWord at h
  cases hf : keywords.find? fun k => k.text == word with
  | none => rw [hf] at h; exact absurd h.symm hk
  | some k' =>
    rw [hf] at h
    have := List.find?_some hf
    simp only [Option.getD_some] at h
    subst h
    exact (beq_iff_eq.mp this).symm

theorem Kind.ofWord_super : Kind.ofWord ("super" : Text) = .kwSuper := by
  decide +kernel

namespace Lexer

theorem kind_of_operator? {b : UInt8} {rest : Text} {k : Kind} {n : Nat}
    (h : operator? b rest = some (k, n)) : k ≠ .identifier ∧ k.isKeyword = false := by
  unfold operator? at h
  split at h
  all_goals
    cases h
    try exact ⟨by decide, by decide⟩

theorem piece_cutNumber (b : UInt8) (rest : Text) :
    ∃ value, (cutNumber b rest).piece = .number value := by
  unfold cutNumber
  dsimp only
  split
  · split
    · exact ⟨_, rfl⟩
    · exact ⟨_, rfl⟩
  · exact ⟨_, rfl⟩

/-- The kind of a token is told by its word, or is that of no word. -/
theorem kind_of_cut {b : UInt8} {rest : Text} {kind : Kind} {literal : Option Literal}
    (h : (cut b rest).piece.token? (cut b rest).bytes = some (kind, literal)) :
    kind = Kind.ofWord (cut b rest).bytes ∨ kind ≠ .identifier ∧ kind.isKeyword = false := by
  revert h
  unfold cut
  split
  · intro h
    cases h
  · split
    · intro h
      cases h
    · intro h
      cases h
    · intro h
      cases h
      exact .inr ⟨by decide, by decide⟩
    · split
      · obtain ⟨value, hpiece⟩ := piece_cutNumber b rest
        rw [hpiece]
        intro h
        cases h
        exact .inr ⟨by decide, by decide⟩
      · split
        · intro h
          cases h
          exact .inl rfl
        · split
          · next hop =>
            intro h
            cases h
            exact .inr (kind_of_operator? hop)
          · intro h
            cases h
            exact .inr ⟨by decide, by decide⟩

/-- A piece of source whose token, if it makes one, is spelled as its kind says. -/
def PieceSpelled (piece : Piece) (bytes : Text) : Prop :=
  ∀ (kind : Kind) (literal : Option Literal) (span : Span),
    piece.token? bytes = some (kind, literal) → Token.Spelled ⟨kind, bytes, literal, span⟩

theorem pieceSpelled_cut (b : UInt8) (rest : Text) :
    PieceSpelled (cut b rest).piece (cut b rest).bytes := by
  intro kind literal span h
  rcases kind_of_cut h with rfl | ⟨hname, hkeyword⟩
  · refine ⟨fun hk hb => ?_, fun hk => Kind.text_of_ofWord hk (by decide)⟩
    change Kind.ofWord (cut b rest).bytes = .identifier at hk
    change (cut b rest).bytes = "super" at hb
    rw [hb, Kind.ofWord_super] at hk
    cases hk
  · refine Token.spelled_of_kind hname fun hk => ?_
    change kind = .kwSuper at hk
    rw [hk] at hkeyword
    cases hkeyword

theorem pieceSpelled_pieces (fuel : Nat) (source : Text) :
    ∀ p ∈ pieces fuel source, PieceSpelled p.1 p.2 := by
  induction fuel generalizing source with
  | zero => simp [pieces]
  | succ fuel ih =>
    cases source with
    | nil => simp [pieces]
    | cons b rest =>
      intro p hp
      rcases List.mem_cons.mp hp with rfl | hp
      · exact pieceSpelled_cut b rest
      · exact ih _ p hp

theorem place_spelled (start : Position) (ps : List (Piece × Text))
    (h : ∀ p ∈ ps, PieceSpelled p.1 p.2) : ∀ t ∈ (place start ps).tokens, t.Spelled := by
  induction ps generalizing start with
  | nil =>
    intro t ht
    rw [List.mem_singleton.mp ht]
    exact Token.spelled_of_kind nofun nofun
  | cons p ps ih =>
    obtain ⟨piece, bytes⟩ := p
    intro t ht
    rcases List.mem_append.mp ht with ht | ht
    · rw [Option.mem_toList, Option.map_eq_some_iff] at ht
      obtain ⟨⟨kind, literal⟩, htoken, rfl⟩ := ht
      exact h _ List.mem_cons_self kind literal _ htoken
    · exact ih _ (fun p hp => h p (List.mem_cons_of_mem _ hp)) t ht

end Lexer

/-- Every token of a source is spelled as its kind says. -/
theorem tokenize_spelled (source : Text) : ∀ t ∈ (tokenize source).tokens, t.Spelled :=
  Lexer.place_spelled _ _ (Lexer.pieceSpelled_pieces _ source)

/-! ## Trees -/

namespace Requirement

/-- Well-formed trees of tokens that are spelled as their kinds say, and no faults but errors. -/
def wellFormed : Requirement where
  token := Token.Spelled
  fault d := d.isError
  expr := Expr.WellFormed
  stmt := Stmt.WellFormed
  method d := d.function.WellFormed
  report _ _ := rfl

theorem wellFormed_missingEnd : wellFormed.token .missingEnd := Token.spelled_of_kind nofun nofun

/-- An identifier may name a variable. -/
theorem TokenOf.ordinary {t : Token} (h : wellFormed.TokenOf .identifier t) : t.Ordinary :=
  h.2.identifier h.1

theorem Names.ordinary {ts : List Token} (h : wellFormed.Names ts) : ∀ t ∈ ts, t.Ordinary :=
  fun t ht => (h t ht).ordinary

theorem isBinary_of_bindingPower {k : Kind} (h : 0 < Parser.bindingPower k) (hand : k ≠ .kwAnd)
    (hor : k ≠ .kwOr) : k.isBinary := by
  cases k
  all_goals first | rfl | exact absurd h (by decide) | exact absurd rfl hand | exact absurd rfl hor

theorem wellFormed_combine {left right : Expr Unit} {op : Token} (hl : left.WellFormed)
    (hop : 0 < Parser.bindingPower op.kind) (hr : right.WellFormed) :
    (Parser.combine left op right).WellFormed := by
  unfold Parser.combine
  dsimp only
  split
  · exact ⟨hl, hr⟩
  · next hlogical =>
    rw [not_or] at hlogical
    exact ⟨.inr (isBinary_of_bindingPower hop hlogical.1 hlogical.2), hl, hr⟩

theorem wellFormed_assignment? {target value expr : Expr Unit} {op : Token}
    (ht : target.WellFormed) (hop : op.kind = .assign ∨ op.kind.isCompoundAssign)
    (hv : value.WellFormed) (h : Parser.assignment? target op value = some expr) :
    expr.WellFormed := by
  unfold Parser.assignment? at h
  split at h
  · cases h; exact ⟨ht, hop, hv⟩
  · split at h
    · cases h; exact ⟨ht, hv⟩
    · cases h
  · cases h

theorem wellFormed_closedStatements : wellFormed.ClosedStatements where
  evaluate h := h
  print _ h := h
  declareVar := by
    rintro _ name (_ | init) hname hinit
    · exact hname.ordinary
    · exact ⟨hname.ordinary, hinit init rfl⟩
  block h := Stmt.wellFormedList_iff.mpr h
  branch := by
    rintro _ condition onTrue (_ | onFalse) hcondition hTrue hFalse
    · exact ⟨hcondition, hTrue⟩
    · exact ⟨hcondition, hTrue, hFalse onFalse rfl⟩
  loop := by
    rintro _ condition body (_ | update) after hcondition hbody hupdate
    · exact ⟨hcondition, hbody⟩
    · exact ⟨hcondition, hbody, hupdate update rfl⟩
  always := trivial
  leave := by
    rintro _ keyword (_ | value) - hvalue
    · trivial
    · exact hvalue value rfl
  breakLoop _ := trivial
  continueLoop _ := trivial
  declareFunction hname _ hparams hbody :=
    ⟨hname.ordinary, hparams.ordinary, nofun, Stmt.wellFormedList_iff.mpr hbody⟩
  declareClass hname _ hmethods hclassMethods :=
    ⟨hname.ordinary, Declaration.wellFormedList_iff.mpr hmethods,
      Declaration.wellFormedList_iff.mpr hclassMethods⟩
  member _ hparams hgetter hbody :=
    ⟨hparams.ordinary, hgetter, Stmt.wellFormedList_iff.mpr hbody⟩

theorem wellFormed_closed : wellFormed.Closed where
  toClosedStatements := wellFormed_closedStatements
  never := trivial
  nothing := trivial
  constant _ := trivial
  name h := h.ordinary
  receiver _ := trivial
  inherited h _ := h.2.inherited h.1
  group h := h
  lambda _ hparams hbody := ⟨hparams.ordinary, nofun, Stmt.wellFormedList_iff.mpr hbody⟩
  call hcallee _ hargs := ⟨hcallee, Expr.wellFormedList_iff.mpr hargs⟩
  get hobject _ := hobject
  unary hop _ hoperand := ⟨hop, hoperand⟩
  combine hleft hop _ hright := wellFormed_combine hleft hop hright
  ternary hcondition hTrue hFalse := ⟨hcondition, hTrue, hFalse⟩
  assignment? htarget hop _ hvalue h := wellFormed_assignment? htarget hop hvalue h
  comma hleft hop hright := ⟨.inl hop.1, hleft, hright⟩

end Requirement

/-! ## Sources -/

section

open Requirement

variable {tokens : List Token}

/-- Whatever is found wrong with tokens is an error. -/
theorem parseProgram_errors (h : ∀ t ∈ tokens, t.Spelled) :
    ∀ d ∈ (parseProgram tokens).2, d.isError :=
  (parseProgram_meets wellFormed_closed h wellFormed_missingEnd).2

theorem parseExpression_errors (h : ∀ t ∈ tokens, t.Spelled) :
    ∀ d ∈ (parseExpression tokens).2, d.isError :=
  (parseExpression_meets wellFormed_closed h wellFormed_missingEnd).2

/-- A program that is read from well-spelled tokens is well-formed. -/
theorem parseProgram_wellFormed (h : ∀ t ∈ tokens, t.Spelled) :
    Stmt.WellFormedList (parseProgram tokens).1.stmts :=
  Stmt.wellFormedList_iff.mpr (parseProgram_meets wellFormed_closed h wellFormed_missingEnd).1

/-- An expression that is read from well-spelled tokens is well-formed. -/
theorem parseExpression_wellFormed (h : ∀ t ∈ tokens, t.Spelled) {expr : Expr Unit}
    (hexpr : (parseExpression tokens).1 = some expr) : expr.WellFormed :=
  (parseExpression_meets wellFormed_closed h wellFormed_missingEnd).1 expr hexpr

end

end Scriptlet

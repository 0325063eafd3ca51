import Scriptlet.Proofs.Tree.Neighbours
import Scriptlet.Proofs.Tree.Sequence

/-!
# Recovery after faults

A program may consist of pieces with faults in them. If what is read and reported of every piece
does not depend on what stands around it (`Parser.ReadsWith`), then the pieces in a row are read as
the pieces by themselves. This is so for declarations without a fault, and for simple statements,
right or wrong (`parseProgram_pieces`).
-/

namespace Scriptlet

namespace Parser

/-- Tokens that are read as some statements with some findings, after which what comes next is
read. -/
structure ReadsWith (ts : List Token) (stmts : List (Stmt Unit)) (report : Report) : Prop where
  follows : ∀ rest, Follows notElse rest → Follows notElse (ts ++ rest)
  reads : ∀ fuel previous faults rest, Follows notElse rest → ∃ fuel',
    (declarations fuel (.place previous faults (ts ++ rest))).Becomes
      ((declarations fuel' (.place (Cursor.last previous ts) (report.reverse ++ faults) rest)).map
        (stmts ++ ·))

variable {ts us tokens : List Token} {stmts more : List (Stmt Unit)} {report further : Report}

theorem ReadsThrough.readsWith (h : ReadsThrough ts stmts) : ReadsWith ts stmts [] where
  follows rest hrest := by
    have hfollows := h.follows id rest hrest
    rwa [show ts.map (·.move id) = ts from Token.map_relocate_id ts] at hfollows
  reads fuel previous faults rest hrest := by
    have hreads := h.reads id fuel previous faults rest hrest
    rwa [show ts.map (·.move id) = ts from Token.map_relocate_id ts,
      show Stmt.moveList id stmts = stmts from Stmt.relocateList_id stmts] at hreads

namespace ReadsWith

theorem append (h : ReadsWith ts stmts report) (h' : ReadsWith us more further) :
    ReadsWith (ts ++ us) (stmts ++ more) (report ++ further) where
  follows rest hrest := by
    rw [List.append_assoc]
    exact h.follows _ (h'.follows rest hrest)
  reads fuel previous faults rest hrest := by
    obtain ⟨fuel₁, h₁⟩ := h.reads fuel previous faults _ (h'.follows rest hrest)
    obtain ⟨fuel₂, h₂⟩ := h'.reads fuel₁ (Cursor.last previous ts) (report.reverse ++ faults)
      rest hrest
    refine ⟨fuel₂, ?_⟩
    rw [← List.append_assoc] at h₂
    simp only [List.append_assoc ts us, Cursor.last_append, List.reverse_append,
      List.append_assoc stmts more]
    rw [← Parsed.map_append]
    exact Becomes.trans h₁ (Becomes.map h₂ _)

/-- Pieces in a row. -/
theorem flatten {pieces : List (List Token)} {stmts : List Token → List (Stmt Unit)}
    {report : List Token → Report} (h : ∀ ts ∈ pieces, ReadsWith ts (stmts ts) (report ts)) :
    ReadsWith pieces.flatten (pieces.flatMap stmts) (pieces.flatMap report) := by
  induction pieces with
  | nil => exact ReadsThrough.nil.readsWith
  | cons ts pieces ih =>
    rw [List.forall_mem_cons] at h
    rw [List.flatten_cons, List.flatMap_cons, List.flatMap_cons]
    exact h.1.append (ih h.2)

/-- What is read and reported of the tokens before the end of input. -/
theorem parseProgram (h : ReadsWith (beforeEnd tokens) stmts report) :
    (Scriptlet.parseProgram tokens).1.stmts = stmts ∧
      (Scriptlet.parseProgram tokens).2 = report := by
  obtain ⟨t, rest, ht, hplace⟩ := Cursor.ofTokens_place tokens
  obtain ⟨fuel, hread⟩ := h.reads (fuelFor tokens) none [] (t :: rest) (.cons ht (by decide))
  rw [← hplace] at hread
  have hsound := sound_declarations tokens
  cases fuel with
  | zero =>
    obtain hstarved : declarations (fuelFor tokens) (.ofTokens tokens) = .starved :=
      hread.elim id id
    rw [hstarved] at hsound
    exact hsound.elim
  | succ fuel =>
    rw [declarations, atEnd_bind, Cursor.place_atEnd, decide_eq_true ht, if_pos rfl] at hread
    obtain ⟨hstmts, hreport⟩ := parseProgram_eq (Becomes.eq hread hsound)
    refine ⟨hstmts.trans (List.append_nil stmts), hreport.trans ?_⟩
    change (report.reverse ++ []).reverse = report
    rw [List.append_nil, List.reverse_reverse]

end ReadsWith

end Parser

open Scriptlet.Parser

variable {ts : List Token}

theorem beforeEnd_eq (h : ∀ t ∈ ts, t.kind ≠ .endOfInput) : beforeEnd ts = ts := by
  simpa using beforeEnd_append h []

/-- A simple statement is read in a row of others as by itself. All that is reported is at its
tokens, and if it was given up, no statement is read. -/
theorem IsSimple.readsWith (h : IsSimple ts) :
    ReadsWith ts (parseProgram ts).1.stmts (parseProgram ts).2 ∧
      (∀ d ∈ (parseProgram ts).2, ∃ t ∈ ts, d.span = t.span) ∧
      ((∃ d ∈ (parseProgram ts).2, ¬ d.IsLight) → (parseProgram ts).1.stmts = []) := by
  obtain ⟨stmts, faults, hwithin, hlight, hdeclaration⟩ := h.reads
  have hreads : ReadsWith ts stmts faults.reverse := by
    obtain ⟨t, us, hts, hend, helse⟩ := h.begins
    constructor
    · intro rest hrest
      rw [hts]
      exact bne_iff_ne.mpr helse
    · intro fuel previous before rest hrest
      cases fuel with
      | zero => exact ⟨0, .inl rfl⟩
      | succ fuel =>
        have hmore : (Cursor.place previous before (ts ++ rest)).atEnd = false := by
          rw [hts]
          exact decide_eq_false hend
        refine ⟨fuel, ?_⟩
        rw [declarations, atEnd_bind, hmore, if_neg Bool.false_ne_true, List.reverse_reverse]
        refine Becomes.bind (hdeclaration fuel previous before rest hrest) ?_
        rw [bind_pure]
        exact becomes_refl _
  have hwhole : beforeEnd ts = ts := beforeEnd_eq fun t ht => (h.plain t ht).2.2
  have hparse : ReadsWith (beforeEnd ts) stmts faults.reverse := by rwa [hwhole]
  obtain ⟨hstmts, hreport⟩ := hparse.parseProgram
  rw [hstmts, hreport]
  simp only [List.mem_reverse]
  exact ⟨hreads, hwithin, hlight⟩

/-- In a program of pieces, each of which is free of faults or is a simple statement, the statements
of all pieces are read in their order, and exactly the faults of the pieces by themselves are
reported, which are at tokens of simple statements. A simple statement with a fault is left out of
the program, unless its only faults are wrong targets of assignments and too many arguments. -/
theorem parseProgram_pieces {pieces : List (List Token)} {all : List Token}
    (hpieces : ∀ ts ∈ pieces,
      (parseProgram ts).2 = [] ∧ (∀ t ∈ ts, t.kind ≠ .endOfInput) ∨ IsSimple ts)
    (hall : beforeEnd all = pieces.flatten) :
    (parseProgram all).1.stmts = pieces.flatMap (fun ts => (parseProgram ts).1.stmts) ∧
    (parseProgram all).2 = pieces.flatMap (fun ts => (parseProgram ts).2) ∧
    ∀ ts ∈ pieces,
      (∀ d ∈ (parseProgram ts).2, IsSimple ts ∧ ∃ t ∈ ts, d.span = t.span) ∧
      ((∃ d ∈ (parseProgram ts).2, ¬ d.IsLight) → (parseProgram ts).1.stmts = []) := by
  have hreads : ∀ ts ∈ pieces, ReadsWith ts (parseProgram ts).1.stmts (parseProgram ts).2 := by
    intro ts hts
    rcases hpieces ts hts with ⟨hclean, hplain⟩ | hsimple
    · have hthrough := parseProgram_readsThrough hclean
      rw [beforeEnd_eq hplain] at hthrough
      rw [hclean]
      exact hthrough.readsWith
    · exact hsimple.readsWith.1
  have hrow := ReadsWith.flatten hreads
  rw [← hall] at hrow
  refine ⟨hrow.parseProgram.1, hrow.parseProgram.2, fun ts hts => ?_⟩
  rcases hpieces ts hts with ⟨hclean, -⟩ | hsimple
  · rw [hclean]
    exact ⟨List.forall_mem_nil _, fun ⟨d, hd, _⟩ => absurd hd List.not_mem_nil⟩
  · obtain ⟨-, hwithin, hlight⟩ := hsimple.readsWith
    exact ⟨fun d hd => ⟨hsimple, hwithin d hd⟩, hlight⟩

/-- Declarations around a call without its end and an assignment to a number. -/
theorem parseProgram_pieces_brokenCall :
    let all := (tokenize "fun f() \x7b return 1; \x7d print f( 2; 1 = f(); var a = f();").tokens
    let first := beforeEnd all
    let second := first.drop 9
    let third := second.drop 5
    let pieces := [first.take 9, second.take 5, third.take 6, third.drop 6]
    (∀ ts ∈ pieces, (parseProgram ts).2 = [] ∧ (∀ t ∈ ts, t.kind ≠ .endOfInput) ∨ IsSimple ts) ∧
    beforeEnd all = pieces.flatten ∧
    (parseProgram all).1.stmts = pieces.flatMap (fun ts => (parseProgram ts).1.stmts) ∧
    (parseProgram all).2 = pieces.flatMap (fun ts => (parseProgram ts).2) ∧
    (parseProgram all).2.map Diagnostic.code = ["E2001", "E2003"].map Text.ofString := by
  intro all first second third pieces
  have hpieces : ∀ ts ∈ pieces, (parseProgram ts).2 = [] ∧ (∀ t ∈ ts, t.kind ≠ .endOfInput) ∨
      IsSimple ts := by
    decide +kernel
  have hall : beforeEnd all = pieces.flatten := by
    simp only [pieces, List.flatten_cons, List.flatten_nil, List.append_nil, List.take_append_drop,
      third, second, first]
  obtain ⟨hstmts, hreport, -⟩ := parseProgram_pieces hpieces hall
  exact ⟨hpieces, hall, hstmts, hreport, by decide +kernel⟩

/-- A simple statement that assigns to a number does not parse, but its target is read. -/
theorem invalid_target_kept :
    ¬ ∀ (pieces : List (List Token)) (all : List Token),
      (∀ ts ∈ pieces,
        (parseProgram ts).2 = [] ∧ (∀ t ∈ ts, t.kind ≠ .endOfInput) ∨ IsSimple ts) →
      beforeEnd all = pieces.flatten →
      (parseProgram all).1.stmts.Sublist (pieces.flatMap fun ts =>
        if (parseProgram ts).2 = [] then (parseProgram ts).1.stmts else []) := by
  intro hall
  let all := (tokenize "1 = 2;").tokens
  have hfew := (hall [beforeEnd all] all (by decide +kernel) (List.append_nil _).symm).length_le
  revert hfew
  decide +kernel

end Scriptlet

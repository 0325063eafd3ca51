import Scriptlet.Proofs.Evaluator.Relocation

/-!
# Code of two origins

When a program runs on a machine that ran others before it, the code on the heap and the code of the
program come from different sources. If one of them is put somewhere else and the other is not, the
run stays the same, and the place of an error moves with the source that it lies in. To see which
one this is, the code is run once with marked spans: even offsets on the heap, odd ones in the
program (`Span.mark`). Every other run is this one with the marks taken off (`run_unmark`).
-/

namespace Scriptlet

/-! ## Marks -/

namespace Span

/-- Puts a mark, which is 0 or 1, on a span. -/
def mark (bit : Int) (s : Span) : Span :=
  { s with start := { s.start with offset := 2 * s.start.offset + bit } }

/-- A span without its mark. -/
def bare (s : Span) : Span := { s with start := { s.start with offset := s.start.offset / 2 } }

def isOdd (s : Span) : Bool := s.start.offset % 2 = 1

/-- Takes the mark off a span and relocates what is left: by `f` if it was 0, and by `g` if not. -/
def unmark (f g : Span → Span) (s : Span) : Span := if s.isOdd then g s.bare else f s.bare

variable (f g : Span → Span) (s : Span)

theorem unmark_mark_zero : unmark f g (s.mark 0) = f s := by
  have hodd : (s.mark 0).isOdd = false := by
    refine decide_eq_false ?_
    change ¬ (2 * s.start.offset + 0) % 2 = 1
    omega
  have hbare : (s.mark 0).bare = s := by
    have hoffset : (2 * s.start.offset + 0) / 2 = s.start.offset := by omega
    simp only [bare, mark, hoffset]
  rw [unmark, hodd, hbare]
  rfl

theorem unmark_mark_one : unmark f g (s.mark 1) = g s := by
  have hodd : (s.mark 1).isOdd = true := by
    refine decide_eq_true ?_
    change (2 * s.start.offset + 1) % 2 = 1
    omega
  have hbare : (s.mark 1).bare = s := by
    have hoffset : (2 * s.start.offset + 1) / 2 = s.start.offset := by omega
    simp only [bare, mark, hoffset]
  rw [unmark, hodd, hbare]
  rfl

end Span

/-- What is left of a machine if nobody knows where code was written. -/
def Machine.forget (m : Machine) : Machine := m.relocate fun _ => .nowhere

theorem Machine.forget_relocate (h : Span → Span) (m : Machine) :
    (m.relocate h).forget = m.forget :=
  m.relocate_relocate h _

theorem Machine.sink_of_forget {m m' : Machine} (h : m'.forget = m.forget) : m'.sink = m.sink := by
  have hsink : m'.forget.sink = m.forget.sink := congrArg Machine.sink h
  exact hsink

theorem RuntimeError.relocate_congr {h h' : Span → Span} {e : RuntimeError}
    (heq : h e.token.span = h' e.token.span) : e.relocate h = e.relocate h' := by
  simp only [relocate, Token.relocate, heq]

namespace Eval

variable {fuel : Nat} {stmts : List (Stmt (Option Link))} {m m' : Machine}

/-! ## Runs -/

/-- The run of a program that was put somewhere by `g`, on a machine with code that was put somewhere
by `f` and with output from earlier. -/
def runAt (fuel : Nat) (stmts : List (Stmt (Option Link))) (m : Machine) (f g : Span → Span)
    (earlier : List Text) : Outcome Unit :=
  Machine.run fuel (Stmt.relocateList g stmts) ((m.relocate f).after earlier)

theorem runAt_id (fuel : Nat) (stmts : List (Stmt (Option Link))) (m : Machine) :
    runAt fuel stmts m id id [] = Machine.run fuel stmts m := by
  rw [runAt, Stmt.relocateList_id, Machine.relocate_id, Machine.after_nil]

/-- All runs are one run with marks. -/
theorem run_unmark (f g : Span → Span) (earlier : List Text) :
    runAt fuel stmts m f g earlier =
      ((runAt fuel stmts m (.mark 0) (.mark 1) []).relocate (.unmark f g) id).after earlier := by
  have hmarked := run_relocate (.unmark f g) fuel (Stmt.relocateList (.mark 1) stmts) earlier
    (m.relocate (.mark 0))
  rw [Machine.relocate_relocate, Stmt.relocateList_relocateList] at hmarked
  simp only [Span.unmark_mark_zero, Span.unmark_mark_one] at hmarked
  rw [runAt, runAt, Machine.after_nil]
  exact hmarked

/-- Where the code of the machine is put by `f` and that of the program by `g`, an error follows one
of them. -/
def ErrorFollows (own : Bool) (fuel : Nat) (stmts : List (Stmt (Option Link))) (m : Machine) :
    Prop :=
  ∀ e m', Machine.run fuel stmts m = .error e m' → ∀ f g earlier, ∃ m'' : Machine,
    runAt fuel stmts m f g earlier =
      .error (e.relocate (if own then g else f)) (m''.after earlier) ∧ m''.forget = m'.forget

theorem exists_errorFollows (fuel : Nat) (stmts : List (Stmt (Option Link))) (m : Machine) :
    ∃ own, ErrorFollows own fuel stmts m := by
  unfold ErrorFollows
  rw [← runAt_id, run_unmark]
  have hall := @run_unmark fuel stmts m
  generalize runAt fuel stmts m (.mark 0) (.mark 1) [] = o at hall
  cases o with
  | ok a m' => exact ⟨true, fun _ _ h => nomatch h⟩
  | outOfFuel => exact ⟨true, fun _ _ h => nomatch h⟩
  | error e m' =>
    refine ⟨e.token.span.isOdd, ?_⟩
    rintro _ _ ⟨⟩ f g earlier
    refine ⟨m'.relocate (.unmark f g), ?_, ?_⟩
    · have hplace : e.relocate (.unmark f g) =
          (e.relocate (.unmark id id)).relocate (if e.token.span.isOdd then g else f) := by
        change _ = e.relocate fun s => (if e.token.span.isOdd then g else f) (Span.unmark id id s)
        refine RuntimeError.relocate_congr ?_
        unfold Span.unmark
        split <;> rfl
      rw [hall, ← hplace]
      rfl
    · rw [Machine.after_nil, Machine.forget_relocate, Machine.forget_relocate]

/-- A run ends in the same way wherever the code of the machine and that of the program are put. -/
theorem runAt_ok {a : Unit} (h : Machine.run fuel stmts m = .ok a m') (f g : Span → Span)
    (earlier : List Text) : ∃ m'' : Machine,
      runAt fuel stmts m f g earlier = .ok a (m''.after earlier) ∧ m''.forget = m'.forget := by
  rw [← runAt_id, run_unmark] at h
  rw [run_unmark]
  cases ho : runAt fuel stmts m (.mark 0) (.mark 1) [] with
  | ok b m₀ =>
    rw [ho] at h
    cases h
    refine ⟨m₀.relocate (.unmark f g), rfl, ?_⟩
    rw [Machine.after_nil, Machine.forget_relocate, Machine.forget_relocate]
  | error | outOfFuel => rw [ho] at h; cases h

theorem runAt_outOfFuel (h : Machine.run fuel stmts m = .outOfFuel) (f g : Span → Span)
    (earlier : List Text) : runAt fuel stmts m f g earlier = .outOfFuel := by
  rw [← runAt_id, run_unmark] at h
  rw [run_unmark]
  cases ho : runAt fuel stmts m (.mark 0) (.mark 1) [] with
  | ok | error => rw [ho] at h; cases h
  | outOfFuel => rfl

theorem run_append (fuel : Nat) (ss ss' : List (Stmt (Option Link))) :
    Machine.run fuel (ss ++ ss') = Machine.run fuel ss >>= fun _ => Machine.run fuel ss' := by
  funext m
  unfold Machine.run
  induction ss generalizing m with
  | nil => rfl
  | cons s rest ih =>
    simp only [List.cons_append, Machine.runWith, bind_apply] at ih ⊢
    cases (within fuel).stmt s m with
    | ok signal m₁ => exact ih m₁
    | error e m₁ => rfl
    | outOfFuel => rfl

end Eval

end Scriptlet

import Scriptlet.Proofs.Evaluator.Signals
import Scriptlet.Proofs.Session.Loading

/-!
# Signals over a whole session

Code that was loaded was resolved without an error, so its jumps stand where they may
(`placed_of_load`). Functions outlive the source that made them, but all sources of a session were
loaded, and so every function on the heap is placed (`History.holds_placed`). Hence no step lets a
signal out of a function, a loop or the program (`signals_stay_inside`).
-/

namespace Scriptlet

namespace Session

variable {s : Session} {code : Code} {links : List LinkRecord} {report : Report}

/-- The jumps of code that was loaded stand where they may. -/
theorem placed_of_load {step : Step} (h : s.load step = .ready code links report) :
    code.Placed := by
  obtain ⟨hclean, ⟨-, rfl, rfl⟩ | ⟨-, e, -, rfl, rfl⟩⟩ := load_ready h
  · have hplaced := (resolveStmts_demands _ (programOf step.source) _).2 hclean
    exact List.forall_mem_map.mpr (Stmt.ruledList_iff.mp hplaced)
  · have hplaced := (resolveExpr_demands _ e _).2 hclean
    exact List.forall_mem_singleton.mpr hplaced

/-- The jumps of all functions that a session ever made stand where they may. -/
theorem History.holds_placed {codes : List Code} (h : s.History codes) :
    s.machine.heap.Holds Function.Placed := by
  induction h with
  | start settings clock broken => exact holds_start ..
  | takeOutput _ ih => exact ih
  | takeTrace _ ih => exact ih
  | step _ htake ih =>
    rcases heap_of_take htake with hm | ⟨code, links, report, m, hload, hrun, hm⟩
    · rwa [hm]
    · rw [hm]
      exact (placed_of_load hload).holds ih hrun

/-- While a session runs a source, after any history, the body of every function that is run and
every loop that ends without an error ends with a signal to go on or to leave a function, never with
one for a loop around it; and every statement of the program itself ends with the signal to go on. -/
theorem signals_stay_inside {codes : List Code} (hs : s.History codes) {step : Step}
    (hload : s.load step = .ready code links report) (fuel : Nat) :
    ¬ code.Reaches (fun t m => t.Escapes m) fuel s.machine ∧
    ∀ stmts, code = .program stmts → ∀ before stmt after m₁ signal m₂,
      stmts = before ++ stmt :: after → Machine.run fuel before s.machine = .ok () m₁ →
      Eval.within fuel (.stmt stmt) m₁ = .ok signal m₂ → signal = .next := by
  have hplaced := placed_of_load hload
  refine ⟨hplaced.not_reaches_escape hs.holds_placed fuel, ?_⟩
  rintro stmts rfl before stmt after m₁ signal m₂ rfl - hrun
  exact hplaced.signal_eq_next (by simp) hrun

/-- A program with a loop in a getter that is left in the middle, and a function in that loop. -/
def leftLoop : Step :=
  .run ("class C \x7b f \x7b while (true) \x7b fun g() \x7b return none; \x7d " ++
    "if (g() == none) break; \x7d return true; \x7d \x7d print C().f;") []

/-- The loop of this program ends, the getter returns its value, and no signal gets out. -/
theorem signals_stay_inside_leftLoop :
    ((start {} 0 false).take 50 leftLoop).any (fun r => r.1.verdict = .ok ∧
      r.2.machine.sink.text = Text.line "true") ∧
    ∃ code links report, (start {} 0 false).load leftLoop = .ready code links report ∧
      ¬ code.Reaches (fun t m => t.Escapes m) 50 (start {} 0 false).machine := by
  refine ⟨by decide +kernel, ?_⟩
  obtain ⟨code, links, report, hload, -⟩ :=
    Loading.ready_of_any (l := (start {} 0 false).load leftLoop) (p := fun _ => true)
      (by decide +kernel)
  exact ⟨code, links, report, hload, (signals_stay_inside (.start {} 0 false) hload 50).1⟩

end Session

end Scriptlet

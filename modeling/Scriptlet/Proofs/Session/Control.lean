import Scriptlet.Proofs.Session.Steps

/-!
# Where the machine stands between steps

Whichever way a step ends, its machine is back in the outermost scope and outside of all calls, so
that the next step begins where the first one did (`History.at_rest`).
-/

namespace Scriptlet

/-- A source leaves the machine in the scope and at the depth in which it found it. -/
theorem Code.perform_restores (fuel : Nat) (code : Code) : Eval.Restores (code.perform fuel) := by
  have hrun : Eval.Restores (code.runWith (Eval.within fuel)) :=
    Eval.restores_congruence.runWith (r := Eval.within fuel) (Eval.within_restores fuel) code
  cases code with
  | program stmts => exact hrun.bind fun _ => Eval.restores_pure none
  | expression e =>
    exact hrun.bind fun v => (Eval.restores_printLine _).bind fun _ => Eval.restores_pure (some v)

namespace Session

/-- A step ends in the scope and at the depth in which it began. -/
theorem sameControl_of_take {fuel : Nat} {s s' : Session} {step : Step} {result : Result}
    (h : s.take fuel step = some (result, s')) : s.machine.SameControl s'.machine := by
  obtain ⟨-, ⟨_, _, _, hm, _⟩ | ⟨_, _, _, hm, _⟩ | ⟨code, _, _, _, _, hcode⟩⟩ := take_cases h
  · rw [hm]; exact .refl _
  · rw [hm]; exact .refl _
  · have hr := code.perform_restores fuel s.machine
    obtain ⟨value, hp, -⟩ | ⟨e, hp, -⟩ := hcode
    · rw [hp] at hr; exact hr
    · rw [hp] at hr; exact hr

/-- Between steps the machine is in the outermost scope and outside of all calls. -/
theorem History.at_rest {s : Session} {codes : List Code} (h : s.History codes) :
    s.machine.scope = Heap.globals ∧ s.machine.depth = 0 := by
  induction h with
  | start settings clock broken => exact ⟨rfl, rfl⟩
  | step _ htake ih =>
    have hsame := sameControl_of_take htake
    exact ⟨hsame.scope.trans ih.1, hsame.depth.trans ih.2⟩
  | takeOutput _ ih => exact ih
  | takeTrace _ ih => exact ih

/-- Every evaluation, of a statement, an expression or a call, on any machine, ends in the scope and
at the depth in which it began, whether it ends with a value, a signal or an error. So between the
steps of a session the machine is in the outermost scope and outside of all calls, and at every
moment of a step the depth of calls is at most `Eval.maxDepth`. -/
theorem control_restored :
    (∀ (fuel : Nat) (t : Eval.Task) (m : Machine),
      match Eval.within fuel t m with
      | .ok _ m' => m'.scope = m.scope ∧ m'.depth = m.depth
      | .error _ m' => m'.scope = m.scope ∧ m'.depth = m.depth
      | .outOfFuel => True) ∧
    ∀ (s : Session) (codes : List Code), s.History codes →
      s.machine.scope = Heap.globals ∧ s.machine.depth = 0 ∧
      ∀ (code : Code) (fuel : Nat),
        ¬ code.Reaches (fun _ m => Eval.maxDepth < m.depth) fuel s.machine := by
  constructor
  · intro fuel t m
    have h := Eval.within_restores fuel t m
    split
    · next hw => rw [hw] at h; exact ⟨h.scope, h.depth⟩
    · next hw => rw [hw] at h; exact ⟨h.scope, h.depth⟩
    · trivial
  · intro s codes hs
    obtain ⟨hscope, hdepth⟩ := hs.at_rest
    refine ⟨hscope, hdepth, fun code fuel => Eval.not_reaches_beyond_maxDepth code fuel ?_⟩
    rw [hdepth]
    exact Nat.zero_le _

/-- A program that stops at an error inside of a call and two blocks. -/
def nestedError : Step :=
  .run "\x7b \x7b fun f() \x7b missing; \x7d f(); \x7d \x7d" []

theorem control_restored_after_error :
    ∃ result s', (start {} 0 false).take 50 nestedError = some (result, s') ∧
      result.verdict = .runtimeError ∧ s'.machine.scope = Heap.globals ∧ s'.machine.depth = 0 := by
  have hrun : ((start {} 0 false).take 50 nestedError).any
      fun r => r.1.verdict = .runtimeError := by
    decide +kernel
  obtain ⟨⟨result, s'⟩, htake, hv⟩ := (Option.any_eq_true _ _).mp hrun
  obtain ⟨hscope, hdepth, -⟩ := control_restored.2 s' _ (.step (.start {} 0 false) htake)
  exact ⟨result, s', htake, of_decide_eq_true hv, hscope, hdepth⟩

end Session

end Scriptlet

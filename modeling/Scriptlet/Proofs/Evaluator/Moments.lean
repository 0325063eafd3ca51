import Scriptlet.Proofs.Evaluator.Congruence

/-!
# Moments of a run

A run is a tree of evaluations: each begins some task on some machine. To say that something never
happens at such a moment, the run is compared with one that stops there (`Eval.halting`). Nothing
in a program catches an error, so a run comes to a moment of some kind (`Code.Reaches`) exactly if
stopping at moments of that kind makes a difference. A run without an end is covered as well: with
any amount of fuel it is compared as far as the fuel lasts.

The first use is that calls are never nested more deeply than `Eval.maxDepth`
(`not_reaches_beyond_maxDepth`).
-/

namespace Scriptlet

/-- A source that is ready to run: the statements of a program, or an expression that stands
alone. -/
inductive Code where
  | program (stmts : List (Stmt (Option Link)))
  | expression (e : Expr (Option Link))

/-- What a run of a source yields. -/
abbrev Code.Result : Code → Type
  | .program _ => Unit
  | .expression _ => Value

/-- Runs a source with a way to evaluate tasks. -/
def Code.runWith (r : Eval.Runner) : (c : Code) → Eval c.Result
  | .program stmts => Machine.runWith r stmts
  | .expression e => r (.expr e)

namespace Eval

variable {α β : Type}

open Classical in
/-- A computation that stops with an error on machines of some kind. -/
noncomputable def stopWhen (stop : Machine → Prop) (e : RuntimeError) (x : Eval α) : Eval α :=
  fun m => if stop m then .error e m else x m

/-- Evaluation that stops with an error when it begins a task on a machine for which `stop`
holds. -/
noncomputable def halting (stop : Task → Machine → Prop) (e : RuntimeError) : (fuel : Nat) → Runner
  | 0, _ => starve
  | fuel + 1, t => stopWhen (stop t) e (step (halting stop e fuel) t)

theorem stopWhen_of_not {stop : Machine → Prop} {e : RuntimeError} {x : Eval α} {m : Machine}
    (h : ¬ stop m) : stopWhen stop e x m = x m :=
  if_neg h

theorem stopWhen_of {stop : Machine → Prop} {e : RuntimeError} {x : Eval α} {m : Machine}
    (h : stop m) : stopWhen stop e x m = .error e m :=
  if_pos h

end Eval

/-- Whether a run begins a task on a machine for which `stop` holds. -/
def Code.Reaches (stop : Eval.Task → Machine → Prop) (fuel : Nat) (code : Code) (m : Machine) :
    Prop :=
  ∃ e, code.runWith (Eval.halting stop e fuel) m ≠ code.runWith (Eval.within fuel) m

namespace Eval

variable {rel : {α : Type} → Eval α → Eval α → Prop} {r r' : Runner}

/-- A run of a whole source respects a relation if the evaluations in it do. -/
theorem Respects.runWith (h : Respects rel) (hr : ∀ t, rel (r t) (r' t)) (code : Code) :
    rel (code.runWith r) (code.runWith r') := by
  cases code with
  | expression e => exact hr (.expr e)
  | program stmts =>
    change rel (Machine.runWith r stmts) (Machine.runWith r' stmts)
    induction stmts with
    | nil => exact h.pure ()
    | cons s rest ih => exact h.bind (hr (.stmt s)) fun _ => ih

theorem Congruence.runWith (h : Congruence rel) (hr : ∀ t, rel (r t) (r' t)) (code : Code) :
    rel (code.runWith r) (code.runWith r') :=
  h.respects.runWith hr code

/-- Halted evaluation is related to evaluation if stopping is allowed wherever it happens. -/
theorem Congruence.halting (h : Congruence rel) {stop : Task → Machine → Prop} {e : RuntimeError}
    (hstop : ∀ (fuel : Nat) (t : Task) (x : Eval t.Result),
      rel x (Eval.step (Eval.within fuel) t) →
        rel (stopWhen (stop t) e x) (Eval.step (Eval.within fuel) t))
    (fuel : Nat) (t : Task) : rel (Eval.halting stop e fuel t) (Eval.within fuel t) := by
  induction fuel generalizing t with
  | zero => exact h.simple restores_starve
  | succ fuel ih => exact hstop fuel t _ (h.step ih t)

variable {α β : Type}

theorem bind_apply (x : Eval α) (f : α → Eval β) (m : Machine) :
    (x >>= f) m =
      match x m with
      | .ok a m => f a m
      | .error e m => .error e m
      | .outOfFuel => .outOfFuel :=
  rfl

/-! ## The depth of calls -/

/-- Computations that agree on machines whose depth is allowed. -/
def AgreesWithinDepth (x y : Eval α) : Prop :=
  Restores y ∧ ∀ m, m.depth ≤ maxDepth → x m = y m

theorem agreesWithinDepth_congruence : Congruence AgreesWithinDepth where
  simple hx := ⟨hx, fun _ _ => rfl⟩
  bind := by
    rintro _ _ x y f g ⟨hy, hxy⟩ hfg
    refine ⟨hy.bind fun a => (hfg a).1, fun m hm => ?_⟩
    rw [bind_apply, bind_apply, hxy m hm]
    have h := hy m
    cases hym : y m with
    | ok a m' =>
      rw [hym] at h
      have hm' : m'.depth ≤ maxDepth := h.depth ▸ hm
      exact (hfg a).2 m' hm'
    | error e m' => rfl
    | outOfFuel => rfl
  inScope := by
    rintro _ x y scope ⟨hy, hxy⟩
    refine ⟨hy.inScope scope, fun m hm => ?_⟩
    have h : x { m with scope := scope } = y { m with scope := scope } := hxy _ hm
    simp only [inScope, h]
  nested := by
    rintro _ x y token ⟨hy, hxy⟩
    refine ⟨hy.nested token, fun m hm => ?_⟩
    unfold nested
    split
    · rfl
    · next hlt =>
      have h : x { m with depth := m.depth + 1 } = y { m with depth := m.depth + 1 } :=
        hxy _ (Nat.lt_of_not_le hlt)
      rw [h]

/-- A run that begins at an allowed depth never gets beyond the deepest nesting of calls. -/
theorem not_reaches_beyond_maxDepth (code : Code) (fuel : Nat) {m : Machine}
    (hm : m.depth ≤ maxDepth) : ¬ code.Reaches (fun _ m => maxDepth < m.depth) fuel m := by
  rintro ⟨e, h⟩
  have hr : ∀ t, AgreesWithinDepth (halting (fun _ m => maxDepth < m.depth) e fuel t)
      (within fuel t) := by
    refine agreesWithinDepth_congruence.halting ?_ fuel
    intro fuel t x hx
    refine ⟨hx.1, fun m hm => ?_⟩
    rw [stopWhen_of_not (Nat.not_lt.mpr hm)]
    exact hx.2 m hm
  exact h ((agreesWithinDepth_congruence.runWith hr code).2 m hm)

end Eval

end Scriptlet

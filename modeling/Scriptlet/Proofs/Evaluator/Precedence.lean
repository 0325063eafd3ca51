import Scriptlet.Proofs.Evaluator.Receivers
import Scriptlet.Proofs.Evaluator.Runs

/-!
# What comes before a moment

Some moments of a run only come after others. To say so, a run that stops at moments of the one kind
is compared with one that stops at both kinds, with an error that tells which (`Eval.haltingAt`). If
they are the same, no moment of the second kind comes first (`Code.Precedes`).

A run of code all of whose uses of `super` are listed upholds a settled heap up to the first fixture
that its ledger does not allow (`Code.Listed.upholds`). So whatever a task that suits is not, needs
this fixture before it (`Code.Listed.precedes`).
-/

namespace Scriptlet

namespace Eval

/-- Evaluation that stops with one error when it begins a task on a machine for which `first` holds,
and else with another one for which `later` holds. -/
noncomputable def haltingAt (first later : Task → Machine → Prop) (e e' : RuntimeError) :
    (fuel : Nat) → Runner
  | 0, _ => starve
  | fuel + 1, t =>
    stopWhen (first t) e (stopWhen (later t) e' (step (haltingAt first later e e' fuel) t))

/-- Where nothing stops a run at first, only the later moments count. -/
theorem haltingAt_never (later : Task → Machine → Prop) (e e' : RuntimeError) (fuel : Nat) :
    haltingAt (fun _ _ => False) later e e' fuel = halting later e' fuel := by
  induction fuel with
  | zero => rfl
  | succ fuel ih =>
    funext t m
    rw [haltingAt, halting, stopWhen_of_not not_false, ih]

end Eval

/-- Whether no moment of a run for which `later` holds comes before the first for which `first`
holds. -/
def Code.Precedes (first later : Eval.Task → Machine → Prop) (fuel : Nat) (code : Code)
    (m : Machine) : Prop :=
  ∀ e e', code.runWith (Eval.haltingAt first later e e' fuel) m =
    code.runWith (Eval.halting first e fuel) m

/-- Moments come after those that never happen exactly if they do not happen themselves. -/
theorem Code.precedes_never {later : Eval.Task → Machine → Prop} {fuel : Nat} {code : Code}
    {m : Machine} :
    code.Precedes (fun _ _ => False) later fuel m ↔ ¬ code.Reaches later fuel m := by
  simp only [Precedes, Reaches, Eval.haltingAt_never, Eval.halting_never, not_exists, ne_eq,
    Classical.not_not]
  exact ⟨fun h e => h e e, fun h _ e' => h e'⟩

/-- Whether a task makes a fixture that may not be made. -/
def Eval.Task.Breaks (made : Fixture → Prop) (t : Eval.Task) (m : Machine) : Prop :=
  ∃ x, t.Fixes m x ∧ ¬ made x

namespace Eval

theorem Task.breaks_ne (x : Fixture) :
    Task.Breaks (· ≠ x) = fun t m => t.Fixes m x := by
  funext t m
  refine propext ⟨?_, fun h => ⟨x, h, not_not_intro rfl⟩⟩
  rintro ⟨y, hy, hne⟩
  rwa [Classical.not_not.mp hne] at hy

theorem Task.breaks_true : Task.Breaks (fun _ => True) = fun _ _ => False := by
  funext t m
  exact propext ⟨fun ⟨_, _, h⟩ => h trivial, False.elim⟩

variable {L : Ledger}

/-- By induction on the fuel, up to the first fixture that is not allowed. -/
theorem upholding_haltingAt (hL : ∀ sup ∈ L.supers, sup.Linked) {later : Task → Machine → Prop}
    (hlater : ∀ t m, m.heap.Settled L → t.Suits L m → (∀ x, t.Fixes m x → L.made x) →
      ¬ later t m) (e e' : RuntimeError) (fuel : Nat) :
    Upholding L (haltingAt (Task.Breaks L.made) later e e' fuel)
      (halting (Task.Breaks L.made) e fuel) := by
  induction fuel with
  | zero => exact fun t m hs ht => ⟨rfl, trivial⟩
  | succ fuel ih =>
    intro t m hs ht
    by_cases hbreaks : t.Breaks L.made m
    · refine ⟨?_, ?_⟩
      · rw [haltingAt, halting, stopWhen_of hbreaks, stopWhen_of hbreaks]
      · rw [halting, stopWhen_of hbreaks]
        exact .refl hs
    · have hmade : ∀ x, t.Fixes m x → L.made x :=
        fun x hx => Classical.byContradiction fun hnot => hbreaks ⟨x, hx, hnot⟩
      have hstep := ih.step hL t hs ht hmade
      unfold Upholds
      rw [haltingAt, halting, stopWhen_of_not hbreaks, stopWhen_of_not hbreaks,
        stopWhen_of_not (hlater t m hs ht hmade)]
      exact hstep

/-- One evaluation, where something stands for the receiver of an initializer if it is missing. -/
def stepOr (missing : Value) (r : Runner) : Runner
  | .body f args => bodyStepOr missing r f args
  | t => step r t

/-- Evaluation where something stands for every receiver that is missing. -/
def withinOr (missing : Value) : (fuel : Nat) → Runner
  | 0, _ => starve
  | fuel + 1, t => stepOr missing (withinOr missing fuel) t

theorem withinOr_none (fuel : Nat) : withinOr .none fuel = within fuel := by
  induction fuel with
  | zero => rfl
  | succ fuel ih =>
    funext t
    rw [withinOr, ih]
    cases t <;> rfl

/-- No receiver is ever missing. -/
theorem upholding_withinOr (hL : ∀ sup ∈ L.supers, sup.Linked) (hmade : ∀ x, L.made x)
    (missing : Value) (fuel : Nat) : Upholding L (withinOr missing fuel) (within fuel) := by
  induction fuel with
  | zero => exact fun t m hs ht => ⟨rfl, trivial⟩
  | succ fuel ih =>
    intro t m hs ht
    cases t with
    | body f args => exact ih.bodyStepOr hs missing ht.1 ht.2
    | read | write | inherit | expr | exprs | bound | call | enter | stmt | stmts | loop =>
      exact ih.step hL _ hs ht fun x _ => hmade x

/-- Where all fixtures are allowed, evaluation upholds a settled heap. -/
theorem upholding_within (hL : ∀ sup ∈ L.supers, sup.Linked) (hmade : ∀ x, L.made x) (fuel : Nat) :
    Upholding L (within fuel) (within fuel) := by
  have h := upholding_withinOr hL hmade .none fuel
  rwa [withinOr_none] at h

end Eval

/-! ## Code -/

/-- The uses of `super` in a source. -/
def Code.supers : Code → List (Super (Option Link))
  | .program stmts => Stmt.supersList {} stmts
  | .expression e => e.supers {}

/-- A source that says what its words are. -/
def Code.Words (P : Kind → Token → Prop) : Code → Prop
  | .program stmts => Stmt.WordsList P stmts
  | .expression e => e.Words P

/-- A source all of whose uses of `super` are listed. -/
structure Code.Listed (L : Ledger) (code : Code) : Prop where
  words : code.Words Token.ReadsAs
  supers : code.supers ⊆ L.supers

namespace Code.Listed

open Eval

variable {L : Ledger} {code : Code} {m : Machine}

/-- Whatever the current scope, it serves the top level, where there are no roles. -/
theorem runWith (h : code.Listed L) {r' r : Runner} (hr : Upholding L r' r)
    (hs : m.heap.Settled L) :
    Upholds L m (code.runWith r') (code.runWith r) fun _ _ => True := by
  obtain ⟨hw, hsupers⟩ := h
  cases code with
  | expression e =>
    exact (hr.expr (p := {}) hs trivial ⟨hw, hsupers⟩).imp fun _ _ _ _ => trivial
  | program stmts =>
    have hlisted : Stmt.ListedAll L {} stmts := ⟨hw, hsupers⟩
    change Upholds L m (Machine.runWith r' stmts) (Machine.runWith r stmts) _
    clear hw hsupers
    induction stmts generalizing m with
    | nil => exact upholds_pure hs trivial
    | cons s rest ih =>
      obtain ⟨hstmt, hrest⟩ := hlisted.of_cons
      rw [Scene.addAll, Site.addAll_nil] at hrest
      exact (hr.stmt (p := {}) hs trivial hstmt).bind fun _ _ hm _ => ih hm.settled hrest

variable (hL : ∀ sup ∈ L.supers, sup.Linked)
include hL

theorem upholds (h : code.Listed L) (hs : m.heap.Settled L) {later : Task → Machine → Prop}
    (hlater : ∀ t m, m.heap.Settled L → t.Suits L m → (∀ x, t.Fixes m x → L.made x) →
      ¬ later t m) (e e' : RuntimeError) (fuel : Nat) :
    Upholds L m (code.runWith (haltingAt (Task.Breaks L.made) later e e' fuel))
      (code.runWith (halting (Task.Breaks L.made) e fuel)) fun _ _ => True :=
  h.runWith (upholding_haltingAt hL hlater e e' fuel) hs

/-- What no task does that suits while all fixtures so far are allowed, comes after one that is not
allowed. -/
theorem precedes (h : code.Listed L) (hs : m.heap.Settled L) {later : Task → Machine → Prop}
    (hlater : ∀ t m, m.heap.Settled L → t.Suits L m → (∀ x, t.Fixes m x → L.made x) →
      ¬ later t m) (fuel : Nat) : code.Precedes (Task.Breaks L.made) later fuel m :=
  fun e e' => (h.upholds hL hs hlater e e' fuel).1

/-- A run that makes only fixtures that are allowed leaves a settled heap behind. -/
theorem meets (h : code.Listed L) (hs : m.heap.Settled L) {fuel : Nat}
    (hnever : ¬ code.Reaches (Task.Breaks L.made) fuel m) :
    (code.runWith (within fuel) m).Meets (fun _ m' => m'.heap.Settled L)
      fun _ m' => m'.heap.Settled L := by
  let e : RuntimeError := ⟨.notCallable, default⟩
  have hnot : ∀ (t : Task) (m : Machine), m.heap.Settled L → t.Suits L m →
      (∀ x, t.Fixes m x → L.made x) → ¬ False := fun _ _ _ _ _ => not_false
  have hrun := (h.upholds hL hs hnot e e fuel).2
  rw [Classical.byContradiction fun hne => hnever ⟨e, hne⟩] at hrun
  exact hrun.imp (fun _ _ h => h.1.settled) fun _ _ h => h.settled

end Code.Listed

end Scriptlet

import Scriptlet.Proofs.Evaluator.Rewriting

/-!
# Running relocated code

To relocate a machine is to relocate the code of every function in it. Relocated code is code that
was written anew with the same links, so a run of it does what the run of the original one does, and
relocates the machine that this ends with and the place of an error.
-/

namespace Scriptlet

/-- The way to write code anew that only relocates it. -/
def Rewriting.moving (h : Span → Span) : Rewriting := ⟨h, id⟩

section

variable (h : Span → Span)

/-- The same machine, with code that is written somewhere else. -/
def Machine.relocate (m : Machine) : Machine := m.mapCode (Function.relocate h)

def RuntimeError.relocate (e : RuntimeError) : RuntimeError :=
  { e with token := e.token.relocate h }

/-- The same end, with code that is written somewhere else; `f` relocates what was yielded. -/
def Outcome.relocate {α : Type} (f : α → α) : Outcome α → Outcome α
  | .ok a m => .ok (f a) (m.relocate h)
  | .error e m => .error (e.relocate h) (m.relocate h)
  | .outOfFuel => .outOfFuel

theorem Machine.relocate_relocate (h' : Span → Span) (m : Machine) :
    (m.relocate h).relocate h' = m.relocate fun s => h' (h s) :=
  m.mapCode_mapCode fun f => f.relocate_relocate h h'

theorem Machine.relocate_id (m : Machine) : m.relocate id = m :=
  m.mapCode_eq_self fun f => f.relocate_id

/-! ## Relocation as a way to write code anew -/

namespace Rewriting

theorem machine_moving (m : Machine) : (moving h).machine m = m.relocate h := by
  have hcode : (moving h).function = Function.relocate h := funext fun f =>
    (f.relocate h).mapLinks_id
  rw [machine, hcode, Machine.relocate]

theorem outcome_moving {α : Type} (f : α → α) (o : Outcome α) :
    (moving h).outcome f o = o.relocate h f := by
  cases o with
  | ok a m => rw [outcome, machine_moving, Outcome.relocate]
  | error e m => rw [outcome, machine_moving, Outcome.relocate]; rfl
  | outOfFuel => rfl

end Rewriting

namespace Eval

theorem Natural.moving {α : Type} {f : α → α} {x x' : Eval α} (hx : Natural (.moving h) f x x')
    (earlier : List Text) (m : Machine) :
    x' ((m.relocate h).after earlier) = ((x m).relocate h f).after earlier := by
  have hrun := hx earlier m
  rw [Rewriting.machine_moving, Rewriting.outcome_moving] at hrun
  exact hrun

/-- Evaluation does not depend on where code was written. -/
theorem natural_within (fuel : Nat) : NaturalRunner (.moving h) (within fuel) (within fuel) := by
  rw [← through_id]
  exact natural_through (fun _ => rfl) fuel

theorem run_relocate (fuel : Nat) (stmts : List (Stmt (Option Link))) (earlier : List Text)
    (m : Machine) :
    Machine.run fuel (Stmt.relocateList h stmts) ((m.relocate h).after earlier) =
      ((Machine.run fuel stmts m).relocate h id).after earlier := by
  have hrun := ((natural_within h fuel).runWith stmts).moving h earlier m
  rw [Rewriting.stmts, Rewriting.moving, Stmt.mapLinksList_id] at hrun
  exact hrun

end Eval

end

end Scriptlet

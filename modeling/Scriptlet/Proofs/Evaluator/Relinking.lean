import Scriptlet.Proofs.Evaluator.Rewriting

/-!
# Running code with other links

The links in code may be replaced by other ones, in a source that is ready to run (`Code.relink`) as
well as in the functions that a machine holds (`Machine.relink`). If as much is found for each new
link as for the old one, then the source does on the machine what it did before, and the machine and
the value that it ends with are those from before, with the new links (`Code.performWith_relink`).
-/

namespace Scriptlet

section

variable (φ : Option Link → Option Link)

/-- The same source with other links. -/
def Code.relink : Code → Code
  | .program stmts => .program (Stmt.mapLinksList φ stmts)
  | .expression e => .expression (e.mapLinks φ)

/-- The same value with other links in its functions. -/
def Value.relink (v : Value) : Value := v.mapCode (Function.mapLinks φ)

/-- The same machine with other links in its functions. -/
def Machine.relink (m : Machine) : Machine := m.mapCode (Function.mapLinks φ)

/-- The same end of a source with other links. -/
def Outcome.relink : Outcome (Option Value) → Outcome (Option Value)
  | .ok v m => .ok (v.map (Value.relink φ)) (m.relink φ)
  | .error e m => .error e (m.relink φ)
  | .outOfFuel => .outOfFuel

variable {φ} {φ' φ'' : Option Link → Option Link}

theorem Machine.relink_relink (h : ∀ l, φ' (φ l) = φ'' l) (m : Machine) :
    (m.relink φ).relink φ' = m.relink φ'' :=
  m.mapCode_mapCode fun f => f.mapLinks_mapLinks fun l _ => h l

/-- Two ends that are the same once their links are replaced. -/
theorem Outcome.cases_of_relink_eq {x y : Outcome (Option Value)}
    (h : x.relink φ = y.relink φ') :
    (∃ v m w m', x = .ok v m ∧ y = .ok w m' ∧
      v.map (Value.relink φ) = w.map (Value.relink φ') ∧ m.relink φ = m'.relink φ') ∨
    (∃ e m m', x = .error e m ∧ y = .error e m' ∧ m.relink φ = m'.relink φ') ∨
    x = .outOfFuel ∧ y = .outOfFuel := by
  cases x with
  | ok v m =>
    cases y with
    | ok w m' => exact .inl ⟨v, m, w, m', rfl, rfl, Outcome.ok.inj h⟩
    | error e m' | outOfFuel => cases h
  | error e m =>
    cases y with
    | error e' m' =>
      obtain ⟨rfl, hm⟩ := Outcome.error.inj h
      exact .inr (.inl ⟨e, m, m', rfl, rfl, hm⟩)
    | ok w m' | outOfFuel => cases h
  | outOfFuel =>
    cases y with
    | outOfFuel => exact .inr (.inr ⟨rfl, rfl⟩)
    | ok w m' | error e m' => cases h

theorem Machine.relink_start (natives : List Native) (clock : Float) (broken : Bool) :
    (start natives clock broken).relink φ = start natives clock broken := by
  have hheap (natives : List Native) (h : Heap) :
      (natives.foldl (fun h n => h.define Heap.globals n.name (.native n)) h).mapCode
          (Function.mapLinks φ) =
        natives.foldl (fun h n => h.define Heap.globals n.name (.native n))
          (h.mapCode (Function.mapLinks φ)) := by
    induction natives generalizing h with
    | nil => rfl
    | cons n natives ih => rw [List.foldl_cons, ih, Heap.mapCode_define]; rfl
  have hempty : ({} : Heap).mapCode (Function.mapLinks φ) = {} := by
    simp [Heap.mapCode, Scope.mapCode, Entries.mapValues]
  simp only [relink, mapCode, start, hheap, hempty]

end

/-- Runs a source with a way to evaluate tasks; the value of an expression that stands alone is
printed. -/
def Code.performWith (r : Eval.Runner) : Code → Eval (Option Value)
  | .program stmts => do
    Machine.runWith r stmts
    return none
  | .expression e => do
    let v ← r (.expr e)
    Eval.printLine v.shown
    return some v

/-- The way to write code anew that only replaces links. -/
def Rewriting.relinking (φ : Option Link → Option Link) : Rewriting := ⟨id, φ⟩

namespace Rewriting

variable (φ : Option Link → Option Link)

theorem function_relinking : (relinking φ).function = Function.mapLinks φ :=
  funext fun f => congrArg (Function.mapLinks φ) f.relocate_id

theorem value_relinking : (relinking φ).value = Value.relink φ :=
  congrArg (fun g v => Value.mapCode g v) (function_relinking φ)

theorem machine_relinking (m : Machine) : (relinking φ).machine m = m.relink φ :=
  congrArg m.mapCode (function_relinking φ)

theorem outcome_relinking (o : Outcome (Option Value)) :
    (relinking φ).outcome (Option.map (relinking φ).value) o = o.relink φ := by
  cases o with
  | ok v m => rw [outcome, machine_relinking, value_relinking, Outcome.relink]
  | error e m => rw [outcome, machine_relinking, Outcome.relink]; rfl
  | outOfFuel => rfl

theorem stmts_relinking (ss : List (Stmt (Option Link))) :
    (relinking φ).stmts ss = Stmt.mapLinksList φ ss :=
  congrArg (Stmt.mapLinksList φ) (Stmt.relocateList_id ss)

theorem expr_relinking (e : Expr (Option Link)) : (relinking φ).expr e = e.mapLinks φ :=
  congrArg (Expr.mapLinks φ) e.relocate_id

end Rewriting

namespace Code

open Eval

variable {φ look look' : Option Link → Option Link}

theorem natural_performWith {r r' : Runner} (hr : NaturalRunner (.relinking φ) r r')
    (code : Code) :
    Natural (.relinking φ) (Option.map (Rewriting.relinking φ).value) (code.performWith r)
      ((code.relink φ).performWith r') := by
  cases code with
  | program stmts =>
    have hrun := hr.runWith stmts
    rw [Rewriting.stmts_relinking] at hrun
    exact hrun.bind fun _ => natural_pure none
  | expression e =>
    have heval := hr.expr e
    rw [Rewriting.expr_relinking] at heval
    refine heval.bind fun v => ?_
    rw [Value.mapCode_shown]
    exact (natural_printLine v.shown).bind fun _ => natural_pure (some v)

/-- A source with other links, on a machine with other links, does what it did before, if as much is
found for each new link as for the old one. -/
theorem performWith_relink (hlook : ∀ l, (look' (φ l)).map Link.hops = (look l).map Link.hops)
    (fuel : Nat) (code : Code) (m : Machine) :
    (code.relink φ).performWith (through look' fuel) (m.relink φ) =
      (code.performWith (through look fuel) m).relink φ := by
  have hrun := natural_performWith (natural_through hlook fuel) code [] m
  rw [Machine.after_nil, Outcome.after_nil, Rewriting.machine_relinking,
    Rewriting.outcome_relinking] at hrun
  exact hrun

end Code

end Scriptlet

import Scriptlet.Proofs.Scope.Traversal
import Scriptlet.Proofs.Scope.Markers

/-!
# What may not stand where it does

A finding about placement is decided by the ancestors of a place, or, for a name that is declared
twice, by the declarations before it in its scope. Resolution makes exactly the findings that the
spots of a tree make by themselves (`placement_exact`), so nothing that was met elsewhere in the
tree has a part in them. The markers with which this can be done have their first values again in
the end, and no scope is left open.
-/

namespace Scriptlet

/-- Findings about something that stands where it may not, and about names declared twice. -/
def Diagnostic.isPlacement (d : Diagnostic) : Bool :=
  (["E3001", "E3003", "E3004", "E3005", "E3006", "E3007", "E3008", "E3009", "E3010", "E3011"] :
    List Text).contains d.code

theorem Diagnostic.isFault_of_isPlacement {d : Diagnostic} (h : d.isPlacement = true) :
    d.isFault = true := by
  have hcodes : ∀ code ∈ (["E3001", "E3003", "E3004", "E3005", "E3006", "E3007", "E3008", "E3009",
      "E3010", "E3011"] : List Text), (code != ("W3001" : Text)) = true := by decide
  exact hcodes _ (List.contains_iff_mem.mp h)

theorem ScopeFault.isPlacement_report (f : ScopeFault) (token : Token) :
    (f.report token).isPlacement = f.isPlacement := by
  cases f <;> rfl

/-- Among all that is wrong about a spot, what is wrong about its place. -/
theorem Spot.filter_isPlacement_faults (s : Spot) :
    s.faults.filter Diagnostic.isPlacement = s.misplaced := by
  rw [filter_faults (fun f token hf => (f.isPlacement_report token).trans hf)
    fun name token => ScopeFault.isPlacement_report (.ownInitializer name) token]
  exact List.append_nil _

/-- What comes of a walk at top level, with the markers and the scopes that it leaves behind. -/
def Marking.finish {α : Type} (globals : List Text) (first : Nat) (x : Marking α) :
    Resolved α × Markers × ScopeStack :=
  let ((tree, m), r) := (x.run {}).run (.top globals first)
  (⟨tree, r.links.reverse, r.found.reverse⟩, m, r.scopes)

/-- A walk that keeps its markers comes to the same as the resolution that it follows. -/
theorem Marking.Keeps.finish {α : Type} {x : Marking α} {y : Resolve α} (h : Keeps {} x y)
    (globals : List Text) (first : Nat)
    (hscopes : (y.run (.top globals first)).2.scopes = []) :
    Marking.finish globals first x = (y.finish globals first, {}, []) := by
  unfold Marking.finish
  rw [h]
  change (_, _, (y.run (.top globals first)).2.scopes) = _
  rw [hscopes]
  rfl

/-- The findings about placement are those of the spots of the tree, one for each spot that may not
stand where it does. A walk with markers comes to the same; at its end the markers have their first
values and no scope is open. -/
theorem placement_exact (globals : List Text) (first : Nat) :
    (∀ stmts : List (Stmt Unit),
      (resolveStmts globals stmts first).report.filter Diagnostic.isPlacement =
        (Stmt.spotsList { globals := globals } [] stmts).flatMap Spot.misplaced ∧
      Marking.finish globals first (Stmt.walkList stmts) = (resolveStmts globals stmts first, {}, [])) ∧
    ∀ expr : Expr Unit,
      (resolveExpr globals expr first).report.filter Diagnostic.isPlacement =
        (expr.spots { globals := globals } []).flatMap Spot.misplaced ∧
      Marking.finish globals first expr.walk = (resolveExpr globals expr first, {}, []) := by
  refine ⟨fun stmts => ⟨?_, ?_⟩, fun expr => ⟨?_, ?_⟩⟩
  · exact (resolveStmts_traverses globals stmts).filter first
      (fun _ => Diagnostic.isFault_of_isPlacement) Spot.filter_isPlacement_faults
  · exact (Stmt.keeps_walkList stmts {}).finish globals first
      ((resolveStmts_traverses globals stmts).scopes first)
  · exact (resolveExpr_traverses globals expr).filter first
      (fun _ => Diagnostic.isFault_of_isPlacement) Spot.filter_isPlacement_faults
  · exact (expr.keeps_walk {}).finish globals first ((resolveExpr_traverses globals expr).scopes first)

end Scriptlet

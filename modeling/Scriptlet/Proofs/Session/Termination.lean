import Scriptlet.Proofs.Evaluator.Termination
import Scriptlet.Proofs.Scope.Jumps
import Scriptlet.Proofs.Session.Loading

/-!
# Programs without loops end in a fresh session

A fresh session has no functions but native ones, so a program without loops ends there, however its
functions call each other (`loop_free_programs_end`). What decides is the tree that was read, since
resolution adds links only (`Session.loopFree_resolve`).
-/

namespace Scriptlet

/-- Statements without loops, in functions and methods as well. -/
abbrev Stmt.LoopFreeList {β : Type} (ss : List (Stmt β)) : Prop :=
  Stmt.RuledList Place.Straight {} ss

namespace Machine

theorem run_ends (natives : List Native) (clock : Float) (broken : Bool)
    {stmts : List (Stmt (Option Link))} (h : Stmt.LoopFreeList stmts) :
    ∃ o ≠ .outOfFuel, ∃ enough, ∀ fuel ≥ enough,
      Machine.run fuel stmts (Machine.start natives clock broken) = o := by
  have hcode : (Code.program stmts).LoopFree :=
    List.forall_mem_map.mpr (Stmt.ruledList_iff.mp h)
  exact hcode.ends fun p => holds_start p natives clock broken

end Machine

namespace Session

/-- Resolution adds no loops. -/
theorem loopFree_resolve {stmts : List (Stmt Unit)} (h : Stmt.LoopFreeList stmts) (s : Session) :
    Stmt.LoopFreeList (s.resolve stmts).tree := by
  have hbare : Stmt.bareList (s.resolve stmts).tree = stmts := (resolveStmts_demands _ stmts _).1
  rw [← hbare] at h
  exact (Stmt.ruledList_mapLinks _ _ _).mp h

/-- A program without loops, in a fresh session, ends with a result, and this is the same with every
amount of fuel beyond some: its run ends normally or with an error, however its functions, methods,
getters and initializers call each other. -/
theorem loop_free_programs_end :
    (∀ (natives : List Native) (clock : Float) (broken : Bool) (stmts : List (Stmt (Option Link))),
      Stmt.LoopFreeList stmts → ∃ o ≠ .outOfFuel, ∃ enough, ∀ fuel ≥ enough,
        Machine.run fuel stmts (Machine.start natives clock broken) = o) ∧
    ∀ (settings : Settings) (clock : Float) (broken : Bool) (source file : Text),
      Stmt.LoopFreeList (programOf source) → ∃ result m enough, ∀ fuel ≥ enough,
        ∃ s', (start settings clock broken).run fuel source file = some (result, s') ∧
          s'.machine = m := by
  refine ⟨fun natives clock broken _ h => Machine.run_ends natives clock broken h, ?_⟩
  intro settings clock broken source file h
  let s := start settings clock broken
  -- a source that is not run ends at once
  have hconclude : ∃ result m links enough, ∀ fuel ≥ enough,
      s.conclude fuel (s.load (.run source file)) = some (result, m, links) := by
    cases hload : s.load (.run source file) with
    | refused report => exact ⟨_, _, _, 0, fun _ _ => rfl⟩
    | idle report => exact ⟨_, _, _, 0, fun _ _ => rfl⟩
    | ready code links report =>
      obtain ⟨-, -, rfl, -, -⟩ := load_run_ready hload
      obtain ⟨o, hends, enough, ho⟩ := Machine.run_ends (settings.natives.filterMap Native.ofName?)
        clock broken (loopFree_resolve h s)
      have hrun : ∀ fuel ≥ enough,
          Machine.run fuel (s.resolve (programOf source)).tree s.machine = o :=
        ho
      cases o with
      | outOfFuel => exact absurd rfl hends
      | ok _ m =>
        refine ⟨⟨.ok, s.shown report, none⟩, m, s.links ++ links, enough, fun fuel hfuel => ?_⟩
        simp only [conclude, Code.perform, Eval.bind_apply, hrun fuel hfuel]
        rfl
      | error e m =>
        refine ⟨⟨.runtimeError, s.shown (report ++ [e.report]), none⟩, m, s.links ++ links, enough,
          fun fuel hfuel => ?_⟩
        simp only [conclude, Code.perform, Eval.bind_apply, hrun fuel hfuel]
  obtain ⟨result, m, links, enough, hall⟩ := hconclude
  refine ⟨result, m, enough, fun fuel hfuel => ?_⟩
  obtain ⟨trace, htake⟩ := take_eq fuel s (.run source file)
  rw [hall fuel hfuel] at htake
  exact ⟨_, htake, rfl⟩

/-- A program whose functions call each other without an end. -/
def endlessCalls : Text :=
  "fun f(g) \x7b return g(g); \x7d class C \x7b init() \x7b f(C); \x7d \x7d print f(f);"

theorem loop_free_programs_end_endlessCalls :
    ∃ result m enough, ∀ fuel ≥ enough,
      ∃ s', (start {} 0 false).run fuel endlessCalls [] = some (result, s') ∧ s'.machine = m :=
  loop_free_programs_end.2 {} 0 false endlessCalls [] (by decide +kernel)

end Session

end Scriptlet

import Scriptlet.Proofs.Tree.Completeness

/-!
# Programs in a row

What is read from a list of tokens without a fault is also read where these tokens stand among
others. So two programs one after the other are read as one program (`parseProgram_append`).
-/

namespace Scriptlet

theorem ne_end_of_mem_beforeEnd {t : Token} {ts : List Token} (h : t ∈ beforeEnd ts) :
    t.kind ≠ .endOfInput :=
  of_decide_eq_true (List.all_eq_true.mp List.all_takeWhile t h)

theorem beforeEnd_append {ts : List Token} (h : ∀ t ∈ ts, t.kind ≠ .endOfInput)
    (us : List Token) : beforeEnd (ts ++ us) = ts ++ beforeEnd us :=
  List.takeWhile_append_of_pos fun t ht => decide_eq_true (h t ht)

theorem beforeEnd_move (g : Position → Position) (ts : List Token) :
    beforeEnd (ts.map (·.move g)) = (beforeEnd ts).map (·.move g) := by
  rw [beforeEnd, List.takeWhile_map]
  rfl

section

variable {g : Position → Position} {tokens tokens' all : List Token}

theorem parseProgram_append (h : (parseProgram tokens).2 = []) (h' : (parseProgram tokens').2 = [])
    (hall : beforeEnd all = beforeEnd tokens ++ (beforeEnd tokens').map (·.move g)) :
    (parseProgram all).1.stmts =
        (parseProgram tokens).1.stmts ++ Stmt.moveList g (parseProgram tokens').1.stmts ∧
      (parseProgram all).2 = [] := by
  have hread := (parseProgram_readsThrough h).append ((parseProgram_readsThrough h').move g)
  rw [← hall] at hread
  exact hread.parseProgram

end

end Scriptlet

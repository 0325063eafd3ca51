import Scriptlet.Proofs.Evaluator.Closures
import Scriptlet.Proofs.Scope.Jumps
import Scriptlet.Proofs.Tree.Reading

/-!
# Every call has its arguments

A call expression counts its arguments against the arity of the callee, and nothing after it counts
again: the body of a function takes its arguments by their places, and a native function expects as
many as it has. A body is also run where no call was written, by a getter that is read and by a
class that makes an instance. A getter has no parameters, which the parser sees to; and a class has
the arity of the initializer that it runs, found in the same way in the same chain of classes. So
every task has the arguments that it takes (`Task.Supplied`), if the functions on the heap are those
of well-formed trees, and a run of parsed code leaves only such functions (`Heap.Left.holds`).
-/

namespace Scriptlet

/-- Code that the parser made: its statements or its expression, whatever references are linked to.
It need not be free of faults, as the parser makes a tree all the same. -/
def Code.Parsed (code : Code) : Prop :=
  ∃ tokens, (∀ t ∈ tokens, t.Spelled) ∧
    match code with
    | .program stmts => Stmt.bareList stmts = (parseProgram tokens).1.stmts
    | .expression e => some e.bare = (parseExpression tokens).1

/-- A heap that runs of parsed code have left, one after the other, from the start of a machine. -/
inductive Heap.Left : Heap → Prop where
  | start (natives : List Native) (clock : Float) (broken : Bool) :
    Left (Machine.start natives clock broken).heap
  | run {m m' : Machine} {code : Code} {fuel : Nat} : Left m.heap → code.Parsed →
    (code.runWith (Eval.within fuel) m).machine? = some m' → Left m'.heap

/-- A native function misses no argument if it gets as many as it takes. -/
theorem Native.call_ne_argumentCount {native : Native} {args : List Value} (clock : Float)
    (h : native.arity = args.length) : native.call clock args ≠ .error .argumentCount := by
  match native, args with
  | .clock, [] | .len, [_] | .str, [_] => nofun
  | .search, [text, pattern] =>
    intro hcall
    unfold call searchText at hcall
    repeat' split at hcall
    all_goals cases hcall

namespace Eval

namespace Task

/-- Where values are handed over, they are as many as are taken: each parameter of a function has
its argument, and a native function does not miss any. -/
def Supplied : Task → Prop
  | .call _ callee args => arity? callee = some args.length
  | .enter _ callee args => arity? callee = some args.length ∧
    ∀ native, callee = .native native → ∀ clock, native.call clock args ≠ .error .argumentCount
  | .body f args => args.length = f.arity ∧
    ∀ (i : Nat) p, f.function.params[i]? = some p → ∃ v, args[i]? = some v
  | _ => True

/-- A task whose trees the parser can make. -/
def WellFormed : Task → Prop
  | .expr e => e.WellFormed
  | .exprs es => Expr.WellFormedList es
  | .stmt s => s.WellFormed
  | .stmts ss => Stmt.WellFormedList ss
  | .loop condition round update _ =>
    condition.WellFormed ∧ round.WellFormed ∧ ∀ u ∈ update, u.WellFormed
  | _ => True

variable {t t' : Task} {d d' : Nat}

/-! ## Trees -/

theorem wellFormed_exprParts {e : Expr (Option Link)} (h : e.WellFormed) (ht : t' ∈ exprParts e) :
    t'.WellFormed := by
  cases e with
  | literal | name | lambda | receiver | inherited => simp at ht
  | group | get =>
    rw [Expr.WellFormed] at h
    rw [List.mem_singleton.mp ht]
    exact h
  | assign =>
    rw [Expr.WellFormed] at h
    rw [List.mem_singleton.mp ht]
    exact h.2.2
  | unary =>
    rw [Expr.WellFormed] at h
    rw [List.mem_singleton.mp ht]
    exact h.2
  | binary =>
    rw [Expr.WellFormed] at h
    simp only [exprParts, List.mem_cons, List.not_mem_nil, or_false] at ht
    rcases ht with rfl | rfl
    · exact h.2.1
    · exact h.2.2
  | logical | call | set =>
    rw [Expr.WellFormed] at h
    simp only [exprParts, List.mem_cons, List.not_mem_nil, or_false] at ht
    rcases ht with rfl | rfl
    · exact h.1
    · exact h.2
  | ternary =>
    rw [Expr.WellFormed] at h
    simp only [exprParts, List.mem_cons, List.not_mem_nil, or_false] at ht
    rcases ht with rfl | rfl | rfl
    · exact h.1
    · exact h.2.1
    · exact h.2.2

theorem wellFormed_loop {span : Span} {condition : Expr (Option Link)}
    {round : Stmt (Option Link)} {update : Option (Expr (Option Link))} {bodyFirst : Bool}
    (h : (Stmt.loop span condition round update bodyFirst).WellFormed) :
    (Task.loop condition round update bodyFirst).WellFormed := by
  cases update with
  | none =>
    rw [Stmt.WellFormed] at h
    exact ⟨h.1, h.2.1, nofun⟩
  | some u =>
    rw [Stmt.WellFormed] at h
    refine ⟨h.1, h.2.1.1, ?_⟩
    intro u' hu'
    cases hu'
    exact h.2.2

theorem wellFormed_stmtParts {s : Stmt (Option Link)} (h : s.WellFormed) (ht : t' ∈ stmtParts s) :
    t'.WellFormed := by
  match s with
  | .evaluate .. | .print .. | .block .. | .leave _ _ (some _) =>
    rw [Stmt.WellFormed] at h
    rw [List.mem_singleton.mp ht]
    exact h
  | .declareVar _ _ (some _) =>
    rw [Stmt.WellFormed] at h
    rw [List.mem_singleton.mp ht]
    exact h.2
  | .branch _ _ _ none =>
    rw [Stmt.WellFormed] at h
    simp only [stmtParts, List.mem_cons, List.not_mem_nil, or_false] at ht
    rcases ht with rfl | rfl
    · exact h.1
    · exact h.2.1
  | .branch _ _ _ (some _) =>
    rw [Stmt.WellFormed] at h
    simp only [stmtParts, List.mem_cons, List.not_mem_nil, or_false] at ht
    rcases ht with rfl | rfl | rfl
    · exact h.1
    · exact h.2.1.1
    · exact h.2.2.1
  | .loop .. =>
    rw [List.mem_singleton.mp ht]
    exact wellFormed_loop h
  | .declareVar _ _ none | .leave _ _ none | .breakLoop .. | .continueLoop .. | .declareFunction _
  | .declareClass .. => simp at ht

namespace WellFormed

theorem part (h : t.WellFormed) (ht : t' ∈ t.parts) : t'.WellFormed := by
  match t with
  | .expr e => exact wellFormed_exprParts h ht
  | .stmt s => exact wellFormed_stmtParts h ht
  | .exprs (e :: es) =>
    simp only [parts, List.mem_cons, List.not_mem_nil, or_false] at ht
    rcases ht with rfl | rfl
    · exact h.1
    · exact h.2
  | .stmts (s :: rest) =>
    simp only [parts, List.mem_cons, List.not_mem_nil, or_false] at ht
    rcases ht with rfl | rfl
    · exact h.1
    · exact h.2
  | .loop condition round update skipTest =>
    simp only [parts, List.mem_cons, List.mem_map, Option.mem_toList] at ht
    rcases ht with rfl | rfl | rfl | ⟨u, hu, rfl⟩
    · exact h.1
    · exact h.2.1
    · exact h
    · exact h.2.2 u hu
  | .exprs [] | .stmts [] | .read .. | .write .. | .inherit .. | .bound .. | .call .. | .enter ..
  | .body .. => simp at ht

theorem functions (h : t.WellFormed) : ∀ f ∈ t.functions, f.WellFormed := by
  intro f hf
  cases t with
  | expr e =>
    cases e with
    | lambda function =>
      obtain rfl := List.mem_singleton.mp hf
      rwa [WellFormed, Expr.WellFormed] at h
    | _ => cases hf
  | stmt s =>
    cases s with
    | declareFunction declaration =>
      obtain ⟨span, name, function⟩ := declaration
      obtain rfl := List.mem_singleton.mp hf
      rw [WellFormed, Stmt.WellFormed] at h
      exact h.2
    | declareClass span name superclass methods classMethods =>
      rw [WellFormed, Stmt.WellFormed, Declaration.wellFormedList_iff,
        Declaration.wellFormedList_iff] at h
      obtain ⟨declaration, hmember, rfl⟩ := List.mem_map.mp hf
      exact (List.mem_append.mp hmember).elim (h.2.1 declaration) (h.2.2 declaration)
    | _ => cases hf
  | _ => cases hf

theorem begins (h : t.WellFormed) (hcarries : t.Carries Function.WellFormed)
    (hbegins : t.Begins d t' d') : t'.WellFormed := by
  cases hbegins with
  | part ht => exact h.part ht
  | stmts => exact Function.WellFormed.body hcarries.1
  | _ => trivial

end WellFormed

/-! ## Arguments -/

/-- The parts of a task are trees, to which no values are handed over. -/
theorem supplied_part (ht : t' ∈ t.parts) : t'.Supplied := by
  cases t' with
  | call | enter | body =>
    cases t with
    | expr e => cases e <;> simp at ht
    | stmt s =>
      simp only [parts] at ht
      unfold stmtParts at ht
      split at ht <;> simp at ht
    | exprs es => cases es <;> simp at ht
    | stmts ss => cases ss <;> simp at ht
    | _ => simp at ht
  | _ => trivial

/-- As many arguments as a function has parameters are one for each. -/
theorem supplied_body {f : Closure} {args : List Value} (h : args.length = f.arity) :
    (Task.body f args).Supplied := by
  refine ⟨h, ?_⟩
  intro i p hp
  obtain ⟨hi, -⟩ := List.getElem?_eq_some_iff.mp hp
  have hlt : i < args.length := h ▸ hi
  exact ⟨args[i], List.getElem?_eq_getElem hlt⟩

/-- A getter takes no arguments. -/
theorem arity_of_getter {g : Closure} (h : g.function.WellFormed) (hgetter : g.getter) :
    g.arity = 0 := by
  rw [Closure.arity, h.params_eq_nil hgetter]
  rfl

/-- What takes a number of arguments takes them in the function that it runs. -/
theorem arity_of_runs {callee : Value} {f : Closure} {n : Nat} (hruns : Runs callee f.function)
    (harity : arity? callee = some n) : f.arity = n := by
  cases callee with
  | function g =>
    obtain rfl : g.arity = n := Option.some.inj harity
    rw [Closure.arity, show f.function = g.function from hruns]
    rfl
  | cls c =>
    obtain ⟨init, hinit, hfunction⟩ := hruns
    obtain rfl : c.arity = n := Option.some.inj harity
    rw [Closure.arity, hfunction, ClassValue.arity, hinit]
    rfl
  | _ => exact hruns.elim

/-- Whatever a task begins has its arguments, if the task has its own. -/
theorem Supplied.begins (h : t.Supplied) (hcarries : t.Carries Function.WellFormed)
    (hbegins : t.Begins d t' d') : t'.Supplied := by
  cases hbegins with
  | part ht => exact supplied_part ht
  | call token callee args harity => exact harity
  | getter g hfunction hgetter =>
    have hwellFormed : g.function.WellFormed := hfunction ▸ hcarries.1
    exact congrArg some (arity_of_getter hwellFormed hgetter)
  | enter _ =>
    refine ⟨h, ?_⟩
    rintro native rfl clock
    exact Native.call_ne_argumentCount clock (Option.some.inj h)
  | body f hruns => exact supplied_body (arity_of_runs hruns h.1).symm
  | _ => trivial

/-- Every task of a run has its arguments, if its source and the functions on the heap are well
formed. -/
theorem invariant_supplied :
    Invariant Function.WellFormed fun t => t.WellFormed ∧ t.Supplied where
  begins := by
    rintro t t' d d' ⟨hwellFormed, hsupplied⟩ hcarries hbegins
    exact ⟨hwellFormed.begins hcarries hbegins, hsupplied.begins hcarries hbegins⟩
  functions := by
    rintro t ⟨hwellFormed, -⟩
    exact hwellFormed.functions

end Task

end Eval

/-! ## Parsed code -/

namespace Code.Parsed

variable {code : Code} {m : Machine}

/-- The tasks of parsed code are well formed, and hand over no values. -/
theorem parts (h : code.Parsed) : ∀ t ∈ code.parts, t.WellFormed ∧ t.Supplied := by
  obtain ⟨tokens, hspelled, hparsed⟩ := h
  cases code with
  | program stmts =>
    have hbare : Stmt.WellFormedList (Stmt.bareList stmts) := by
      rw [hparsed]
      exact parseProgram_wellFormed hspelled
    have hstmts := Stmt.wellFormedList_iff.mp ((Stmt.wellFormedList_mapLinks _ stmts).mp hbare)
    intro t ht
    obtain ⟨s, hs, rfl⟩ := List.mem_map.mp ht
    exact ⟨hstmts s hs, trivial⟩
  | expression e =>
    have hbare : e.bare.WellFormed := parseExpression_wellFormed hspelled hparsed.symm
    intro t ht
    rw [List.mem_singleton.mp ht]
    exact ⟨(Expr.wellFormed_mapLinks _ e).mp hbare, trivial⟩

/-- No call of a run comes to the body of a function or to a native function without the arguments
that it takes. -/
theorem not_reaches_unsupplied (h : code.Parsed) (hm : m.heap.Holds Function.WellFormed)
    (fuel : Nat) : ¬ code.Reaches (fun t _ => ¬ t.Supplied) fuel m := by
  apply Eval.Task.invariant_supplied.not_reaches _ h.parts hm fuel
  intro t _ ht _ hstop
  exact hstop ht.2

theorem holds (h : code.Parsed) (hm : m.heap.Holds Function.WellFormed) {fuel : Nat} {m' : Machine}
    (hrun : (code.runWith (Eval.within fuel) m).machine? = some m') :
    m'.heap.Holds Function.WellFormed :=
  Eval.Task.invariant_supplied.holds h.parts hm hrun

end Code.Parsed

/-- Runs of parsed code leave only well-formed functions on the heap. -/
theorem Heap.Left.holds {h : Heap} (hleft : h.Left) : h.Holds Function.WellFormed := by
  induction hleft with
  | start natives clock broken => exact holds_start ..
  | run _ hparsed hrun ih => exact hparsed.holds ih hrun

end Scriptlet

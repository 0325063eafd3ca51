import Scriptlet.Proofs.Evaluator.Closures

/-!
# Programs without loops come to an end

Fuel only bounds how far a run gets: a run that ends ends in the same way with more fuel
(`within_mono`, `runWith_mono`).

Without loops, a task only begins tasks that are smaller, or calls, and calls are not nested more
deeply than `Eval.maxDepth`. So the fuel that a task needs is bounded (`Task.cost`): by its size and,
for each level of calls that is left, by the size of the largest function that there is. Functions
are values and may be called from anywhere, but every one of them was written somewhere in the
program, so there is a bound for all of them (`LoopFree`). A task that has as much fuel as it costs
ends (`ends_within`), and so does the program (`Code.LoopFree.ends`).
-/

namespace Scriptlet

namespace Eval

variable {α β : Type}

/-! ## More fuel -/

/-- A computation that another one agrees with wherever it has fuel enough. -/
def Extended (x y : Eval α) : Prop := ∀ m, x m = .outOfFuel ∨ x m = y m

theorem extended_congruence : Congruence Extended where
  simple _ := fun _ => .inr rfl
  bind := by
    intro _ _ x y f g hxy hfg m
    rw [bind_apply, bind_apply]
    rcases hxy m with hx | hx
    · rw [hx]
      exact .inl rfl
    · rw [hx]
      cases y m with
      | ok a m' => exact hfg a m'
      | error e m' => exact .inr rfl
      | outOfFuel => exact .inl rfl
  inScope := by
    intro _ x y scope hxy m
    unfold inScope
    dsimp only
    rcases hxy { m with scope := scope } with hx | hx
    · rw [hx]
      exact .inl rfl
    · rw [hx]
      exact .inr rfl
  nested := by
    intro _ x y token hxy m
    unfold nested
    split
    · exact .inr rfl
    · rcases hxy { m with depth := m.depth + 1 } with hx | hx
      · rw [hx]
        exact .inl rfl
      · rw [hx]
        exact .inr rfl

theorem Extended.trans {x y z : Eval α} (hxy : Extended x y) (hyz : Extended y z) :
    Extended x z := by
  intro m
  rcases hxy m with hx | hx
  · exact .inl hx
  · rw [hx]
    exact hyz m

theorem extended_succ (fuel : Nat) (t : Task) : Extended (within fuel t) (within (fuel + 1) t) := by
  induction fuel generalizing t with
  | zero => exact fun _ => .inl rfl
  | succ fuel ih => exact extended_congruence.step ih t

/-- An evaluation that ends does so with more fuel as well. -/
theorem within_mono {fuel fuel' : Nat} (h : fuel ≤ fuel') (t : Task) :
    Extended (within fuel t) (within fuel' t) := by
  induction h with
  | refl => exact fun _ => .inr rfl
  | step _ ih => exact ih.trans (extended_succ _ t)

theorem runWith_mono {fuel fuel' : Nat} (h : fuel ≤ fuel') (code : Code) :
    Extended (code.runWith (within fuel)) (code.runWith (within fuel')) :=
  extended_congruence.runWith (within_mono h) code

end Eval

/-! ## Loop-free code -/

/-- A function without loops whose body is not larger than a bound. -/
def Function.Straight (bound : Nat) (f : LinkedFunction) : Prop :=
  f.Ruled Place.Straight ∧ sizeOf f.body ≤ bound

namespace Eval

variable {bound d d' : Nat} {t t' : Task} {place : Place}

namespace Task

/-- The size of the code that a task stands for itself. -/
noncomputable def size : Task → Nat
  | .expr e => sizeOf e
  | .exprs es => sizeOf es
  | .stmt s => sizeOf s
  | .stmts ss => sizeOf ss
  | _ => 0

/-- The fuel for the calls that are possible below a depth, if no body is larger than a bound. -/
def callCost (bound d : Nat) : Nat := (maxDepth - d) * (bound + 4)

/-- The fuel that a task needs at a depth of calls, if no body is larger than a bound. -/
noncomputable def cost (bound d : Nat) : Task → Nat
  | .read .. | .write .. | .inherit .. => 1
  | .call .. => callCost bound d + 1
  | .bound .. => callCost bound d + 2
  | .body .. => callCost bound d + bound + 3
  | .enter .. => callCost bound d + bound + 4
  | t => t.size + callCost bound d + 2

/-- A task without loops, smaller than a bound, that comes across no other functions. -/
structure LoopFree (bound : Nat) (t : Task) : Prop where
  ruled : ∃ place, t.Ruled Place.Straight place
  size : t.size ≤ bound
  carries : t.Carries (Function.Straight bound)

theorem callCost_of_lt (h : d < maxDepth) :
    callCost bound d = callCost bound (d + 1) + (bound + 4) := by
  have hleft : maxDepth - d = maxDepth - (d + 1) + 1 := by omega
  rw [callCost, callCost, hleft, Nat.succ_mul]

theorem cost_pos (bound d : Nat) (t : Task) : 0 < t.cost bound d := by
  cases t with
  | _ => exact Nat.succ_pos _

/-- A task that stands for code, smaller than some other. -/
def Smaller (bound d : Nat) (t' : Task) (size : Nat) : Prop :=
  t'.size < size ∧ t'.cost bound d = t'.size + callCost bound d + 2

theorem exprParts_smaller {e : Expr (Option Link)} (ht : t' ∈ exprParts e) :
    Smaller bound d t' (sizeOf e) := by
  cases e with
  | literal | name | lambda | receiver | inherited => simp at ht
  | assign | unary | group | get =>
    simp only [exprParts, List.mem_singleton] at ht
    subst ht
    exact ⟨by simp +arith [size], rfl⟩
  | binary | logical | call | set =>
    simp only [exprParts, List.mem_cons, List.not_mem_nil, or_false] at ht
    rcases ht with rfl | rfl
    · exact ⟨by simp +arith [size], rfl⟩
    · exact ⟨by simp +arith [size], rfl⟩
  | ternary =>
    simp only [exprParts, List.mem_cons, List.not_mem_nil, or_false] at ht
    rcases ht with rfl | rfl | rfl
    · exact ⟨by simp +arith [size], rfl⟩
    · exact ⟨by simp +arith [size], rfl⟩
    · exact ⟨by simp +arith [size], rfl⟩

theorem stmtParts_smaller {s : Stmt (Option Link)} (ht : t' ∈ stmtParts s) :
    Smaller bound d t' (sizeOf s) := by
  match s with
  | .evaluate .. | .print .. | .declareVar _ _ (some _) | .block .. | .leave _ _ (some _)
  | .loop .. =>
    simp only [stmtParts, List.mem_singleton] at ht
    subst ht
    exact ⟨by simp +arith [size], rfl⟩
  | .branch _ _ _ none =>
    simp only [stmtParts, List.mem_cons, List.not_mem_nil, or_false] at ht
    rcases ht with rfl | rfl
    · exact ⟨by simp +arith [size], rfl⟩
    · exact ⟨by simp +arith [size], rfl⟩
  | .branch _ _ _ (some _) =>
    simp only [stmtParts, List.mem_cons, List.not_mem_nil, or_false] at ht
    rcases ht with rfl | rfl | rfl
    · exact ⟨by simp +arith [size], rfl⟩
    · exact ⟨by simp +arith [size], rfl⟩
    · exact ⟨by simp +arith [size], rfl⟩
  | .declareVar _ _ none | .leave _ _ none | .breakLoop .. | .continueLoop .. | .declareFunction _
  | .declareClass .. => simp at ht

/-- The code of a part is smaller. Only the rounds of a loop are not. -/
theorem part_smaller (h : t.Ruled Place.Straight place) (ht : t' ∈ t.parts) :
    Smaller bound d t' t.size := by
  match t with
  | .expr e => exact exprParts_smaller ht
  | .stmt s => exact stmtParts_smaller ht
  | .exprs (e :: es) =>
    simp only [parts, List.mem_cons, List.not_mem_nil, or_false] at ht
    rcases ht with rfl | rfl
    · exact ⟨by simp +arith [size], rfl⟩
    · exact ⟨by simp +arith [size], rfl⟩
  | .stmts (s :: rest) =>
    simp only [parts, List.mem_cons, List.not_mem_nil, or_false] at ht
    rcases ht with rfl | rfl
    · exact ⟨by simp +arith [size], rfl⟩
    · exact ⟨by simp +arith [size], rfl⟩
  | .loop .. => exact absurd rfl h.1
  | .exprs [] | .stmts [] | .read .. | .write .. | .inherit .. | .bound .. | .call .. | .enter ..
  | .body .. => simp at ht

/-- Only code has parts. -/
theorem cost_of_part (ht : t' ∈ t.parts) : t.cost bound d = t.size + callCost bound d + 2 := by
  cases t with
  | expr | exprs | stmt | stmts | loop => rfl
  | read | write | inherit | bound | call | enter | body => cases ht

theorem size_expr_pos (e : Expr (Option Link)) : 0 < size (.expr e) := by
  cases e with
  | _ => simp +arith [size]

/-- The functions that a task makes are smaller than the task. -/
theorem body_lt_of_functions {f : LinkedFunction} (hf : f ∈ t.functions) :
    sizeOf f.body < t.size := by
  have hbody : ∀ f : LinkedFunction, sizeOf f.body < sizeOf f := by
    intro f
    obtain ⟨span, keyword, params, body, getter⟩ := f
    simp +arith [Function.body]
  have hdeclared : ∀ d : Declaration (Option Link), sizeOf d.function < sizeOf d := by
    intro d
    obtain ⟨span, name, function⟩ := d
    simp +arith [Declaration.function]
  unfold functions at hf
  split at hf
  · rw [List.mem_singleton.mp hf]
    exact Nat.lt_trans (hbody _) (by simp +arith [size])
  · next d =>
    rw [List.mem_singleton.mp hf]
    exact Nat.lt_trans (hbody _) (Nat.lt_trans (hdeclared d) (by simp +arith [size]))
  · next span name superclass methods classMethods =>
    obtain ⟨d, hd, rfl⟩ := List.mem_map.mp hf
    refine Nat.lt_trans (hbody _) (Nat.lt_trans (hdeclared d) ?_)
    rcases List.mem_append.mp hd with hd | hd
    · have := List.sizeOf_lt_of_mem hd
      simp only [size, Stmt.declareClass.sizeOf_spec]
      omega
    · have := List.sizeOf_lt_of_mem hd
      simp only [size, Stmt.declareClass.sizeOf_spec]
      omega
  · cases hf

namespace LoopFree

theorem functions (h : t.LoopFree bound) : ∀ f ∈ t.functions, f.Straight bound := by
  intro f hf
  obtain ⟨place, hruled⟩ := h.ruled
  exact ⟨hruled.functions f hf, Nat.le_trans (Nat.le_of_lt (body_lt_of_functions hf)) h.size⟩

/-- What a task without loops begins has no loops either and costs less. -/
theorem begins (h : t.LoopFree bound) (hbegins : t.Begins d t' d')
    (hcarries : t'.Carries (Function.Straight bound)) :
    t'.LoopFree bound ∧ t'.cost bound d' < t.cost bound d := by
  obtain ⟨place, hruled⟩ := h.ruled
  have hruled' := hruled.begins h.carries (fun f hf => hf.1) hbegins
  cases hbegins with
  | part ht =>
    have hsmaller : Smaller bound d _ t.size := part_smaller hruled ht
    obtain ⟨hsize, hcost⟩ := hsmaller
    refine ⟨⟨hruled', Nat.le_trans (Nat.le_of_lt hsize) h.size, hcarries⟩, ?_⟩
    rw [hcost, cost_of_part ht]
    omega
  | stmts =>
    have hbody : Task.size (.stmts _) ≤ bound := h.carries.1.2
    refine ⟨⟨hruled', hbody, hcarries⟩, ?_⟩
    simp only [cost]
    omega
  | enter hd =>
    refine ⟨⟨hruled', Nat.zero_le _, hcarries⟩, ?_⟩
    simp only [cost, callCost_of_lt hd]
    omega
  | @bound e =>
    refine ⟨⟨hruled', Nat.zero_le _, hcarries⟩, ?_⟩
    have hpos := size_expr_pos e
    simp only [cost]
    omega
  | read | write | inherit | superclass | call | getter | body =>
    refine ⟨⟨hruled', Nat.zero_le _, hcarries⟩, ?_⟩
    simp only [cost]
    omega

end LoopFree

end Task

/-! ## Runs -/

/-- A task with as much fuel as it costs ends. -/
theorem ends_within {fuel : Nat} (h : t.LoopFree bound) (hcost : t.cost bound d ≤ fuel) :
    Keeps (Function.Straight bound) True d (within fuel t) (within fuel t)
      (t.Returns (Function.Straight bound)) := by
  induction fuel generalizing t d with
  | zero => exact absurd (Task.cost_pos bound d t) (Nat.not_lt.mpr hcost)
  | succ fuel ih =>
    have hcarried : Carried (Function.Straight bound) True (within fuel) (within fuel) t d := by
      intro t' d' hbegins hcarries
      obtain ⟨h', hless⟩ := h.begins hbegins hcarries
      exact ih h' (Nat.le_of_lt_succ (Nat.lt_of_lt_of_le hless hcost))
    exact hcarried.step h.carries h.functions

end Eval

namespace Code

variable {code : Code}

/-- Code without loops. -/
def LoopFree (code : Code) : Prop := ∀ t ∈ code.parts, t.Ruled Place.Straight {}

/-- The size of a source. -/
noncomputable def size : Code → Nat
  | .program stmts => sizeOf stmts
  | .expression e => sizeOf e

/-- The fuel that a source needs at a depth of calls, if it makes all functions itself. -/
noncomputable def cost (code : Code) (d : Nat) : Nat :=
  code.size + Eval.Task.callCost code.size d + 2

theorem LoopFree.parts (h : code.LoopFree) {t : Eval.Task} (ht : t ∈ code.parts) (d : Nat) :
    t.LoopFree code.size ∧ t.cost code.size d ≤ code.cost d := by
  have hruled : ∃ place, t.Ruled Place.Straight place := ⟨_, h t ht⟩
  have hcarries : t.Carries (Function.Straight code.size) := carries_parts ht
  cases code with
  | program stmts =>
    obtain ⟨s, hs, rfl⟩ := List.mem_map.mp ht
    have hsize : sizeOf s ≤ sizeOf stmts := Nat.le_of_lt (List.sizeOf_lt_of_mem hs)
    exact ⟨⟨hruled, hsize, hcarries⟩, Nat.add_le_add_right (Nat.add_le_add_right hsize _) _⟩
  | expression e =>
    obtain rfl := List.mem_singleton.mp ht
    exact ⟨⟨hruled, Nat.le_refl _, hcarries⟩, Nat.le_refl _⟩

/-- A source without loops, on a machine without functions of its own, ends, and it does so in the
same way with every amount of fuel beyond some. -/
theorem LoopFree.ends (h : code.LoopFree) {m : Machine} (hm : ∀ p, m.heap.Holds p) :
    ∃ o ≠ .outOfFuel, ∃ enough, ∀ fuel ≥ enough, code.runWith (Eval.within fuel) m = o := by
  have hkeeps : Eval.Keeps (Function.Straight code.size) True m.depth
      (code.runWith (Eval.within (code.cost m.depth)))
      (code.runWith (Eval.within (code.cost m.depth))) fun _ => True :=
    Code.keeps fun t ht => Eval.ends_within (h.parts ht m.depth).1 (h.parts ht m.depth).2
  obtain ⟨-, hcomes⟩ := hkeeps m (hm _) rfl
  have hends : code.runWith (Eval.within (code.cost m.depth)) m ≠ .outOfFuel := by
    intro hrun
    rw [hrun] at hcomes
    exact hcomes trivial
  refine ⟨_, hends, code.cost m.depth, fun fuel hfuel => ?_⟩
  exact ((Eval.runWith_mono hfuel code m).resolve_left hends).symm

end Code

end Scriptlet

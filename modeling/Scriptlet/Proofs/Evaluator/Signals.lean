import Scriptlet.Proofs.Evaluator.Closures
import Scriptlet.Proofs.Scope.Jumps

/-!
# Signals stay inside their constructs

A statement ends with a signal, and what is around it decides which signals it may end with: one to
leave a function only inside a function, and one to break or continue a loop only inside a loop of
that function (`Place.Permits`). If the jumps in a statement stand where they may, it ends with such
a signal on every machine (`signals_within`). A loop takes up the signals of its rounds that are
meant for it, and a function is a place without loops around it, so neither ends with such a signal
(`Task.Escapes`): not in the code of a program, and not in the functions on the heap, if these are
placed as well (`Code.Placed.not_reaches_escape`).
-/

namespace Scriptlet

namespace Place

/-- The signals that a statement at a place may end with. -/
def Permits (place : Place) : Signal → Prop
  | .next => True
  | .leave _ => place.inFunction
  | .breakLoop | .continueLoop => place.inLoop

/-- A place as it is for the rounds of a loop together, where nothing is left to break. -/
def unlooped (place : Place) : Place := { place with inLoop := false }

theorem Permits.of_unlooped {place : Place} {signal : Signal} (h : place.unlooped.Permits signal) :
    place.Permits signal := by
  cases signal with
  | next => trivial
  | leave => exact h
  | breakLoop | continueLoop => cases h

end Place

/-- A signal that no loop around it is needed for. -/
def Signal.Contained : Signal → Prop
  | .next | .leave _ => True
  | .breakLoop | .continueLoop => False

theorem Place.Permits.contained {place : Place} {signal : Signal}
    (h : place.unlooped.Permits signal) : signal.Contained := by
  cases signal with
  | next | leave => trivial
  | breakLoop | continueLoop => cases h

namespace Eval

variable {α : Type} {place place' : Place}

/-- A computation that ends only with signals that a place permits. -/
def Signals (place : Place) (x : Eval Signal) : Prop :=
  ∀ m, (x m).Meets (fun signal _ => place.Permits signal) fun _ _ => True

theorem Signals.of_ok {x : Eval Signal} (hx : Signals place x) {m m' : Machine} {signal : Signal}
    (h : x m = .ok signal m') : place.Permits signal := by
  have hm := hx m
  rwa [h] at hm

theorem Signals.widen {x : Eval Signal} (h : Signals place.unlooped x) : Signals place x :=
  fun m => (h m).imp (fun _ _ => Place.Permits.of_unlooped) fun _ _ => id

theorem signals_pure {signal : Signal} (h : place.Permits signal) :
    Signals place (pure signal : Eval Signal) :=
  fun _ => h

theorem signals_after {x : Eval α} {f : α → Eval Signal} (hf : ∀ a, Signals place (f a)) :
    Signals place (x >>= f) := by
  intro m
  rw [bind_apply]
  cases x m with
  | ok a m' => exact hf a m'
  | error | outOfFuel => trivial

theorem Signals.bind {x : Eval Signal} {f : Signal → Eval Signal} (hx : Signals place' x)
    (hf : ∀ signal, place'.Permits signal → Signals place (f signal)) : Signals place (x >>= f) := by
  intro m
  have hm := hx m
  rw [bind_apply]
  cases h : x m with
  | ok signal m' =>
    rw [h] at hm
    exact hf signal hm m'
  | error | outOfFuel => trivial

theorem Signals.inScope {x : Eval Signal} (hx : Signals place x) (scope : ScopeId) :
    Signals place (inScope scope x) := by
  intro m
  have hm := hx { m with scope := scope }
  unfold Eval.inScope
  dsimp only
  cases h : x { m with scope := scope } with
  | ok signal m' =>
    rw [h] at hm
    exact hm
  | error | outOfFuel => trivial

/-! ## Statements -/

/-- A way to evaluate statements so that they end with the signals that their place permits. -/
structure Signalling (r : Runner) : Prop where
  stmt : ∀ {s : Stmt (Option Link)} {place : Place}, s.Placed place → Signals place (r.stmt s)
  stmts : ∀ {ss : List (Stmt (Option Link))} {place : Place},
    Stmt.RuledList Place.Allows place ss → Signals place (r.stmts ss)
  loop : ∀ {condition : Expr (Option Link)} {body : Stmt (Option Link)}
    {update : Option (Expr (Option Link))} {skipTest : Bool} {place : Place},
    body.Placed place.looped → Signals place.unlooped (r.loop condition body update skipTest)

namespace Signalling

variable {r : Runner}

theorem stmtStep (h : Signalling r) {s : Stmt (Option Link)} (hs : s.Placed place) :
    Signals place (stmtStep r s) := by
  match s with
  | .evaluate span e => exact signals_after fun _ => signals_pure trivial
  | .print span keyword value =>
    exact signals_after fun _ => signals_after fun _ => signals_pure trivial
  | .declareVar span name none => exact signals_after fun _ => signals_pure trivial
  | .declareVar span name (some init) =>
    exact signals_after fun _ => signals_after fun _ => signals_pure trivial
  | .block span body =>
    rw [Stmt.Placed, Stmt.Ruled] at hs
    exact signals_after fun _ => signals_after fun scope => (h.stmts hs).inScope scope
  | .branch span condition onTrue none =>
    rw [Stmt.Placed, Stmt.Ruled] at hs
    refine signals_after fun c => ?_
    split
    · exact h.stmt hs.2
    · exact signals_pure trivial
  | .branch span condition onTrue (some onFalse) =>
    rw [Stmt.Placed, Stmt.Ruled] at hs
    refine signals_after fun c => ?_
    split
    · exact h.stmt hs.2.1
    · exact h.stmt hs.2.2
  | .loop span condition body none bodyFirst =>
    rw [Stmt.Placed, Stmt.Ruled] at hs
    exact (h.loop hs.2.2).widen
  | .loop span condition body (some update) bodyFirst =>
    rw [Stmt.Placed, Stmt.Ruled] at hs
    exact (h.loop hs.2.2.1).widen
  | .leave span keyword none =>
    rw [Stmt.Placed, Stmt.Ruled] at hs
    exact signals_pure hs
  | .leave span keyword (some value) =>
    rw [Stmt.Placed, Stmt.Ruled] at hs
    exact signals_after fun _ => signals_pure hs.1
  | .breakLoop span keyword =>
    rw [Stmt.Placed, Stmt.Ruled] at hs
    exact signals_pure hs
  | .continueLoop span keyword =>
    rw [Stmt.Placed, Stmt.Ruled] at hs
    exact signals_pure hs
  | .declareFunction d => exact signals_after fun _ => signals_after fun _ => signals_pure trivial
  | .declareClass span name superclass methods classMethods =>
    exact signals_after fun _ => signals_after fun _ => signals_after fun _ => signals_after
      fun _ => signals_pure trivial

theorem stmtsStep (h : Signalling r) {ss : List (Stmt (Option Link))}
    (hs : Stmt.RuledList Place.Allows place ss) : Signals place (stmtsStep r ss) := by
  cases ss with
  | nil => exact signals_pure trivial
  | cons s rest =>
    rw [Stmt.RuledList] at hs
    refine (h.stmt hs.1).bind fun signal hsignal => ?_
    cases signal with
    | next => exact h.stmts hs.2
    | leave | breakLoop | continueLoop => exact signals_pure hsignal

/-- A round may end with a signal for the loop, but the loop does not. -/
theorem loopStep (h : Signalling r) {condition : Expr (Option Link)} {body : Stmt (Option Link)}
    (update : Option (Expr (Option Link))) (skipTest : Bool) (hbody : body.Placed place.looped) :
    Signals place.unlooped (loopStep r condition body update skipTest) := by
  refine signals_after fun c => ?_
  split
  · refine (h.stmt hbody).bind fun signal hsignal => ?_
    cases signal with
    | breakLoop => exact signals_pure trivial
    | leave v => exact signals_pure hsignal
    | next | continueLoop => exact signals_after fun _ => h.loop hbody
  · exact signals_pure trivial

end Signalling

/-- Statements end with signals that their place permits, and loops with none that is meant for
them. -/
theorem signals_within (fuel : Nat) : Signalling (within fuel) := by
  induction fuel with
  | zero => exact ⟨fun _ _ => trivial, fun _ _ => trivial, fun _ _ => trivial⟩
  | succ fuel ih => exact ⟨ih.stmtStep, ih.stmtsStep, ih.loopStep _ _⟩

/-! ## Functions and loops -/

/-- The body of a function in a new scope, with the signal that it ends with. -/
def bodySignal (r : Runner) (f : Closure) (args : List Value) : Eval Signal := do
  let scope ← newScope f.scope (parameterSlots f.function.params args)
  inScope scope (r.stmts f.function.body)

/-- The body of a function or a loop that ends with a signal for a loop around it. -/
def Task.Escapes (m : Machine) : Task → Prop
  | .body f args =>
    ∃ fuel signal m', bodySignal (within fuel) f args m = .ok signal m' ∧ ¬ signal.Contained
  | .stmt (.loop span condition round update bodyFirst) =>
    ∃ fuel signal m', within fuel (.stmt (.loop span condition round update bodyFirst)) m =
      .ok signal m' ∧ ¬ signal.Contained
  | .loop condition round update skipTest =>
    ∃ fuel signal m', within fuel (.loop condition round update skipTest) m = .ok signal m' ∧
      ¬ signal.Contained
  | _ => False

theorem not_escapes {t : Task} (h : t.Ruled Place.Allows place)
    (hcarries : t.Carries Function.Placed) (m : Machine) : ¬ t.Escapes m := by
  unfold Task.Escapes
  split
  · next f args =>
    rintro ⟨fuel, signal, m', hrun, hescape⟩
    have hbody : Signals (Place.unlooped .function) (bodySignal (within fuel) f args) :=
      signals_after fun scope => ((signals_within fuel).stmts hcarries.1.body).inScope scope
    exact hescape (hbody.of_ok hrun).contained
  · rintro ⟨fuel, signal, m', hrun, hescape⟩
    cases fuel with
    | zero => cases hrun
    | succ fuel =>
      have hround := (Task.ruled_loop h).2.2.1
      exact hescape (((signals_within fuel).loop hround).of_ok hrun).contained
  · rintro ⟨fuel, signal, m', hrun, hescape⟩
    exact hescape (((signals_within fuel).loop h.2.2.1).of_ok hrun).contained
  · exact id

/-! ## Runs -/

/-- All tasks of a run are placed, if its source and the functions on the heap are. -/
theorem invariant_placed : Invariant Function.Placed fun t => ∃ place, t.Ruled Place.Allows place where
  begins := by
    rintro t t' d d' ⟨place, h⟩ hcarries hbegins
    exact h.begins hcarries (fun _ hf => hf) hbegins
  functions := by
    rintro t ⟨place, h⟩
    exact h.functions

end Eval

/-- Code whose jumps stand where they may. -/
def Code.Placed (code : Code) : Prop := ∀ t ∈ code.parts, t.Ruled Place.Allows {}

namespace Code.Placed

variable {code : Code} {m : Machine}

theorem ruled (h : code.Placed) :
    ∀ t ∈ code.parts, ∃ place, t.Ruled Place.Allows place :=
  fun t ht => ⟨{}, h t ht⟩

/-- No function and no loop that a run comes to ends with a signal for a loop around it. -/
theorem not_reaches_escape (h : code.Placed) (hm : m.heap.Holds Function.Placed) (fuel : Nat) :
    ¬ code.Reaches (fun t m => t.Escapes m) fuel m := by
  apply Eval.invariant_placed.not_reaches _ h.ruled hm fuel
  rintro t m ⟨place, ht⟩ hcarries
  exact Eval.not_escapes ht hcarries m

/-- A statement of a program goes on to the next one. -/
theorem signal_eq_next {stmts : List (Stmt (Option Link))} (h : (Code.program stmts).Placed)
    {s : Stmt (Option Link)} (hs : s ∈ stmts) {fuel : Nat} {m m' : Machine} {signal : Signal}
    (hrun : Eval.within fuel (.stmt s) m = .ok signal m') : signal = .next := by
  have hplaced : s.Placed {} := h (.stmt s) (List.mem_map_of_mem hs)
  have hpermits := ((Eval.signals_within fuel).stmt hplaced).of_ok hrun
  cases signal with
  | next => rfl
  | leave | breakLoop | continueLoop => cases hpermits

/-- After a run, the functions on the heap are placed as they were before it. -/
theorem holds (h : code.Placed) (hm : m.heap.Holds Function.Placed) {fuel : Nat} {m' : Machine}
    (hrun : (code.runWith (Eval.within fuel) m).machine? = some m') :
    m'.heap.Holds Function.Placed :=
  Eval.invariant_placed.holds h.ruled hm hrun

end Code.Placed

end Scriptlet

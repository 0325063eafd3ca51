import Scriptlet.Proofs.Evaluator.Names
import Scriptlet.Proofs.Evaluator.Termination
import Scriptlet.Proofs.Tree.Loops

/-!
# Loops run as they are written

How a loop runs is said directly of the loop as it is written (`LoopForm.Runs`), in terms of how its
clauses and its body run. A loop goes from its test to its body, to its update and back to the test
(`Rounds`); a `do` loop starts at its body, and all others at the test. The update follows a body
that ended normally or by `continue`, and no other; only `break`, `return`, errors and a test that
fails end the loop, and `break` leaves nothing behind. A `for` loop has a scope of its own exactly
if it has an initializer, which runs once.

The tree has one loop for all of them, and one evaluation of a round that ends with the rounds after
it. Evaluating this tree ends in the same way as the loop runs, or does not end if the loop does not
(`LoopForm.Desugars.ends_iff`). From the tree to the loop the proof is an induction on the fuel of
the evaluation, and from the loop to the tree one on the rounds.
-/

namespace Scriptlet

namespace Eval

/-- An evaluation that comes to an end, with some amount of fuel. -/
def Ends (t : Task) (m : Machine) (o : Outcome t.Result) : Prop :=
  o ≠ .outOfFuel ∧ ∃ fuel, within fuel t m = o

section

variable {α β : Type} {t : Task} {m : Machine}

theorem Ends.eventually {o : Outcome t.Result} (h : Ends t m o) :
    ∃ n, ∀ fuel, n ≤ fuel → within fuel t m = o := by
  obtain ⟨hne, n, hn⟩ := h
  refine ⟨n, fun fuel hfuel => ?_⟩
  rcases within_mono hfuel t m with hout | heq
  · exact absurd (hn.symm.trans hout) hne
  · rw [← heq, hn]

theorem ends_of_ok {fuel : Nat} {a : t.Result} {m' : Machine} (h : within fuel t m = .ok a m') :
    Ends t m (.ok a m') :=
  ⟨nofun, fuel, h⟩

theorem ends_of_error {fuel : Nat} {e : RuntimeError} {m' : Machine}
    (h : within fuel t m = .error e m') : Ends t m (.error e m') :=
  ⟨nofun, fuel, h⟩

/-- An evaluation ends in one way at most. -/
theorem Ends.unique {o o' : Outcome t.Result} (h : Ends t m o) (h' : Ends t m o') : o = o' := by
  obtain ⟨n, hn⟩ := h.eventually
  obtain ⟨n', hn'⟩ := h'.eventually
  rw [← hn (max n n') (Nat.le_max_left ..), ← hn' (max n n') (Nat.le_max_right ..)]

/-- A computation in two parts that ends, ends in its first part with an error or in its second. -/
theorem bind_cases {x : Eval α} {f : α → Eval β} {o : Outcome β} (h : (x >>= f) m = o)
    (ho : o ≠ .outOfFuel) : (∃ a m', x m = .ok a m' ∧ f a m' = o) ∨
      ∃ e m', x m = .error e m' ∧ o = .error e m' := by
  rw [bind_apply] at h
  cases hx : x m with
  | ok a m' =>
    rw [hx] at h
    exact .inl ⟨a, m', rfl, h⟩
  | error e m' =>
    rw [hx] at h
    exact .inr ⟨e, m', rfl, h.symm⟩
  | outOfFuel =>
    rw [hx] at h
    exact absurd h.symm ho

theorem bind_of_ok {x : Eval α} {f : α → Eval β} {a : α} {m' : Machine} (h : x m = .ok a m') :
    (x >>= f) m = f a m' := by
  rw [bind_apply, h]

theorem bind_of_error {x : Eval α} {f : α → Eval β} {e : RuntimeError} {m' : Machine}
    (h : x m = .error e m') : (x >>= f) m = .error e m' := by
  rw [bind_apply, h]

end

/-! ## Rounds -/

/-- The points of a loop between which its parts run. -/
inductive Point where
  | test
  | body
  | update

section

variable (test : Option (Expr (Option Link))) (body : Stmt (Option Link))
  (update : Option (Expr (Option Link)))

/-- How a loop goes on from a point, and ends. -/
inductive Rounds : Point → Machine → Outcome Signal → Prop where
  | noTest {m : Machine} {o : Outcome Signal} : test = none → Rounds .body m o → Rounds .test m o
  | testHolds {e : Expr (Option Link)} {v : Value} {m m' : Machine} {o : Outcome Signal} :
    test = some e → Ends (.expr e) m (.ok v m') → v.truthy = true → Rounds .body m' o →
    Rounds .test m o
  | testFails {e : Expr (Option Link)} {v : Value} {m m' : Machine} :
    test = some e → Ends (.expr e) m (.ok v m') → v.truthy = false →
    Rounds .test m (.ok .next m')
  | testError {e : Expr (Option Link)} {error : RuntimeError} {m m' : Machine} :
    test = some e → Ends (.expr e) m (.error error m') → Rounds .test m (.error error m')
  | bodyEnds {m m' : Machine} {o : Outcome Signal} :
    Ends (.stmt body) m (.ok .next m') → Rounds .update m' o → Rounds .body m o
  | bodyContinues {m m' : Machine} {o : Outcome Signal} :
    Ends (.stmt body) m (.ok .continueLoop m') → Rounds .update m' o → Rounds .body m o
  | bodyBreaks {m m' : Machine} :
    Ends (.stmt body) m (.ok .breakLoop m') → Rounds .body m (.ok .next m')
  | bodyLeaves {v : Value} {m m' : Machine} :
    Ends (.stmt body) m (.ok (.leave v) m') → Rounds .body m (.ok (.leave v) m')
  | bodyError {error : RuntimeError} {m m' : Machine} :
    Ends (.stmt body) m (.error error m') → Rounds .body m (.error error m')
  | noUpdate {m : Machine} {o : Outcome Signal} :
    update = none → Rounds .test m o → Rounds .update m o
  | updateEnds {u : Expr (Option Link)} {v : Value} {m m' : Machine} {o : Outcome Signal} :
    update = some u → Ends (.expr u) m (.ok v m') → Rounds .test m' o → Rounds .update m o
  | updateError {u : Expr (Option Link)} {error : RuntimeError} {m m' : Machine} :
    update = some u → Ends (.expr u) m (.error error m') → Rounds .update m (.error error m')

end

section

variable {test : Option (Expr (Option Link))} {body : Stmt (Option Link)}
  {update : Option (Expr (Option Link))} {place : Span}

theorem Rounds.ne_outOfFuel {p : Point} {m : Machine} {o : Outcome Signal}
    (h : Rounds test body update p m o) : o ≠ .outOfFuel := by
  induction h with
  | noTest _ _ ih | testHolds _ _ _ _ ih | bodyEnds _ _ ih | bodyContinues _ _ ih
  | noUpdate _ _ ih | updateEnds _ _ _ ih => exact ih
  | testFails | testError | bodyBreaks | bodyLeaves | bodyError | updateError => nofun

/-- What is evaluated from a point of a loop on. -/
def loopAt (r : Runner) (condition : Expr (Option Link)) (body : Stmt (Option Link))
    (update : Option (Expr (Option Link))) : Point → Eval Signal
  | .test => loopStep r condition body update false
  | .body => loopStep r condition body update true
  | .update => do
    updateStep r update
    r.loop condition body update false

variable {r : Runner} {condition : Expr (Option Link)}

theorem loopAt_test : loopAt r condition body update .test = (do
    let v ← r.expr condition
    if v.truthy then loopAt r condition body update .body else return .next) :=
  rfl

theorem loopAt_body : loopAt r condition body update .body = (do
    match ← r.stmt body with
    | .breakLoop => return .next
    | .leave v => return .leave v
    | _ => loopAt r condition body update .update) :=
  rfl

/-- An absent test holds. -/
theorem ends_absentTest {m : Machine} :
    Ends (.expr (.literal place (.bool true))) m (.ok (.bool true) m) :=
  ⟨nofun, 1, rfl⟩

/-! ### From the tree to the loop -/

section

variable {fuel : Nat} {m : Machine} {o : Outcome Signal}

theorem rounds_of_update
    (ih : ∀ m o, within fuel (.loop condition body update false) m = o → o ≠ .outOfFuel →
      Rounds test body update .test m o)
    (h : loopAt (within fuel) condition body update .update m = o) (ho : o ≠ .outOfFuel) :
    Rounds test body update .update m o := by
  cases update with
  | none => exact .noUpdate rfl (ih m o h ho)
  | some u =>
    rcases bind_cases h ho with ⟨_, m', hupdate, hloop⟩ | ⟨e, m', hupdate, rfl⟩
    · rcases bind_cases hupdate nofun with ⟨v, m'', hu, hend⟩ | ⟨_, _, _, hend⟩
      · cases hend
        exact .updateEnds rfl (ends_of_ok hu) (ih m' o hloop ho)
      · cases hend
    · rcases bind_cases hupdate nofun with ⟨_, _, _, hend⟩ | ⟨_, _, hu, hend⟩
      · cases hend
      · cases hend
        exact .updateError rfl (ends_of_error hu)

theorem rounds_of_body
    (ih : ∀ m o, within fuel (.loop condition body update false) m = o → o ≠ .outOfFuel →
      Rounds test body update .test m o)
    (h : loopAt (within fuel) condition body update .body m = o) (ho : o ≠ .outOfFuel) :
    Rounds test body update .body m o := by
  rw [loopAt_body] at h
  rcases bind_cases h ho with ⟨signal, m', hbody, hrest⟩ | ⟨e, m', hbody, rfl⟩
  · cases signal with
    | next => exact .bodyEnds (ends_of_ok hbody) (rounds_of_update ih hrest ho)
    | continueLoop => exact .bodyContinues (ends_of_ok hbody) (rounds_of_update ih hrest ho)
    | breakLoop =>
      obtain rfl : Outcome.ok .next m' = o := hrest
      exact .bodyBreaks (ends_of_ok hbody)
    | leave v =>
      obtain rfl : Outcome.ok (.leave v) m' = o := hrest
      exact .bodyLeaves (ends_of_ok hbody)
  · exact .bodyError (ends_of_error hbody)

theorem rounds_of_test
    (ih : ∀ m o, within fuel (.loop (test.getD (.literal place (.bool true))) body update false) m
      = o → o ≠ .outOfFuel → Rounds test body update .test m o)
    (h : loopAt (within fuel) (test.getD (.literal place (.bool true))) body update .test m = o)
    (ho : o ≠ .outOfFuel) : Rounds test body update .test m o := by
  rw [loopAt_test] at h
  rcases bind_cases h ho with ⟨v, m', htest, hrest⟩ | ⟨e, m', htest, rfl⟩
  · cases test with
    | none =>
      cases (ends_of_ok htest).unique ends_absentTest
      exact .noTest rfl (rounds_of_body ih hrest ho)
    | some condition =>
      cases hv : v.truthy with
      | true =>
        rw [hv, if_pos rfl] at hrest
        exact .testHolds rfl (ends_of_ok htest) hv (rounds_of_body ih hrest ho)
      | false =>
        rw [hv, if_neg Bool.false_ne_true] at hrest
        obtain rfl : Outcome.ok .next m' = o := hrest
        exact .testFails rfl (ends_of_ok htest) hv
  · cases test with
    | none => cases (ends_of_error htest).unique ends_absentTest
    | some condition => exact .testError rfl (ends_of_error htest)

/-- The rounds of a loop that is evaluated, from its test on. -/
theorem rounds_of_within
    (h : within fuel (.loop (test.getD (.literal place (.bool true))) body update false) m = o)
    (ho : o ≠ .outOfFuel) : Rounds test body update .test m o := by
  induction fuel generalizing m o with
  | zero => exact absurd h.symm ho
  | succ fuel ih => exact rounds_of_test (fun m o h ho => ih h ho) h ho

end

/-! ### From the loop to the tree -/

/-- With enough fuel, evaluation from a point of a loop on ends as the loop does. -/
theorem Rounds.eventually {p : Point} {m : Machine} {o : Outcome Signal}
    (h : Rounds test body update p m o) : ∃ n, ∀ fuel, n ≤ fuel →
      loopAt (within fuel) (test.getD (.literal place (.bool true))) body update p m = o := by
  induction h with
  | noTest htest _ ih =>
    subst htest
    obtain ⟨n, hn⟩ := ih
    obtain ⟨k, hk⟩ := ends_absentTest.eventually
    refine ⟨max n k, fun fuel hfuel => ?_⟩
    rw [loopAt_test]
    exact (bind_of_ok (hk fuel (by omega))).trans (hn fuel (by omega))
  | testHolds htest he hv _ ih =>
    subst htest
    obtain ⟨n, hn⟩ := ih
    obtain ⟨k, hk⟩ := he.eventually
    refine ⟨max n k, fun fuel hfuel => ?_⟩
    rw [loopAt_test]
    refine (bind_of_ok (hk fuel (by omega))).trans ?_
    rw [if_pos hv]
    exact hn fuel (by omega)
  | testFails htest he hv =>
    subst htest
    obtain ⟨k, hk⟩ := he.eventually
    refine ⟨k, fun fuel hfuel => ?_⟩
    rw [loopAt_test]
    refine (bind_of_ok (hk fuel hfuel)).trans ?_
    rw [hv]
    rfl
  | testError htest he =>
    subst htest
    obtain ⟨k, hk⟩ := he.eventually
    exact ⟨k, fun fuel hfuel => bind_of_error (hk fuel hfuel)⟩
  | bodyEnds hbody _ ih | bodyContinues hbody _ ih =>
    obtain ⟨n, hn⟩ := ih
    obtain ⟨k, hk⟩ := hbody.eventually
    refine ⟨max n k, fun fuel hfuel => ?_⟩
    rw [loopAt_body]
    exact (bind_of_ok (hk fuel (by omega))).trans (hn fuel (by omega))
  | bodyBreaks hbody | bodyLeaves hbody =>
    obtain ⟨k, hk⟩ := hbody.eventually
    refine ⟨k, fun fuel hfuel => ?_⟩
    rw [loopAt_body]
    exact bind_of_ok (hk fuel hfuel)
  | bodyError hbody =>
    obtain ⟨k, hk⟩ := hbody.eventually
    refine ⟨k, fun fuel hfuel => ?_⟩
    rw [loopAt_body]
    exact bind_of_error (hk fuel hfuel)
  | noUpdate hupdate _ ih =>
    subst hupdate
    obtain ⟨n, hn⟩ := ih
    refine ⟨n + 1, fun fuel hfuel => ?_⟩
    obtain ⟨fuel, rfl⟩ := Nat.exists_eq_add_of_le' hfuel
    exact hn (fuel + n) (by omega)
  | @updateEnds u v m m' o hupdate hu _ ih =>
    subst hupdate
    obtain ⟨n, hn⟩ := ih
    obtain ⟨k, hk⟩ := hu.eventually
    refine ⟨max n k + 1, fun fuel hfuel => ?_⟩
    obtain ⟨fuel, rfl⟩ := Nat.exists_eq_add_of_le' hfuel
    have hstep : updateStep (within (fuel + (max n k + 1))) (some u) m = .ok () m' :=
      bind_of_ok (hk (fuel + (max n k + 1)) (by omega))
    exact (bind_of_ok hstep).trans (hn (fuel + max n k) (by omega))
  | updateError hupdate hu =>
    subst hupdate
    obtain ⟨k, hk⟩ := hu.eventually
    exact ⟨k, fun fuel hfuel => bind_of_error (bind_of_error (hk fuel hfuel))⟩

/-- The loop of the tree, begun at its test or at its body, ends as the rounds do. -/
theorem ends_loop_iff {bodyFirst : Bool} {m : Machine} {o : Outcome Signal} :
    Ends (.loop (test.getD (.literal place (.bool true))) body update bodyFirst) m o ↔
      Rounds test body update (if bodyFirst then .body else .test) m o := by
  constructor
  · rintro ⟨ho, fuel, hfuel⟩
    cases bodyFirst with
    | false => exact rounds_of_within hfuel ho
    | true =>
      cases fuel with
      | zero => exact absurd hfuel.symm ho
      | succ fuel => exact rounds_of_body (fun m o h ho => rounds_of_within h ho) hfuel ho
  · intro h
    obtain ⟨n, hn⟩ := h.eventually
    refine ⟨h.ne_outOfFuel, n + 1, ?_⟩
    have hloop := hn n (Nat.le_refl n)
    cases bodyFirst with
    | false => exact hloop
    | true => exact hloop

end

end Eval

/-! ## Loops -/

namespace Machine

/-- A machine in a new scope inside its own. -/
def inside (m : Machine) : Machine :=
  { m with heap := m.heap.addScope m.scope [], scope := m.heap.nextScope }

end Machine

/-- The same end back in a scope. -/
def Outcome.backIn {α : Type} (scope : ScopeId) : Outcome α → Outcome α
  | .ok a m => .ok a { m with scope := scope }
  | .error e m => .error e { m with scope := scope }
  | .outOfFuel => .outOfFuel

open Eval in
/-- How a loop runs. -/
inductive LoopForm.Runs : LoopForm (Option Link) → Machine → Outcome Signal → Prop where
  | whileDo {condition : Expr (Option Link)} {body : Stmt (Option Link)} {m : Machine}
    {o : Outcome Signal} :
    Rounds (some condition) body none .test m o → Runs (.whileDo condition body) m o
  | doWhile {condition : Expr (Option Link)} {body : Stmt (Option Link)} {m : Machine}
    {o : Outcome Signal} :
    Rounds (some condition) body none .body m o → Runs (.doWhile body condition) m o
  | forDo {test update : Option (Expr (Option Link))} {body : Stmt (Option Link)} {m : Machine}
    {o : Outcome Signal} :
    Rounds test body update .test m o → Runs (.forDo none test update body) m o
  | forInit {init : List (Stmt (Option Link))} {test update : Option (Expr (Option Link))}
    {body : Stmt (Option Link)} {m m' : Machine} {o : Outcome Signal} :
    Ends (.stmts init) m.inside (.ok .next m') → Rounds test body update .test m' o →
    Runs (.forDo (some init) test update body) m (o.backIn m.scope)
  | initError {init : List (Stmt (Option Link))} {test update : Option (Expr (Option Link))}
    {body : Stmt (Option Link)} {error : RuntimeError} {m m' : Machine} :
    Ends (.stmts init) m.inside (.error error m') →
    Runs (.forDo (some init) test update body) m (.error error { m' with scope := m.scope })

namespace Eval

section

variable {s : Stmt (Option Link)} {ss ss' : List (Stmt (Option Link))} {m m' : Machine}
  {o : Outcome Signal}

/-! ### Statements around a loop -/

theorem ends_stmt_loop {span : Span} {condition : Expr (Option Link)} {body : Stmt (Option Link)}
    {update : Option (Expr (Option Link))} {bodyFirst : Bool} :
    Ends (.stmt (.loop span condition body update bodyFirst)) m o ↔
      Ends (.loop condition body update bodyFirst) m o := by
  constructor
  · rintro ⟨ho, fuel, hfuel⟩
    cases fuel with
    | zero => exact absurd hfuel.symm ho
    | succ fuel => exact ⟨ho, fuel, hfuel⟩
  · rintro ⟨ho, fuel, hfuel⟩
    exact ⟨ho, fuel + 1, hfuel⟩

theorem within_block {span : Span} (fuel : Nat) :
    within (fuel + 1) (.stmt (.block span ss)) m =
      (within fuel (.stmts ss) m.inside).backIn m.scope := by
  rfl

/-- A block runs in a scope of its own. -/
theorem ends_block_iff {span : Span} : Ends (.stmt (.block span ss)) m o ↔
    ∃ o', Ends (.stmts ss) m.inside o' ∧ o = o'.backIn m.scope := by
  constructor
  · rintro ⟨ho, fuel, hfuel⟩
    cases fuel with
    | zero => exact absurd hfuel.symm ho
    | succ fuel =>
      rw [within_block] at hfuel
      refine ⟨_, ⟨fun hout => ho ?_, fuel, rfl⟩, hfuel.symm⟩
      rw [← hfuel, hout]
      rfl
  · rintro ⟨o', ⟨ho', fuel, hfuel⟩, rfl⟩
    refine ⟨?_, fuel + 1, ?_⟩
    · cases o' with
      | outOfFuel => exact absurd rfl ho'
      | ok | error => nofun
    · rw [within_block, hfuel]

theorem ends_stmts_nil : Ends (.stmts []) m o ↔ o = .ok .next m := by
  constructor
  · rintro ⟨ho, fuel, hfuel⟩
    cases fuel with
    | zero => exact absurd hfuel.symm ho
    | succ fuel => exact hfuel.symm
  · rintro rfl
    exact ⟨nofun, 1, rfl⟩

/-- A list of statements ends with the first one that does not go on to the next. -/
theorem ends_stmts_cons : Ends (.stmts (s :: ss)) m o ↔
    (∃ m', Ends (.stmt s) m (.ok .next m') ∧ Ends (.stmts ss) m' o) ∨
      (∃ signal m', signal ≠ .next ∧ Ends (.stmt s) m (.ok signal m') ∧ o = .ok signal m') ∨
      ∃ e m', Ends (.stmt s) m (.error e m') ∧ o = .error e m' := by
  constructor
  · rintro ⟨ho, fuel, hfuel⟩
    cases fuel with
    | zero => exact absurd hfuel.symm ho
    | succ fuel =>
      rcases bind_cases hfuel ho with ⟨signal, m', hs, hrest⟩ | ⟨e, m', hs, rfl⟩
      · cases signal with
        | next => exact .inl ⟨m', ends_of_ok hs, ho, fuel, hrest⟩
        | leave v => exact .inr (.inl ⟨.leave v, m', nofun, ends_of_ok hs, hrest.symm⟩)
        | breakLoop => exact .inr (.inl ⟨.breakLoop, m', nofun, ends_of_ok hs, hrest.symm⟩)
        | continueLoop =>
          exact .inr (.inl ⟨.continueLoop, m', nofun, ends_of_ok hs, hrest.symm⟩)
      · exact .inr (.inr ⟨e, m', ends_of_error hs, rfl⟩)
  · rintro (⟨m', hs, hrest⟩ | ⟨signal, m', hsignal, hs, rfl⟩ | ⟨e, m', hs, rfl⟩)
    · obtain ⟨n, hn⟩ := hs.eventually
      obtain ⟨n', hn'⟩ := hrest.eventually
      refine ⟨hrest.1, max n n' + 1, ?_⟩
      exact (bind_of_ok (hn (max n n') (by omega))).trans (hn' (max n n') (by omega))
    · obtain ⟨n, hn⟩ := hs.eventually
      refine ⟨nofun, n + 1, (bind_of_ok (hn n (Nat.le_refl n))).trans ?_⟩
      cases signal with
      | next => exact absurd rfl hsignal
      | leave | breakLoop | continueLoop => rfl
    · obtain ⟨n, hn⟩ := hs.eventually
      exact ⟨nofun, n + 1, bind_of_error (hn n (Nat.le_refl n))⟩

theorem ends_stmts_singleton : Ends (.stmts [s]) m o ↔ Ends (.stmt s) m o := by
  rw [ends_stmts_cons]
  simp only [ends_stmts_nil]
  constructor
  · rintro (⟨m', hs, rfl⟩ | ⟨signal, m', -, hs, rfl⟩ | ⟨e, m', hs, rfl⟩)
    · exact hs
    · exact hs
    · exact hs
  · intro hs
    cases o with
    | outOfFuel => exact absurd rfl hs.1
    | error e m' => exact .inr (.inr ⟨e, m', hs, rfl⟩)
    | ok signal m' =>
      by_cases hsignal : signal = .next
      · subst hsignal
        exact .inl ⟨m', hs, rfl⟩
      · exact .inr (.inl ⟨signal, m', hsignal, hs, rfl⟩)

/-- A statement of an initializer goes on to the next one, if it ends without an error. -/
theorem signal_of_clause (hs : s.IsClause) {signal : Signal}
    (h : Ends (.stmt s) m (.ok signal m')) : signal = .next := by
  obtain ⟨-, fuel, hfuel⟩ := h
  cases fuel with
  | zero => cases hfuel
  | succ fuel =>
    cases s with
    | evaluate _ e =>
      obtain ⟨_, _, -, hrest⟩ := bind_ok hfuel
      cases hrest
      rfl
    | declareVar _ name init =>
      cases init with
      | none =>
        cases hfuel
        rfl
      | some e =>
        obtain ⟨_, _, -, hrest⟩ := bind_ok hfuel
        cases hrest
        rfl
    | _ => exact hs.elim

/-- An initializer before other statements. -/
theorem ends_stmts_append (hss : ∀ s ∈ ss, s.IsClause) : Ends (.stmts (ss ++ ss')) m o ↔
    (∃ m', Ends (.stmts ss) m (.ok .next m') ∧ Ends (.stmts ss') m' o) ∨
      ∃ e m', Ends (.stmts ss) m (.error e m') ∧ o = .error e m' := by
  induction ss generalizing m with
  | nil =>
    rw [List.nil_append]
    constructor
    · intro h
      exact .inl ⟨m, ends_stmts_nil.mpr rfl, h⟩
    · rintro (⟨m', hnil, h⟩ | ⟨e, m', hnil, -⟩)
      · cases ends_stmts_nil.mp hnil
        exact h
      · cases ends_stmts_nil.mp hnil
  | cons s ss ih =>
    obtain ⟨hs, hss⟩ := List.forall_mem_cons.mp hss
    rw [List.cons_append, ends_stmts_cons]
    constructor
    · rintro (⟨m₁, hfirst, hrest⟩ | ⟨signal, m₁, hsignal, hfirst, -⟩ | ⟨e, m₁, hfirst, rfl⟩)
      · rcases (ih hss).mp hrest with ⟨m', hend, h⟩ | ⟨e, m', hend, rfl⟩
        · exact .inl ⟨m', ends_stmts_cons.mpr (.inl ⟨m₁, hfirst, hend⟩), h⟩
        · exact .inr ⟨e, m', ends_stmts_cons.mpr (.inl ⟨m₁, hfirst, hend⟩), rfl⟩
      · exact absurd (signal_of_clause hs hfirst) hsignal
      · exact .inr ⟨e, m₁, ends_stmts_cons.mpr (.inr (.inr ⟨e, m₁, hfirst, rfl⟩)), rfl⟩
    · rintro (⟨m', hall, hrest⟩ | ⟨e, m', hall, rfl⟩)
      · rcases ends_stmts_cons.mp hall with
          ⟨m₁, hfirst, hend⟩ | ⟨_, _, hsignal, _, hend⟩ | ⟨_, _, _, hend⟩
        · exact .inl ⟨m₁, hfirst, (ih hss).mpr (.inl ⟨m', hend, hrest⟩)⟩
        · cases hend
          exact absurd rfl hsignal
        · cases hend
      · rcases ends_stmts_cons.mp hall with
          ⟨m₁, hfirst, hend⟩ | ⟨_, _, _, _, hend⟩ | ⟨_, _, hfirst, hend⟩
        · exact .inl ⟨m₁, hfirst, (ih hss).mpr (.inr ⟨e, m', hend, rfl⟩)⟩
        · cases hend
        · cases hend
          exact .inr (.inr ⟨e, m', hfirst, rfl⟩)

end

end Eval

open Scriptlet.Eval in
/-- The statement that stands for a loop ends as the loop runs. -/
theorem LoopForm.Desugars.ends_iff {loop : LoopForm (Option Link)} {s : Stmt (Option Link)}
    (h : loop.Desugars s) (hplain : loop.Plain) {m : Machine} {o : Outcome Signal} :
    Ends (.stmt s) m o ↔ loop.Runs m o := by
  cases h with
  | @whileDo _ condition body =>
    have hloop := @ends_loop_iff (some condition) body none .nowhere false m o
    rw [ends_stmt_loop]
    refine hloop.trans ⟨.whileDo, fun hruns => ?_⟩
    cases hruns with
    | whileDo hrounds => exact hrounds
  | @doWhile _ condition body =>
    have hloop := @ends_loop_iff (some condition) body none .nowhere true m o
    rw [ends_stmt_loop]
    refine hloop.trans ⟨.doWhile, fun hruns => ?_⟩
    cases hruns with
    | doWhile hrounds => exact hrounds
  | @forDo _ place test update body =>
    rw [ends_stmt_loop]
    refine ends_loop_iff.trans ⟨.forDo, fun hruns => ?_⟩
    cases hruns with
    | forDo hrounds => exact hrounds
  | @forInit span place init test update body =>
    rw [ends_block_iff]
    constructor
    · rintro ⟨o', hstmts, rfl⟩
      rcases (ends_stmts_append hplain).mp hstmts with ⟨m', hinit, hloop⟩ | ⟨e, m', hinit, rfl⟩
      · rw [ends_stmts_singleton, ends_stmt_loop] at hloop
        exact .forInit hinit (ends_loop_iff.mp hloop)
      · exact .initError hinit
    · intro hruns
      cases hruns with
      | forInit hinit hrounds =>
        refine ⟨_, (ends_stmts_append hplain).mpr (.inl ⟨_, hinit, ?_⟩), rfl⟩
        rw [ends_stmts_singleton, ends_stmt_loop]
        exact ends_loop_iff.mpr hrounds
      | initError hinit =>
        exact ⟨_, (ends_stmts_append hplain).mpr (.inr ⟨_, _, hinit, rfl⟩), rfl⟩

/-- For every statement that is read where `for`, `while` or `do` stands there is the loop that is
written there; and however its names are linked, and whatever the machine, evaluating the tree ends
in some way exactly if the loop, run as it is written, ends in this way: with the same signal or
error, heap and output. -/
theorem loops_run_as_written {fuel : Nat} {c c' : Cursor} {s : Stmt Unit}
    (hloop : Parser.BeginsLoop c.current.kind) (hread : Parser.statement fuel c = .ok s c') :
    ∃ loop : LoopForm Unit, loop.Written c c' ∧
      ∀ linked : Stmt (Option Link), linked.bare = s →
        ∃ linkedLoop : LoopForm (Option Link), linkedLoop.bare = loop ∧
          ∀ m o, Eval.Ends (.stmt linked) m o ↔ linkedLoop.Runs m o := by
  obtain ⟨loop, hwritten, hdesugars⟩ := Parser.statement_written hloop hread
  refine ⟨loop, hwritten, fun linked hlinked => ?_⟩
  subst hlinked
  obtain ⟨linkedLoop, rfl, hlinked⟩ := hdesugars.of_bare
  have hplain : linkedLoop.Plain := LoopForm.plain_bare.mp hwritten.plain
  exact ⟨linkedLoop, rfl, fun m o => hlinked.ends_iff hplain⟩

/-- A loop with all clauses, whose body may go on or break off. -/
theorem loops_run_as_written_allClauses :
    let c := Cursor.ofTokens (tokenize
      "for (var i = 0, n = 9; i < n; i++) if (i == 1) continue; else break;").tokens
    Parser.BeginsLoop c.current.kind ∧ ∃ s c', Parser.statement 200 c = .ok s c' ∧
      ∃ loop : LoopForm Unit, loop.Written c c' ∧
        ∀ linked : Stmt (Option Link), linked.bare = s →
          ∃ linkedLoop : LoopForm (Option Link), linkedLoop.bare = loop ∧
            ∀ m o, Eval.Ends (.stmt linked) m o ↔ linkedLoop.Runs m o := by
  intro c
  have hloop : Parser.BeginsLoop c.current.kind := .inl (by decide +kernel)
  have hok : (Parser.statement 200 c).isOk := by decide +kernel
  cases hread : Parser.statement 200 c with
  | ok s c' => exact ⟨hloop, s, c', rfl, loops_run_as_written hloop hread⟩
  | failed | starved =>
    rw [hread] at hok
    cases hok

end Scriptlet

import Scriptlet.Proofs.Scope.Jumps
import Scriptlet.Proofs.Session.Batch
import Scriptlet.Proofs.Session.StaticErrors

/-!
# The names of a session

A session binds a global name when a declaration of a program ends well, and at no other time
(`names_change_by_declarations`). Inside functions and blocks names are bound in scopes that are made
for them. So a program that stops at an error has bound the names that its statements before that one
declare, and an expression binds none.
-/

namespace Scriptlet

theorem Stmt.declaredList_bareList (ss : List (Stmt (Option Link))) :
    Stmt.declaredList (Stmt.bareList ss) = Stmt.declaredList ss := by
  rw [Stmt.bareList_eq_map, Stmt.declaredList, List.flatMap_map]
  exact congrArg (fun f => ss.flatMap f) (funext (Stmt.declared_mapLinks _))

/-- The names of a scope, by the variables in it. -/
theorem Heap.mem_names {h : Heap} {id : ScopeId} {x : Text} :
    x ∈ h.names id ↔ (h.slots id).has x :=
  Entries.mem_names ..

namespace Machine.Gains

variable {m m' : Machine} {xs : List Text} {id : ScopeId}

/-- Where nothing is gained, every scope that exists has the names that it had. -/
theorem names_iff (h : Gains [] m m') (hid : id < m.heap.nextScope) (x : Text) :
    x ∈ m'.heap.names id ↔ x ∈ m.heap.names id := by
  rw [Heap.mem_names, Heap.mem_names]
  refine ⟨fun hx => (h.gained id x hid hx).resolve_right ?_, h.kept id x⟩
  exact fun hnew => List.not_mem_nil hnew.2

end Machine.Gains

namespace Eval

variable {fuel : Nat} {t : Task} {m m' : Machine}

theorem gains_of_machine? (h : (within fuel t m).machine? = some m') : m.Gains t.exposed m' := by
  have hgains := gains_within fuel t m
  cases hrun : within fuel t m with
  | ok | error =>
    rw [hrun] at h hgains
    cases h
    exact hgains
  | outOfFuel =>
    rw [hrun] at h
    cases h

/-- A run adds scopes only. -/
theorem size_le_of_run {stmts : List (Stmt (Option Link))} {a : Unit}
    (h : Machine.run fuel stmts m = .ok a m') : m.heap.nextScope ≤ m'.heap.nextScope := by
  unfold Machine.run at h
  induction stmts generalizing m with
  | nil =>
    cases h
    exact Nat.le_refl _
  | cons s rest ih =>
    obtain ⟨signal, m₁, h₁, h₂⟩ := bind_ok h
    exact Nat.le_trans ((gains_within fuel (.stmt s)).of_ok h₁).size (ih h₂)

end Eval

namespace Session

variable {s s' : Session} {codes : List Code} {fuel : Nat} {source file : Text}

theorem mem_names {x : Text} : x ∈ s.names ↔ x ∈ s.machine.heap.names Heap.globals :=
  List.mem_mergeSort

/-- An expression that stands alone leaves the names of a session as they are. -/
theorem names_after_expression (hs : s.History codes) {step : Step} {result : Result}
    (hstep : step.isExpression) (h : s.take fuel step = some (result, s')) (x : Text) :
    x ∈ s'.names ↔ x ∈ s.names := by
  obtain ⟨W, hsound⟩ := hs.consistent.sound
  rw [mem_names, mem_names]
  rcases heap_of_take h with hm | ⟨_, _, _, m, hload, hrun, hm⟩
  · rw [hm]
  · obtain ⟨-, ⟨hprogram, -, -⟩ | ⟨-, e, -, rfl, -⟩⟩ := load_ready hload
    · rw [hstep] at hprogram
      cases hprogram
    · rw [hm]
      exact (Eval.gains_of_machine? hrun).names_iff hsound.nonempty x

theorem load_run_ne_idle (report : Report) : s.load (.run source file) ≠ .idle report := by
  by_cases hclean : ReadsClean source
  · rw [hclean.load, loadStmts_eq]
    split <;> nofun
  · obtain ⟨report', hload⟩ := load_refused hclean s file
    rw [hload]
    nofun

/-- A program that ended well has bound the names that it declares. -/
theorem names_after_ok (hs : s.History codes) {result : Result}
    (h : s.run fuel source file = some (result, s')) (hok : result.verdict = .ok) (x : Text) :
    x ∈ s'.names ↔ x ∈ s.names ∨ x ∈ Stmt.declaredList (programOf source) := by
  obtain ⟨W, hsound⟩ := hs.consistent.sound
  rw [mem_names, mem_names]
  have htake : s.take fuel (.run source file) = some (result, s') := h
  obtain ⟨-, ⟨_, _, rfl, _⟩ | ⟨_, hload, _⟩ | ⟨code, _, _, hload, _, ⟨_, hp, -⟩ | ⟨_, _, rfl⟩⟩⟩ :=
    take_cases htake
  · cases hok
  · exact absurd hload (load_run_ne_idle _)
  · have hwf := (linked_of_load hload).wellFormed
    obtain ⟨-, hclean, rfl, -, -⟩ := load_run_ready hload
    obtain ⟨_, m, hrun, hheap⟩ := Code.heap_of_perform hp
    rw [hheap, ← resolveStmts_declaredList (programOf_wellFormed source) hclean]
    exact Eval.mem_names_run hwf hs.at_rest.1 hsound.nonempty hrun x
  · cases hok

/-- A statement of a program at which its run stopped with an error: the statements before it were
run, and it was begun on the machine that they left. -/
structure StopsAt (fuel : Nat) (s : Session) (source file : Text)
    (before : List (Stmt (Option Link))) (stmt : Stmt (Option Link)) (m m' : Machine) : Prop where
  loaded : ∃ after links report,
    s.load (.run source file) = .ready (.program (before ++ stmt :: after)) links report
  ran : Machine.run fuel before s.machine = .ok () m
  stopped : ∃ e, Eval.within fuel (.stmt stmt) m = .error e m'

theorem exists_stopsAt {result : Result} (h : s.run fuel source file = some (result, s'))
    (herror : result.verdict = .runtimeError) :
    ∃ before stmt m, StopsAt fuel s source file before stmt m s'.machine := by
  have htake : s.take fuel (.run source file) = some (result, s') := h
  obtain ⟨-, ⟨_, _, rfl, _⟩ | ⟨_, _, rfl, _⟩ | ⟨code, links, report, hload, _, ⟨_, _, rfl⟩ |
    ⟨e, hp, -⟩⟩⟩ := take_cases htake
  · cases herror
  · cases herror
  · cases herror
  · have hrun := Code.perform_error_iff.mp hp
    obtain ⟨-, -, rfl, -, -⟩ := load_run_ready hload
    obtain ⟨before, stmt, after, m, heq, hbefore, hstop⟩ := Eval.run_error_cases hrun
    rw [heq] at hload
    exact ⟨before, stmt, m, ⟨after, links, report, hload⟩, hbefore, e, hstop⟩

namespace StopsAt

variable {before : List (Stmt (Option Link))} {stmt : Stmt (Option Link)} {m m' : Machine}

/-- The statements that were run are the first ones of the program. -/
theorem bareList_eq_take (h : StopsAt fuel s source file before stmt m m') :
    Stmt.bareList before = (programOf source).take before.length := by
  obtain ⟨after, links, report, hload⟩ := h.loaded
  obtain ⟨-, -, hcode, -, -⟩ := load_run_ready hload
  have hbare : Stmt.bareList (s.resolve (programOf source)).tree = programOf source :=
    (resolveStmts_demands _ (programOf source) _).1
  rw [← Code.program.inj hcode, Stmt.bareList_eq_map, List.map_append] at hbare
  rw [← hbare, Stmt.bareList_eq_map, ← List.length_map Stmt.bare, List.take_left]

/-- A program that stopped at a statement has bound the names that those before it declare. -/
theorem names_iff (h : StopsAt fuel s source file before stmt m m') (hs : s.History codes)
    (x : Text) : x ∈ m'.heap.names Heap.globals ↔
      x ∈ s.names ∨ x ∈ Stmt.declaredList ((programOf source).take before.length) := by
  obtain ⟨W, hsound⟩ := hs.consistent.sound
  obtain ⟨after, links, report, hload⟩ := h.loaded
  obtain ⟨e, hstop⟩ := h.stopped
  have hwf : Stmt.WellFormedList (before ++ stmt :: after) := (linked_of_load hload).wellFormed
  obtain ⟨hbefore, hstmt, -⟩ := hwf.of_append
  have hsize : Heap.globals < m.heap.nextScope :=
    Nat.lt_of_lt_of_le hsound.nonempty (Eval.size_le_of_run h.ran)
  rw [← h.bareList_eq_take, Stmt.declaredList_bareList, mem_names,
    (Eval.gains_of_error hstmt hstop).names_iff hsize]
  exact Eval.mem_names_run hbefore hs.at_rest.1 hsound.nonempty h.ran x

/-- A declaration at which a program stopped has not bound its name: the machine is as what it
evaluates first has left it. -/
theorem initial (h : StopsAt fuel s source file before stmt m m') (hd : stmt.declared ≠ []) :
    ∃ t ∈ stmt.initial?, (Eval.within (fuel - 1) t m).machine? = some m' := by
  obtain ⟨e, hstop⟩ := h.stopped
  cases fuel with
  | zero => cases hstop
  | succ fuel => exact Eval.initial_of_error hstop hd

end StopsAt

/-- The global names change by declarations of programs only. After a program that ended well they are
those before it and those that it declares; after one that stopped at an error, those before it and
those that the statements before the failing one declare, and a failing declaration has done no more
than evaluate what it begins with. An expression that stands alone changes no names. More generally,
evaluating an expression keeps the names of every scope that exists, and executing a statement adds
names at most to the scope that it runs in. -/
theorem names_change_by_declarations :
    (∀ (s s' : Session) (codes : List Code) (fuel : Nat) (source file : Text) (result : Result),
      s.History codes → s.run fuel source file = some (result, s') →
      (result.verdict = .ok →
        ∀ x, x ∈ s'.names ↔ x ∈ s.names ∨ x ∈ Stmt.declaredList (programOf source)) ∧
      (result.verdict = .runtimeError →
        ∃ before stmt m, StopsAt fuel s source file before stmt m s'.machine ∧
          (∀ x, x ∈ s'.names ↔
            x ∈ s.names ∨ x ∈ Stmt.declaredList ((programOf source).take before.length)) ∧
          (stmt.declared ≠ [] →
            ∃ t ∈ stmt.initial?, (Eval.within (fuel - 1) t m).machine? = some s'.machine)) ∧
      (result.verdict = .staticError → s'.names = s.names)) ∧
    (∀ (s s' : Session) (codes : List Code) (fuel : Nat) (source : Text) (result : Result),
      s.History codes → isBareExpression (tokenize source).tokens →
      s.eval fuel source = some (result, s') → ∀ x, x ∈ s'.names ↔ x ∈ s.names) ∧
    (∀ (fuel : Nat) (e : Expr (Option Link)) (m m' : Machine),
      (Eval.within fuel (.expr e) m).machine? = some m' → ∀ id < m.heap.nextScope, ∀ x,
        x ∈ m'.heap.names id ↔ x ∈ m.heap.names id) ∧
    ∀ (fuel : Nat) (stmt : Stmt (Option Link)) (m m' : Machine),
      (Eval.within fuel (.stmt stmt) m).machine? = some m' → ∀ id < m.heap.nextScope, ∀ x,
        (x ∈ m.heap.names id → x ∈ m'.heap.names id) ∧
        (x ∈ m'.heap.names id → x ∈ m.heap.names id ∨ id = m.scope) := by
  refine ⟨?_, ?_, ?_, ?_⟩
  · intro s s' codes fuel source file result hs h
    refine ⟨fun hok => names_after_ok hs h hok, fun herror => ?_, fun hstatic => ?_⟩
    · obtain ⟨before, stmt, m, hstop⟩ := exists_stopsAt h herror
      refine ⟨before, stmt, m, hstop, fun x => ?_, hstop.initial⟩
      rw [mem_names]
      exact hstop.names_iff hs x
    · have htake : s.take fuel (.run source file) = some (result, s') := h
      have hagrees := agrees_of_staticError htake hstatic
      rw [names, names, hagrees.machine]
  · intro s s' codes fuel source result hs hbare h
    have htake : s.take fuel (.eval source) = some (result, s') := h
    have hstep : Step.isExpression (.eval source) := hbare
    exact names_after_expression hs hstep htake
  · intro fuel e m m' h id hid x
    exact (Eval.gains_of_machine? h).names_iff hid x
  · intro fuel stmt m m' h id hid x
    have hgains := Eval.gains_of_machine? h
    rw [Heap.mem_names, Heap.mem_names]
    exact ⟨hgains.kept id x, fun hx => (hgains.gained id x hid hx).imp_right And.left⟩

/-- A program that declares two names, stops at the declaration of a third one, whose initializer
calls a function that assigns to the first, and would declare a fourth. -/
def failingDeclaration : Text :=
  "var a = none; fun f() \x7b a = true; missing; \x7d var c = f(); var d = none;"

/-- Of these names the first two are there in the end, and no others than before. -/
theorem names_change_by_declarations_failingDeclaration :
    ∃ result s' before stmt m,
      (start {} 0 false).run 50 failingDeclaration [] = some (result, s') ∧
      result.verdict = .runtimeError ∧
      s'.machine.heap.names Heap.globals =
        (start {} 0 false).machine.heap.names Heap.globals ++ ["a", "f"].map Text.ofString ∧
      StopsAt 50 (start {} 0 false) failingDeclaration [] before stmt m s'.machine ∧
      ∀ x, x ∈ s'.names ↔ x ∈ (start {} 0 false).names ∨
        x ∈ Stmt.declaredList ((programOf failingDeclaration).take before.length) := by
  have hrun : ((start {} 0 false).run 50 failingDeclaration []).any fun r =>
      r.1.verdict = .runtimeError ∧ r.2.machine.heap.names Heap.globals =
        (start {} 0 false).machine.heap.names Heap.globals ++ ["a", "f"].map Text.ofString := by
    decide +kernel
  obtain ⟨⟨result, s'⟩, hrun, hend⟩ := (Option.any_eq_true _ _).mp hrun
  obtain ⟨herror, hnames⟩ := of_decide_eq_true hend
  obtain ⟨before, stmt, m, hstop, hiff, -⟩ := (names_change_by_declarations.1 _ s' [] 50
    failingDeclaration [] result (.start {} 0 false) hrun).2.1 herror
  exact ⟨result, s', before, stmt, m, hrun, herror, hnames, hstop, hiff⟩

end Session

end Scriptlet

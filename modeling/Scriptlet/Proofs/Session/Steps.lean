import Scriptlet.Proofs.Evaluator.Names
import Scriptlet.Session

/-!
# Steps of a session

A session takes one step after the other, and each hands a source to it. A step has two parts. The
source is loaded, which only reads the session: the source is refused, or there is nothing to run,
or it becomes code. Then the code runs on the machine. `Session.take_eq` cuts a step in this way;
beyond that, a step only adds to the trace.
-/

namespace Scriptlet

/-- A source for a session: a complete program with the name of its file, or an input of the
console. -/
inductive Step where
  | run (source file : Text)
  | eval (source : Text)

/-- What a step shows to the outside. -/
structure Answer where
  result : Result
  output : Text

/-- What becomes of a source before anything runs. -/
inductive Loading where
  /-- It has a static error. -/
  | refused (report : Report)
  /-- It holds nothing to run. -/
  | idle (report : Report)
  /-- It was resolved, which made some links. -/
  | ready (code : Code) (links : List LinkRecord) (report : Report)

/-- The code that a source became, if it did. -/
def Loading.codes : Loading → List Code
  | .ready code _ _ => [code]
  | _ => []

theorem Loading.ready_of_any {l : Loading} {p : Code → Bool} (h : l.codes.any p) :
    ∃ code links report, l = .ready code links report ∧ p code := by
  cases l with
  | ready code links report => exact ⟨code, links, report, rfl, by simpa [codes] using h⟩
  | refused | idle => cases h

/-- Runs a source; the value of an expression that stands alone is printed. -/
def Code.perform (fuel : Nat) : Code → Eval (Option Value)
  | .program stmts => do
    Machine.run fuel stmts
    return none
  | .expression e => do
    let v ← Machine.evaluate fuel e
    Eval.printLine v.shown
    return some v

namespace Code

variable {code : Code} {fuel : Nat} {m m' : Machine}

/-- After its code, a step only prints. -/
theorem perform_eq (code : Code) (fuel : Nat) (m : Machine) :
    match code.runWith (Eval.within fuel) m with
    | .ok _ m₁ => ∃ value m', code.perform fuel m = .ok value m' ∧ m'.heap = m₁.heap
    | .error e m₁ => code.perform fuel m = .error e m₁
    | .outOfFuel => code.perform fuel m = .outOfFuel := by
  cases code with
  | program stmts =>
    simp only [perform, Machine.run, runWith, Eval.bind_apply]
    cases Machine.runWith (Eval.within fuel) stmts m with
    | ok a m₁ => exact ⟨_, _, rfl, rfl⟩
    | error e m₁ => rfl
    | outOfFuel => rfl
  | expression expr =>
    simp only [perform, Machine.evaluate, runWith, Eval.bind_apply]
    cases Eval.within fuel (.expr expr) m with
    | ok a m₁ => exact ⟨_, _, rfl, rfl⟩
    | error e m₁ => rfl
    | outOfFuel => rfl

theorem heap_of_perform {value : Option Value} (h : code.perform fuel m = .ok value m') :
    ∃ a m₁, code.runWith (Eval.within fuel) m = .ok a m₁ ∧ m'.heap = m₁.heap := by
  have heq := code.perform_eq fuel m
  cases hrun : code.runWith (Eval.within fuel) m with
  | ok a m₁ =>
    rw [hrun, h] at heq
    obtain ⟨value, m', hp, hheap⟩ := heq
    cases hp
    exact ⟨a, m₁, rfl, hheap⟩
  | error e m₁ => rw [hrun, h] at heq; cases heq
  | outOfFuel => rw [hrun, h] at heq; cases heq

theorem perform_error_iff {e : RuntimeError} :
    code.perform fuel m = .error e m' ↔ code.runWith (Eval.within fuel) m = .error e m' := by
  have heq := code.perform_eq fuel m
  cases hrun : code.runWith (Eval.within fuel) m with
  | ok a m₁ =>
    rw [hrun] at heq
    obtain ⟨value, m', hp, -⟩ := heq
    simp [hp]
  | error e m₁ => rw [hrun] at heq; rw [heq]; simp
  | outOfFuel => rw [hrun] at heq; rw [heq]; simp

end Code

namespace Session

/-! ## Taking steps -/

/-- Takes a step. There is no answer if the fuel runs out. -/
def take (fuel : Nat) (s : Session) : Step → Option (Result × Session)
  | .run source file => s.run fuel source file
  | .eval source => s.eval fuel source

/-- Takes a step and hands over what it printed. What was printed before and not taken is
dropped. -/
def perform (fuel : Nat) (s : Session) (step : Step) : Option (Answer × Session) := do
  let (result, s) ← s.takeOutput.2.take fuel step
  let (output, s) := s.takeOutput
  return (⟨result, output⟩, s)

/-- Takes steps one after the other. -/
def performAll (fuel : Nat) : Session → List Step → Option (List Answer × Session)
  | s, [] => some ([], s)
  | s, step :: rest => do
    let (answer, s) ← s.perform fuel step
    let (answers, s) ← performAll fuel s rest
    return (answer :: answers, s)

/-! ## Loading a source -/

/-- Resolves a program. -/
def loadStmts (s : Session) (stmts : List (Stmt Unit)) (report : Report) : Loading :=
  let resolved := resolveStmts (s.machine.heap.names Heap.globals) stmts s.links.length
  let report := report ++ resolved.report
  if report.hasErrors then .refused report
  else .ready (.program resolved.tree) resolved.links report

/-- Reads a program from tokens. -/
def loadProgram (s : Session) (tokens : List Token) (report : Report) : Loading :=
  let (program, faults) := parseProgram tokens
  let report := report ++ faults.attributed .syntactic
  if report.hasErrors then .refused report else s.loadStmts program.stmts report

/-- Resolves an expression that stands alone. -/
def loadExpr (s : Session) (expr : Expr Unit) (report : Report) : Loading :=
  let resolved := resolveExpr (s.machine.heap.names Heap.globals) expr s.links.length
  let report := report ++ resolved.report
  if report.hasErrors then .refused report
  else .ready (.expression resolved.tree) resolved.links report

/-- Reads an expression that stands alone from tokens. -/
def loadExpression (s : Session) (tokens : List Token) (report : Report) : Loading :=
  let (expr, faults) := parseExpression tokens
  let report := report ++ faults.attributed .syntactic
  match expr with
  | none => .refused report
  | some expr => if report.hasErrors then .refused report else s.loadExpr expr report

/-- Reads and resolves the source of a step. -/
def load (s : Session) : Step → Loading
  | .run source _ =>
    let report := (tokenize source).report.attributed .syntactic
    if report.hasErrors then .refused report else s.loadProgram (tokenize source).tokens report
  | .eval source =>
    let tokens := (tokenize source).tokens
    let report := (tokenize source).report.attributed .syntactic
    if report.hasErrors then .refused report
    else if tokens.head?.all fun t => t.kind = .endOfInput then .idle report
    else if isBareExpression tokens then s.loadExpression tokens report
    else s.loadProgram tokens report

/-- The findings that the settings let through. -/
def shown (s : Session) (report : Report) : Report :=
  if s.settings.warnings then report else report.withSeverity .error

/-- The result of a step, the machine and the links after it. -/
def conclude (fuel : Nat) (s : Session) : Loading → Option (Result × Machine × List LinkRecord)
  | .refused report => some (⟨.staticError, s.shown report, none⟩, s.machine, s.links)
  | .idle report => some (⟨.ok, s.shown report, none⟩, s.machine, s.links)
  | .ready code links report =>
    match code.perform fuel s.machine with
    | .ok value m => some (⟨.ok, s.shown report, value⟩, m, s.links ++ links)
    | .error e m =>
      some (⟨.runtimeError, s.shown (report ++ [e.report]), none⟩, m, s.links ++ links)
    | .outOfFuel => none

/-- The result of a step with the session after it, but for the trace. -/
def Concludes (fuel : Nat) (s : Session) (loading : Loading) (o : Option (Result × Session)) :
    Prop :=
  ∃ trace, o = (s.conclude fuel loading).map fun (result, m, links) =>
    (result, { s with machine := m, links := links, trace := trace })

theorem concludes_finish {s : Session} {trace : List TraceEvent} {verdict : Verdict}
    {report : Report} {value : Option Value} {m : Machine} {links : List LinkRecord} {fuel : Nat}
    {loading : Loading}
    (h : s.conclude fuel loading = some (⟨verdict, s.shown report, value⟩, m, links)) :
    s.Concludes fuel loading
      (some ({ s with machine := m, links := links, trace := trace }.finish verdict report
        value)) := by
  refine ⟨if verdict = .ok then trace else .ended verdict (s.shown report).length :: trace, ?_⟩
  rw [h]
  unfold finish
  by_cases hv : verdict = .ok
  · simp only [hv, ↓reduceIte]; rfl
  · simp only [hv, ↓reduceIte]; rfl

theorem concludes_execute (fuel : Nat) (s : Session) (trace : List TraceEvent)
    (stmts : List (Stmt Unit)) (report : Report) :
    s.Concludes fuel (s.loadStmts stmts report)
      ({ s with trace := trace }.execute fuel stmts report) := by
  unfold execute loadStmts
  dsimp only [note]
  split
  · exact concludes_finish rfl
  · split
    · next m hrun =>
      refine concludes_finish ?_
      simp only [conclude, Code.perform, Eval.bind_apply, hrun]; rfl
    · next e m hrun =>
      refine concludes_finish ?_
      simp only [conclude, Code.perform, Eval.bind_apply, hrun]
    · next hrun =>
      refine ⟨[], ?_⟩
      simp only [conclude, Code.perform, Eval.bind_apply, hrun]; rfl

theorem concludes_evaluateExpression (fuel : Nat) (s : Session) (trace : List TraceEvent)
    (expr : Expr Unit) (report : Report) :
    s.Concludes fuel (s.loadExpr expr report)
      ({ s with trace := trace }.evaluateExpression fuel expr report) := by
  unfold evaluateExpression loadExpr
  dsimp only
  split
  · exact concludes_finish rfl
  · split
    · next v m hrun =>
      dsimp only [note]
      split
      · refine concludes_finish ?_
        simp only [conclude, Code.perform, Eval.bind_apply, hrun]; rfl
      · refine concludes_finish ?_
        simp only [conclude, Code.perform, Eval.bind_apply, hrun]; rfl
    · next e m hrun =>
      refine concludes_finish ?_
      simp only [conclude, Code.perform, Eval.bind_apply, hrun]
    · next hrun =>
      refine ⟨[], ?_⟩
      simp only [conclude, Code.perform, Eval.bind_apply, hrun]; rfl

/-- A step loads its source and runs what was loaded. -/
theorem take_eq (fuel : Nat) (s : Session) (step : Step) :
    s.Concludes fuel (s.load step) (s.take fuel step) := by
  cases step with
  | run source file =>
    unfold take run readTokens load
    dsimp only [note]
    split
    · exact concludes_finish rfl
    · unfold loadProgram
      dsimp only
      split
      · exact concludes_finish rfl
      · exact concludes_execute ..
  | eval source =>
    unfold take eval readTokens load
    dsimp only [note]
    split
    · exact concludes_finish rfl
    · split
      · exact concludes_finish rfl
      · split
        · unfold loadExpression
          dsimp only
          cases (parseExpression (tokenize source).tokens).1 with
          | none => exact concludes_finish rfl
          | some expr =>
            dsimp only
            split
            · exact concludes_finish rfl
            · exact concludes_evaluateExpression ..
        · unfold loadProgram
          dsimp only
          split
          · exact concludes_finish rfl
          · exact concludes_execute ..

/-- Everything that a step can do to the session, the trace apart. -/
theorem take_cases {fuel : Nat} {s s' : Session} {step : Step} {result : Result}
    (h : s.take fuel step = some (result, s')) :
    s'.settings = s.settings ∧
      ((∃ report, s.load step = .refused report ∧
          result = ⟨.staticError, s.shown report, none⟩ ∧
          s'.machine = s.machine ∧ s'.links = s.links) ∨
        (∃ report, s.load step = .idle report ∧ result = ⟨.ok, s.shown report, none⟩ ∧
          s'.machine = s.machine ∧ s'.links = s.links) ∨
        ∃ code links report, s.load step = .ready code links report ∧
          s'.links = s.links ++ links ∧
          ((∃ value, code.perform fuel s.machine = .ok value s'.machine ∧
              result = ⟨.ok, s.shown report, value⟩) ∨
            ∃ e, code.perform fuel s.machine = .error e s'.machine ∧
              result = ⟨.runtimeError, s.shown (report ++ [e.report]), none⟩)) := by
  obtain ⟨trace, ht⟩ := take_eq fuel s step
  rw [ht] at h
  cases hl : s.load step with
  | refused report =>
    simp only [hl, conclude, Option.map_some, Option.some.injEq, Prod.mk.injEq] at h
    obtain ⟨rfl, rfl⟩ := h
    exact ⟨rfl, .inl ⟨report, rfl, rfl, rfl, rfl⟩⟩
  | idle report =>
    simp only [hl, conclude, Option.map_some, Option.some.injEq, Prod.mk.injEq] at h
    obtain ⟨rfl, rfl⟩ := h
    exact ⟨rfl, .inr (.inl ⟨report, rfl, rfl, rfl, rfl⟩)⟩
  | ready code links report =>
    cases hp : code.perform fuel s.machine with
    | ok value m =>
      simp only [hl, conclude, hp, Option.map_some, Option.some.injEq, Prod.mk.injEq] at h
      obtain ⟨rfl, rfl⟩ := h
      exact ⟨rfl, .inr (.inr ⟨code, links, report, rfl, rfl, .inl ⟨value, hp, rfl⟩⟩)⟩
    | error e m =>
      simp only [hl, conclude, hp, Option.map_some, Option.some.injEq, Prod.mk.injEq] at h
      obtain ⟨rfl, rfl⟩ := h
      exact ⟨rfl, .inr (.inr ⟨code, links, report, rfl, rfl, .inr ⟨e, hp, rfl⟩⟩)⟩
    | outOfFuel => simp [hl, conclude, hp] at h

/-- A step leaves the heap as it is, or as a run of the code that it loaded leaves it. -/
theorem heap_of_take {fuel : Nat} {s s' : Session} {step : Step} {result : Result}
    (h : s.take fuel step = some (result, s')) :
    s'.machine.heap = s.machine.heap ∨
      ∃ code links report m, s.load step = .ready code links report ∧
        (code.runWith (Eval.within fuel) s.machine).machine? = some m ∧
        s'.machine.heap = m.heap := by
  obtain ⟨-, ⟨_, _, _, hm, _⟩ | ⟨_, _, _, hm, _⟩ | ⟨code, links, report, hload, _, hrun⟩⟩ :=
    take_cases h
  · exact .inl (congrArg Machine.heap hm)
  · exact .inl (congrArg Machine.heap hm)
  · obtain ⟨value, hp, -⟩ | ⟨e, hp, -⟩ := hrun
    · obtain ⟨a, m, hm, hheap⟩ := Code.heap_of_perform hp
      have hend : (code.runWith (Eval.within fuel) s.machine).machine? = some m := by
        rw [hm]
        rfl
      exact .inr ⟨code, links, report, m, hload, hend, hheap⟩
    · have hend : (code.runWith (Eval.within fuel) s.machine).machine? = some s'.machine := by
        rw [Code.perform_error_iff.mp hp]
        rfl
      exact .inr ⟨code, links, report, s'.machine, hload, hend, rfl⟩

/-! ## Sequences of steps -/

theorem perform_eq_some {fuel : Nat} {s s' : Session} {step : Step} {answer : Answer} :
    s.perform fuel step = some (answer, s') ↔
      ∃ t, s.takeOutput.2.take fuel step = some (answer.result, t) ∧
        answer.output = t.takeOutput.1 ∧ s' = t.takeOutput.2 := by
  unfold perform
  cases h : s.takeOutput.2.take fuel step with
  | none => simp
  | some r =>
    obtain ⟨result, t⟩ := r
    obtain ⟨result', output⟩ := answer
    simp only [Option.bind_eq_bind, Option.bind_some, Option.pure_def, Option.some.injEq,
      Prod.mk.injEq, Answer.mk.injEq]
    grind

theorem performAll_append (fuel : Nat) (s : Session) (before after : List Step) :
    s.performAll fuel (before ++ after) =
      (s.performAll fuel before).bind fun (answers, s₁) =>
        (s₁.performAll fuel after).map fun (later, s₂) => (answers ++ later, s₂) := by
  induction before generalizing s with
  | nil => simp [performAll]
  | cons step before ih =>
    simp only [List.cons_append, performAll, Option.bind_eq_bind, ih]
    cases s.perform fuel step with
    | none => rfl
    | some r =>
      simp only [Option.bind_some]
      cases r.2.performAll fuel before with
      | none => rfl
      | some r' =>
        simp only [Option.bind_some, Option.pure_def]
        cases r'.2.performAll fuel after with
        | none => rfl
        | some r'' => rfl

theorem length_of_performAll {fuel : Nat} {s s' : Session} {steps : List Step}
    {answers : List Answer} (h : s.performAll fuel steps = some (answers, s')) :
    answers.length = steps.length := by
  induction steps generalizing s s' answers with
  | nil =>
    simp only [performAll, Option.some.injEq, Prod.mk.injEq] at h
    rw [← h.1]
    rfl
  | cons step steps ih =>
    simp only [performAll, Option.bind_eq_bind, Option.bind_eq_some_iff] at h
    obtain ⟨⟨answer, s₁⟩, -, ⟨later, s₂⟩, h₂, h₃⟩ := h
    simp only [Option.pure_def, Option.some.injEq, Prod.mk.injEq] at h₃
    rw [← h₃.1, List.length_cons, List.length_cons, ih h₂]

/-! ## Histories -/

/-- A session after some steps, and the code that they ran, in order. What a session printed or
noted may be taken from it at any time. -/
inductive History : Session → List Code → Prop where
  | start (settings : Settings) (clock : Float) (broken : Bool) :
    History (start settings clock broken) []
  | step {s s' : Session} {codes : List Code} {fuel : Nat} {step : Step} {result : Result} :
    History s codes → s.take fuel step = some (result, s') →
      History s' (codes ++ (s.load step).codes)
  | takeOutput {s : Session} {codes : List Code} :
    History s codes → History s.takeOutput.2 codes
  | takeTrace {s : Session} {codes : List Code} :
    History s codes → History s.takeTrace.2 codes

end Session

end Scriptlet

import Scriptlet.Proofs.Session.Entry
import Scriptlet.Proofs.Session.Steps

/-!
# Sessions with a table of links

A `TableSession` keeps what its references are linked to in one table for all of its sources. The
table grows while a source is resolved, before anyone knows whether the source will be refused, and
nothing is ever taken out of it: a refused source leaves its entries behind. Evaluation looks into
the table whenever it comes to a reference.

Such a session does what a `Session` does, which keeps links in the trees. The two are related by
`Shows`: for every reference in the functions on the one machine the table says what stands at it
on the other one, and numbers that were not given have no entry and are nowhere in the code. A step
of both has the same answer and leaves them so related (`take_shows`). So both have the same answers
to all steps (`performAll_start`), and the sessions of the one kind that come up are those of the
other kind (`Reached.shows`, `exists_shows`).
-/

namespace Scriptlet

/-! ## Reading a source -/

/-- What a source is before its names are resolved. -/
inductive Reading where
  | refused (report : Report)
  | idle (report : Report)
  | program (stmts : List (Stmt Unit)) (report : Report)
  | expression (e : Expr Unit) (report : Report)

/-- Reads a program from tokens. -/
def Reading.ofProgram (tokens : List Token) (report : Report) : Reading :=
  let (parsed, faults) := parseProgram tokens
  let report := report ++ faults.attributed .syntactic
  if report.hasErrors then .refused report else .program parsed.stmts report

/-- Reads an expression that stands alone from tokens. -/
def Reading.ofExpression (tokens : List Token) (report : Report) : Reading :=
  let (expr, faults) := parseExpression tokens
  let report := report ++ faults.attributed .syntactic
  match expr with
  | none => .refused report
  | some e => if report.hasErrors then .refused report else .expression e report

/-- Reads the source of a step. -/
def Step.read : Step → Reading
  | .run source _ =>
    let report := (tokenize source).report.attributed .syntactic
    if report.hasErrors then .refused report else .ofProgram (tokenize source).tokens report
  | .eval source =>
    let tokens := (tokenize source).tokens
    let report := (tokenize source).report.attributed .syntactic
    if report.hasErrors then .refused report
    else if tokens.head?.all fun t => t.kind = .endOfInput then .idle report
    else if isBareExpression tokens then .ofExpression tokens report
    else .ofProgram tokens report

/-- Resolves what was read. -/
def Session.loadReading (s : Session) : Reading → Loading
  | .refused report => .refused report
  | .idle report => .idle report
  | .program stmts report => s.loadStmts stmts report
  | .expression e report => s.loadExpr e report

theorem Session.load_eq (s : Session) (step : Step) : s.load step = s.loadReading step.read := by
  have hprogram (tokens : List Token) (report : Report) :
      s.loadProgram tokens report = s.loadReading (.ofProgram tokens report) := by
    unfold loadProgram Reading.ofProgram
    dsimp only
    split <;> rfl
  have hexpression (tokens : List Token) (report : Report) :
      s.loadExpression tokens report = s.loadReading (.ofExpression tokens report) := by
    unfold loadExpression Reading.ofExpression
    dsimp only
    cases (parseExpression tokens).1 with
    | none => rfl
    | some e => dsimp only; split <;> rfl
  cases step with
  | run source file =>
    unfold load Step.read
    dsimp only
    split
    · rfl
    · exact hprogram _ _
  | eval source =>
    unfold load Step.read
    dsimp only
    split
    · rfl
    · split
      · rfl
      · split
        · exact hexpression _ _
        · exact hprogram _ _

/-! ## Sessions -/

/-- A session that keeps links in a table. The code in its machine is numbered. -/
structure TableSession where
  settings : Settings
  machine : Machine
  table : LinkTable := []
  /-- The number of the next reference. -/
  next : Nat := 0

namespace TableSession

/-- A session at its start. -/
def start (settings : Settings) (clock : Float) (broken : Bool) : TableSession where
  settings := settings
  machine := .start (settings.natives.filterMap Native.ofName?) clock broken

/-- The findings that the settings let through. -/
def shown (s : TableSession) (report : Report) : Report :=
  if s.settings.warnings then report else report.withSeverity .error

/-- Runs an entered source. Its entries stay, whether it is refused or not. The value is handed out
with the links that the table has for it. -/
def proceed (fuel : Nat) (s : TableSession) (entered : Entered) (report : Report) :
    Option (Result × TableSession) :=
  let s := { s with table := entered.table, next := entered.next }
  let report := report ++ entered.report
  if report.hasErrors then some (⟨.staticError, s.shown report, none⟩, s)
  else
    match entered.code.performWith (Eval.through s.table.fill fuel) s.machine with
    | .ok value m =>
      some (⟨.ok, s.shown report, value.map (Value.relink s.table.fill)⟩, { s with machine := m })
    | .error e m =>
      some (⟨.runtimeError, s.shown (report ++ [e.report]), none⟩, { s with machine := m })
    | .outOfFuel => none

/-- Takes a step. There is no answer if the fuel runs out. -/
def take (fuel : Nat) (s : TableSession) (step : Step) : Option (Result × TableSession) :=
  let globals := s.machine.heap.names Heap.globals
  match step.read with
  | .refused report => some (⟨.staticError, s.shown report, none⟩, s)
  | .idle report => some (⟨.ok, s.shown report, none⟩, s)
  | .program stmts report => s.proceed fuel (enterStmts globals s.table s.next stmts) report
  | .expression e report => s.proceed fuel (enterExpr globals s.table s.next e) report

/-- What was printed since the last time, and the session without it. -/
def takeOutput (s : TableSession) : Text × TableSession :=
  (s.machine.sink.text,
    { s with machine := { s.machine with sink := { s.machine.sink with printed := [] } } })

/-- Takes a step and hands over what it printed. What was printed before and not taken is
dropped. -/
def perform (fuel : Nat) (s : TableSession) (step : Step) : Option (Answer × TableSession) := do
  let (result, s) ← s.takeOutput.2.take fuel step
  let (output, s) := s.takeOutput
  return (⟨result, output⟩, s)

/-- Takes steps one after the other. -/
def performAll (fuel : Nat) : TableSession → List Step → Option (List Answer × TableSession)
  | s, [] => some ([], s)
  | s, step :: rest => do
    let (answer, s) ← s.perform fuel step
    let (answers, s) ← performAll fuel s rest
    return (answer :: answers, s)

/-- Sessions after some steps. What a session printed may be taken from it at any time. -/
inductive Reached : TableSession → Prop where
  | start (settings : Settings) (clock : Float) (broken : Bool) :
    Reached (start settings clock broken)
  | step {s s' : TableSession} {fuel : Nat} {step : Step} {result : Result} :
    Reached s → s.take fuel step = some (result, s') → Reached s'
  | takeOutput {s : TableSession} : Reached s → Reached s.takeOutput.2

end TableSession

/-! ## Sessions with links in their trees -/

/-- A result whose links have no place among all links. -/
def Result.plain (result : Result) : Result :=
  { result with value := result.value.map (Value.relink Link.plain) }

/-- An answer whose links have no place among all links. -/
def Answer.plain (answer : Answer) : Answer := { answer with result := answer.result.plain }

namespace TableSession

/-- A session with a table, and a session with the same links in its trees. -/
structure Shows (s : TableSession) (t : Session) : Prop where
  settings : t.settings = s.settings
  machine : s.machine.relink s.table.fill = t.machine.relink Link.plain
  /-- Numbers that were not given have no entry. -/
  later : ∀ node, s.next ≤ node → s.table.lookup node = none
  /-- No function holds a number that was not given. -/
  given : s.machine.relink (Link.below s.next) = s.machine

/-- Both sessions hand out the same, if what the other one hands out is made plain, and they remain
related. -/
def Alike {α : Type} (plain : α → α) (r : α × TableSession) (r' : α × Session) : Prop :=
  r.1 = plain r'.1 ∧ r.2.Shows r'.2

section

variable {α : Type} {plain : α → α}

theorem exists_right {r : α × TableSession} {o : Option (α × Session)}
    (h : Option.Rel (Alike plain) (some r) o) : ∃ r', o = some r' ∧ Alike plain r r' := by
  cases h with
  | some h => exact ⟨_, rfl, h⟩

theorem exists_left {r' : α × Session} {o : Option (α × TableSession)}
    (h : Option.Rel (Alike plain) o (some r')) : ∃ r, o = some r ∧ Alike plain r r' := by
  cases h with
  | some h => exact ⟨_, rfl, h⟩

end

theorem shows_start (settings : Settings) (clock : Float) (broken : Bool) :
    (start settings clock broken).Shows (Session.start settings clock broken) where
  settings := rfl
  machine := (Machine.relink_start ..).trans (Machine.relink_start ..).symm
  later _ _ := rfl
  given := Machine.relink_start ..

namespace Shows

variable {s : TableSession} {t : Session}

theorem takeOutput (h : s.Shows t) : s.takeOutput.2.Shows t.takeOutput.2 :=
  let silence (m : Machine) : Machine := { m with sink := { m.sink with printed := [] } }
  ⟨h.settings, congrArg silence h.machine, h.later, congrArg silence h.given⟩

theorem shown (h : s.Shows t) (report : Report) : s.shown report = t.shown report := by
  rw [TableSession.shown, Session.shown, h.settings]

theorem sink (h : s.Shows t) : s.machine.sink = t.machine.sink := by
  have hsink := congrArg Machine.sink h.machine
  exact hsink

theorem names (h : s.Shows t) (scope : ScopeId) :
    s.machine.heap.names scope = t.machine.heap.names scope := by
  have hnames := congrArg (fun m : Machine => m.heap.names scope) h.machine
  simp only [Machine.relink, Machine.mapCode, Heap.names_mapCode] at hnames
  exact hnames

/-- New entries make no difference to a machine. This is why those of a refused source may stay. -/
theorem machine_of_extends (h : s.Shows t) {T : LinkTable} {next : Nat}
    (hT : s.table.Extends s.next T next) :
    s.machine.relink T.fill = s.machine.relink s.table.fill := by
  -- The machine holds no numbers but given ones, and about these both tables say the same.
  have hsame : (fun l => T.fill (Link.below s.next l)) =
      fun l => s.table.fill (Link.below s.next l) := funext hT.fill_below
  rw [← h.given, Machine.relink_relink fun _ => rfl, hsame]
  exact (Machine.relink_relink (fun _ => rfl) _).symm

theorem enter (h : s.Shows t) {T : LinkTable} {next : Nat} (hT : s.table.Extends s.next T next) :
    { s with table := T, next := next : TableSession }.Shows t where
  settings := h.settings
  machine := (h.machine_of_extends hT).trans h.machine
  later := hT.later
  given := by
    have hbelow := Machine.relink_relink (Link.below_below hT.le) s.machine
    rw [h.given] at hbelow
    exact hbelow

end Shows

/-! ## Steps -/

section

variable {s : TableSession} {t : Session} {entered : Entered} {code : Code}

/-- Entered code does on the machine of the one session what the code that it shows does on the
machine of the other one. -/
theorem performWith_shows (h : s.Shows t) (hcode : entered.Shows s.table s.next code) (fuel : Nat) :
    (entered.code.performWith (Eval.through entered.table.fill fuel) s.machine).relink
        entered.table.fill =
      (code.perform fuel t.machine).relink Link.plain := by
  -- Both runs are compared with one that reads the links in the code, made plain.
  have hplain : ∀ l : Option Link, (id (Link.plain l)).map Link.hops = (id l).map Link.hops := by
    intro l
    cases l <;> rfl
  calc
    _ = (entered.code.relink entered.table.fill).performWith (Eval.through id fuel)
          (s.machine.relink entered.table.fill) :=
      (Code.performWith_relink (fun _ => rfl) fuel entered.code s.machine).symm
    _ = (code.relink Link.plain).performWith (Eval.through id fuel)
          (t.machine.relink Link.plain) := by
      rw [hcode.filled, h.machine_of_extends hcode.table, h.machine]
    _ = (code.performWith (Eval.through id fuel) t.machine).relink Link.plain :=
      Code.performWith_relink hplain fuel code t.machine
    _ = (code.perform fuel t.machine).relink Link.plain := by
      rw [Eval.through_id]
      cases code <;> rfl

/-- A run of entered code brings no numbers into the machine that were not given. -/
theorem performWith_given (h : s.Shows t) (hcode : entered.Shows s.table s.next code) (fuel : Nat) :
    (entered.code.performWith (Eval.through entered.table.fill fuel) s.machine).relink
        (Link.below entered.next) =
      entered.code.performWith (Eval.through entered.table.fill fuel) s.machine := by
  have hlook : ∀ l, (entered.table.fill (Link.below entered.next l)).map Link.hops =
      (entered.table.fill l).map Link.hops :=
    fun l => congrArg _ (LinkTable.fill_below_self hcode.table.later l)
  have hrun := Code.performWith_relink hlook fuel entered.code s.machine
  rw [hcode.given, (h.enter hcode.table).given] at hrun
  exact hrun.symm

/-- To run an entered source does what the other session does with the code that it shows. -/
theorem proceed_shows (h : s.Shows t) (hcode : entered.Shows s.table s.next code) (fuel : Nat)
    (report : Report) (links : List LinkRecord) (trace : List TraceEvent) :
    let loading : Loading :=
      if (report ++ entered.report).hasErrors then .refused (report ++ entered.report)
      else .ready code links (report ++ entered.report)
    Option.Rel (Alike Result.plain) (s.proceed fuel entered report)
      ((t.conclude fuel loading).map fun (result, m, links) =>
        (result, { t with machine := m, links := links, trace := trace })) := by
  have hentered := h.enter hcode.table
  unfold proceed
  dsimp only
  split
  · refine .some ⟨?_, hentered.settings, hentered.machine, hentered.later, hentered.given⟩
    rw [hentered.shown]
    rfl
  · have hrun := performWith_shows h hcode fuel
    have hgiven := performWith_given h hcode fuel
    unfold Session.conclude
    dsimp only
    obtain ⟨v, m, w, m', hx, hy, hvalue, hm⟩ | ⟨e, m, m', hx, hy, hm⟩ | ⟨hx, hy⟩ :=
      Outcome.cases_of_relink_eq hrun
    · rw [hx] at hgiven
      rw [hx, hy]
      refine .some ⟨?_, hentered.settings, hm, hentered.later, (Outcome.ok.inj hgiven).2⟩
      dsimp only
      rw [hentered.shown, hvalue]
      rfl
    · rw [hx] at hgiven
      rw [hx, hy]
      refine .some ⟨?_, hentered.settings, hm, hentered.later, (Outcome.error.inj hgiven).2⟩
      dsimp only
      rw [hentered.shown]
      rfl
    · rw [hx, hy]
      exact .none

/-- A step has the same answer in both sessions. -/
theorem take_shows (h : s.Shows t) (fuel : Nat) (step : Step) :
    Option.Rel (Alike Result.plain) (s.take fuel step) (t.take fuel step) := by
  obtain ⟨trace, htake⟩ := Session.take_eq fuel t step
  rw [htake, t.load_eq]
  unfold take
  dsimp only
  cases step.read with
  | refused report =>
    refine .some ⟨?_, h.settings, h.machine, h.later, h.given⟩
    rw [h.shown]
    rfl
  | idle report =>
    refine .some ⟨?_, h.settings, h.machine, h.later, h.given⟩
    rw [h.shown]
    rfl
  | program stmts report =>
    obtain ⟨hcode, hreport⟩ := enterStmts_shows h.later (t.machine.heap.names Heap.globals) stmts
      t.links.length
    have hrun := proceed_shows h hcode fuel report
      (resolveStmts (t.machine.heap.names Heap.globals) stmts t.links.length).links trace
    rw [hreport] at hrun
    rw [h.names]
    exact hrun
  | expression e report =>
    obtain ⟨hcode, hreport⟩ := enterExpr_shows h.later (t.machine.heap.names Heap.globals) e
      t.links.length
    have hrun := proceed_shows h hcode fuel report
      (resolveExpr (t.machine.heap.names Heap.globals) e t.links.length).links trace
    rw [hreport] at hrun
    rw [h.names]
    exact hrun

theorem perform_shows (h : s.Shows t) (fuel : Nat) (step : Step) :
    Option.Rel (Alike Answer.plain) (s.perform fuel step) (t.perform fuel step) := by
  have htake := take_shows h.takeOutput fuel step
  unfold perform Session.perform
  generalize s.takeOutput.2.take fuel step = o at htake ⊢
  generalize t.takeOutput.2.take fuel step = o' at htake ⊢
  cases htake with
  | none => exact .none
  | some hresult =>
    obtain ⟨hresult, hshows⟩ := hresult
    refine .some ⟨?_, hshows.takeOutput⟩
    rw [Answer.plain, ← hresult]
    exact congrArg (Answer.mk _) (congrArg Sink.text hshows.sink)

/-- All steps have the same answers in both sessions. -/
theorem performAll_shows (h : s.Shows t) (fuel : Nat) (steps : List Step) :
    Option.Rel (Alike (List.map Answer.plain)) (s.performAll fuel steps)
      (t.performAll fuel steps) := by
  induction steps generalizing s t with
  | nil => exact .some ⟨rfl, h⟩
  | cons step steps ih =>
    have hperform := perform_shows h fuel step
    unfold performAll Session.performAll
    generalize s.perform fuel step = o at hperform ⊢
    generalize t.perform fuel step = o' at hperform ⊢
    cases hperform with
    | none => exact .none
    | @some r r' hanswer =>
      have hrest := ih hanswer.2
      simp only [Option.bind_eq_bind, Option.bind_some]
      generalize r.2.performAll fuel steps = o at hrest ⊢
      generalize r'.2.performAll fuel steps = o' at hrest ⊢
      cases hrest with
      | none => exact .none
      | some hanswers => exact .some ⟨congr (congrArg List.cons hanswer.1) hanswers.1, hanswers.2⟩

theorem answers_shows (h : s.Shows t) (fuel : Nat) (steps : List Step) :
    (s.performAll fuel steps).map Prod.fst =
      (t.performAll fuel steps).map fun (answers, _) => answers.map Answer.plain := by
  have hall := performAll_shows h fuel steps
  generalize s.performAll fuel steps = o at hall ⊢
  generalize t.performAll fuel steps = o' at hall ⊢
  cases hall with
  | none => rfl
  | some hanswers => exact congrArg some hanswers.1

/-- From their start on, both kinds of session have the same answers. -/
theorem performAll_start (settings : Settings) (clock : Float) (broken : Bool) (fuel : Nat)
    (steps : List Step) :
    ((start settings clock broken).performAll fuel steps).map Prod.fst =
      ((Session.start settings clock broken).performAll fuel steps).map
        fun (answers, _) => answers.map Answer.plain :=
  answers_shows (shows_start ..) fuel steps

/-- Every session with a table shows one with links in its trees. -/
theorem Reached.shows (h : s.Reached) : ∃ t codes, Session.History t codes ∧ s.Shows t := by
  induction h with
  | start settings clock broken => exact ⟨_, _, .start settings clock broken, shows_start ..⟩
  | @step s s' fuel step result h hstep ih =>
    obtain ⟨t, codes, ht, hshows⟩ := ih
    obtain ⟨r, htake, hend⟩ := exists_right (hstep ▸ take_shows hshows fuel step)
    exact ⟨r.2, _, ht.step htake, hend.2⟩
  | takeOutput h ih =>
    obtain ⟨t, codes, ht, hshows⟩ := ih
    exact ⟨_, codes, ht.takeOutput, hshows.takeOutput⟩

/-- Every session with links in its trees is shown by one with a table. -/
theorem exists_shows {codes : List Code} (h : Session.History t codes) :
    ∃ s : TableSession, s.Reached ∧ s.Shows t := by
  induction h with
  | start settings clock broken => exact ⟨_, .start settings clock broken, shows_start ..⟩
  | @step t t' codes fuel step result h hstep ih =>
    obtain ⟨s, hs, hshows⟩ := ih
    obtain ⟨r, htake, hend⟩ := exists_left (hstep ▸ take_shows hshows fuel step)
    exact ⟨r.2, hs.step htake, hend.2⟩
  | takeOutput h ih =>
    obtain ⟨s, hs, hshows⟩ := ih
    exact ⟨_, hs.takeOutput, hshows.takeOutput⟩
  | takeTrace h ih =>
    obtain ⟨s, hs, hshows⟩ := ih
    exact ⟨s, hs, hshows.settings, hshows.machine, hshows.later, hshows.given⟩

end

end TableSession

end Scriptlet

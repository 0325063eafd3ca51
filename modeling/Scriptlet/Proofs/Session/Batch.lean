import Scriptlet.Proofs.Evaluator.Names
import Scriptlet.Proofs.Evaluator.Origin
import Scriptlet.Proofs.Session.Loading

/-!
# Programs in one piece

A session may take two programs one after the other or as one source, line after line. Each stage
sees the same: the tokens of the second program come after those of the first, its statements after
the statements, and it is resolved with the names that the first has bound by the time it ends
(`load_append`). So both ways lead to the same answers (`run_in_one_piece`). Only places differ: the
findings of the second program are past the lines of the first, unless an error was raised in code
from before it (`ErrorFollows`), which stays where it was written.
-/

namespace Scriptlet

/-- What was printed earlier stands before the rest. -/
theorem Machine.text_after (earlier : List Text) (m : Machine) :
    (m.after earlier).sink.text = earlier.reverse.flatten ++ m.sink.text := by
  change (m.sink.printed ++ earlier).reverse.flatten = _
  rw [List.reverse_append, List.flatten_append]
  rfl

/-- A finding of a program that was put after some lines; `own` says whether an error of its run lies
in the program itself. -/
def Diagnostic.pastLines (lines : Text) (own : Bool) (d : Diagnostic) : Diagnostic :=
  if d.stage = .runtime ∧ own = false then d else d.move (.past lines)

namespace Diagnostic

variable {lines : Text} {own : Bool}

theorem severity_pastLines (d : Diagnostic) : (d.pastLines lines own).severity = d.severity := by
  unfold pastLines
  split <;> rfl

theorem pastLines_of_resolve {d : Diagnostic} (h : d.stage = .resolve) :
    d.pastLines lines own = d.move (.past lines) :=
  if_neg (by simp [h])

theorem pastLines_report (e : RuntimeError) : e.report.pastLines lines own =
    (e.relocate (if own then Span.move (.past lines) else id)).report := by
  cases own <;> rfl

end Diagnostic

/-- The answer to two programs in one piece, from the answers to each. -/
def Answer.followedBy (first : Answer) (lines : Text) (own : Bool) (second : Answer) : Answer :=
  ⟨⟨second.result.verdict,
    first.result.report ++ second.result.report.map (Diagnostic.pastLines lines own),
    second.result.value⟩, first.output ++ second.output⟩

namespace Session

variable {s s₁ : Session} {a b fileA fileB : Text} {fuel : Nat} {own : Bool}
  {stmts stmts' : List (Stmt (Option Link))} {links links' : List LinkRecord}
  {report report' : Report}

/-- What is left of a session if nobody knows where code was written, nor what was noted. -/
def forget (s : Session) : Session where
  settings := s.settings
  machine := s.machine.forget
  links := s.links.map (LinkRecord.move fun _ => .nowhere)
  trace := []

/-- An error of a program that a session runs lies in the program itself if it is `own`, and else in
code that the session had before. -/
def ErrorFollows (own : Bool) (fuel : Nat) (s : Session) (step : Step) : Prop :=
  ∀ stmts links report, s.load step = .ready (.program stmts) links report →
    Eval.ErrorFollows own fuel stmts s.machine.silent

theorem exists_errorFollows (fuel : Nat) (s : Session) (step : Step) :
    ∃ own, s.ErrorFollows own fuel step := by
  unfold ErrorFollows
  cases hload : s.load step with
  | refused report | idle report => exact ⟨true, fun _ _ _ h => nomatch h⟩
  | ready code links report =>
    cases code with
    | expression e => exact ⟨true, fun _ _ _ h => nomatch h⟩
    | program stmts =>
      obtain ⟨own, hown⟩ := Eval.exists_errorFollows fuel stmts s.machine.silent
      refine ⟨own, ?_⟩
      rintro _ _ _ ⟨⟩
      exact hown

/-! ## Loading -/

theorem beforeEnd_tokenize_append (ha : (tokenize a).report = []) (b : Text) :
    beforeEnd (tokenize (a.line ++ b)).tokens =
      beforeEnd (tokenize a).tokens ++
        (beforeEnd (tokenize b).tokens).map (Token.move (.past a.line)) := by
  have hlast : (tokenize a).tokens.dropLast = beforeEnd (tokenize a).tokens := tokenize_dropLast a
  rw [tokenize_append ha, hlast]
  refine (beforeEnd_append (fun _ => ne_end_of_mem_beforeEnd) _).trans ?_
  rw [beforeEnd_move]

/-- The statements of a source that comes after another. -/
theorem ReadsClean.append (ha : ReadsClean a) (hb : ReadsClean b) :
    ReadsClean (a.line ++ b) ∧
      programOf (a.line ++ b) = programOf a ++ Stmt.moveList (.past a.line) (programOf b) := by
  obtain ⟨hstmts, hfaults⟩ := parseProgram_append ha.program hb.program
    (beforeEnd_tokenize_append ha.tokens b)
  refine ⟨⟨?_, hfaults⟩, hstmts⟩
  rw [tokenize_append ha.tokens, hb.tokens]
  rfl

/-- A source that comes after another one is loaded as it is after the other one has run. -/
theorem load_append (ha : s.load (.run a fileA) = .ready (.program stmts) links report)
    (hb : s₁.load (.run b fileB) = .ready (.program stmts') links' report')
    (hlinks : s₁.links = s.links ++ links)
    (hnames : ∀ x, x ∈ s₁.machine.heap.names Heap.globals ↔
      x ∈ s.machine.heap.names Heap.globals ∨ x ∈ Stmt.declaredList stmts) (file : Text) :
    s.load (.run (a.line ++ b) file) =
      .ready (.program (stmts ++ Stmt.moveList (.past a.line) stmts'))
        (links ++ links'.map (LinkRecord.move (.past a.line)))
        (report ++ report'.map (Diagnostic.move (.past a.line))) := by
  obtain ⟨hcleana, herrors, hcode, rfl, rfl⟩ := load_run_ready ha
  obtain ⟨hcleanb, herrors', hcode', rfl, rfl⟩ := load_run_ready hb
  cases hcode
  cases hcode'
  obtain ⟨hclean, hprogram⟩ := hcleana.append hcleanb
  let first := s.resolve (programOf a)
  let second := s₁.resolve (programOf b)
  have hdeclared : Stmt.declaredList first.tree = Stmt.declaredList (programOf a) :=
    resolveStmts_declaredList (programOf_wellFormed a) herrors
  have hsecond : resolveStmts (s₁.machine.heap.names Heap.globals) (programOf b)
      (s.links.length + first.links.length) = second := by
    rw [← List.length_append, ← hlinks]
    rfl
  have hresolve : s.resolve (programOf (a.line ++ b)) =
      ⟨first.tree ++ Stmt.moveList (.past a.line) second.tree,
        first.links ++ second.links.map (LinkRecord.move (.past a.line)),
        first.report ++ second.report.map (Diagnostic.move (.past a.line))⟩ := by
    rw [hprogram]
    exact resolveStmts_append (Position.past_nowhere _) (programOf_wellFormed a) rfl herrors
      (hdeclared ▸ hnames) hsecond
  have hnone : ¬ (s.resolve (programOf (a.line ++ b))).report.hasErrors := by
    rw [hresolve, Report.hasErrors_append, Report.hasErrors_move, herrors, herrors']
    nofun
  rw [hclean.load, loadStmts_eq, if_neg hnone, hresolve]

/-! ## Running -/

/-- The session after a run. -/
def ran (s : Session) (m : Machine) (links : List LinkRecord) (trace : List TraceEvent) : Session :=
  { s with machine := m.silent, links := s.links ++ links, trace := trace }

/-- The answer to a step, from the run of the code that was loaded. -/
theorem perform_ready (fuel : Nat) {step : Step} {code : Code}
    (h : s.load step = .ready code links report) : ∃ trace,
    s.perform fuel step =
      match code.perform fuel s.machine.silent with
      | .ok value m => some (⟨⟨.ok, s.shown report, value⟩, m.sink.text⟩, s.ran m links trace)
      | .error e m =>
        some (⟨⟨.runtimeError, s.shown (report ++ [e.report]), none⟩, m.sink.text⟩,
          s.ran m links trace)
      | .outOfFuel => none := by
  obtain ⟨trace, hperform⟩ := perform_eq fuel s step
  have hmachine : s.takeOutput.2.machine = s.machine.silent := rfl
  refine ⟨trace, ?_⟩
  rw [hperform, h, conclude, hmachine]
  cases code.perform fuel s.machine.silent with
  | ok a m | error e m | outOfFuel => rfl

/-- A program was loaded if it did not end with a static error. -/
theorem load_of_perform {source file : Text}
    (h : ∀ answer s', s.perform fuel (.run source file) = some (answer, s') →
      answer.result.verdict ≠ .staticError) :
    ∃ stmts links report, s.load (.run source file) = .ready (.program stmts) links report := by
  have hready : ∀ report, s.load (.run source file) ≠ .refused report := by
    intro report hload
    obtain ⟨trace, hperform⟩ := perform_eq fuel s (.run source file)
    rw [hload] at hperform
    exact h _ _ hperform rfl
  by_cases hclean : ReadsClean source
  · rw [hclean.load, loadStmts_eq] at hready ⊢
    split at hready
    · exact absurd rfl (hready _)
    · next hnone => exact ⟨_, _, _, if_neg hnone⟩
  · obtain ⟨report, hload⟩ := load_refused hclean s file
    exact absurd hload (hready report)

/-! ## Findings -/

theorem map_pastLines {r : Report} (hr : ∀ d ∈ r, d.stage = .resolve) (lines : Text) :
    r.map (Diagnostic.pastLines lines own) = r.map (Diagnostic.move (.past lines)) :=
  List.map_congr_left fun d hd => Diagnostic.pastLines_of_resolve (hr d hd)

/-! ## Both ways -/

/-- After a program, the rest of a longer one runs on what it left. -/
theorem run_append_of_ok {m m₁ : Machine} (h : Machine.run fuel stmts m = .ok () m₁)
    (g : Position → Position) (stmts' : List (Stmt (Option Link))) :
    Machine.run fuel (stmts ++ Stmt.moveList g stmts') m =
      Eval.runAt fuel stmts' m₁.silent id (Span.move g) m₁.sink.printed := by
  rw [Eval.run_append, Eval.bind_apply, h, Eval.runAt, Machine.relocate_id]
  rfl

/-- Where code was written is all that tells two sessions apart. -/
theorem forget_ran {m m' m'' : Machine} (h : m''.forget = m'.forget) (earlier : List Text)
    (g : Position → Position) (trace trace' trace'' : List TraceEvent) :
    (s.ran (m''.after earlier) (links ++ links'.map (LinkRecord.move g)) trace'').forget =
      ((s.ran m links trace).ran m' links' trace').forget := by
  have hmachine : (m''.after earlier).silent.forget = m'.silent.forget :=
    congrArg Machine.silent h
  unfold forget ran
  simp only [hmachine, List.map_append, List.map_map, List.append_assoc]
  rfl

/-- What a program that ended well was and did. -/
theorem exists_run_of_ok {source file : Text} {answer : Answer} {s' : Session}
    (h : s.perform fuel (.run source file) = some (answer, s')) (hok : answer.result.verdict = .ok) :
    ∃ stmts links report m trace, s.load (.run source file) = .ready (.program stmts) links report ∧
      Machine.run fuel stmts s.machine.silent = .ok () m ∧
      answer = ⟨⟨.ok, s.shown report, none⟩, m.sink.text⟩ ∧ s' = s.ran m links trace := by
  have hstatic : ∀ answer s', s.perform fuel (.run source file) = some (answer, s') →
      answer.result.verdict ≠ .staticError := by
    intro answer' s'' h'
    rw [h] at h'
    cases h'
    rw [hok]
    nofun
  obtain ⟨stmts, links, report, hload⟩ := load_of_perform hstatic
  obtain ⟨trace, hperform⟩ := perform_ready fuel hload
  rw [h, Code.perform, Eval.bind_apply] at hperform
  cases hrun : Machine.run fuel stmts s.machine.silent with
  | ok _ m =>
    rw [hrun] at hperform
    cases hperform
    exact ⟨stmts, links, report, m, trace, hload, hrun, rfl, rfl⟩
  | error e m => rw [hrun] at hperform; cases hperform; cases hok
  | outOfFuel => rw [hrun] at hperform; cases hperform

/-- The names after a program are those before it and those that it declares. -/
theorem names_after_run {codes : List Code} (hs : s.History codes) {step : Step} {m : Machine}
    (hload : s.load step = .ready (.program stmts) links report)
    (hrun : Machine.run fuel stmts s.machine.silent = .ok () m) (x : Text) :
    x ∈ m.heap.names Heap.globals ↔
      x ∈ s.machine.heap.names Heap.globals ∨ x ∈ Stmt.declaredList stmts := by
  obtain ⟨W, hsound⟩ := hs.consistent.sound
  exact Eval.mem_names_run (m := s.machine.silent) (linked_of_load hload).wellFormed hs.at_rest.1
    hsound.nonempty hrun x

/-- The answer to a longer program, from the answers to its parts. -/
theorem answer_followedBy {verdict : Verdict} {m₁ m' m'' : Machine} {found found' : Report}
    (lines : Text) (hforget : m''.forget = m'.forget)
    (hfound : found' = report ++ found.map (Diagnostic.pastLines lines own)) :
    (⟨⟨verdict, s.shown found', none⟩, (m''.after m₁.sink.printed).sink.text⟩ : Answer) =
      Answer.followedBy ⟨⟨.ok, s.shown report, none⟩, m₁.sink.text⟩ lines own
        ⟨⟨verdict, s.shown found, none⟩, m'.sink.text⟩ := by
  rw [Machine.text_after, Machine.sink_of_forget hforget, hfound, shown_append,
    shown_map s Diagnostic.severity_pastLines]
  rfl

/-- Two programs in one piece. The first one ends well and the second one has no static error; then
to run the second one after the first, and to run both as one source, has the same verdict, output
and findings, and leaves the same session but for where code was written. -/
theorem run_in_one_piece {codes : List Code} (hs : s.History codes) {first : Answer}
    (ha : s.perform fuel (.run a fileA) = some (first, s₁)) (hok : first.result.verdict = .ok)
    (hb : ∀ second s₂, s₁.perform fuel (.run b fileB) = some (second, s₂) →
      second.result.verdict ≠ .staticError) (file : Text) :
    (∃ own, s₁.ErrorFollows own fuel (.run b fileB)) ∧
    ∀ own, s₁.ErrorFollows own fuel (.run b fileB) →
      (s.perform fuel (.run (a.line ++ b) file)).map (fun (answer, s') => (answer, s'.forget)) =
        (s₁.perform fuel (.run b fileB)).map fun (second, s₂) =>
          (first.followedBy a.line own second, s₂.forget) := by
  refine ⟨exists_errorFollows .., fun own hown => ?_⟩
  obtain ⟨stmts, links, report, m₁, trace, hload, hrun, rfl, rfl⟩ := exists_run_of_ok ha hok
  obtain ⟨stmts', links', report', hload'⟩ := load_of_perform hb
  have hfollows : Eval.ErrorFollows own fuel stmts' m₁.silent := hown _ _ _ hload'
  have hstage : ∀ d ∈ report', d.stage = .resolve := by
    obtain ⟨-, -, -, -, rfl⟩ := load_run_ready hload'
    exact resolveStmts_stage (programOf_wellFormed b)
  -- both ways, the second program runs on what the first one left
  have hnames := names_after_run hs hload hrun
  have hwhole := load_append hload hload' rfl hnames file
  obtain ⟨trace', hsecond⟩ := perform_ready fuel hload'
  obtain ⟨trace'', hboth⟩ := perform_ready fuel hwhole
  have hmachine : (s.ran m₁ links trace).machine.silent = m₁.silent := rfl
  rw [Code.perform, Eval.bind_apply, hmachine] at hsecond
  rw [Code.perform, Eval.bind_apply, run_append_of_ok hrun] at hboth
  rw [hsecond, hboth]
  cases hrun' : Machine.run fuel stmts' m₁.silent with
  | outOfFuel =>
    rw [Eval.runAt_outOfFuel hrun']
    rfl
  | ok _ m' =>
    obtain ⟨m'', hat, hforget⟩ := Eval.runAt_ok hrun' id (Span.move (.past a.line)) m₁.sink.printed
    rw [hat]
    refine congrArg some (Prod.ext (answer_followedBy _ hforget ?_) (forget_ran hforget ..))
    rw [map_pastLines hstage]
  | error e m' =>
    obtain ⟨m'', hat, hforget⟩ := hfollows e m' hrun' id (Span.move (.past a.line)) m₁.sink.printed
    rw [hat]
    refine congrArg some (Prod.ext (answer_followedBy _ hforget ?_) (forget_ran hforget ..))
    rw [List.map_append, map_pastLines hstage, List.map_singleton, Diagnostic.pastLines_report,
      List.append_assoc]

/-- A program with an undefined name in a function. -/
def brokenFunction : Text := "fun f() \x7b missing; \x7d print 1;"

/-- A program that calls this function. -/
def brokenCall : Text := "print 2; f();"

/-- Both ways print the same and stop at an error in the function. -/
theorem run_in_one_piece_brokenCall :
    ∃ first s₁ second s₂ own answer s',
      (start {} 0 false).perform 20 (.run brokenFunction []) = some (first, s₁) ∧
      s₁.perform 20 (.run brokenCall []) = some (second, s₂) ∧
      (start {} 0 false).perform 20 (.run (brokenFunction.line ++ brokenCall) []) =
        some (answer, s') ∧
      second.result.verdict = .runtimeError ∧
      answer = first.followedBy brokenFunction.line own second ∧ s'.forget = s₂.forget := by
  have hfirst : ((start {} 0 false).perform 20 (.run brokenFunction [])).any fun r =>
      r.1.result.verdict = .ok ∧ (r.2.perform 20 (.run brokenCall [])).any fun r' =>
        r'.1.result.verdict = .runtimeError := by
    decide +kernel
  obtain ⟨⟨first, s₁⟩, ha, hfirst⟩ := (Option.any_eq_true _ _).mp hfirst
  obtain ⟨hok, hsecond⟩ := of_decide_eq_true hfirst
  obtain ⟨⟨second, s₂⟩, hb, hsecond⟩ := (Option.any_eq_true _ _).mp hsecond
  have hverdict : second.result.verdict = .runtimeError := of_decide_eq_true hsecond
  have hb' : ∀ second' s', s₁.perform 20 (.run brokenCall []) = some (second', s') →
      second'.result.verdict ≠ .staticError := by
    intro second' s' h
    rw [hb] at h
    cases h
    rw [hverdict]
    nofun
  obtain ⟨⟨own, hown⟩, hall⟩ := run_in_one_piece (.start {} 0 false) ha hok hb' []
  have hboth := hall own hown
  rw [hb, Option.map_some, Option.map_eq_some_iff] at hboth
  obtain ⟨⟨answer, s'⟩, hanswer, heq⟩ := hboth
  obtain ⟨rfl, hforget⟩ := Prod.mk.inj heq
  exact ⟨first, s₁, second, s₂, own, _, s', ha, hb, hanswer, hverdict, rfl, hforget⟩

/-- It is not true that all findings of the second program are past the first one: the error in the
function stays where the function is. -/
theorem error_stays_in_first_program :
    ¬ ∀ (s s₁ s₂ : Session) (codes : List Code) (fuel : Nat) (a b file : Text)
      (first second : Answer), s.History codes →
      s.perform fuel (.run a file) = some (first, s₁) → first.result.verdict = .ok →
      s₁.perform fuel (.run b file) = some (second, s₂) →
      second.result.verdict ≠ .staticError →
      ∃ answer s', s.perform fuel (.run (a.line ++ b) file) = some (answer, s') ∧
        answer.result.report = first.result.report ++
          second.result.report.map (Diagnostic.move (.past a.line)) := by
  intro hall
  have hrun : ((start {} 0 false).perform 20 (.run brokenFunction [])).any fun r =>
      r.1.result.verdict = .ok ∧ (r.2.perform 20 (.run brokenCall [])).any fun r' =>
        r'.1.result.verdict ≠ .staticError ∧
        ((start {} 0 false).perform 20 (.run (brokenFunction.line ++ brokenCall) [])).all fun r'' =>
          r''.1.result.report ≠ r.1.result.report ++
            r'.1.result.report.map (Diagnostic.move (.past brokenFunction.line)) := by
    decide +kernel
  obtain ⟨⟨first, s₁⟩, ha, hfirst⟩ := (Option.any_eq_true _ _).mp hrun
  obtain ⟨hok, hsecond⟩ := of_decide_eq_true hfirst
  obtain ⟨⟨second, s₂⟩, hb, hsecond⟩ := (Option.any_eq_true _ _).mp hsecond
  obtain ⟨hverdict, hboth⟩ := of_decide_eq_true hsecond
  obtain ⟨answer, s', hanswer, hreport⟩ :=
    hall _ s₁ s₂ [] 20 _ _ _ first second (.start {} 0 false) ha hok hb hverdict
  rw [hanswer] at hboth
  exact of_decide_eq_true hboth hreport

end Session

end Scriptlet

import Scriptlet.Proofs.Scope.Sequence
import Scriptlet.Proofs.Session.Scoping
import Scriptlet.Proofs.Token.Concatenation
import Scriptlet.Proofs.Tree.Sequence

/-!
# Sources that are loaded

Everything that is found wrong while a source is cut into tokens and read is an error. So a source
that is not refused has no findings from these stages at all, and what was loaded is what resolution
made of its tree (`load_run_ready`). `load_cases` says all that can become of a source.
-/

namespace Scriptlet

/-- The source that a step hands over. -/
def Step.source : Step → Text
  | .run source _ | .eval source => source

/-- Whether the source of a step is taken for an expression that stands alone. -/
def Step.isExpression : Step → Bool
  | .run .. => false
  | .eval source => isBareExpression (tokenize source).tokens

namespace Report

variable {r r' : Report}

theorem hasErrors_append : hasErrors (r ++ r') = (hasErrors r || hasErrors r') :=
  List.any_append

theorem hasErrors_attributed (stage : Stage) (r : Report) :
    (r.attributed stage).hasErrors = r.hasErrors := by
  rw [hasErrors, attributed, List.any_map]
  rfl

theorem hasErrors_move (g : Position → Position) (r : Report) :
    hasErrors (r.map (Diagnostic.move g)) = r.hasErrors := by
  rw [hasErrors, List.any_map]
  rfl

/-- Where all findings are errors, no error means no finding. -/
theorem eq_nil_of_errors (h : ∀ d ∈ r, d.isError) (hclean : r.hasErrors = false) : r = [] := by
  cases r with
  | nil => rfl
  | cons d r =>
    rw [hasErrors, List.any_cons, h d List.mem_cons_self] at hclean
    cases hclean

/-- What is found in a source that cannot be read: an error, and nothing from another stage. -/
structure Unreadable (r : Report) : Prop where
  hasErrors : r.hasErrors
  stage : ∀ d ∈ r, d.stage = .syntactic

theorem unreadable_attributed (h : ∀ d ∈ r, d.isError) (hr : r ≠ []) :
    Unreadable (r.attributed .syntactic) := by
  refine ⟨?_, fun d hd => ?_⟩
  · rw [hasErrors_attributed]
    exact Bool.of_not_eq_false fun hclean => hr (eq_nil_of_errors h hclean)
  · obtain ⟨d', -, rfl⟩ := List.mem_map.mp hd
    rfl

end Report

/-- A machine whose output was taken. -/
def Machine.silent (m : Machine) : Machine := { m with sink := { m.sink with printed := [] } }

namespace Session

variable {s : Session} {source file : Text}

/-- A source in which nothing is wrong but, maybe, with names and places. -/
structure ReadsClean (source : Text) : Prop where
  tokens : (tokenize source).report = []
  program : (parseProgram (tokenize source).tokens).2 = []

/-- The statements of a source. -/
def programOf (source : Text) : List (Stmt Unit) := (parseProgram (tokenize source).tokens).1.stmts

theorem programOf_wellFormed (source : Text) : Stmt.WellFormedList (programOf source) :=
  parseProgram_wellFormed (tokenize_spelled source)

theorem ReadsClean.load (h : ReadsClean source) (s : Session) (file : Text) :
    s.load (.run source file) = s.loadStmts (programOf source) [] := by
  unfold Session.load loadProgram programOf
  dsimp only
  rw [h.tokens, h.program]
  rfl

/-- A source that cannot be read is refused. -/
theorem load_refused (h : ¬ ReadsClean source) (s : Session) (file : Text) :
    ∃ report, s.load (.run source file) = .refused report := by
  unfold Session.load loadProgram
  dsimp only
  by_cases htokens : (Report.attributed .syntactic (tokenize source).report).hasErrors
  · exact ⟨_, if_pos htokens⟩
  · rw [if_neg htokens]
    rw [Bool.not_eq_true, Report.hasErrors_attributed] at htokens
    have hnone := Report.eq_nil_of_errors (tokenize_errors source) htokens
    refine ⟨_, if_pos ?_⟩
    rw [hnone]
    refine Bool.not_eq_false _ ▸ fun hprogram => h ⟨hnone, ?_⟩
    rw [Report.hasErrors_append, Bool.or_eq_false_iff, Report.hasErrors_attributed,
      Report.hasErrors_attributed] at hprogram
    exact Report.eq_nil_of_errors (parseProgram_errors (tokenize_spelled source)) hprogram.2

/-- The answer to a step comes from its conclusion, made without earlier output. -/
theorem perform_eq (fuel : Nat) (s : Session) (step : Step) : ∃ trace,
    s.perform fuel step =
      (s.takeOutput.2.conclude fuel (s.load step)).map fun (result, m, links) =>
        (⟨result, m.sink.text⟩,
          { s with machine := m.silent, links := links, trace := trace }) := by
  obtain ⟨trace, htake⟩ := take_eq fuel s.takeOutput.2 step
  have hload : s.takeOutput.2.load step = s.load step := by
    cases step <;> rfl
  refine ⟨trace, ?_⟩
  rw [perform, htake, hload]
  cases s.takeOutput.2.conclude fuel (s.load step) with
  | none => rfl
  | some r => rfl

/-- The resolution of statements in a session. -/
def resolve (s : Session) (stmts : List (Stmt Unit)) : Resolved (List (Stmt (Option Link))) :=
  resolveStmts (s.machine.heap.names Heap.globals) stmts s.links.length

theorem loadStmts_eq (s : Session) (stmts : List (Stmt Unit)) :
    s.loadStmts stmts [] =
      if (s.resolve stmts).report.hasErrors then .refused (s.resolve stmts).report
      else .ready (.program (s.resolve stmts).tree) (s.resolve stmts).links
        (s.resolve stmts).report :=
  rfl

/-- What is loaded of a complete program. -/
theorem load_run_ready {code : Code} {links : List LinkRecord} {report : Report}
    (h : s.load (.run source file) = .ready code links report) :
    ReadsClean source ∧ (s.resolve (programOf source)).report.hasErrors = false ∧
      code = .program (s.resolve (programOf source)).tree ∧
      links = (s.resolve (programOf source)).links ∧
      report = (s.resolve (programOf source)).report := by
  by_cases hclean : ReadsClean source
  · rw [hclean.load, loadStmts_eq] at h
    split at h
    · cases h
    · next herrors =>
      cases h
      exact ⟨hclean, Bool.eq_false_iff.mpr herrors, rfl, rfl, rfl⟩
  · obtain ⟨report', hrefused⟩ := load_refused hclean s file
    rw [hrefused] at h
    cases h

/-! ## Findings that are shown -/

theorem mem_shown {report : Report} {d : Diagnostic} (h : d ∈ s.shown report) : d ∈ report := by
  unfold shown at h
  split at h
  · exact h
  · exact (List.mem_filter.mp h).1

theorem hasErrors_shown (report : Report) : (s.shown report).hasErrors = report.hasErrors := by
  unfold shown
  split
  · rfl
  · rw [Report.hasErrors, Report.hasErrors, Report.withSeverity, List.any_filter]
    exact congrArg report.any (funext fun d => Bool.and_self _)

theorem shown_append (s : Session) (r r' : Report) : s.shown (r ++ r') = s.shown r ++ s.shown r' := by
  unfold shown
  split
  · rfl
  · exact List.filter_append ..

/-- Which findings are shown does not depend on what is done to them, if this keeps severities. -/
theorem shown_map (s : Session) {f : Diagnostic → Diagnostic}
    (hf : ∀ d, (f d).severity = d.severity) (r : Report) : s.shown (r.map f) = (s.shown r).map f := by
  unfold shown
  split
  · rfl
  · simp only [Report.withSeverity, List.filter_map, Function.comp_def, hf]

/-! ## All that can become of a source -/

/-- A source that cannot be cut into tokens is refused. -/
theorem load_of_report (step : Step) (h : (tokenize step.source).report ≠ []) (s : Session) :
    s.load step = .refused ((tokenize step.source).report.attributed .syntactic) := by
  have hreport := Report.unreadable_attributed (tokenize_errors step.source) h
  cases step with
  | run source file => exact if_pos hreport.hasErrors
  | eval source => exact if_pos hreport.hasErrors

theorem loadProgram_of_clean {tokens : List Token} (s : Session)
    (h : (parseProgram tokens).2 = []) :
    s.loadProgram tokens [] = s.loadStmts (parseProgram tokens).1.stmts [] := by
  unfold loadProgram
  dsimp only
  rw [h]
  rfl

theorem exists_of_parseExpression {tokens : List Token} (h : (parseExpression tokens).2 = []) :
    ∃ e, parseExpression tokens = (some e, []) := by
  obtain ⟨e, he, -⟩ := parseExpression_recognizes (parseExpression_derives h)
  exact ⟨e, he⟩

theorem loadExpression_of_clean {tokens : List Token} {e : Expr Unit} (s : Session)
    (h : parseExpression tokens = (some e, [])) :
    s.loadExpression tokens [] = s.loadExpr e [] := by
  unfold loadExpression
  rw [h]
  rfl

section

variable {tokens : List Token} (ht : ∀ t ∈ tokens, t.Spelled) (s : Session)

include ht

/-- So are tokens that are no program. -/
theorem loadProgram_of_faults (h : (parseProgram tokens).2 ≠ []) :
    s.loadProgram tokens [] = .refused ((parseProgram tokens).2.attributed .syntactic) :=
  if_pos (Report.unreadable_attributed (parseProgram_errors ht) h).hasErrors

/-- And tokens that are no expression. -/
theorem loadExpression_of_faults (h : (parseExpression tokens).2 ≠ []) :
    s.loadExpression tokens [] = .refused ((parseExpression tokens).2.attributed .syntactic) := by
  have hreport := Report.unreadable_attributed (parseExpression_errors ht) h
  unfold loadExpression
  dsimp only
  cases (parseExpression tokens).1 with
  | none => rfl
  | some e => exact if_pos hreport.hasErrors

theorem loadProgram_cases :
    (∃ report : Report, report.Unreadable ∧ s.loadProgram tokens [] = .refused report) ∨
      s.loadProgram tokens [] = s.loadStmts (parseProgram tokens).1.stmts [] := by
  by_cases hfaults : (parseProgram tokens).2 = []
  · exact .inr (loadProgram_of_clean s hfaults)
  · have hreport := Report.unreadable_attributed (parseProgram_errors ht) hfaults
    exact .inl ⟨_, hreport, loadProgram_of_faults ht s hfaults⟩

theorem loadExpression_cases :
    (∃ report : Report, report.Unreadable ∧ s.loadExpression tokens [] = .refused report) ∨
      ∃ e, parseExpression tokens = (some e, []) ∧
        s.loadExpression tokens [] = s.loadExpr e [] := by
  by_cases hfaults : (parseExpression tokens).2 = []
  · obtain ⟨e, he⟩ := exists_of_parseExpression hfaults
    exact .inr ⟨e, he, loadExpression_of_clean s he⟩
  · have hreport := Report.unreadable_attributed (parseExpression_errors ht) hfaults
    exact .inl ⟨_, hreport, loadExpression_of_faults ht s hfaults⟩

end

/-- A source is refused while it is read, or there is nothing to run, or it was read without a
finding and is resolved. -/
theorem load_cases (s : Session) (step : Step) :
    (∃ report : Report, report.Unreadable ∧ s.load step = .refused report) ∨
    s.load step = .idle [] ∨
    (step.isExpression = false ∧ s.load step = s.loadStmts (programOf step.source) []) ∨
    (step.isExpression ∧ ∃ e, parseExpression (tokenize step.source).tokens = (some e, []) ∧
      s.load step = s.loadExpr e []) := by
  have ht := tokenize_spelled step.source
  by_cases htokens : (tokenize step.source).report = []
  · cases step with
    | run source file =>
      unfold load
      dsimp only [Step.source] at htokens ⊢
      rw [htokens]
      exact (loadProgram_cases ht s).imp_right fun h => .inr (.inl ⟨rfl, h⟩)
    | eval source =>
      unfold load
      dsimp only [Step.source] at htokens ⊢
      rw [htokens, if_neg (by decide)]
      split
      · exact .inr (.inl rfl)
      · split
        · next hbare =>
          exact (loadExpression_cases ht s).imp_right fun h => .inr (.inr ⟨hbare, h⟩)
        · next hbare =>
          exact (loadProgram_cases ht s).imp_right fun h =>
            .inr (.inl ⟨Bool.not_eq_true _ ▸ hbare, h⟩)
  · have hreport := Report.unreadable_attributed (tokenize_errors step.source) htokens
    exact .inl ⟨_, hreport, load_of_report step htokens s⟩

/-- The resolution of an expression that stands alone in a session. -/
def resolveAlone (s : Session) (e : Expr Unit) : Resolved (Expr (Option Link)) :=
  resolveExpr (s.machine.heap.names Heap.globals) e s.links.length

theorem loadExpr_eq (s : Session) (e : Expr Unit) :
    s.loadExpr e [] =
      if (s.resolveAlone e).report.hasErrors then .refused (s.resolveAlone e).report
      else .ready (.expression (s.resolveAlone e).tree) (s.resolveAlone e).links
        (s.resolveAlone e).report :=
  rfl

/-- Code that was loaded is a program or an expression that was resolved without an error. -/
theorem load_ready {step : Step} {code : Code} {links : List LinkRecord} {report : Report}
    (h : s.load step = .ready code links report) : report.hasErrors = false ∧
      ((step.isExpression = false ∧
          code = .program (s.resolve (programOf step.source)).tree ∧
          report = (s.resolve (programOf step.source)).report) ∨
        step.isExpression ∧ ∃ e, parseExpression (tokenize step.source).tokens = (some e, []) ∧
          code = .expression (s.resolveAlone e).tree ∧ report = (s.resolveAlone e).report) := by
  obtain ⟨report', -, hload⟩ | hload | ⟨hstep, hload⟩ | ⟨hstep, e, he, hload⟩ := load_cases s step
  · rw [hload] at h; cases h
  · rw [hload] at h; cases h
  · rw [hload, loadStmts_eq] at h
    split at h
    · cases h
    · next hclean => cases h; exact ⟨Bool.eq_false_iff.mpr hclean, .inl ⟨hstep, rfl, rfl⟩⟩
  · rw [hload, loadExpr_eq] at h
    split at h
    · cases h
    · next hclean => cases h; exact ⟨Bool.eq_false_iff.mpr hclean, .inr ⟨hstep, e, he, rfl, rfl⟩⟩

end Session

end Scriptlet

import Scriptlet.Proofs.Session.Loading

/-!
# Verdicts and reports tell the same story

A step reports what its stages found, and each stage is only reached if the ones before it found no
error. So the errors of one step all come from one stage: while the source is read or resolved any
number of them, and from its run the one that stopped it, after everything else (`take_report`). The
verdict says which it was (`verdict_tells_report`), whether the settings let warnings through or not.
-/

namespace Scriptlet

namespace Report

variable {r r' : Report} {stage stage' : Stage}

/-- The errors that a stage found. -/
def stageErrors (stage : Stage) (r : Report) : Report :=
  r.filter fun d => d.isError && d.stage = stage

theorem stageErrors_append :
    stageErrors stage (r ++ r') = r.stageErrors stage ++ r'.stageErrors stage :=
  List.filter_append ..

theorem hasStageErrors_eq_true : r.hasStageErrors stage ↔ ∃ d ∈ r, d.isError ∧ d.stage = stage := by
  simp [hasStageErrors]

theorem hasStageErrors_iff : r.hasStageErrors stage ↔ r.stageErrors stage ≠ [] := by
  rw [hasStageErrors, stageErrors, Ne, List.filter_eq_nil_iff, List.any_eq_true]
  simp

theorem stageErrors_of_clean (h : r.hasErrors = false) : r.stageErrors stage = [] := by
  refine List.filter_eq_nil_iff.mpr fun d hd => ?_
  rw [List.any_eq_false.mp h d hd |> Bool.eq_false_iff.mpr]
  nofun

theorem stageErrors_of_stage (h : ∀ d ∈ r, d.stage = stage) (hne : stage' ≠ stage) :
    r.stageErrors stage' = [] := by
  refine List.filter_eq_nil_iff.mpr fun d hd => ?_
  rw [h d hd]
  simp [hne.symm]

/-- Where all findings are from one stage, so are the errors. -/
theorem hasStageErrors_of_stage (h : ∀ d ∈ r, d.stage = stage) (herrors : r.hasErrors) :
    r.hasStageErrors stage' ↔ stage' = stage := by
  rw [hasStageErrors_eq_true]
  constructor
  · rintro ⟨d, hd, -, rfl⟩
    exact h d hd
  · rintro rfl
    obtain ⟨d, hd, herror⟩ := List.any_eq_true.mp herrors
    exact ⟨d, hd, herror, h d hd⟩

end Report

/-- Whatever is found while an expression is resolved is attributed to this. -/
theorem resolveExpr_stage {globals : List Text} {e : Expr Unit} {first : Nat} (hw : e.WellFormed) :
    ∀ d ∈ (resolveExpr globals e first).report, d.stage = .resolve := by
  intro d hd
  have hleft := e.publishes_resolve {} hw { globals := globals, linkCount := first } rfl
  exact (hleft.found d (List.mem_reverse.mp hd)).resolve_left List.not_mem_nil

namespace Session

variable {s s' : Session} {fuel : Nat} {step : Step} {result : Result}

/-- A source that is refused has an error, and all that was found in it is from one stage. -/
theorem load_refused_report {report : Report} (h : s.load step = .refused report) :
    report.hasErrors ∧ ∃ stage, (stage = .syntactic ∨ stage = .resolve) ∧
      ∀ d ∈ report, d.stage = stage := by
  obtain ⟨report', hreport, hload⟩ | hload | ⟨-, hload⟩ | ⟨-, e, he, hload⟩ := load_cases s step
  · rw [hload] at h
    cases h
    exact ⟨hreport.hasErrors, _, .inl rfl, hreport.stage⟩
  · rw [hload] at h
    cases h
  · rw [hload, loadStmts_eq] at h
    split at h
    · next herrors =>
      cases h
      exact ⟨herrors, _, .inr rfl, resolveStmts_stage (programOf_wellFormed step.source)⟩
    · cases h
  · rw [hload, loadExpr_eq] at h
    split at h
    · next herrors =>
      cases h
      have hw := parseExpression_wellFormed (tokenize_spelled step.source) (congrArg Prod.fst he)
      exact ⟨herrors, _, .inr rfl, resolveExpr_stage hw⟩
    · cases h

theorem load_idle_report {report : Report} (h : s.load step = .idle report) : report = [] := by
  obtain ⟨report', hreport, hload⟩ | hload | ⟨-, hload⟩ | ⟨-, e, he, hload⟩ := load_cases s step
  · rw [hload] at h
    cases h
  · rw [hload] at h
    cases h
    rfl
  · rw [hload, loadStmts_eq] at h
    split at h <;> cases h
  · rw [hload, loadExpr_eq] at h
    split at h <;> cases h

/-- The error at which the run of a source stops. -/
def StoppedBy (fuel : Nat) (s : Session) (step : Step) (e : RuntimeError) : Prop :=
  ∃ code links report m, s.load step = .ready code links report ∧
    code.runWith (Eval.within fuel) s.machine = .error e m

/-- A step ends well and finds no error; or the source is refused, with errors from one stage; or it is
run and stopped by an error, which is the only one and comes last. -/
theorem take_report (h : s.take fuel step = some (result, s')) :
    (result.verdict = .ok ∧ result.report.hasErrors = false) ∨
    (result.verdict = .staticError ∧ result.report.hasErrors ∧
      ∃ stage, (stage = .syntactic ∨ stage = .resolve) ∧ ∀ d ∈ result.report, d.stage = stage) ∨
    (result.verdict = .runtimeError ∧ ∃ before e, s.StoppedBy fuel step e ∧
      result.report = before ++ [e.report] ∧ before.hasErrors = false) := by
  obtain ⟨-, ⟨report, hload, rfl, -, -⟩ | ⟨report, hload, rfl, -, -⟩ |
    ⟨code, links, report, hload, -, ⟨value, -, rfl⟩ | ⟨e, hp, rfl⟩⟩⟩ := take_cases h
  · obtain ⟨herrors, stage, hkind, hstage⟩ := load_refused_report hload
    refine .inr (.inl ⟨rfl, (hasErrors_shown report).trans herrors, stage, hkind, ?_⟩)
    exact fun d hd => hstage d (mem_shown hd)
  · refine .inl ⟨rfl, (hasErrors_shown report).trans ?_⟩
    rw [load_idle_report hload]
    rfl
  · exact .inl ⟨rfl, (hasErrors_shown report).trans (load_ready hload).1⟩
  · refine .inr (.inr ⟨rfl, s.shown report, e, ?_, ?_, ?_⟩)
    · exact ⟨code, links, report, _, hload, Code.perform_error_iff.mp hp⟩
    · have hlast : s.shown [e.report] = [e.report] := by
        unfold shown
        split <;> rfl
      exact (shown_append s report [e.report]).trans (by rw [hlast])
    · exact (hasErrors_shown report).trans (load_ready hload).1

/-- The verdict of a step and its report tell the same story. It is ok if there is no error; a static
error if there are errors from reading or from resolving the source, and none from running it; and a
runtime error if one error is from running the source, it is the last finding, it has the code and
the message of the error that stopped the run, and no other stage found one. There are never errors
from reading and from resolving at once. -/
theorem verdict_tells_report (h : s.take fuel step = some (result, s')) :
    (result.verdict = .ok ↔ result.report.hasErrors = false) ∧
    (result.verdict = .staticError ↔
      (result.report.hasStageErrors .syntactic ∨ result.report.hasStageErrors .resolve) ∧
        ¬ result.report.hasStageErrors .runtime) ∧
    (result.verdict = .runtimeError ↔ ∃ d, result.report.stageErrors .runtime = [d] ∧
      result.report.getLast? = some d ∧
      (∃ e, s.StoppedBy fuel step e ∧ d.code = e.fault.code ∧ d.message = e.fault.message) ∧
      ¬ result.report.hasStageErrors .syntactic ∧ ¬ result.report.hasStageErrors .resolve) ∧
    ¬ (result.report.hasStageErrors .syntactic ∧ result.report.hasStageErrors .resolve) := by
  rcases take_report h with ⟨hv, hclean⟩ | ⟨hv, herrors, stage, hkind, hall⟩ |
    ⟨hv, before, e, hstop, hr, hb⟩
  · have hnone : ∀ stage, result.report.stageErrors stage = [] :=
      fun _ => Report.stageErrors_of_clean hclean
    simp [hv, hclean, Report.hasStageErrors_iff, hnone]
  · have hwhich : ∀ stage', result.report.hasStageErrors stage' ↔ stage' = stage :=
      fun _ => Report.hasStageErrors_of_stage hall herrors
    have hnone : result.report.stageErrors .runtime = [] :=
      Report.stageErrors_of_stage hall (by rcases hkind with rfl | rfl <;> nofun)
    rcases hkind with rfl | rfl
    · simp [hv, herrors, hwhich, hnone]
    · simp [hv, herrors, hwhich, hnone]
  · have hruntime : result.report.stageErrors .runtime = [e.report] := by
      rw [hr, Report.stageErrors_append, Report.stageErrors_of_clean hb]
      rfl
    have hearlier : ∀ stage, stage ≠ .runtime → result.report.stageErrors stage = [] := by
      intro stage hstage
      have hlast : ∀ d ∈ [e.report], d.stage = .runtime := List.forall_mem_singleton.mpr rfl
      rw [hr, Report.stageErrors_append, Report.stageErrors_of_clean hb,
        Report.stageErrors_of_stage hlast hstage]
      rfl
    have herrors : result.report.hasErrors := by
      rw [hr, Report.hasErrors_append, hb]
      rfl
    have hlast : result.report.getLast? = some e.report := by rw [hr, List.getLast?_concat]
    simp only [hv, herrors, Report.hasStageErrors_iff, hruntime, hlast, hearlier .syntactic nofun,
      hearlier .resolve nofun]
    refine ⟨by simp, by simp, ⟨fun _ => ?_, fun _ => trivial⟩, by simp⟩
    exact ⟨e.report, rfl, rfl, ⟨e, hstop, rfl, rfl⟩, by simp, by simp⟩

/-- A program with a warning that is stopped by an error in a call. -/
def warnedStop : Step :=
  .run "fun f() \x7b var unread = none; return missing; \x7d f();" []

/-- Its report has the warning and then the error that stopped it. -/
theorem verdict_tells_report_warnedStop :
    ∃ result s', (start {} 0 false).take 50 warnedStop = some (result, s') ∧
      result.verdict = .runtimeError ∧ result.report.length = 2 ∧
      ∃ d, result.report.stageErrors .runtime = [d] ∧ result.report.getLast? = some d := by
  have hrun : ((start {} 0 false).take 50 warnedStop).any fun r =>
      r.1.verdict = .runtimeError ∧ r.1.report.length = 2 := by
    decide +kernel
  obtain ⟨⟨result, s'⟩, htake, hend⟩ := (Option.any_eq_true _ _).mp hrun
  obtain ⟨herror, hlength⟩ := of_decide_eq_true hend
  obtain ⟨d, hone, hlast, -⟩ := (verdict_tells_report htake).2.2.1.mp herror
  exact ⟨result, s', htake, herror, hlength, d, hone, hlast⟩

end Session

end Scriptlet

import Scriptlet.Proofs.Session.Batch
import Scriptlet.Proofs.Tree.Operand

/-!
# Expressions and statements that print

An input of the console that is an expression is read, resolved and evaluated on its own, and its
value is printed. The same expression may stand in a statement that prints (`Text.printed`). Both
ways find the same while the source is loaded (`load_printed`) and do the same to the machine
(`Code.perform_printed`), so that they lead to the same answers and the same session
(`console_agrees_with_print`). What differs are the places of findings, and how an error of syntax
is told (`Diagnostic.outline`).
-/

namespace Scriptlet

/-- A statement that prints the expression that a source consists of. -/
def Text.printed (source : Text) : Text := Text.line "print" ++ (source.line ++ ";")

/-- Where the expression stands in the statement. -/
def Position.inPrint : Position → Position := .past (Text.line "print")

theorem Report.map_outline_relocate (h : Span → Span) (r : Report) :
    (r.map (Diagnostic.relocate h)).map Diagnostic.outline = r.map Diagnostic.outline := by
  rw [List.map_map]
  rfl

theorem Diagnostic.severity_outline (d : Diagnostic) : d.outline.severity = d.severity := by
  unfold outline
  split <;> rfl

/-- An answer without the value, and with the outlines of the findings. -/
def Answer.outline (answer : Answer) : Answer :=
  ⟨⟨answer.result.verdict, answer.result.report.map Diagnostic.outline, none⟩, answer.output⟩

/-! ## Tokens -/

theorem isInner_of_bare {tokens : List Token} (h : isBareExpression tokens) {t : Token}
    (ht : t ∈ tokens) (hend : t.kind ≠ .endOfInput) : t.IsInner := by
  have hkind := List.all_eq_true.mp h t ht
  refine ⟨hend, fun hsemi => ?_, ?_⟩
  · rw [hsemi] at hkind
    cases hkind
  · generalize t.kind = kind at hkind
    cases kind with
    | kwClass | kwFun | kwVar | kwFor | kwIf | kwWhile | kwDo | kwPrint | kwReturn | kwBreak
    | kwContinue => cases hkind
    | _ => rfl

variable {source : Text}

/-- The tokens of a source and those of the statement that prints it. -/
theorem printsTokens (hclean : (tokenize source).report = [])
    (hbare : isBareExpression (tokenize source).tokens) :
    PrintsTokens .inPrint (tokenize source).tokens (tokenize source.printed).tokens := by
  have hprint : (tokenize "print").report = [] := by decide
  obtain ⟨last, hlast, htokens⟩ := tokenize_eq source
  have hinner : ∀ t ∈ (tokenize source).tokens.dropLast, t.IsInner := by
    intro t ht
    refine isInner_of_bare hbare (List.dropLast_subset _ ht) ?_
    rw [tokenize_dropLast] at ht
    exact ne_end_of_mem_beforeEnd ht
  obtain ⟨keyword, hprint', hkeyword⟩ : ∃ keyword, (tokenize "print").tokens.dropLast = [keyword] ∧
    keyword.kind = .kwPrint := ⟨_, rfl, rfl⟩
  obtain ⟨semi, last', hline, hsemi, hlast'⟩ : ∃ semi last', (tokenize ";").tokens = [semi, last'] ∧
    semi.kind = .semicolon ∧ last'.kind = .endOfInput := ⟨_, _, rfl, rfl, rfl⟩
  refine ⟨_, last, keyword, (semi.move (.past source.line)).move .inPrint,
    (last'.move (.past source.line)).move .inPrint, hinner, hlast, hkeyword, hsemi, hlast', htokens,
    ?_⟩
  unfold Text.printed
  rw [tokenize_append hprint, tokenize_append hclean, hprint', hline]
  simp [Position.inPrint]

/-- A source with a token begins with one. -/
theorem first_ne_end (h : ∃ t ∈ (tokenize source).tokens, t.kind ≠ .endOfInput) :
    ¬ ((tokenize source).tokens.head?.all fun t => t.kind = .endOfInput) = true := by
  intro hfirst
  obtain ⟨last, hlast, htokens⟩ := tokenize_eq source
  obtain ⟨t, ht, hkind⟩ := h
  have hend := tokenize_dropLast source
  cases hall : (tokenize source).tokens.dropLast with
  | nil =>
    rw [htokens, hall, List.nil_append, List.mem_singleton] at ht
    exact hkind (ht ▸ hlast)
  | cons u us =>
    have hmem : u ∈ beforeEnd (tokenize source).tokens := by
      rw [beforeEnd, ← hend, hall]
      exact List.mem_cons_self
    rw [htokens, hall] at hfirst
    exact ne_end_of_mem_beforeEnd hmem (of_decide_eq_true hfirst)

/-- What is found while a source is cut into tokens is found in the statement as well. -/
theorem tokenize_report_printed (source : Text) :
    (tokenize source.printed).report.map (Diagnostic.relocate fun _ => .nowhere) =
      (tokenize source).report.map (Diagnostic.relocate fun _ => .nowhere) := by
  have hprint : (tokenize "print").report = [] := by decide
  have hsemi : (tokenize ";").report = [] := by decide
  unfold Text.printed
  rw [tokenize_append hprint, List.map_map]
  exact tokenize_report_line hsemi (by decide) (by decide)

/-! ## Running -/

/-- How a run ended, but for where code was written and for the value. -/
def Outcome.outline (o : Outcome (Option Value)) : Outcome (Option Value) :=
  o.relocate (fun _ => .nowhere) fun _ => none

/-- A statement that prints is run by printing what its operand yields. -/
theorem Code.perform_print (fuel : Nat) (span : Span) (keyword : Token) (e : Expr (Option Link)) :
    (Code.program [.print span keyword e]).perform (fuel + 1) = do
      let v ← Machine.evaluate fuel e
      Eval.printLine v.shown
      return none := by
  funext m
  change ((((Eval.within fuel (.expr e) >>= fun v => Eval.printLine v.shown >>= fun _ =>
    pure Signal.next) >>= fun _ => pure ()) >>= fun _ => pure none) : Eval (Option Value)) m =
      (Eval.within fuel (.expr e) >>= fun v => Eval.printLine v.shown >>= fun _ => pure none) m
  simp only [Eval.bind_apply]
  cases Eval.within fuel (.expr e) m with
  | ok v m => rfl
  | error e m => rfl
  | outOfFuel => rfl

/-- To evaluate an expression and to run a statement that prints it does the same, wherever they
stand. -/
theorem Code.perform_printed (fuel : Nat) (e : Expr (Option Link)) (g : Position → Position)
    (span : Span) (keyword : Token) (m : Machine) :
    ((Code.program [.print span keyword (e.move g)]).perform (fuel + 1) m).outline =
      ((Code.expression e).perform fuel m).outline := by
  let h : Span → Span := fun _ => .nowhere
  have hplace : (e.move g).relocate h = e.relocate h := Expr.relocate_relocate _ _ e
  have hprints (e : Expr (Option Link)) (value : Value → Option Value) :
      Eval.Natural (.moving h) (fun _ => none) (do
        let v ← Machine.evaluate fuel e
        Eval.printLine v.shown
        return value v) (do
        let v ← Machine.evaluate fuel (e.relocate h)
        Eval.printLine v.shown
        return none) := by
    have heval := (Eval.natural_within h fuel).expr e
    rw [Rewriting.expr, Rewriting.moving, Expr.mapLinks_id] at heval
    refine Eval.Natural.bind heval fun v => ?_
    rw [Value.mapCode_shown]
    exact (Eval.natural_printLine v.shown).bind fun _ => Eval.natural_pure (value v)
  have hmoved := (hprints (e.move g) (fun _ => none)).moving h [] m
  have halone := (hprints e some).moving h [] m
  rw [hplace, halone, Outcome.after_nil, Outcome.after_nil] at hmoved
  rw [Code.perform_print]
  exact hmoved.symm

namespace Session

variable {s : Session}

/-! ## Loading -/

/-- What becomes of an expression that stands alone, and of a statement that prints it. -/
inductive LoadsAlike : Loading → Loading → Prop where
  | refused {report report' : Report} :
    report'.map Diagnostic.outline = report.map Diagnostic.outline →
      LoadsAlike (.refused report) (.refused report')
  | ready {e : Expr (Option Link)} {links links' : List LinkRecord} {report report' : Report}
    {g : Position → Position} {span : Span} {keyword : Token} :
    links' = links.map (LinkRecord.move g) → report' = report.map (Diagnostic.move g) →
      LoadsAlike (.ready (.expression e) links report)
        (.ready (.program [.print span keyword (e.move g)]) links' report')

theorem map_outline_attributed (stage : Stage) (r : Report) :
    (r.attributed stage).map Diagnostic.outline =
      Report.attributed stage (r.map Diagnostic.outline) := by
  unfold Report.attributed
  rw [List.map_map, List.map_map]
  refine List.map_congr_left fun d _ => ?_
  unfold Function.comp Diagnostic.outline
  dsimp only
  split
  · rfl
  · rfl

theorem loadsAlike_expr (s : Session) (e : Expr Unit) (span : Span) (keyword : Token) :
    LoadsAlike (s.loadExpr e []) (s.loadStmts [.print span keyword (e.move .inPrint)] []) := by
  have hresolve : s.resolve [.print span keyword (e.move .inPrint)] =
      ⟨[.print span keyword ((s.resolveAlone e).tree.move .inPrint)],
        (s.resolveAlone e).links.map (LinkRecord.move .inPrint),
        (s.resolveAlone e).report.map (Diagnostic.move .inPrint)⟩ := by
    have hnowhere : Position.inPrint .nowhere = .nowhere := Position.past_nowhere _
    rw [resolve, resolveStmts_print, resolveExpr_move hnowhere]
    rfl
  rw [loadExpr_eq, loadStmts_eq, hresolve, Report.hasErrors_move]
  split
  · exact .refused (Report.map_outline_relocate ..)
  · exact .ready rfl rfl

theorem loadsAlike_unreadable {r r' : Report}
    (h : r'.map Diagnostic.outline = r.map Diagnostic.outline) :
    LoadsAlike (.refused (r.attributed .syntactic)) (.refused (r'.attributed .syntactic)) := by
  refine .refused ?_
  rw [map_outline_attributed, map_outline_attributed, h]

theorem loadsAlike_tokens {tokens all : List Token} (h : PrintsTokens .inPrint tokens all)
    (htokens : ∀ t ∈ tokens, t.Spelled) (hall : ∀ t ∈ all, t.Spelled) (s : Session) :
    LoadsAlike (s.loadExpression tokens []) (s.loadProgram all []) := by
  obtain ⟨hfaults, hstmts⟩ := h.parseProgram
  have hnil : (parseProgram all).2 = [] ↔ (parseExpression tokens).2 = [] := by
    rw [← List.map_eq_nil_iff, hfaults, List.map_eq_nil_iff]
  by_cases hclean : (parseExpression tokens).2 = []
  · obtain ⟨e, he⟩ := exists_of_parseExpression hclean
    obtain ⟨span, keyword, hprogram⟩ := hstmts e (by rw [he])
    rw [loadExpression_of_clean s he, loadProgram_of_clean s (hnil.mpr hclean), hprogram]
    exact loadsAlike_expr s e span keyword
  · rw [loadExpression_of_faults htokens s hclean,
      loadProgram_of_faults hall s (fun hnone => hclean (hnil.mp hnone))]
    exact loadsAlike_unreadable hfaults

/-- An expression and a statement that prints it are loaded alike. -/
theorem load_printed (hsome : ∃ t ∈ (tokenize source).tokens, t.kind ≠ .endOfInput)
    (hbare : isBareExpression (tokenize source).tokens) (s : Session) (file : Text) :
    LoadsAlike (s.load (.eval source)) (s.load (.run source.printed file)) := by
  have hreport := tokenize_report_printed source
  by_cases hclean : (tokenize source).report = []
  · have hclean' : (tokenize source.printed).report = [] := by
      rw [hclean] at hreport
      exact List.map_eq_nil_iff.mp hreport
    have hload : s.load (.eval source) = s.loadExpression (tokenize source).tokens [] := by
      unfold load
      dsimp only
      rw [hclean, if_neg (by decide), if_neg (first_ne_end hsome), if_pos hbare]
      rfl
    have hload' : s.load (.run source.printed file) =
        s.loadProgram (tokenize source.printed).tokens [] := by
      unfold load
      dsimp only
      rw [hclean']
      exact if_neg (by decide)
    rw [hload, hload']
    exact loadsAlike_tokens (printsTokens hclean hbare) (tokenize_spelled _) (tokenize_spelled _) s
  · have hfound : (tokenize source.printed).report ≠ [] := by
      intro hnone
      rw [hnone] at hreport
      exact hclean (List.map_eq_nil_iff.mp hreport.symm)
    have hload : s.load (.eval source) =
        .refused ((tokenize source).report.attributed .syntactic) :=
      load_of_report (.eval source) hclean s
    have hload' : s.load (.run source.printed file) =
        .refused ((tokenize source.printed).report.attributed .syntactic) :=
      load_of_report (.run source.printed file) hfound s
    rw [hload, hload']
    have houtline := congrArg (List.map Diagnostic.outline) hreport
    rw [Report.map_outline_relocate, Report.map_outline_relocate] at houtline
    exact loadsAlike_unreadable houtline

/-! ## Both ways -/

theorem shown_outline {r r' : Report} (h : r'.map Diagnostic.outline = r.map Diagnostic.outline) :
    (s.shown r').map Diagnostic.outline = (s.shown r).map Diagnostic.outline := by
  rw [← shown_map s Diagnostic.severity_outline, ← shown_map s Diagnostic.severity_outline, h]

/-- Two runs tell the same if they left the same machine, but for where code was written, and found
the same in outline. -/
theorem ran_alike {m m' : Machine} (hforget : m'.forget = m.forget) {r r' : Report}
    (hfound : r'.map Diagnostic.outline = r.map Diagnostic.outline) (verdict : Verdict)
    (value value' : Option Value) (links : List LinkRecord) (g : Position → Position)
    (trace trace' : List TraceEvent) :
    ((⟨⟨verdict, s.shown r', value'⟩, m'.sink.text⟩ : Answer).outline,
        (s.ran m' (links.map (LinkRecord.move g)) trace').forget) =
      ((⟨⟨verdict, s.shown r, value⟩, m.sink.text⟩ : Answer).outline,
        (s.ran m links trace).forget) := by
  have hmachine : m'.silent.forget = m.silent.forget := congrArg Machine.silent hforget
  refine Prod.ext ?_ ?_
  · simp only [Answer.outline, shown_outline hfound, Machine.sink_of_forget hforget]
  · simp only [forget, ran, hmachine, List.map_append, List.map_map]
    rfl

theorem LoadsAlike.perform {step step' : Step} (h : LoadsAlike (s.load step) (s.load step'))
    (fuel : Nat) :
    (s.perform (fuel + 1) step').map (fun r => (r.1.outline, r.2.forget)) =
      (s.perform fuel step).map fun r => (r.1.outline, r.2.forget) := by
  generalize hload : s.load step = loading at h
  generalize hload' : s.load step' = loading' at h
  cases h with
  | @refused report report' houtline =>
    obtain ⟨trace, hperform⟩ := perform_eq fuel s step
    obtain ⟨trace', hperform'⟩ := perform_eq (fuel + 1) s step'
    have hshown : (s.shown report').map Diagnostic.outline =
        (s.shown report).map Diagnostic.outline :=
      shown_outline houtline
    rw [hperform, hperform', hload, hload']
    refine congrArg some (Prod.ext ?_ rfl)
    exact congrArg (fun r => Answer.mk ⟨.staticError, r, none⟩ _) hshown
  | @ready e links links' report report' g span keyword hlinks hreport =>
    subst hlinks hreport
    obtain ⟨trace, hperform⟩ := perform_ready fuel hload
    obtain ⟨trace', hperform'⟩ := perform_ready (fuel + 1) hload'
    have hsame := Code.perform_printed fuel e g span keyword s.machine.silent
    rw [hperform, hperform']
    generalize (Code.expression e).perform fuel s.machine.silent = o at hsame
    generalize (Code.program _).perform (fuel + 1) s.machine.silent = o' at hsame
    cases o with
    | outOfFuel =>
      cases o' with
      | outOfFuel => rfl
      | ok | error => cases hsame
    | ok value m =>
      cases o' with
      | ok value' m' =>
        obtain ⟨-, hforget⟩ := Outcome.ok.inj hsame
        have hfound := Report.map_outline_relocate (Span.move g) report
        exact congrArg some (ran_alike hforget hfound ..)
      | error | outOfFuel => cases hsame
    | error e m =>
      cases o' with
      | error e' m' =>
        obtain ⟨herror, hforget⟩ := Outcome.error.inj hsame
        have houtline := congrArg (fun e => (RuntimeError.report e).outline) herror
        change e'.report.outline = e.report.outline at houtline
        have hfound : (report.map (Diagnostic.move g) ++ [e'.report]).map Diagnostic.outline =
            (report ++ [e.report]).map Diagnostic.outline := by
          rw [List.map_append, List.map_append, Report.map_outline_relocate, List.map_singleton,
            List.map_singleton, houtline]
        exact congrArg some (ran_alike hforget hfound ..)
      | ok | outOfFuel => cases hsame

/-- An input of the console that is an expression, and the statement that prints this expression,
end with the same verdict and print the same, and their findings have the same outlines. They leave
the same session, but for where code was written. The statement needs one more unit of fuel. -/
theorem console_agrees_with_print (s : Session) (fuel : Nat) {source : Text} (file : Text)
    (hsome : ∃ t ∈ (tokenize source).tokens, t.kind ≠ .endOfInput)
    (hbare : isBareExpression (tokenize source).tokens) :
    (s.perform (fuel + 1) (.run source.printed file)).map (fun r => (r.1.outline, r.2.forget)) =
      (s.perform fuel (.eval source)).map fun r => (r.1.outline, r.2.forget) :=
  (load_printed hsome hbare s file).perform fuel

/-- An expression with a choice that is not taken. -/
def untakenChoice : Text := "true ? !true : missing"

theorem console_agrees_with_print_untakenChoice : ∃ answer answer' s₁ s₂,
    (start {} 0 false).perform 20 (.eval untakenChoice) = some (answer, s₁) ∧
    (start {} 0 false).perform 21 (.run untakenChoice.printed []) = some (answer', s₂) ∧
    answer.output = Text.line "false" ∧ answer'.outline = answer.outline ∧
    s₂.forget = s₁.forget := by
  have hsome : ∃ t ∈ (tokenize untakenChoice).tokens, t.kind ≠ .endOfInput := by
    decide +kernel
  have hbare : isBareExpression (tokenize untakenChoice).tokens := by
    decide +kernel
  have hrun : ((start {} 0 false).perform 20 (.eval untakenChoice)).any fun r =>
      r.1.output = Text.line "false" := by
    decide +kernel
  obtain ⟨⟨answer, s₁⟩, heval, houtput⟩ := (Option.any_eq_true _ _).mp hrun
  have hboth := console_agrees_with_print (start {} 0 false) 20 [] hsome hbare
  rw [heval, Option.map_some, Option.map_eq_some_iff] at hboth
  obtain ⟨⟨answer', s₂⟩, hprint, heq⟩ := hboth
  obtain ⟨hanswer, hforget⟩ := Prod.mk.inj heq
  exact ⟨answer, answer', s₁, s₂, heval, hprint, of_decide_eq_true houtput, hanswer, hforget⟩

/-- It is not true that an error of syntax has the same message in both places: a second operand is
too much after an expression, but stands where a semicolon is missing after a value. -/
theorem messages_of_syntax_differ :
    ¬ ∀ (s s₁ s₂ : Session) (fuel : Nat) (source file : Text) (answer answer' : Answer),
      (∃ t ∈ (tokenize source).tokens, t.kind ≠ .endOfInput) →
      isBareExpression (tokenize source).tokens →
      s.perform fuel (.eval source) = some (answer, s₁) →
      s.perform (fuel + 1) (.run source.printed file) = some (answer', s₂) →
      answer'.result.report.map Diagnostic.message =
        answer.result.report.map Diagnostic.message := by
  intro hall
  have hsome : ∃ t ∈ (tokenize "1 2").tokens, t.kind ≠ .endOfInput := by
    decide +kernel
  have hrun : ((start {} 0 false).perform 0 (.eval "1 2")).any fun r =>
      ((start {} 0 false).perform 1 (.run (Text.printed "1 2") [])).any fun r' =>
        r'.1.result.report.map Diagnostic.message ≠ r.1.result.report.map Diagnostic.message := by
    decide +kernel
  obtain ⟨⟨answer, s₁⟩, heval, hrun'⟩ := (Option.any_eq_true _ _).mp hrun
  obtain ⟨⟨answer', s₂⟩, hprint, hdiffer⟩ := (Option.any_eq_true _ _).mp hrun'
  exact of_decide_eq_true hdiffer (hall _ s₁ s₂ 0 _ [] answer answer' hsome (by decide +kernel)
    heval hprint)

end Session

end Scriptlet

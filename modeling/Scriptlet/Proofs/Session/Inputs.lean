import Scriptlet.Proofs.Session.Loading
import Scriptlet.Proofs.Tree.Completeness

/-!
# Inputs that are programs

An input of the console is taken for an expression if none of its tokens is a mark of a statement
(`isBareExpression_eq_false_iff`). That looks at tokens one by one and knows nothing of their order.
The grammar says why it is enough: the body of every production of a declaration, a statement or a
block holds a mark, or again a phrase of this sort (`Production.exists_mark`), so that none of them
can be written without one (`Derives.exists_mark`). A program is never taken for an expression, and
the console does with it what running the program does.
-/

namespace Scriptlet

namespace Kind

/-- The kinds of tokens that begin a statement, end it or enclose it. -/
def statementMarks : List Kind :=
  [.semicolon, .leftBrace, .rightBrace, .kwClass, .kwFun, .kwVar, .kwFor, .kwIf, .kwWhile, .kwDo,
    .kwBreak, .kwContinue, .kwPrint, .kwReturn]

end Kind

theorem isBareExpression_eq_false_iff {tokens : List Token} :
    isBareExpression tokens = false ↔ ∃ t ∈ tokens, t.kind ∈ Kind.statementMarks := by
  unfold isBareExpression
  rw [List.all_eq_false]
  refine exists_congr fun t => and_congr_right fun _ => ?_
  generalize t.kind = kind
  cases kind <;> decide

/-! ## Phrases that hold a mark -/

/-- A phrase that no expression is, but in the body of a function: each way to write it has a
mark. -/
def Phrase.HasMark : Phrase → Prop
  | .token kind => kind ∈ Kind.statementMarks
  | .decl | .member | .vars | .stmt | .forInit | .block => True
  | _ => False

/-- Such a phrase consists of at least one token or phrase of this sort. -/
theorem Production.exists_mark {p : Phrase} {body : List Phrase} (h : Production p body)
    (hp : p.HasMark) : ∃ q ∈ body, q.HasMark := by
  have hmark (kind : Kind) (hkind : kind ∈ Kind.statementMarks) : (Phrase.token kind).HasMark :=
    hkind
  cases h with
  | classDecl => exact ⟨.token .kwClass, by simp, hmark _ (by decide)⟩
  | funDecl => exact ⟨.token .kwFun, by simp, hmark _ (by decide)⟩
  | vars => exact ⟨.token .kwVar, by simp, hmark _ (by decide)⟩
  | forStmt => exact ⟨.token .kwFor, by simp, hmark _ (by decide)⟩
  | ifStmt => exact ⟨.token .kwIf, by simp, hmark _ (by decide)⟩
  | whileStmt => exact ⟨.token .kwWhile, by simp, hmark _ (by decide)⟩
  | doStmt => exact ⟨.token .kwDo, by simp, hmark _ (by decide)⟩
  | stmtDecl => exact ⟨.stmt, by simp, trivial⟩
  | member | blockStmt => exact ⟨.block, by simp, trivial⟩
  | block => exact ⟨.token .leftBrace, by simp, hmark _ (by decide)⟩
  | varDecl | printStmt | returnStmt | breakStmt | continueStmt | exprStmt | noInit | varsInit
  | exprInit => exact ⟨.token .semicolon, by simp, hmark _ (by decide)⟩
  | _ => exact hp.elim

/-- What a row with such a phrase stands for has a mark among its tokens. -/
theorem Derives.exists_mark {row : List Phrase} {ts : List Token} (h : Derives row ts)
    (hrow : ∃ p ∈ row, p.HasMark) : ∃ t ∈ ts, t.kind ∈ Kind.statementMarks := by
  obtain ⟨p, hp, hmark⟩ := hrow
  -- by induction on the derivation: the phrase is the first one of the row, or a later one
  induction h generalizing p with
  | nil => cases hp
  | @token kind t row ts hkind _ ih =>
    rcases List.mem_cons.mp hp with rfl | hlater
    · exact ⟨t, List.mem_cons_self, hkind ▸ hmark⟩
    · obtain ⟨u, hu, hkind⟩ := ih p hlater hmark
      exact ⟨u, List.mem_cons_of_mem _ hu, hkind⟩
  | phrase hproduction _ _ ihbody ihrow =>
    rcases List.mem_cons.mp hp with rfl | hlater
    · obtain ⟨q, hq, hmark⟩ := hproduction.exists_mark hmark
      obtain ⟨u, hu, hkind⟩ := ihbody q hq hmark
      exact ⟨u, List.mem_append_left _ hu, hkind⟩
    · obtain ⟨u, hu, hkind⟩ := ihrow p hlater hmark
      exact ⟨u, List.mem_append_right _ hu, hkind⟩

/-- A file is empty or begins with a declaration. -/
theorem Derives.file_cases {ts : List Token} (h : Derives [.file] ts) :
    ts = [] ∨ Derives [.decl, .many [.decl]] ts := by
  obtain ⟨_, hfile, h⟩ := h.production nofun
  cases hfile
  obtain ⟨_, hmany, h⟩ := h.production nofun
  cases hmany with
  | manyNone => exact .inl h.eq_nil
  | manyMore => exact .inr h

/-- A program that is not empty has a mark of a statement. -/
theorem exists_mark_of_parseProgram {tokens : List Token} (h : (parseProgram tokens).2 = [])
    (hsome : beforeEnd tokens ≠ []) : ∃ t ∈ tokens, t.kind ∈ Kind.statementMarks := by
  have hdecl := (parseProgram_derives h).file_cases.resolve_left hsome
  obtain ⟨t, ht, hmark⟩ := hdecl.exists_mark ⟨.decl, List.mem_cons_self, trivial⟩
  exact ⟨t, List.takeWhile_subset _ ht, hmark⟩

namespace Session

variable {source : Text}

/-! ## Loading an input that is a program -/

theorem head?_isEnd_iff {tokens : List Token} :
    (tokens.head?.all fun t => t.kind = .endOfInput) = true ↔ beforeEnd tokens = [] := by
  cases tokens with
  | nil => simp
  | cons t ts => simp [List.takeWhile_cons]

/-- From an input that is a program the console loads the program. -/
theorem load_eval_of_program (h : (parseProgram (tokenize source).tokens).2 = [])
    (hsome : beforeEnd (tokenize source).tokens ≠ []) (s : Session) (file : Text) :
    s.load (.eval source) = s.load (.run source file) := by
  have hbare := isBareExpression_eq_false_iff.mpr (exists_mark_of_parseProgram h hsome)
  have hfirst := mt head?_isEnd_iff.mp hsome
  unfold load
  dsimp only
  rw [if_neg hfirst, hbare, if_neg Bool.false_ne_true]

/-- With an input without tokens the console does what is done to run nothing. -/
theorem conclude_eval_of_nothing (hnone : beforeEnd (tokenize source).tokens = []) (fuel : Nat)
    (s : Session) (file : Text) :
    s.conclude fuel (s.load (.eval source)) = s.conclude fuel (s.load (.run source file)) := by
  by_cases hreport : (tokenize source).report = []
  · have hreads : Parser.ReadsThrough (beforeEnd (tokenize source).tokens) [] :=
      hnone ▸ Parser.ReadsThrough.nil
    have hidle : s.load (.eval source) = .idle [] := by
      unfold load
      dsimp only
      rw [hreport, if_neg (by decide), if_pos (head?_isEnd_iff.mpr hnone)]
      rfl
    have hready : s.load (.run source file) = .ready (.program []) [] [] := by
      rw [ReadsClean.load ⟨hreport, hreads.parseProgram.2⟩, programOf, hreads.parseProgram.1]
      rfl
    rw [hidle, hready]
    exact congrArg (fun links => some (_, s.machine, links)) (List.append_nil s.links).symm
  · have heval := load_of_report (.eval source) hreport s
    have hrun := load_of_report (.run source file) hreport s
    exact congrArg (s.conclude fuel) (heval.trans hrun.symm)

/-- Whatever the console takes for a program, it treats as one. -/
theorem conclude_eval_of_program (h : (parseProgram (tokenize source).tokens).2 = []) (fuel : Nat)
    (s : Session) (file : Text) :
    s.conclude fuel (s.load (.eval source)) = s.conclude fuel (s.load (.run source file)) := by
  by_cases hsome : beforeEnd (tokenize source).tokens = []
  · exact conclude_eval_of_nothing hsome fuel s file
  · rw [load_eval_of_program h hsome s file]

/-- No program that has a token is taken for an expression. To hand a program to the console gives
the result that running it gives, and leaves the same session but for the trace. -/
theorem programs_evaluated_as_programs :
    (∀ tokens : List Token, (parseProgram tokens).2 = [] → beforeEnd tokens ≠ [] →
      isBareExpression tokens = false) ∧
    ∀ (s : Session) (fuel : Nat) (source file : Text),
      (parseProgram (tokenize source).tokens).2 = [] →
        (s.eval fuel source).map (fun r => (r.1, r.2.takeTrace.2)) =
          (s.run fuel source file).map fun r => (r.1, r.2.takeTrace.2) := by
  refine ⟨fun tokens h hsome => ?_, fun s fuel source file h => ?_⟩
  · exact isBareExpression_eq_false_iff.mpr (exists_mark_of_parseProgram h hsome)
  · obtain ⟨trace, heval⟩ := take_eq fuel s (.eval source)
    obtain ⟨trace', hrun⟩ := take_eq fuel s (.run source file)
    rw [conclude_eval_of_program h fuel s file] at heval
    change (s.take fuel (.eval source)).map _ = (s.take fuel (.run source file)).map _
    rw [heval, hrun, Option.map_map, Option.map_map]
    rfl

/-- Statements inside one another, without braces around them. -/
def nestedStatement : Text := "while (x) if (!x) do x = (x, none); while (x); else x--;"

theorem programs_evaluated_as_programs_nestedStatement :
    (parseProgram (tokenize nestedStatement).tokens).2 = [] ∧
      beforeEnd (tokenize nestedStatement).tokens ≠ [] ∧
      isBareExpression (tokenize nestedStatement).tokens = false ∧
      ((start {} 0 false).eval 20 nestedStatement).map (fun r => (r.1, r.2.takeTrace.2)) =
        ((start {} 0 false).run 20 nestedStatement []).map fun r => (r.1, r.2.takeTrace.2) := by
  have hclean : (parseProgram (tokenize nestedStatement).tokens).2 = [] := by decide +kernel
  have hsome : beforeEnd (tokenize nestedStatement).tokens ≠ [] := by decide +kernel
  exact ⟨hclean, hsome, programs_evaluated_as_programs.1 _ hclean hsome,
    programs_evaluated_as_programs.2 _ 20 _ [] hclean⟩

end Session

end Scriptlet

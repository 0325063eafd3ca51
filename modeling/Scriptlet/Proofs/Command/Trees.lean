import Scriptlet.Command
import Scriptlet.Proofs.Session.StaticErrors
import Scriptlet.Proofs.Session.Verdict
import Scriptlet.Proofs.Tree.Writing

/-!
# Showing trees and running programs

The command that shows a tree and the one that runs a program read the same source, and nothing that
is found in it keeps the first from going on to its tree. So both stop at the same sources
(`Session.stops_iff`), but for one thing: a tree with a number that was too large has no document
(`Command.showTree_of_infinity`), and then the finding about this number is not shown either.
-/

namespace Scriptlet

namespace Session

/-- All that is found while a source is read as a program. -/
def readReport (source : Text) : Report :=
  (tokenize source).report ++ (parseProgram (tokenize source).tokens).2

theorem readReport_errors (source : Text) : ∀ d ∈ readReport source, d.isError :=
  List.forall_mem_append.mpr
    ⟨tokenize_errors source, parseProgram_errors (tokenize_spelled source)⟩

theorem readsClean_iff (source : Text) :
    ReadsClean source ↔ (readReport source).hasErrors = false := by
  constructor
  · intro h
    rw [readReport, h.tokens, h.program]
    rfl
  · intro h
    have hnone := Report.eq_nil_of_errors (readReport_errors source) h
    exact ⟨(List.append_eq_nil_iff.mp hnone).1, (List.append_eq_nil_iff.mp hnone).2⟩

/-- A run of a source is stopped by what is found while the source is read. -/
def Stops (fuel : Nat) (s : Session) (source file : Text) : Prop :=
  ∃ result s', s.run fuel source file = some (result, s') ∧ result.verdict = .staticError ∧
    result.report.hasStageErrors .syntactic

/-- A source that cannot be read is refused with a report about this. -/
theorem load_unreadable {source : Text} (h : ¬ ReadsClean source) (s : Session) (file : Text) :
    ∃ report : Report, report.Unreadable ∧ s.load (.run source file) = .refused report := by
  by_cases htokens : (tokenize source).report = []
  · have hfaults : (parseProgram (tokenize source).tokens).2 ≠ [] := fun hp => h ⟨htokens, hp⟩
    have hreport := Report.unreadable_attributed (parseProgram_errors (tokenize_spelled source))
      hfaults
    refine ⟨_, hreport, ?_⟩
    have hload : s.load (.run source file) = s.loadProgram (tokenize source).tokens [] := by
      unfold load
      dsimp only
      rw [htokens]
      rfl
    rw [hload, loadProgram_of_faults (tokenize_spelled source) s hfaults]
  · exact ⟨_, Report.unreadable_attributed (tokenize_errors source) htokens,
      load_of_report (.run source file) htokens s⟩

/-- A run is stopped so exactly if there is an error to be found. -/
theorem stops_iff (fuel : Nat) (s : Session) (source file : Text) :
    s.Stops fuel source file ↔ (readReport source).hasErrors := by
  constructor
  · rintro ⟨result, s', hrun, hverdict, hstage⟩
    refine Bool.of_not_eq_false fun hclean => ?_
    have hload := ((readsClean_iff source).mpr hclean).load s file
    have htake : s.take fuel (.run source file) = some (result, s') := hrun
    -- what is found in a source that can be read is from its resolution
    obtain ⟨-, ⟨report, hrefused, rfl, -⟩ | ⟨report, -, rfl, -⟩ | ⟨_, _, _, _, _, ⟨_, _, rfl⟩ |
      ⟨_, _, rfl⟩⟩⟩ := take_cases htake
    · rw [hload, loadStmts_eq] at hrefused
      split at hrefused
      · cases hrefused
        obtain ⟨d, hd, -, hsyntactic⟩ := Report.hasStageErrors_eq_true.mp hstage
        have hresolve := resolveStmts_stage (programOf_wellFormed source) d (mem_shown hd)
        rw [hsyntactic] at hresolve
        cases hresolve
      · cases hrefused
    · cases hverdict
    · cases hverdict
    · cases hverdict
  · intro herrors
    have hunclean : ¬ ReadsClean source := by
      rw [readsClean_iff, herrors]
      nofun
    obtain ⟨report, hreport, hload⟩ := load_unreadable hunclean s file
    obtain ⟨trace, htake⟩ := take_eq fuel s (.run source file)
    rw [hload] at htake
    refine ⟨_, _, htake, rfl, ?_⟩
    exact (Report.hasStageErrors_of_stage (fun d hd => hreport.stage d (mem_shown hd))
      ((hasErrors_shown report).trans hreport.hasErrors)).mpr rfl

end Session

namespace Command

/-- The data of a tree and of all that was found on the way to it. -/
def treeData (source : Text) : Json :=
  .sorted [("ast", (parseProgram (tokenize source).tokens).1.dump),
    ("diagnostics", (Session.readReport source).data)]

theorem numbers_treeData {P : Float → Prop} (source : Text) :
    (treeData source).Numbers P ↔ Stmt.NumbersList P (Session.programOf source) := by
  simp only [treeData, Json.numbers_sorted, List.forall_mem_cons, List.not_mem_nil,
    false_imp_iff, implies_true, and_true, Program.numbers_dump, Report.numbers_data]
  rfl

/-- A tree in which all numbers are finite is shown with all findings. -/
theorem showTree_of_finite {source : Text}
    (h : Stmt.NumbersList (Float.isFinite ·) (Session.programOf source)) :
    showTree source = ⟨if (Session.readReport source).hasErrors then 65 else 0,
      ⟨.line ((treeData source).render 0), []⟩⟩ := by
  have hdocument := Json.document_of_finite ((numbers_treeData source).mpr h)
  unfold treeData Session.readReport at hdocument
  unfold showTree
  simp only [hdocument]
  rfl

/-- Otherwise there is a complaint about a number in it. -/
theorem showTree_of_infinity {source : Text}
    (h : ¬ Stmt.NumbersList (Float.isFinite ·) (Session.programOf source)) :
    showTree source =
      ⟨1, ⟨[], "error: JSON encoding failed: json: unsupported value: +Inf\n"⟩⟩ := by
  have hdocument := Json.document_of_infinity
    ((numbers_treeData source).mpr (numbers_of_source source))
    fun hfinite => h ((numbers_treeData source).mp hfinite)
  unfold treeData Session.readReport at hdocument
  unfold showTree
  simp only [hdocument]
  rfl

/-- A run that is stopped while its source is read prints nothing and ends with status 65. -/
theorem runProgram_of_stops {fuel : Nat} {w : Workspace} {clock : Clock} {options : Options}
    {settings : Settings} {source file : Text}
    (hsettings : Command.settings w options = .ok settings)
    (h : (Session.start settings clock.seconds false).Stops fuel source file) :
    ∃ log, runProgram fuel w clock options source file = some ⟨65, ⟨[], log⟩⟩ := by
  obtain ⟨result, s', hrun, hverdict, -⟩ := h
  have htake : (Session.start settings clock.seconds false).take fuel (.run source file) =
      some (result, s') := hrun
  have hmachine := (Session.agrees_of_staticError htake hverdict).machine
  have hout : s'.takeOutput.1 = [] := by
    unfold Session.takeOutput
    rw [hmachine]
    rfl
  have hwritable : (Json.sorted [("outcome", .text result.verdict.text),
      ("diagnostics", result.report.data)]).Numbers (Float.isFinite ·) :=
    Json.numbers_sorted.mpr (by simp [Json.numbers_text, Report.numbers_data])
  have hdocument := Json.document_of_finite hwritable
  unfold runProgram
  rw [hsettings]
  simp only [hrun, Option.bind_eq_bind, Option.bind_some, hout, hverdict]
  rw [hverdict] at hdocument
  split
  · rw [hdocument]
    exact ⟨_, rfl⟩
  · exact ⟨_, rfl⟩

/-- The tree of a source is shown with all findings, and the status is 65 if one of them is an error
and 0 otherwise, if every number in the tree is finite; so it is for every source in which no number
is reported to be too large. If not, the finding about the number and all others are withheld. The
command that runs the program is stopped by the same findings, whatever its settings are. -/
theorem tree_shown_and_run_stopped (source : Text) :
    ((∀ d ∈ (tokenize source).report, d.code ≠ "E1005") →
      Stmt.NumbersList (Float.isFinite ·) (Session.programOf source)) ∧
    (Stmt.NumbersList (Float.isFinite ·) (Session.programOf source) →
      showTree source = ⟨if (Session.readReport source).hasErrors then 65 else 0,
        ⟨.line ((treeData source).render 0), []⟩⟩) ∧
    (¬ Stmt.NumbersList (Float.isFinite ·) (Session.programOf source) →
      showTree source =
        ⟨1, ⟨[], "error: JSON encoding failed: json: unsupported value: +Inf\n"⟩⟩ ∧
      ∃ d ∈ (tokenize source).report, d.code = "E1005") ∧
    ∀ (fuel : Nat) (w : Workspace) (clock : Clock) (options : Options) (settings : Settings)
      (file : Text), Command.settings w options = .ok settings →
      let session := Session.start settings clock.seconds false
      (session.Stops fuel source file ↔ (Session.readReport source).hasErrors) ∧
      (session.Stops fuel source file →
        ∃ log, runProgram fuel w clock options source file = some ⟨65, ⟨[], log⟩⟩) ∧
      (Stmt.NumbersList (Float.isFinite ·) (Session.programOf source) →
        ((showTree source).exit = 65 ↔ session.Stops fuel source file)) := by
  refine ⟨finite_of_source, showTree_of_finite, fun h => ⟨showTree_of_infinity h, ?_⟩,
    fun fuel w clock options settings file hsettings => ⟨?_, ?_, fun h => ?_⟩⟩
  · by_contra hnone
    exact h (finite_of_source fun d hd hcode => hnone ⟨d, hd, hcode⟩)
  · exact Session.stops_iff fuel _ source file
  · exact runProgram_of_stops hsettings
  · rw [Session.stops_iff, showTree_of_finite h]
    cases (Session.readReport source).hasErrors with
    | true => simp
    | false => simp

/-- A power of ten that is beyond all doubles, as a statement. -/
def beyondDoubles : Text := 0x31 :: (List.replicate 309 0x30 ++ [0x3B])

/-- Whether a program is one number, and one that is not finite. -/
def isInfiniteNumber : List (Stmt Unit) → Bool
  | [.evaluate _ (.literal _ (.number x))] => !x.isFinite
  | _ => false

theorem beyondDoubles_infinite :
    ¬ Stmt.NumbersList (Float.isFinite ·) (Session.programOf beyondDoubles) := by
  have hprogram : isInfiniteNumber (Session.programOf beyondDoubles) := by decide +kernel
  generalize Session.programOf beyondDoubles = stmts at hprogram ⊢
  intro h
  unfold isInfiniteNumber at hprogram
  split at hprogram
  · next x =>
    rw [Bool.not_eq_true', Bool.eq_false_iff] at hprogram
    exact hprogram h.1
  · cases hprogram

/-- A statement without its semicolon, and a complete one with a number that is too large. -/
theorem tree_shown_and_run_stopped_unfinished :
    let unfinished : Text := "print 1"
    let w : Workspace := ⟨[], [], [], []⟩
    (∀ d ∈ (tokenize unfinished).report, d.code ≠ "E1005") ∧
      Stmt.NumbersList (Float.isFinite ·) (Session.programOf unfinished) ∧
      (showTree unfinished).exit = 65 ∧ (showTree unfinished).printed.err = [] ∧
      Command.settings w {} = .ok {} ∧
      (∃ log, runProgram 0 w ⟨0, [], []⟩ {} unfinished [] = some ⟨65, ⟨[], log⟩⟩) ∧
      ¬ Stmt.NumbersList (Float.isFinite ·) (Session.programOf beyondDoubles) ∧
      ∃ d ∈ (tokenize beyondDoubles).report, d.code = "E1005" := by
  intro unfinished w
  have hreport : ∀ d ∈ (tokenize unfinished).report, d.code ≠ "E1005" := by decide +kernel
  have herrors : (Session.readReport unfinished).hasErrors := by decide +kernel
  have hsettings : Command.settings w {} = .ok {} := rfl
  clear_value unfinished w
  obtain ⟨hfinite, hshown, -, hrun⟩ := tree_shown_and_run_stopped unfinished
  obtain ⟨hstops, hreply, hagree⟩ := hrun 0 w ⟨0, [], []⟩ {} {} [] hsettings
  have htree := hshown (hfinite hreport)
  refine ⟨hreport, hfinite hreport, (hagree (hfinite hreport)).mpr (hstops.mpr herrors), ?_,
    hsettings, hreply (hstops.mpr herrors), beyondDoubles_infinite, ?_⟩
  · rw [htree]
  · exact ((tree_shown_and_run_stopped beyondDoubles).2.2.1 beyondDoubles_infinite).2

/-- Not every source with an error has its tree shown with status 65: here nothing is shown but a
complaint, with the status of a command that was used in the wrong way. -/
theorem tree_withheld :
    (Session.readReport beyondDoubles).hasErrors ∧
      (Session.start {} 0 false).Stops 0 beyondDoubles [] ∧
      showTree beyondDoubles =
        ⟨1, ⟨[], "error: JSON encoding failed: json: unsupported value: +Inf\n"⟩⟩ := by
  have herrors : (Session.readReport beyondDoubles).hasErrors := by decide +kernel
  exact ⟨herrors, (Session.stops_iff ..).mpr herrors, showTree_of_infinity beyondDoubles_infinite⟩

end Command

end Scriptlet

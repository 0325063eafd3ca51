import Scriptlet.Proofs.Evaluator.Arguments
import Scriptlet.Proofs.Session.Loading

/-!
# Arguments over a whole session

What a session loads was made by the parser, and resolution only adds links to it (`parsed_of_load`).
So the heap of a session is one that runs of parsed code have left (`History.left`), and its runs
are among those in which every call has its arguments.
-/

namespace Scriptlet

namespace Session

variable {s : Session} {code : Code} {links : List LinkRecord} {report : Report}

/-- Code that was loaded was made by the parser. -/
theorem parsed_of_load {step : Step} (h : s.load step = .ready code links report) :
    code.Parsed := by
  obtain ⟨-, ⟨-, rfl, -⟩ | ⟨-, e, he, rfl, -⟩⟩ := load_ready h
  · have hbare := (resolveStmts_demands (s.machine.heap.names Heap.globals)
      (programOf step.source) s.links.length).1
    exact ⟨_, tokenize_spelled step.source, hbare⟩
  · have hbare := (resolveExpr_demands (s.machine.heap.names Heap.globals) e s.links.length).1
    have hparsed : some (s.resolveAlone e).tree.bare =
        (parseExpression (tokenize step.source).tokens).1 := by
      rw [he]
      exact congrArg some hbare
    exact ⟨_, tokenize_spelled step.source, hparsed⟩

/-- The heap of a session is one that parsed code has left. -/
theorem History.left {codes : List Code} (h : s.History codes) : s.machine.heap.Left := by
  induction h with
  | start settings clock broken => exact .start ..
  | takeOutput _ ih => exact ih
  | takeTrace _ ih => exact ih
  | step _ htake ih =>
    rcases heap_of_take htake with hm | ⟨code, links, report, m, hload, hrun, hm⟩
    · rwa [hm]
    · rw [hm]
      exact .run ih (parsed_of_load hload) hrun

/-- In every run of code that the parser made, on every heap that such runs have left, whatever calls
a value, enters the body of a function or comes to a native function has the arguments that are
taken there, one for each parameter. The runs of every step of a session are such runs. -/
theorem calls_have_their_arguments :
    (∀ (m : Machine) (code : Code), m.heap.Left → code.Parsed →
      ∀ fuel, ¬ code.Reaches (fun t _ => ¬ t.Supplied) fuel m) ∧
    ∀ (s : Session) codes, s.History codes → s.machine.heap.Left ∧
      ∀ step code links report, s.load step = .ready code links report → code.Parsed := by
  constructor
  · intro m code hleft hparsed fuel
    exact hparsed.not_reaches_unsupplied hleft.holds fuel
  · intro s codes hs
    refine ⟨hs.left, ?_⟩
    intro step code links report hload
    exact parsed_of_load hload

/-- A program that runs functions without writing a call: a getter for an initializer, an inherited
initializer, and a getter that reads another one of the superclass; and a bound method. -/
def uncounted : Step :=
  .run ("class A \x7b init \x7b this.x = \"a\"; \x7d half \x7b return this.x; \x7d " ++
    "join(y) \x7b return this.x + y; \x7d \x7d " ++
    "class B < A \x7b half \x7b return super.half + \"b\"; \x7d \x7d " ++
    "var join = B().join; print B().half + join(str(\"c\"));") []

theorem calls_have_their_arguments_uncounted :
    ((start {} 0 false).take 60 uncounted).any (fun r => r.1.verdict = .ok ∧
      r.2.machine.sink.text = Text.line "abac") ∧
    ∃ code links report, (start {} 0 false).load uncounted = .ready code links report ∧
      code.Parsed ∧ (start {} 0 false).machine.heap.Left ∧
      ¬ code.Reaches (fun t _ => ¬ t.Supplied) 60 (start {} 0 false).machine := by
  refine ⟨by decide +kernel, ?_⟩
  obtain ⟨code, links, report, hload, -⟩ :=
    Loading.ready_of_any (l := (start {} 0 false).load uncounted) (p := fun _ => true)
      (by decide +kernel)
  obtain ⟨hruns, hsessions⟩ := calls_have_their_arguments
  obtain ⟨hleft, hloads⟩ := hsessions _ _ (.start {} 0 false)
  have hparsed := hloads _ _ _ _ hload
  exact ⟨code, links, report, hload, hparsed, hleft, hruns _ _ hleft hparsed 60⟩

end Session

end Scriptlet

import Scriptlet.Proofs.Evaluator.Precedence
import Scriptlet.Proofs.Session.Loading

/-!
# The runs of a session

Functions and classes live on from one source to the next, so what must have been made for a moment
may have been made in an earlier run. The past of a session (`Past`) keeps all its runs. As long as
none of them made a fixture that a ledger does not allow, the heap is settled (`Past.settled`).
-/

namespace Scriptlet

/-! ## Uses of `super` in loaded code -/

/-- No two references have the same link. -/
theorem Numbered.nodup {n : Nat} {records : List LinkRecord}
    {refs : List (Reference (Option Link))} (h : Numbered n records refs) :
    (refs.map Reference.link).Nodup := by
  induction h with
  | nil => exact .nil
  | @cons n record ref records refs hm hrest ih =>
    refine List.nodup_cons.mpr ⟨fun hmem => ?_, ih⟩
    obtain ⟨ref', href', hlink⟩ := List.mem_map.mp hmem
    obtain ⟨i, hi⟩ := List.mem_iff_getElem?.mp href'
    obtain ⟨record', -, hm'⟩ := hrest.getElem? hi
    rw [hm.link, hm'.link, Option.some.injEq, Link.mk.injEq] at hlink
    omega

/-- A use of `super` in a derived class, whose reference was linked, is linked to the superclass of
this class. -/
theorem Super.Placed.linked {sup : Super (Option Link)} (h : sup.Placed) {n : Nat}
    {records : List LinkRecord} {refs : List (Reference (Option Link))}
    (hnum : Numbered n records refs) (href : sup.reference ∈ refs) : sup.Linked := by
  obtain ⟨k, declaration, hderives⟩ := h.derives
  obtain ⟨i, hi⟩ := List.mem_iff_getElem?.mp href
  obtain ⟨record, -, hm⟩ := hnum.getElem? hi
  obtain ⟨skipped, hout, hhops⟩ := hm.leads
  have hname : sup.reference.name.lexeme = "super" := h.keyword
  rw [hname] at hout hhops
  have hlink := hm.link
  rw [hhops, show sup.reference.site.hops skipped "super" = k + 1 from
    hderives.superclass skipped hout] at hlink
  exact ⟨h.keyword, n + i, k, declaration, hlink, hderives⟩

/-- Code whose words are those of a source, and in which every use of `super` is a reference and is
linked to the superclass of the class around it. -/
structure Code.Resolved (code : Code) : Prop where
  words : code.Words Token.ReadsAs
  references : (code.supers.map Super.reference).Sublist code.references
  linked : ∀ sup ∈ code.supers, sup.Linked

/-- Among the uses of `super` in several sources whose references were linked in order, no two have
the same link. -/
theorem nodup_supers {codes : List Code} (h : ∀ code ∈ codes, code.Resolved) {n : Nat}
    {records : List LinkRecord} (hnum : Numbered n records (codes.flatMap Code.references)) :
    ((codes.flatMap Code.supers).map Super.link).Nodup := by
  have hsub : ∀ codes : List Code, (∀ code ∈ codes, code.Resolved) →
      ((codes.flatMap Code.supers).map Super.reference).Sublist
        (codes.flatMap Code.references) := by
    intro codes h
    induction codes with
    | nil => exact List.Sublist.refl _
    | cons code codes ih =>
      rw [List.forall_mem_cons] at h
      rw [List.flatMap_cons, List.flatMap_cons, List.map_append]
      exact h.1.references.append (ih h.2)
  have hlinks := (hsub codes h).map Reference.link
  rw [List.map_map] at hlinks
  exact hnum.nodup.sublist hlinks

/-- Where no two uses of `super` have the same link, a link tells which one it is. -/
theorem Super.eq_of_link {sups : List (Super (Option Link))} (h : (sups.map Super.link).Nodup)
    {sup sup' : Super (Option Link)} (hsup : sup ∈ sups) (hsup' : sup' ∈ sups)
    (hlink : sup.link = sup'.link) : sup = sup' := by
  induction sups with
  | nil => cases hsup
  | cons a sups ih =>
    obtain ⟨ha, hrest⟩ := List.nodup_cons.mp h
    rcases List.mem_cons.mp hsup with rfl | hin
    · rcases List.mem_cons.mp hsup' with rfl | hin'
      · rfl
      · exact absurd (List.mem_map.mpr ⟨sup', hin', hlink.symm⟩) ha
    · rcases List.mem_cons.mp hsup' with rfl | hin'
      · exact absurd (List.mem_map.mpr ⟨sup, hin, hlink⟩) ha
      · exact ih hrest hin hin'

namespace Session

variable {s : Session} {code : Code} {links : List LinkRecord} {report : Report}

/-- Code that was loaded is resolved. -/
theorem resolved_of_load {step : Step} (h : s.load step = .ready code links report) :
    code.Resolved := by
  have hend : Token.missingEnd.ReadsAs .endOfInput := .of_not_word (by decide) rfl
  have hreads := tokenize_reads step.source
  have hnum := (linked_of_load h).numbered
  obtain ⟨hclean, ⟨-, rfl, rfl⟩ | ⟨-, e, he, rfl, rfl⟩⟩ := load_ready h
  · obtain ⟨hwords, href, hplaced⟩ :=
      resolveStmts_supers (parseProgram_words hreads hend) hclean
    refine ⟨hwords, href, fun sup hsup => (hplaced sup hsup).linked hnum ?_⟩
    exact href.subset (List.mem_map_of_mem hsup)
  · have hexpr := parseExpression_words hreads hend (congrArg Prod.fst he)
    obtain ⟨hwords, href, hplaced⟩ := resolveExpr_supers hexpr hclean
    refine ⟨hwords, href, fun sup hsup => (hplaced sup hsup).linked hnum ?_⟩
    exact href.subset (List.mem_map_of_mem hsup)

/-! ## The past -/

/-- A run of some code on a machine. -/
structure Run where
  code : Code
  fuel : Nat
  machine : Machine

/-- Whether a run comes to a moment at which a fixture is made. -/
def Run.Makes (run : Run) (x : Fixture) : Prop :=
  run.code.Reaches (fun t m => t.Fixes m x) run.fuel run.machine

/-- A session with all runs that it has come through, in their order. -/
inductive Past : Session → List Run → Prop where
  | start (settings : Settings) (clock : Float) (broken : Bool) :
    Past (start settings clock broken) []
  | step {s s' : Session} {runs : List Run} {fuel : Nat} {step : Step} {result : Result} :
    Past s runs → s.take fuel step = some (result, s') →
      Past s' (runs ++ (s.load step).codes.map fun code => ⟨code, fuel, s.machine⟩)
  | takeOutput {s : Session} {runs : List Run} : Past s runs → Past s.takeOutput.2 runs
  | takeTrace {s : Session} {runs : List Run} : Past s runs → Past s.takeTrace.2 runs

namespace Past

variable {runs : List Run}

/-- The code of the runs is the history of the session. -/
theorem history (h : s.Past runs) : s.History (runs.map Run.code) := by
  induction h with
  | start settings clock broken => exact .start settings clock broken
  | takeOutput _ ih => exact ih.takeOutput
  | takeTrace _ ih => exact ih.takeTrace
  | @step s s' runs fuel step result _ htake ih =>
    have hcodes : ∀ codes : List Code,
        (codes.map fun code => (⟨code, fuel, s.machine⟩ : Run)).map Run.code = codes := by
      intro codes
      rw [List.map_map]
      exact List.map_id codes
    rw [List.map_append, hcodes]
    exact ih.step htake

theorem resolved (h : s.Past runs) : ∀ run ∈ runs, run.code.Resolved := by
  induction h with
  | start => exact List.forall_mem_nil _
  | takeOutput _ ih | takeTrace _ ih => exact ih
  | @step s s' runs fuel step result _ htake ih =>
    refine List.forall_mem_append.mpr ⟨ih, List.forall_mem_map.mpr fun code hcode => ?_⟩
    cases hload : s.load step with
    | refused | idle => rw [hload] at hcode; cases hcode
    | ready code' links report =>
      rw [hload] at hcode
      rw [List.mem_singleton.mp hcode]
      exact resolved_of_load hload

/-- The heap is settled if all uses of `super` are listed and every fixture that was made is
allowed. -/
theorem settled (h : s.Past runs) {L : Ledger} (hL : ∀ sup ∈ L.supers, sup.Linked)
    (hsupers : ∀ run ∈ runs, run.code.supers ⊆ L.supers)
    (hnever : ∀ run ∈ runs, ¬ run.code.Reaches (Eval.Task.Breaks L.made) run.fuel run.machine) :
    s.machine.heap.Settled L := by
  induction h with
  | start settings clock broken => exact settled_start L _ clock broken
  | takeOutput _ ih => exact ⟨(ih hsupers hnever).slots, (ih hsupers hnever).fields⟩
  | takeTrace _ ih => exact ih hsupers hnever
  | @step s s' runs fuel step result _ htake ih =>
    rw [List.forall_mem_append] at hsupers hnever
    have hs := ih hsupers.1 hnever.1
    obtain ⟨-, ⟨report, -, -, hm, -⟩ | ⟨report, -, -, hm, -⟩ |
      ⟨code, links, report, hload, -, hrun⟩⟩ := take_cases htake
    · exact hm ▸ hs
    · exact hm ▸ hs
    · -- the last run is the only one that this step has added
      have hcode : (⟨code, fuel, s.machine⟩ : Run) ∈
          (s.load step).codes.map fun code => ⟨code, fuel, s.machine⟩ := by
        rw [hload]
        exact List.mem_singleton_self _
      have hlisted : code.Listed L :=
        ⟨(resolved_of_load hload).words, hsupers.2 _ hcode⟩
      have hmeets := hlisted.meets hL hs (hnever.2 _ hcode)
      obtain ⟨value, hp, -⟩ | ⟨e, hp, -⟩ := hrun
      · obtain ⟨a, m, hm, hheap⟩ := Code.heap_of_perform hp
        rw [hm] at hmeets
        exact hheap ▸ hmeets
      · rw [Code.perform_error_iff.mp hp] at hmeets
        exact hmeets

end Past

/-- The uses of `super` in all code that was run, and in some that is run next. -/
def usesOfSuper (runs : List Run) (code : Code) : List (Super (Option Link)) :=
  (runs.map Run.code ++ [code]).flatMap Code.supers

/-- The uses of `super` in code that was loaded are listed. -/
theorem listed_of_load {step : Step} (hload : s.load step = .ready code links report)
    (runs : List Run) (made : Fixture → Prop) : code.Listed ⟨usesOfSuper runs code, made⟩ := by
  refine ⟨(resolved_of_load hload).words, fun sup hsup => List.mem_flatMap.mpr ⟨code, ?_, hsup⟩⟩
  exact List.mem_append_right _ (List.mem_singleton_self code)

namespace Past

variable {runs : List Run} {step : Step}

theorem resolved_next (h : s.Past runs) (hload : s.load step = .ready code links report) :
    ∀ c ∈ runs.map Run.code ++ [code], c.Resolved :=
  List.forall_mem_append.mpr ⟨List.forall_mem_map.mpr h.resolved,
    List.forall_mem_singleton.mpr (resolved_of_load hload)⟩

theorem linked (h : s.Past runs) (hload : s.load step = .ready code links report) :
    ∀ sup ∈ usesOfSuper runs code, sup.Linked := by
  intro sup hsup
  obtain ⟨c, hc, hmem⟩ := List.mem_flatMap.mp hsup
  exact (h.resolved_next hload c hc).linked sup hmem

/-- A link tells which use of `super` it belongs to. -/
theorem nodup (h : s.Past runs) (hload : s.load step = .ready code links report) :
    ((usesOfSuper runs code).map Super.link).Nodup := by
  have hnum : Numbered 0 (s.links ++ links)
      ((runs.map Run.code ++ [code]).flatMap Code.references) := by
    rw [List.flatMap_append, List.flatMap_singleton]
    exact (h.history.consistent.load hload).1
  exact nodup_supers (h.resolved_next hload) hnum

/-- The heap is settled before a step if every fixture that was made is allowed. -/
theorem settled_next (h : s.Past runs) (hload : s.load step = .ready code links report)
    {made : Fixture → Prop}
    (hnever : ∀ run ∈ runs, ¬ run.code.Reaches (Eval.Task.Breaks made) run.fuel run.machine) :
    s.machine.heap.Settled ⟨usesOfSuper runs code, made⟩ := by
  refine h.settled (h.linked hload) (fun run hrun sup hsup => ?_) hnever
  exact List.mem_flatMap.mpr ⟨run.code, List.mem_append_left _ (List.mem_map_of_mem hrun), hsup⟩

/-- Whatever was made, the heap is settled before a step. -/
theorem settled_any (h : s.Past runs) (hload : s.load step = .ready code links report) :
    s.machine.heap.Settled ⟨usesOfSuper runs code, fun _ => True⟩ := by
  refine h.settled_next hload fun run _ => ?_
  rw [Eval.Task.breaks_true]
  rintro ⟨e, hne⟩
  exact hne (by rw [Eval.halting_never])

/-- What holds of no task that suits a settled heap never happens in a step. -/
theorem not_reaches (h : s.Past runs) (hload : s.load step = .ready code links report)
    {later : Eval.Task → Machine → Prop}
    (hlater : ∀ t m, m.heap.Settled ⟨usesOfSuper runs code, fun _ => True⟩ →
      t.Suits ⟨usesOfSuper runs code, fun _ => True⟩ m → ¬ later t m) (fuel : Nat) :
    ¬ code.Reaches later fuel s.machine := by
  have hprecedes := (listed_of_load hload runs fun _ => True).precedes (h.linked hload)
    (h.settled_any hload) (fun t m hs ht _ => hlater t m hs ht) fuel
  rw [Eval.Task.breaks_true] at hprecedes
  exact Code.precedes_never.mp hprecedes

/-- What holds of no task that suits as long as a fixture has not been made, comes after it. -/
theorem precedes (h : s.Past runs) (hload : s.load step = .ready code links report) {x : Fixture}
    (hnever : ∀ run ∈ runs, ¬ run.Makes x) {later : Eval.Task → Machine → Prop}
    (hlater : ∀ t m, m.heap.Settled ⟨usesOfSuper runs code, (· ≠ x)⟩ →
      t.Suits ⟨usesOfSuper runs code, (· ≠ x)⟩ m → ¬ later t m) (fuel : Nat) :
    code.Precedes (fun t m => t.Fixes m x) later fuel s.machine := by
  rw [← Eval.Task.breaks_ne]
  refine (listed_of_load hload runs (· ≠ x)).precedes (h.linked hload) (h.settled_next hload ?_)
    (fun t m hs ht _ => hlater t m hs ht) fuel
  rw [Eval.Task.breaks_ne]
  exact hnever

end Past

end Session

end Scriptlet

import Scriptlet.Proofs.Session.Scoping

/-!
# Variables inside their initializers

A local variable is declared before its initializer is resolved, and bound after the initializer was
evaluated. To read it in between by name is ruled out by resolution, but an assignment in the
initializer, or a function in it that is called at once, can still come to the variable too early.
Of everything that scopes could do to a run, this is what is left: a step ends with an internal
error exactly if it comes to such a premature task (`internal_error_iff_premature`), and there are
steps that do (`internal_error_reachable`).
-/

namespace Scriptlet

/-- A reference that stands inside the initializer of the local variable to which it is linked. -/
def Reference.InInitializer (ref : Reference (Option Link)) : Prop :=
  ∃ l f, ref.link = some l ∧ ref.site[l.hops.toNat]? = some f ∧ ref.name.lexeme ∈ f.pending

/-- A task that fits is premature only because of such a reference. -/
theorem Eval.Task.Premature.inInitializer {T : List (Reference (Option Link))} {W : World}
    {m : Machine} {t : Eval.Task} (h : t.Premature T m) (hfits : t.Fits T W m) :
    ∃ ref ∈ T, ref.InInitializer := by
  have hrefers : ∃ name l, Eval.Refers T W m name (some l) ∧ ∃ ref f, T[l.ordinal]? = some ref ∧
      ref.site[l.hops.toNat]? = some f ∧ name.lexeme ∈ f.pending := by
    cases t with
    | read name link =>
      cases link with
      | none => exact h.elim
      | some l =>
        obtain ⟨ref, f, -, hget, hf, hx, -⟩ := h
        exact ⟨name, l, hfits, ref, f, hget, hf, hx⟩
    | write name link value =>
      cases link with
      | none => exact h.elim
      | some l =>
        obtain ⟨ref, f, -, hget, hf, hx, -⟩ := h
        exact ⟨name, l, hfits.2.2, ref, f, hget, hf, hx⟩
    | _ => exact h.elim
  obtain ⟨name, l, ⟨ref, ⟨l', hl', hget'⟩, rfl, hl, -⟩, ref', f, hget, hf, hx⟩ := hrefers
  obtain rfl : l' = l := Option.some.inj (hl'.symm.trans hl)
  obtain rfl : ref = ref' := Option.some.inj (hget'.symm.trans hget)
  exact ⟨ref, List.mem_of_getElem? hget, l', f, hl, hf, hx⟩

namespace Session

variable {s s' : Session} {code : Code} {links : List LinkRecord} {report : Report} {fuel : Nat}
  {step : Step} {result : Result}

/-- Whether a finding is an internal error. -/
def IsInternal (d : Diagnostic) : Prop := d.severity = .error ∧ d.code = ("E9001" : Text)

instance : DecidablePred IsInternal := fun d =>
  inferInstanceAs (Decidable (d.severity = .error ∧ d.code = ("E9001" : Text)))

theorem isInternal_report (e : RuntimeError) : IsInternal e.report ↔ e.fault.isInternal :=
  (and_iff_right rfl).trans (RuntimeFault.code_eq_iff e.fault)

/-- Errors are always shown. -/
theorem exists_shown_iff : (∃ d ∈ s.shown report, IsInternal d) ↔ ∃ d ∈ report, IsInternal d := by
  unfold shown
  split
  · rfl
  · refine exists_congr fun d => ?_
    simp only [Report.withSeverity, List.mem_filter, decide_eq_true_eq]
    exact ⟨fun ⟨⟨hd, _⟩, hi⟩ => ⟨hd, hi⟩, fun ⟨hd, hi⟩ => ⟨⟨hd, hi.1⟩, hi⟩⟩

/-- A step shows an internal error exactly if its code ends with one. -/
theorem internal_shown_iff (hload : s.load step = .ready code links report)
    (htake : s.take fuel step = some (result, s')) :
    (∃ d ∈ result.report, IsInternal d) ↔
      ∃ e m, code.runWith (Eval.within fuel) s.machine = .error e m ∧ e.fault.isInternal := by
  have hclean : ¬ ∃ d ∈ report, IsInternal d := by
    rintro ⟨d, hd, herror, -⟩
    exact List.any_eq_false.mp (linked_of_load hload).clean d hd (decide_eq_true herror)
  obtain ⟨-, ⟨_, hl, _⟩ | ⟨_, hl, _⟩ | ⟨_, _, _, hl, -, hrun⟩⟩ := take_cases htake
  · rw [hload] at hl; cases hl
  · rw [hload] at hl; cases hl
  · rw [hload] at hl
    cases hl
    obtain ⟨value, hp, rfl⟩ | ⟨e, hp, rfl⟩ := hrun
    · rw [exists_shown_iff]
      refine iff_of_false hclean ?_
      rintro ⟨e, m, hrun, -⟩
      rw [Code.perform_error_iff.mpr hrun] at hp
      cases hp
    · rw [exists_shown_iff, Code.perform_error_iff.mp hp]
      constructor
      · rintro ⟨d, hd, hi⟩
        rcases List.mem_append.mp hd with hd | hd
        · exact absurd ⟨d, hd, hi⟩ hclean
        · cases List.mem_singleton.mp hd
          exact ⟨e, _, rfl, (isInternal_report e).mp hi⟩
      · rintro ⟨_, _, heq, hi⟩
        cases heq
        exact ⟨e.report, List.mem_append_right _ (List.mem_singleton_self _),
          (isInternal_report e).mpr hi⟩

/-- Code that passed resolution ends with an internal error exactly if it comes to a premature task,
one that reads or writes a local variable inside its initializer and before it is bound. An internal
error says nothing else than that a name is absent; and there is none if no reference of the session
stands inside the initializer of the variable to which it is linked. -/
theorem internal_error_iff_premature {codes : List Code} (hs : s.History codes)
    (hload : s.load step = .ready code links report)
    (htake : s.take fuel step = some (result, s')) :
    ((∃ d ∈ result.report, IsInternal d) ↔
      code.Reaches (fun t m => t.Premature ((codes ++ [code]).flatMap Code.references) m) fuel
        s.machine) ∧
    (∀ e m, code.perform fuel s.machine = .error e m → e.fault.code = ("E9001" : Text) →
      ∃ x d, e.fault = .access (.absent x d)) ∧
    ((∀ ref ∈ (codes ++ [code]).flatMap Code.references, ¬ ref.InInitializer) →
      ∀ d ∈ result.report, ¬ IsInternal d) := by
  obtain ⟨hnum, hknown, W, hsound⟩ := hs.consistent.load hload
  rw [List.flatMap_append, List.flatMap_singleton]
  have hiff := (internal_shown_iff hload htake).trans
    (hknown.internal_iff ⟨_, hnum⟩ hsound hs.at_rest.1 fuel)
  refine ⟨hiff, fun e m hp hcode => ?_, fun hnone d hd hi => ?_⟩
  · have hmeets := hknown.meets ⟨_, hnum⟩ hsound hs.at_rest.1 fuel
    rw [Code.perform_error_iff.mp hp] at hmeets
    exact hmeets.1 ((RuntimeFault.code_eq_iff _).mp hcode)
  · refine hknown.not_reaches ⟨_, hnum⟩ hsound hs.at_rest.1 ?_ fuel (hiff.mp ⟨d, hd, hi⟩)
    intro t W m _ ht hprem
    obtain ⟨ref, href, hin⟩ := hprem.inInitializer ht
    exact hnone ref href hin

/-- A program that assigns to a local variable in its own initializer. -/
def selfAssignment : Step := .run "var x = 0; \x7b var x = x = 1; print x; \x7d" []

theorem selfAssignment_internal :
    ∃ code links report result s',
      (start {} 0 false).load selfAssignment = .ready code links report ∧
      (start {} 0 false).take 20 selfAssignment = some (result, s') ∧
      ∃ d ∈ result.report, IsInternal d := by
  obtain ⟨code, links, report, hload, -⟩ :=
    Loading.ready_of_any (l := (start {} 0 false).load selfAssignment) (p := fun _ => true)
      (by decide +kernel)
  have htake : ((start {} 0 false).take 20 selfAssignment).any
      (fun r => decide (∃ d ∈ r.1.report, IsInternal d)) := by
    decide +kernel
  obtain ⟨⟨result, s'⟩, hsome, hd⟩ := (Option.any_eq_true _ _).mp htake
  exact ⟨code, links, report, result, s', hload, hsome, of_decide_eq_true hd⟩

/-- The assignment is a premature task. -/
theorem internal_error_iff_premature_selfAssignment :
    ∃ code links report result s',
      (start {} 0 false).load selfAssignment = .ready code links report ∧
      (start {} 0 false).take 20 selfAssignment = some (result, s') ∧
      (∃ d ∈ result.report, IsInternal d) ∧
      code.Reaches (fun t m => t.Premature (([] ++ [code]).flatMap Code.references) m) 20
        (start {} 0 false).machine := by
  obtain ⟨code, links, report, result, s', hload, htake, hd⟩ := selfAssignment_internal
  have hiff := (internal_error_iff_premature (.start {} 0 false) hload htake).1
  exact ⟨code, links, report, result, s', hload, htake, hd, hiff.mp hd⟩

/-- It is not true that what passes resolution never ends with an internal error. -/
theorem internal_error_reachable :
    ¬ ∀ (s s' : Session) (codes : List Code) (step : Step) (code : Code)
      (links : List LinkRecord) (report : Report) (fuel : Nat) (result : Result),
      s.History codes → s.load step = .ready code links report →
        s.take fuel step = some (result, s') → ∀ d ∈ result.report, ¬ IsInternal d := by
  intro hall
  obtain ⟨code, links, report, result, s', hload, htake, d, hd, hi⟩ := selfAssignment_internal
  exact hall _ s' [] _ code links report 20 result (.start {} 0 false) hload htake d hd hi

end Session

end Scriptlet

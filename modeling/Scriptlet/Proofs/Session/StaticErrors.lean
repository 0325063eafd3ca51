import Mathlib.Data.List.InsertIdx
import Scriptlet.Proofs.Session.Table

/-!
# Sources with static errors

A source may be refused after links were made for some of its references. In a `Session` they stand
in its tree, which nothing holds on to, and the machine and the links of the session stay as they
were (`Session.agrees_of_staticError`). Every step looks only at the settings, the machine and the
links, so a sequence of steps without such a source has the same answers to the others
(`Session.performAll_without_staticError`).

In a `TableSession` the links that were made stay in the table for good. But they have numbers that
no function holds, and later sources get other ones. So whoever reads the table finds the same as
before, and both sessions, which have the same answers, go on having them
(`Session.static_error_invisible`).
-/

namespace Scriptlet

namespace Session

/-- Two sessions that differ at most in their traces. -/
structure Agrees (s s' : Session) : Prop where
  settings : s'.settings = s.settings
  machine : s'.machine = s.machine
  links : s'.links = s.links

theorem Agrees.load {s s' : Session} (h : s.Agrees s') (step : Step) :
    s'.load step = s.load step := by
  obtain ⟨settings, machine, links, trace⟩ := s
  obtain ⟨settings', machine', links', trace'⟩ := s'
  obtain ⟨rfl, rfl, rfl⟩ := h
  rfl

theorem Agrees.conclude {s s' : Session} (h : s.Agrees s') (fuel : Nat) (loading : Loading) :
    s'.conclude fuel loading = s.conclude fuel loading := by
  obtain ⟨settings, machine, links, trace⟩ := s
  obtain ⟨settings', machine', links', trace'⟩ := s'
  obtain ⟨rfl, rfl, rfl⟩ := h
  rfl

theorem Agrees.takeOutput {s s' : Session} (h : s.Agrees s') :
    s.takeOutput.2.Agrees s'.takeOutput.2 :=
  ⟨h.settings, by simp [Session.takeOutput, h.machine], h.links⟩

/-- Sessions that agree once their output is taken give one answer to a step and agree after it. -/
theorem perform_agrees {s s' : Session} (h : s.takeOutput.2.Agrees s'.takeOutput.2) (fuel : Nat)
    (step : Step) :
    (s.perform fuel step = none ∧ s'.perform fuel step = none) ∨
      ∃ answer t t', s.perform fuel step = some (answer, t) ∧
        s'.perform fuel step = some (answer, t') ∧ t.Agrees t' := by
  obtain ⟨trace, ht⟩ := take_eq fuel s.takeOutput.2 step
  obtain ⟨trace', ht'⟩ := take_eq fuel s'.takeOutput.2 step
  rw [h.load, h.conclude] at ht'
  unfold perform
  rw [ht, ht']
  cases s.takeOutput.2.conclude fuel (s.takeOutput.2.load step) with
  | none => exact .inl ⟨rfl, rfl⟩
  | some r => exact .inr ⟨_, _, _, rfl, rfl, h.settings, rfl, rfl⟩

/-- Sessions that agree once their output is taken give the same answers to all steps. -/
theorem performAll_agrees {s s' : Session} (h : s.takeOutput.2.Agrees s'.takeOutput.2) (fuel : Nat)
    (steps : List Step) :
    (s'.performAll fuel steps).map Prod.fst = (s.performAll fuel steps).map Prod.fst := by
  induction steps generalizing s s' with
  | nil => rfl
  | cons step steps ih =>
    rcases perform_agrees h fuel step with ⟨hn, hn'⟩ | ⟨answer, t, t', hs, hs', hagree⟩
    · simp [performAll, hn, hn']
    · have := ih hagree.takeOutput
      simp only [performAll, hs, hs', Option.bind_eq_bind, Option.bind_some]
      cases ht : t.performAll fuel steps with
      | none =>
        rw [ht] at this
        simp only [Option.map_none, Option.map_eq_none_iff] at this
        rw [this]
      | some r =>
        rw [ht] at this
        obtain ⟨r', hr', he⟩ := Option.map_eq_some_iff.mp this
        rw [hr']
        simp [he]

/-- A refused source leaves the session as it was, up to the trace. -/
theorem agrees_of_staticError {fuel : Nat} {s s' : Session} {step : Step} {result : Result}
    (h : s.take fuel step = some (result, s')) (hv : result.verdict = .staticError) :
    s.Agrees s' := by
  obtain ⟨hset, ⟨_, _, _, hm, hl⟩ | ⟨_, _, rfl, _⟩ | ⟨_, _, _, _, _, ⟨_, _, rfl⟩ | ⟨_, _, rfl⟩⟩⟩ :=
    take_cases h
  · exact ⟨hset, hm, hl⟩
  · cases hv
  · cases hv
  · cases hv

/-- Without a source that is refused, a sequence of steps has the same answers to all others. -/
theorem performAll_without_staticError {fuel : Nat} {s s₁ s₂ : Session} {before : List Step}
    {step : Step} {answers : List Answer} {answer : Answer}
    (hbefore : s.performAll fuel before = some (answers, s₁))
    (hstep : s₁.perform fuel step = some (answer, s₂)) (hv : answer.result.verdict = .staticError)
    (after : List Step) :
    answer.output = [] ∧
      (s.performAll fuel (before ++ after)).map Prod.fst =
        (s.performAll fuel (before ++ step :: after)).map
          fun (answers, _) => answers.eraseIdx before.length := by
  obtain ⟨t, ht, hout, hs₂⟩ := perform_eq_some.mp hstep
  have hagree : s₁.takeOutput.2.Agrees t := agrees_of_staticError ht hv
  have hsame : s₂.takeOutput.2.Agrees s₁.takeOutput.2 := by
    subst hs₂
    exact ⟨hagree.settings.symm, by simp [takeOutput, hagree.machine], hagree.links.symm⟩
  constructor
  · rw [hout]
    simp [takeOutput, hagree.machine, Sink.text]
  · have hlen := length_of_performAll hbefore
    have hafter := performAll_agrees hsame fuel after
    rw [performAll_append, performAll_append, hbefore]
    simp only [Option.bind_some, performAll, hstep, Option.bind_eq_bind]
    cases h₂ : s₂.performAll fuel after with
    | none =>
      rw [h₂] at hafter
      simp only [Option.map_none, Option.map_eq_none_iff] at hafter
      rw [hafter]
      rfl
    | some r =>
      rw [h₂] at hafter
      obtain ⟨r', hr', he⟩ := Option.map_eq_some_iff.mp hafter
      rw [hr']
      simp [he, List.eraseIdx_append_of_length_le, hlen]

end Session

namespace TableSession

variable {fuel : Nat} {s s' : TableSession} {step : Step} {result : Result}

theorem machine_of_staticError (h : s.take fuel step = some (result, s'))
    (hv : result.verdict = .staticError) : s'.machine = s.machine := by
  have hproceed {entered : Entered} {report : Report}
      (h : s.proceed fuel entered report = some (result, s')) : s'.machine = s.machine := by
    unfold proceed at h
    dsimp only at h
    split at h
    · cases h
      rfl
    · split at h
      · cases h
        cases hv
      · cases h
        cases hv
      · cases h
  unfold take at h
  dsimp only at h
  cases hread : step.read with
  | refused report =>
    rw [hread] at h
    cases h
    rfl
  | idle report =>
    rw [hread] at h
    cases h
    cases hv
  | program stmts report =>
    rw [hread] at h
    exact hproceed h
  | expression e report =>
    rw [hread] at h
    exact hproceed h

/-- The entries of a refused source are of no use to anything on the machine. -/
theorem links_of_staticError (hs : s.Reached) (h : s.take fuel step = some (result, s'))
    (hv : result.verdict = .staticError) :
    s'.machine.relink s'.table.fill = s.machine.relink s.table.fill := by
  obtain ⟨t, -, -, hshows⟩ := hs.shows
  obtain ⟨⟨result', t'⟩, htake, hresult, hshows'⟩ := exists_right (h ▸ take_shows hshows fuel step)
  have hv' : result'.verdict = .staticError := (congrArg Result.verdict hresult).symm.trans hv
  rw [hshows'.machine, (Session.agrees_of_staticError htake hv').machine, hshows.machine]

/-- A source that is refused leaves entries behind, but without it, a sequence of steps has the same
answers to all others. -/
theorem performAll_without_staticError {s₁ s₂ : TableSession} {before : List Step}
    {answers : List Answer} {answer : Answer} (hs : s.Reached)
    (hbefore : s.performAll fuel before = some (answers, s₁))
    (hstep : s₁.perform fuel step = some (answer, s₂)) (hv : answer.result.verdict = .staticError)
    (after : List Step) :
    answer.output = [] ∧
      (s.performAll fuel (before ++ after)).map Prod.fst =
        (s.performAll fuel (before ++ step :: after)).map
          fun (answers, _) => answers.eraseIdx before.length := by
  obtain ⟨t, -, -, hshows⟩ := hs.shows
  obtain ⟨⟨answers', t₁⟩, hbefore', -, hshows₁⟩ :=
    exists_right (hbefore ▸ performAll_shows hshows fuel before)
  obtain ⟨⟨answer', t₂⟩, hstep', rfl, -⟩ := exists_right (hstep ▸ perform_shows hshows₁ fuel step)
  obtain ⟨hout, hothers⟩ := Session.performAll_without_staticError hbefore' hstep' hv after
  refine ⟨hout, ?_⟩
  calc
    _ = (t.performAll fuel (before ++ after)).map fun (answers, _) => answers.map Answer.plain :=
      answers_shows hshows fuel (before ++ after)
    _ = (((t.performAll fuel (before ++ step :: after)).map
          fun (answers, _) => answers.eraseIdx before.length).map (List.map Answer.plain)) := by
      rw [← hothers, Option.map_map]
      rfl
    _ = (((s.performAll fuel (before ++ step :: after)).map Prod.fst).map
          fun answers => answers.eraseIdx before.length) := by
      rw [answers_shows hshows, Option.map_map, Option.map_map]
      simp only [Function.comp_def, List.eraseIdx_map]
    _ = _ := Option.map_map ..

end TableSession

namespace Session

/-- A source with a static error prints nothing and leaves the machine as it was, with its scopes,
globals, instances and classes. Without it, a sequence of steps has the same answers to all other
steps: results, findings, values and output. All of this holds as well of a session that keeps what
a refused source has written into its table of links. -/
theorem static_error_invisible :
    (∀ (fuel : Nat) (s s' : Session) (step : Step) (result : Result),
      s.take fuel step = some (result, s') → result.verdict = .staticError →
        s'.machine = s.machine) ∧
    (∀ (fuel : Nat) (s s₁ s₂ : Session) (before after : List Step) (step : Step)
      (answers : List Answer) (answer : Answer),
      s.performAll fuel before = some (answers, s₁) → s₁.perform fuel step = some (answer, s₂) →
        answer.result.verdict = .staticError →
        answer.output = [] ∧
        (s.performAll fuel (before ++ after)).map Prod.fst =
          (s.performAll fuel (before ++ step :: after)).map
            fun (answers, _) => answers.eraseIdx before.length) ∧
    (∀ (fuel : Nat) (s s' : TableSession) (step : Step) (result : Result),
      s.Reached → s.take fuel step = some (result, s') → result.verdict = .staticError →
        s'.machine = s.machine ∧
        s'.machine.relink s'.table.fill = s.machine.relink s.table.fill) ∧
    ∀ (fuel : Nat) (s s₁ s₂ : TableSession) (before after : List Step) (step : Step)
      (answers : List Answer) (answer : Answer),
      s.Reached → s.performAll fuel before = some (answers, s₁) →
        s₁.perform fuel step = some (answer, s₂) → answer.result.verdict = .staticError →
        answer.output = [] ∧
        (s.performAll fuel (before ++ after)).map Prod.fst =
          (s.performAll fuel (before ++ step :: after)).map
            fun (answers, _) => answers.eraseIdx before.length :=
  ⟨fun _ _ _ _ _ h hv => (agrees_of_staticError h hv).machine,
    fun _ _ _ _ _ after _ _ _ hbefore hstep hv =>
      performAll_without_staticError hbefore hstep hv after,
    fun _ _ _ _ _ hs h hv =>
      ⟨TableSession.machine_of_staticError h hv, TableSession.links_of_staticError hs h hv⟩,
    fun _ _ _ _ _ after _ _ _ hs hbefore hstep hv =>
      TableSession.performAll_without_staticError hs hbefore hstep hv after⟩

/-- A `break` outside of a loop is found when the reference before it has got its entry. -/
theorem static_error_invisible_stray_break :
    ∃ answers s₁ answer s₂,
      (TableSession.start {} 0 false).performAll 20 [.eval "var a = none;"] = some (answers, s₁) ∧
      s₁.perform 20 (.eval "a = true; break;") = some (answer, s₂) ∧
      answer.result.verdict = .staticError ∧ s₂.table.length = s₁.table.length + 1 ∧
      answer.output = [] ∧
      ((TableSession.start {} 0 false).performAll 20 [.eval "var a = none;", .eval "a"]).map
          Prod.fst =
        ((TableSession.start {} 0 false).performAll 20
          [.eval "var a = none;", .eval "a = true; break;", .eval "a"]).map
          fun (answers, _) => answers.eraseIdx 1 := by
  have hrun : (((TableSession.start {} 0 false).performAll 20 [.eval "var a = none;"]).any fun r =>
      (r.2.perform 20 (.eval "a = true; break;")).any fun r' =>
        r'.1.result.verdict = .staticError ∧ r'.2.table.length = r.2.table.length + 1) := by
    decide +kernel
  obtain ⟨⟨answers, s₁⟩, hbefore, hstep⟩ := (Option.any_eq_true _ _).mp hrun
  obtain ⟨⟨answer, s₂⟩, hstep, hend⟩ := (Option.any_eq_true _ _).mp hstep
  obtain ⟨hv, htable⟩ := of_decide_eq_true hend
  exact ⟨answers, s₁, answer, s₂, hbefore, hstep, hv, htable,
    static_error_invisible.2.2.2 20 _ s₁ s₂ _ [.eval "a"] _ answers answer (.start {} 0 false)
      hbefore hstep hv⟩

end Session

end Scriptlet

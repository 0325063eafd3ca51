import Scriptlet.Proofs.Evaluator.Sink
import Scriptlet.Proofs.Session.Steps

/-!
# Reporting settings do not interfere

Three things about a session only concern how it reports: whether warnings are let through, whether
somebody follows its trace, and whether its sink can be written to. Sessions that differ in nothing
else load every source in the same way and run it on machines that are alike
(`SameWork.conclude`). So they give the same replies, but for the warnings, which one of them may
leave out (`reporting_settings_invisible`).
-/

namespace Scriptlet

/-- The findings that are let through. -/
def Report.shown (warnings : Bool) (r : Report) : Report :=
  if warnings then r else r.withSeverity .error

/-- What somebody asks of a session: to take a step, or for its global names. -/
inductive Session.Request where
  | step (step : Step)
  | names

/-- What a session replies. -/
inductive Session.Reply where
  | result (result : Result)
  | names (found : List Text)

/-- A result with the findings that are let through. -/
def Result.shown (warnings : Bool) (r : Result) : Result :=
  { r with report := r.report.shown warnings }

/-- A reply with the findings that are let through. -/
def Session.Reply.shown (warnings : Bool) : Session.Reply → Session.Reply
  | .result r => .result (r.shown warnings)
  | .names found => .names found

namespace Session

/-- Does what is asked. Where nobody follows the session its trace is dropped. -/
def answer (fuel : Nat) (followed : Bool) (s : Session) : Request → Option (Reply × Session)
  | .step step => do
    let (result, s) ← s.take fuel step
    return (.result result, if followed then s else s.takeTrace.2)
  | .names => some (.names s.names, s)

/-- Does one thing after the other. There are no replies if the fuel runs out. -/
def answers (fuel : Nat) (followed : Bool) : Session → List Request → Option (List Reply)
  | _, [] => some []
  | s, request :: rest => do
    let (reply, s) ← s.answer fuel followed request
    let replies ← answers fuel followed s rest
    return reply :: replies

/-! ## Sessions that do the same work -/

/-- Two sessions on machines that are alike. The first lets warnings through, the second one does
if `warnings` says so. -/
structure SameWork (warnings : Bool) (s s' : Session) : Prop where
  full : s.settings.warnings = true
  chosen : s'.settings.warnings = warnings
  machine : s.machine.Alike s'.machine
  links : s'.links = s.links

namespace SameWork

variable {warnings : Bool} {s s' : Session}

theorem shown (h : SameWork warnings s s') (report : Report) :
    s'.shown report = (s.shown report).shown warnings := by
  have hall : s.shown report = report := if_pos h.full
  rw [hall, Session.shown, h.chosen, Report.shown]

theorem load (h : SameWork warnings s s') (step : Step) : s'.load step = s.load step := by
  obtain ⟨settings, machine, links, trace⟩ := s
  obtain ⟨settings', machine', links', trace'⟩ := s'
  have hmachine := h.machine.eq
  have hlinks := h.links
  dsimp only at hmachine hlinks
  subst hlinks
  rw [hmachine]
  rfl

theorem names (h : SameWork warnings s s') : s'.names = s.names := by
  unfold Session.names Machine.globalNames
  rw [h.machine.heap]

end SameWork

/-- What a step does to a machine does not depend on the sink. -/
theorem blind_perform (code : Code) (fuel : Nat) : Eval.Blind (code.perform fuel) := by
  have hrun := code.runWith_blind fuel
  cases code with
  | program stmts => exact Eval.Blind.bind hrun fun _ => Eval.blind_respects.pure none
  | expression e =>
    refine Eval.Blind.bind hrun fun v => ?_
    exact (Eval.blind_respects.printLine v.shown).bind fun _ => Eval.blind_respects.pure (some v)

/-- The results of a step in two sessions that do the same work: both lack fuel, or one shows what
the other lets through, and the machines after them are alike. -/
theorem SameWork.conclude {warnings : Bool} {s s' : Session} (h : SameWork warnings s s')
    (fuel : Nat) (loading : Loading) :
    (s.conclude fuel loading = none ∧ s'.conclude fuel loading = none) ∨
      ∃ result m m' links, s.conclude fuel loading = some (result, m, links) ∧
        s'.conclude fuel loading = some (result.shown warnings, m', links) ∧ m.Alike m' := by
  cases loading with
  | refused report =>
    refine .inr ⟨_, _, _, _, rfl, ?_, h.machine⟩
    simp only [Session.conclude, h.shown, h.links, Result.shown]
  | idle report =>
    refine .inr ⟨_, _, _, _, rfl, ?_, h.machine⟩
    simp only [Session.conclude, h.shown, h.links, Result.shown]
  | ready code links report =>
    have hperform := blind_perform code fuel _ _ h.machine
    unfold Session.conclude
    dsimp only
    revert hperform
    generalize code.perform fuel s.machine = o
    generalize code.perform fuel s'.machine = o'
    intro hperform
    cases hperform with
    | outOfFuel => exact .inl ⟨rfl, rfl⟩
    | ok hm =>
      refine .inr ⟨_, _, _, _, rfl, ?_, hm⟩
      simp only [h.shown, h.links, Result.shown]
    | error hm =>
      refine .inr ⟨_, _, _, _, rfl, ?_, hm⟩
      simp only [h.shown, h.links, Result.shown]

/-- Sessions that do the same work reply to a request alike, and go on to do the same work. -/
theorem SameWork.answer {warnings : Bool} {s s' : Session} (h : SameWork warnings s s')
    (fuel : Nat) (followed followed' : Bool) (request : Request) :
    (s.answer fuel followed request = none ∧ s'.answer fuel followed' request = none) ∨
      ∃ reply t t', s.answer fuel followed request = some (reply, t) ∧
        s'.answer fuel followed' request = some (reply.shown warnings, t') ∧
        SameWork warnings t t' := by
  cases request with
  | names =>
    refine .inr ⟨_, _, s', rfl, ?_, h⟩
    rw [Session.answer, h.names, Reply.shown]
  | step step =>
    obtain ⟨trace, ht⟩ := take_eq fuel s step
    obtain ⟨trace', ht'⟩ := take_eq fuel s' step
    rw [h.load] at ht'
    unfold Session.answer
    dsimp only
    rw [ht, ht']
    rcases h.conclude fuel (s.load step) with ⟨hn, hn'⟩ | ⟨result, m, m', links, hr, hr', hm⟩
    · rw [hn, hn']
      exact .inl ⟨rfl, rfl⟩
    · rw [hr, hr']
      refine .inr ⟨.result result, _, _, rfl, rfl, ?_⟩
      cases followed with
      | false | true =>
        cases followed' with
        | false | true => exact ⟨h.full, h.chosen, hm, rfl⟩

/-- Sessions that do the same work reply alike to all requests. -/
theorem SameWork.answers {warnings : Bool} {s s' : Session} (h : SameWork warnings s s')
    (fuel : Nat) (followed followed' : Bool) (requests : List Request) :
    s'.answers fuel followed' requests =
      (s.answers fuel followed requests).map (List.map (Reply.shown warnings)) := by
  induction requests generalizing s s' with
  | nil => rfl
  | cons request rest ih =>
    unfold Session.answers
    rcases h.answer fuel followed followed' request with
      ⟨hn, hn'⟩ | ⟨reply, t, t', ha, ha', hnext⟩
    · rw [hn, hn']
      rfl
    · rw [ha, ha']
      simp only [Option.bind_eq_bind, Option.bind_some, ih hnext, Option.pure_def]
      cases t.answers fuel followed rest with
      | none => rfl
      | some replies => rfl

/-- A session that lets warnings through or not, that somebody follows or not, and that writes to a
sink that works or not, replies to any sequence of requests with the verdicts, values and names of
a session which lets all findings through; the findings are the same as well if it lets warnings
through, and otherwise exactly the errors among them, in order. -/
theorem reporting_settings_invisible (settings : Settings) (clock : Float) (fuel : Nat)
    (requests : List Request) (warnings broken broken' followed followed' : Bool) :
    (start { settings with warnings := warnings } clock broken').answers fuel followed' requests =
      ((start { settings with warnings := true } clock broken).answers fuel followed requests).map
        (List.map (Reply.shown warnings)) := by
  have hstart : SameWork warnings (start { settings with warnings := true } clock broken)
      (start { settings with warnings := warnings } clock broken') :=
    ⟨rfl, rfl, ⟨rfl, rfl, rfl, rfl⟩, rfl⟩
  exact hstart.answers fuel followed followed' requests

end Session

end Scriptlet

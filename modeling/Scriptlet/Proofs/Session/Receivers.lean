import Scriptlet.Proofs.Session.Past

/-!
# What constructors and initializers yield

A call of a class yields an object that it has made. An initializer yields the receiver that it was
bound to, whatever its body does: the receiver is in the scope of the function, put there when the
function was bound, and nothing can take it away (`initializers_yield`).

This is the only place where evaluation looks something up and goes on without asking whether it is
there. So whatever stood for a receiver that is missing, no run would ever show it
(`Eval.withinOr`).
-/

namespace Scriptlet

/-- A value whose scope holds a receiver, if it is an initializer. -/
def Value.HasReceiver (h : Heap) : Value → Prop
  | .function f =>
    f.initializer → ∃ v, (h.slots f.scope).get? "this" = some v ∧ v.IsReceiver
  | _ => True

theorem Value.Suits.hasReceiver {L : Ledger} {h : Heap} {v : Value} (hv : v.Suits L h) :
    v.HasReceiver h := by
  cases v with
  | function f =>
    obtain ⟨p, hp, -, hinit⟩ := hv
    intro hinitializer
    obtain ⟨roles, hroles⟩ := hinit hinitializer
    rw [hroles] at hp
    obtain ⟨⟨v, hv, hr, -⟩, -⟩ := hp
    exact ⟨v, hv, hr⟩
  | _ => trivial

namespace Eval

/-- What a task is a call of. -/
def Task.callee? : Task → Option Value
  | .call _ callee _ | .enter _ callee _ => some callee
  | .body f _ => some (.function f)
  | _ => none

/-- If a task is a call or binds a method, it comes to what it should, with any amount of fuel: a
class to a new object of this class, and an initializer to its receiver. -/
def Task.Delivers (m : Machine) : Task → Prop
  | .call token callee args => callee.HasReceiver m.heap ∧ ∀ fuel v m',
    within fuel (.call token callee args) m = .ok v m' → callee.Delivers m.heap m'.heap v
  | .enter token callee args => callee.HasReceiver m.heap ∧ ∀ fuel v m',
    within fuel (.enter token callee args) m = .ok v m' → callee.Delivers m.heap m'.heap v
  | .body f args => (Value.function f).HasReceiver m.heap ∧ ∀ fuel v m',
    within fuel (.body f args) m = .ok v m' → f.Returns m.heap m'.heap v
  | .bound token method receiver => receiver.IsReceiver ∧ ∀ fuel v m',
    within fuel (.bound token method receiver) m = .ok v m' → method.Awaits receiver m'.heap v
  | _ => True

/-- Whether a task is a call of an initializer whose scope holds some receiver. -/
def Task.Initializes (scope : ScopeId) (receiver : Value) (t : Task) (m : Machine) : Prop :=
  ∃ f, t.callee? = some (.function f) ∧ f.initializer ∧ f.scope = scope ∧
    (m.heap.slots scope).get? "this" = some receiver

variable {L : Ledger} {m : Machine} {t : Task}

theorem Task.Suits.callee (h : t.Suits L m) {v : Value} (hv : t.callee? = some v) :
    v.Suits L m.heap := by
  cases t with
  | call | enter | body => cases hv; exact h.1
  | _ => cases hv

/-- What a task that suits comes to. -/
theorem Task.Suits.gives (h : t.Suits L m) (hL : ∀ sup ∈ L.supers, sup.Linked)
    (hmade : ∀ x, L.made x) (hs : m.heap.Settled L) {fuel : Nat} {a : t.Result} {m' : Machine}
    (hrun : within fuel t m = .ok a m') : t.Gives L m m' a := by
  have hresult := (upholding_within hL hmade fuel t m hs h).2
  rw [hrun] at hresult
  exact hresult.2

theorem Task.Suits.delivers (h : t.Suits L m) (hL : ∀ sup ∈ L.supers, sup.Linked)
    (hmade : ∀ x, L.made x) (hs : m.heap.Settled L) : t.Delivers m := by
  cases t with
  | call token callee args | enter token callee args =>
    exact ⟨h.1.hasReceiver, fun fuel v m' hrun => (h.gives hL hmade hs hrun).2⟩
  | body f args =>
    have hf : (Value.function f).Suits L m.heap := h.1
    exact ⟨hf.hasReceiver, fun fuel v m' hrun => (h.gives hL hmade hs hrun).2⟩
  | bound token method receiver =>
    exact ⟨h.2.2, fun fuel v m' hrun => (h.gives hL hmade hs hrun).2⟩
  | _ => trivial

/-- The receiver that the scope of an initializer holds has been made. -/
theorem Task.Suits.made_receiver (h : t.Suits L m) {scope : ScopeId} {receiver : Value}
    (ht : t.Initializes scope receiver m) : L.made (.receiver scope receiver) := by
  obtain ⟨f, hcallee, hinitializer, rfl, hreceiver⟩ := ht
  obtain ⟨p, hp, -, hinit⟩ := h.callee hcallee
  obtain ⟨roles, hroles⟩ := hinit hinitializer
  rw [hroles] at hp
  obtain ⟨⟨v, hv, -, hmade⟩, -⟩ := hp
  rwa [Option.some.inj (hv.symm.trans hreceiver)] at hmade

end Eval

namespace Session

/-- In every step of a session, whatever was run before: a call of a class that ends well yields an
object that it has made, of this class. The scope of every initializer that is called holds a
receiver; if the call ends well it yields this receiver, which the scope goes on to hold, and so does
a getter that is an initializer when it is bound. The receiver is the one to which the function was
bound, in this run or an earlier one. And no run would differ, if anything else stood for a receiver
that is missing: there is none. -/
theorem initializers_yield (s : Session) (runs : List Run) (hpast : s.Past runs) (step : Step)
    (code : Code) (links : List LinkRecord) (report : Report)
    (hload : s.load step = .ready code links report) (fuel : Nat) :
    ¬ code.Reaches (fun t m => ¬ t.Delivers m) fuel s.machine ∧
    (∀ (scope : ScopeId) (receiver : Value),
      (∀ run ∈ runs, ¬ run.Makes (.receiver scope receiver)) →
        code.Precedes (fun t m => t.Fixes m (.receiver scope receiver))
          (Eval.Task.Initializes scope receiver) fuel s.machine) ∧
    ∀ missing : Value,
      code.runWith (Eval.withinOr missing fuel) s.machine =
        code.runWith (Eval.within fuel) s.machine := by
  have hlinked := hpast.linked hload
  refine ⟨hpast.not_reaches hload ?_ fuel, fun scope receiver hnever => ?_, fun missing => ?_⟩
  · exact fun t m hs ht => not_not_intro (ht.delivers hlinked (fun _ => trivial) hs)
  · refine hpast.precedes hload hnever ?_ fuel
    exact fun t m hs ht hinitializes => ht.made_receiver hinitializes rfl
  · have hs := hpast.settled_any hload
    exact ((listed_of_load hload runs fun _ => True).runWith
      (Eval.upholding_withinOr hlinked (fun _ => trivial) missing fuel) hs).1

/-- Initializers that return early, are inherited and are called again. -/
def calledAgain : Step :=
  .run ("class A \x7b init(x) \x7b if (x) return; this.x = x; \x7d \x7d class B < A \x7b " ++
    "init(x) \x7b super.init(x); \x7d \x7d var b = B(true); print b.init(false) == b;") []

theorem initializers_yield_calledAgain :
    ∃ code links report, (start {} 0 false).load calledAgain = .ready code links report ∧
      code.supers.length = 1 ∧
      ¬ code.Reaches (fun t m => ¬ t.Delivers m) 50 (start {} 0 false).machine ∧
      (∀ (scope : ScopeId) (receiver : Value),
        code.Precedes (fun t m => t.Fixes m (.receiver scope receiver))
          (Eval.Task.Initializes scope receiver) 50 (start {} 0 false).machine) ∧
      ∀ missing : Value,
        code.runWith (Eval.withinOr missing 50) (start {} 0 false).machine =
          code.runWith (Eval.within 50) (start {} 0 false).machine := by
  obtain ⟨code, links, report, hload, hcount⟩ :=
    Loading.ready_of_any (l := (start {} 0 false).load calledAgain)
      (p := fun code => code.supers.length == 1) (by decide +kernel)
  obtain ⟨hdelivers, hprecedes, hmissing⟩ :=
    initializers_yield _ [] (.start _ _ _) _ _ _ _ hload 50
  exact ⟨code, links, report, hload, eq_of_beq hcount, hdelivers,
    fun scope receiver => hprecedes scope receiver (List.forall_mem_nil _), hmissing⟩

end Session

end Scriptlet

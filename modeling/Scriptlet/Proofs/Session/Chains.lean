import Scriptlet.Proofs.Heap.Order
import Scriptlet.Proofs.Session.Scoping

/-!
# Lookups come to an end

A lookup of a name follows the parents of scopes, and a lookup of a method follows the superclasses
of a class. Programs share scopes and classes in many ways: functions are called long after their
scope has ended, methods are bound to receivers, and a class may be declared again on top of a class
that is derived from its old self. Still, none of these chains ever comes back to where it was
(`Heap.Grounded`), after any steps of a session and at every moment of the next one (`lookups_end`).

On a sound heap scopes, functions and classes refer to older ones only, so soundness is all that is
needed (`Sound.grounded`).
-/

namespace Scriptlet

/-! ## Values and heaps whose chains end -/

/-- The class that a value is, or of which it is an instance. -/
def Value.class? : Value → Option ClassValue
  | .cls c | .object _ c => some c
  | _ => Option.none

/-- A function that comes with a value: the value itself, or a method or class method of its class
or of a class above. -/
def Value.Brings (v : Value) (f : Closure) : Prop :=
  v = .function f ∨ ∃ c ∈ v.class?, ∃ d ∈ c.lineage, ∃ name,
    d.body.methods.get? name = some f ∨ d.body.classMethods.get? name = some f

/-- A value whose functions were made in scopes of the heap, and whose class was made after the
classes above it. -/
structure Value.Grounded (h : Heap) (v : Value) : Prop where
  functions : ∀ f, v.Brings f → f.scope < h.nextScope
  classes : ∀ c ∈ v.class?, c.Descends h.nextIdentity

/-- A heap on which lookups come to an end: from every scope the parents lead to the outermost
scope in finitely many steps and never to the same scope twice, every search for a name ends, and
all values that are kept in variables and fields are grounded. -/
structure Heap.Grounded (h : Heap) : Prop where
  scopes : ∀ id, id < h.nextScope →
    ∃ ids, h.Outward id ids ∧ ids.getLast? = some Heap.globals ∧ ids.Pairwise fun a b => b < a
  searches : ∀ id, id < h.nextScope → ∀ name, h.Search name id (h.binder? name id)
  slots : ∀ id x v, (h.slots id).get? x = some v → v.Grounded h
  fields : ∀ id x v, h.field? id x = some v → v.Grounded h

/-- The values that a task has to do with. -/
def Eval.Task.values : Eval.Task → List Value
  | .write _ _ value => [value]
  | .bound _ method receiver => [.function method, receiver]
  | .call _ callee args | .enter _ callee args => callee :: args
  | .body f args => .function f :: args
  | _ => []

/-! ## Sound heaps -/

section

variable {T : List (Reference (Option Link))} {W : World} {h : Heap}

theorem Sound.ordered (hs : Sound T W h) : h.Ordered := ⟨hs.nonempty, hs.root, hs.parents⟩

namespace ClassValue.Fits

variable {c : ClassValue}

/-- What every class of a lineage adds to the one above it fits. -/
theorem body (hc : c.Fits T W h) : ∀ d ∈ c.lineage, d.body.Fits T W h := by
  induction c with
  | base b =>
    intro d hd
    rw [List.mem_singleton.mp hd]
    exact hc
  | derived b superclass ih =>
    rw [lineage, List.forall_mem_cons]
    exact ⟨hc.1, ih hc.2.2⟩

/-- No class of a lineage is younger than the one that it belongs to. -/
theorem identity_le (hc : c.Fits T W h) : ∀ d ∈ c.lineage, d.identity ≤ c.identity := by
  induction c with
  | base b =>
    intro d hd
    exact Nat.le_of_eq (congrArg ClassValue.identity (List.mem_singleton.mp hd))
  | derived b superclass ih =>
    rw [lineage, List.forall_mem_cons]
    refine ⟨Nat.le_refl _, fun d hd => ?_⟩
    have hbelow : superclass.identity < b.identity := hc.2.1
    exact Nat.le_trans (ih hc.2.2 d hd) (Nat.le_of_lt hbelow)

theorem descends (hc : c.Fits T W h) : c.Descends h.nextIdentity := by
  refine ⟨fun d hd => (hc.body d hd).identity, ?_⟩
  induction c with
  | base b => exact List.pairwise_singleton _ _
  | derived b superclass ih =>
    rw [lineage, List.pairwise_cons]
    refine ⟨fun d hd => ?_, ih hc.2.2⟩
    have hbelow : superclass.identity < b.identity := hc.2.1
    exact Nat.lt_of_le_of_lt (hc.2.2.identity_le d hd) hbelow

end ClassValue.Fits

namespace Sound

/-- A method of a class that fits was made in a scope of the heap. -/
theorem lt_of_methods (hs : Sound T W h) {ms : Entries Closure} (hms : MethodsFit T W h ms)
    {name : Text} {f : Closure} (hf : ms.get? name = some f) : f.scope < h.nextScope := by
  obtain ⟨Γ, hΓ, -⟩ := hms name f hf
  exact hs.lt_nextScope hΓ

/-- On a sound heap, a class that fits is grounded with all that are of this class. -/
theorem grounded_of_class (hs : Sound T W h) {v : Value} {c : ClassValue}
    (hv : v.class? = some c) (hc : c.Fits T W h) : v.Grounded h := by
  constructor
  · intro f hf
    rcases hf with rfl | ⟨c', hc', d, hd, name, hm⟩
    · cases hv
    · obtain rfl : c = c' := Option.some.inj (hv.symm.trans hc')
      have hbody := hc.body d hd
      exact hm.elim (hs.lt_of_methods hbody.methods) (hs.lt_of_methods hbody.classMethods)
  · intro c' hc'
    obtain rfl : c = c' := Option.some.inj (hv.symm.trans hc')
    exact hc.descends

theorem grounded_of_scope {f : Closure} (hf : f.scope < h.nextScope) :
    (Value.function f).Grounded h := by
  refine ⟨fun g hg => ?_, nofun⟩
  rcases hg with hg | ⟨c, hc, -⟩
  · cases hg
    exact hf
  · cases hc

theorem grounded_value (hs : Sound T W h) {v : Value} (hv : v.Fits T W h) : v.Grounded h := by
  cases v with
  | function f =>
    obtain ⟨Γ, hΓ, -⟩ := hv
    exact grounded_of_scope (hs.lt_nextScope hΓ)
  | cls c => exact hs.grounded_of_class rfl hv
  | object id c => exact hs.grounded_of_class rfl hv
  | _ => exact ⟨fun f hf => by rcases hf with hf | ⟨c, hc, -⟩ <;> contradiction, nofun⟩

theorem grounded (hs : Sound T W h) : h.Grounded where
  scopes id hid := by
    obtain ⟨ids, hids, hlast, hdown, -⟩ := hs.ordered.outward hid
    exact ⟨ids, hids, hlast, hdown⟩
  searches id hid name := hs.ordered.search name hid
  slots id x v hv := hs.grounded_value (hs.slots id x v hv)
  fields id x v hv := hs.grounded_value (hs.fields id x v hv)

end Sound

end

open Eval in
/-- The values of a task that fits are grounded. -/
theorem Eval.Task.Fits.grounded {T : List (Reference (Option Link))} {W : World} {m : Machine}
    (hs : Sound T W m.heap) {t : Task} (ht : t.Fits T W m) : ∀ v ∈ t.values, v.Grounded m.heap := by
  cases t with
  | write name link value =>
    rw [Task.values, List.forall_mem_singleton]
    exact hs.grounded_value ht.2.1
  | bound token method receiver =>
    obtain ⟨⟨Γ, hΓ, -⟩, hreceiver⟩ := ht
    rw [Task.values, List.forall_mem_cons, List.forall_mem_singleton]
    exact ⟨Sound.grounded_of_scope (hs.lt_nextScope hΓ), hs.grounded_value hreceiver⟩
  | call token callee args | enter token callee args =>
    rw [Task.values, List.forall_mem_cons]
    exact ⟨hs.grounded_value ht.1, fun v hv => hs.grounded_value (ht.2.1 v hv)⟩
  | body f args =>
    rw [Task.values, List.forall_mem_cons]
    exact ⟨hs.grounded_value (v := .function f) ht.1, fun v hv => hs.grounded_value (ht.2.1 v hv)⟩
  | _ => exact nofun

namespace Session

/-- After any steps of a session, and at every moment of the next one, the parents of every scope
lead to the outermost scope without a cycle and every search through them ends; so do the parents of
the scopes in which the functions and methods of all values were made, and the classes above each
class, through which methods are found. -/
theorem lookups_end :
    (∀ (s : Session) (codes : List Code), s.History codes → s.machine.heap.Grounded ∧
      ∀ (step : Step) (code : Code) (links : List LinkRecord) (report : Report),
        s.load step = .ready code links report → ∀ fuel : Nat,
          ¬ code.Reaches
            (fun t m => ¬ (m.heap.Grounded ∧ ∀ v ∈ t.values, v.Grounded m.heap)) fuel s.machine) ∧
    ∀ (c : ClassValue) (name : Text),
      c.method? name = (c.lineage.findSome? fun d => d.body.methods.get? name) ∧
      c.classMethod? name = c.lineage.findSome? fun d => d.body.classMethods.get? name := by
  refine ⟨fun s codes hs => ⟨?_, ?_⟩, fun c name => ⟨c.method?_eq name, c.classMethod?_eq name⟩⟩
  · obtain ⟨W, hsound⟩ := hs.consistent.sound
    exact hsound.grounded
  · intro step code links report hload fuel
    obtain ⟨hnum, hknown, W, hsound⟩ := hs.consistent.load hload
    refine hknown.not_reaches ⟨_, hnum⟩ hsound hs.at_rest.1 ?_ fuel
    intro t W m hsound ht
    exact not_not_intro ⟨hsound.grounded, ht.grounded hsound⟩

/-- A class is declared again on top of a class that is derived from its old self, and an instance
of it keeps a method that is bound to the instance. -/
def redeclaredClass : Step :=
  .run ("class A \x7b get() \x7b return this; \x7d \x7d class B < A \x7b \x7d " ++
    "class A < B \x7b \x7d var a = A(); a.own = a.get; print a.own();") []

theorem lookups_end_redeclaredClass :
    ∃ code links report result s',
      (start {} 0 false).load redeclaredClass = .ready code links report ∧
      (start {} 0 false).take 50 redeclaredClass = some (result, s') ∧
      result.verdict = .ok ∧
      (((s'.machine.heap.slots Heap.globals).get? "a").bind Value.class?).any
        (fun c => c.lineage.length == 3) ∧
      s'.machine.heap.Grounded ∧
      ¬ code.Reaches (fun t m => ¬ (m.heap.Grounded ∧ ∀ v ∈ t.values, v.Grounded m.heap)) 50
        (start {} 0 false).machine := by
  obtain ⟨code, links, report, hload, -⟩ :=
    Loading.ready_of_any (l := (start {} 0 false).load redeclaredClass) (p := fun _ => true)
      (by decide +kernel)
  have hrun : ((start {} 0 false).take 50 redeclaredClass).any fun r => r.1.verdict = .ok &&
      (((r.2.machine.heap.slots Heap.globals).get? "a").bind Value.class?).any
        (fun c => c.lineage.length == 3) := by
    decide +kernel
  obtain ⟨⟨result, s'⟩, htake, hv⟩ := (Option.any_eq_true _ _).mp hrun
  obtain ⟨hok, hclass⟩ := (Bool.and_eq_true _ _).mp hv
  have hafter := lookups_end.1 s' _ (.step (.start {} 0 false) htake)
  have hduring := (lookups_end.1 (start {} 0 false) _ (.start {} 0 false)).2 _ _ _ _ hload 50
  exact ⟨code, links, report, result, s', hload, htake, of_decide_eq_true hok, hclass, hafter.1,
    hduring⟩

end Session

end Scriptlet

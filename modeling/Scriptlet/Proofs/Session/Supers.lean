import Scriptlet.Proofs.Session.Past

/-!
# What `super` means

A use of `super` in the methods of a class looks for its method from the superclass of this class on,
whatever class its receiver has, and binds it to this receiver. The superclass is the one that the
declaration of the class found when it ran: it is kept in a scope that was made for it then
(`supers_dispatch`).
-/

namespace Scriptlet

open Resolve

/-- The method with a name that a receiver selects: a class selects among class methods, an instance
among those of instances. -/
def ClassValue.methodFor? (cls : ClassValue) (receiver : Value) (name : Text) : Option Closure :=
  match receiver with
  | .cls _ => cls.classMethod? name
  | _ => cls.method? name

namespace Eval

/-- What a use of `super` does with the superclass and the receiver that it finds. -/
def dispatch (r : Runner) (method : Token) (cls : ClassValue) (receiver : Value) : Eval Value :=
  match cls.methodFor? receiver method.lexeme with
  | some f => r.bound method f receiver
  | none => fail (.undefinedProperty method.lexeme) method

end Eval

/-- A use of `super` on a machine finds a class and a receiver, and these decide on its method. At
the same place, `this` yields the same receiver. -/
structure Super.Dispatches (sup : Super (Option Link)) (m : Machine)
    (declaration : Stmt (Option Link)) (scope : ScopeId) (cls : ClassValue) (receiver : Value) :
    Prop where
  finds : sup.Finds m declaration scope cls receiver
  inherited : ∀ (fuel : Nat) (span : Span),
    Eval.within (fuel + 2) (.expr (.inherited span sup.keyword sup.method sup.link)) m =
      Eval.dispatch (Eval.within (fuel + 1)) sup.method cls receiver m
  this : ∀ (fuel : Nat) (span : Span) (keyword : Token) (ordinal : Nat), keyword.lexeme = "this" →
    Eval.within (fuel + 2)
      (.expr (.receiver span keyword (some ⟨ordinal, sup.scene.site.hops 0 "this"⟩))) m =
        .ok receiver m

theorem Super.Finds.dispatches {sup : Super (Option Link)} (hsup : sup.Linked) {m : Machine}
    {declaration : Stmt (Option Link)} {scope : ScopeId} {cls : ClassValue} {receiver : Value}
    (h : sup.Finds m declaration scope cls receiver) :
    sup.Dispatches m declaration scope cls receiver := by
  refine ⟨h, fun fuel span => ?_, fun fuel span keyword ordinal hkeyword => ?_⟩
  · have hinherit : (Eval.within (fuel + 1)).inherit sup.keyword sup.link m =
        .ok (.cls cls, receiver) m := h.inheritance_eq hsup
    change Eval.inheritedStep (Eval.within (fuel + 1)) sup.keyword sup.method sup.link m = _
    unfold Eval.inheritedStep
    rw [Eval.bind_apply, hinherit]
    rfl
  · change Eval.readLink keyword (some ⟨ordinal, sup.scene.site.hops 0 "this"⟩) m = _
    simp only [Eval.readLink, hkeyword, h.receiver]

/-- If a task is a use of `super`, it is one of those in the code that was loaded, and dispatches. -/
def Eval.Task.Dispatched (sups : List (Super (Option Link))) (t : Eval.Task) (m : Machine) : Prop :=
  ∀ span keyword method link, t = .expr (.inherited span keyword method link) →
    ∃ sup ∈ sups, sup.keyword = keyword ∧ sup.method = method ∧ sup.link = link ∧
      ∃ declaration scope cls receiver, sup.Dispatches m declaration scope cls receiver

/-- Whether a task is a use of `super` inside of a class, and finds a superclass in some scope. -/
def Eval.Task.Uses (sups : List (Super (Option Link))) (declaration : Stmt (Option Link))
    (scope : ScopeId) (cls : ClassValue) (t : Eval.Task) (m : Machine) : Prop :=
  ∃ sup ∈ sups, ∃ span receiver, t = .expr (.inherited span sup.keyword sup.method sup.link) ∧
    sup.Finds m declaration scope cls receiver

/-- Resolution links `this` to the innermost scope that holds a receiver. -/
theorem Expr.resolve_receiver (span : Span) (keyword : Token) {s : Surroundings} {Γ : Site}
    {r : Resolution} (hs : s.cls ≠ .none) (hr : Aligned r.scopes Γ) :
    ∃ r', ((Expr.receiver span keyword ()).resolve s).run r =
      (.receiver span keyword (some ⟨r.linkCount, Γ.hops 0 keyword.lexeme⟩), r') := by
  have hfound := hr.hops? keyword.lexeme
  have hhops : Γ.hops 0 keyword.lexeme =
      Γ.findIdx fun f => decide (keyword.lexeme ∈ f.declared) := Nat.zero_add _
  rw [hhops, ← hfound, Expr.resolve]
  split
  · contradiction
  · cases hk : ScopeStack.hops? r.scopes keyword.lexeme with
    | some k =>
      simp only [linkBeyond, List.drop_zero, ↓reduceIte, Nat.zero_add, link, bind_pure_comp,
        map_bind, StateT.run_bind, StateT.run_get, StateT.run_map, pure_bind, hk,
        StateT.run_modify, map_pure, Option.getD_some]
      exact ⟨_, rfl⟩
    | none =>
      simp only [linkBeyond, List.drop_zero, ↓reduceIte, link, bind_pure_comp, map_bind,
        StateT.run_bind, StateT.run_get, StateT.run_map, pure_bind, hk, StateT.run_modify,
        map_pure, Option.getD_none]
      exact ⟨_, rfl⟩

namespace Session

/-- Resolution links `this`, wherever it may stand, to the innermost scope that holds a receiver, by
the site of the place.

In every step of a session, whatever was run before: each use of `super` that is evaluated is one of
those in the code, told by its link. It stands inside of the declaration of a derived class, with
nothing but scopes of variables in between, and finds a scope in which the superclass of this class
is kept, and the receiver that `this` yields at the same place. The method is looked for from this
superclass on, among instance methods if the receiver is an instance and among class methods if it
is a class, and bound to the receiver. And before that, in this run or an earlier one, the
declaration of the class began to run on a machine on which this very superclass was found and this
scope was the next to be made. -/
theorem supers_dispatch :
    (∀ (span : Span) (keyword : Token) (s : Surroundings) (Γ : Site) (r : Resolution),
      s.cls ≠ .none → Aligned r.scopes Γ → ∃ r',
        ((Expr.receiver span keyword ()).resolve s).run r =
          (.receiver span keyword (some ⟨r.linkCount, Γ.hops 0 keyword.lexeme⟩), r')) ∧
    ∀ (s : Session) (runs : List Run), s.Past runs →
      ∀ (step : Step) (code : Code) (links : List LinkRecord) (report : Report),
        s.load step = .ready code links report → ∀ fuel : Nat,
        ((usesOfSuper runs code).map Super.link).Nodup ∧
        ¬ code.Reaches (fun t m => ¬ t.Dispatched (usesOfSuper runs code) m) fuel s.machine ∧
        ∀ (declaration : Stmt (Option Link)) (scope : ScopeId) (cls : ClassValue),
          (∀ run ∈ runs, ¬ run.Makes (.superclass scope declaration cls)) →
            code.Precedes (fun t m => t.Fixes m (.superclass scope declaration cls))
              (Eval.Task.Uses (usesOfSuper runs code) declaration scope cls) fuel s.machine := by
  refine ⟨fun span keyword s Γ r hs hr => Expr.resolve_receiver span keyword hs hr, ?_⟩
  intro s runs hpast step code links report hload fuel
  have hlinked := hpast.linked hload
  refine ⟨hpast.nodup hload, hpast.not_reaches hload ?_ fuel, ?_⟩
  · intro t m hs ht
    refine not_not_intro fun span keyword method link hexpr => ?_
    subst hexpr
    obtain ⟨p, hp, hlisted⟩ := ht
    have hsup : (⟨p, keyword, method, link⟩ : Super (Option Link)) ∈ usesOfSuper runs code :=
      hlisted.supers (List.mem_singleton_self _)
    obtain ⟨declaration, scope, cls, receiver, hfinds, -⟩ := (hlinked _ hsup).finds hp
    exact ⟨_, hsup, rfl, rfl, rfl, declaration, scope, cls, receiver,
      hfinds.dispatches (hlinked _ hsup)⟩
  · intro declaration scope cls hnever
    refine hpast.precedes hload hnever ?_ fuel
    rintro t m hs ht ⟨sup, hsup, span, receiver, rfl, hfinds⟩
    obtain ⟨p, hp, hlisted⟩ := ht
    have hsup' : (⟨p, sup.keyword, sup.method, sup.link⟩ : Super (Option Link)) ∈
        usesOfSuper runs code := hlisted.supers (List.mem_singleton_self _)
    -- the link tells that the use that is evaluated is the one that finds this class
    rw [Super.eq_of_link (hpast.nodup hload) hsup hsup' rfl] at hfinds
    obtain ⟨declaration', scope', cls', receiver', hfinds', hmade⟩ := (hlinked _ hsup').finds hp
    obtain ⟨rfl, rfl, rfl⟩ := hfinds.unique hfinds'
    exact hmade rfl

/-- A function inside of a method, which is called after the superclass has got another meaning. -/
def laterSuper : Step :=
  .run ("class A \x7b m() \x7b return 1; \x7d \x7d class B < A \x7b m() \x7b fun f() \x7b " ++
    "return super.m(); \x7d return f; \x7d \x7d var f = B().m(); A = none; print f();") []

theorem supers_dispatch_laterSuper :
    (∃ r', ((Expr.receiver .nowhere .missingEnd ()).resolve { cls := .plain }).run {} =
      (.receiver .nowhere .missingEnd (some ⟨0, 0⟩), r')) ∧
    ∃ code links report, (start {} 0 false).load laterSuper = .ready code links report ∧
      code.supers.length = 1 ∧
      ¬ code.Reaches (fun t m => ¬ t.Dispatched (usesOfSuper [] code) m) 50
        (start {} 0 false).machine ∧
      ∀ (declaration : Stmt (Option Link)) (scope : ScopeId) (cls : ClassValue),
        code.Precedes (fun t m => t.Fixes m (.superclass scope declaration cls))
          (Eval.Task.Uses (usesOfSuper [] code) declaration scope cls) 50
          (start {} 0 false).machine := by
  refine ⟨supers_dispatch.1 .nowhere .missingEnd { cls := .plain } [] {} (by decide) .nil, ?_⟩
  obtain ⟨code, links, report, hload, hcount⟩ :=
    Loading.ready_of_any (l := (start {} 0 false).load laterSuper)
      (p := fun code => code.supers.length == 1) (by decide +kernel)
  obtain ⟨-, hdispatched, hprecedes⟩ :=
    supers_dispatch.2 _ [] (.start _ _ _) _ _ _ _ hload 50
  exact ⟨code, links, report, hload, eq_of_beq hcount, hdispatched,
    fun declaration scope cls => hprecedes declaration scope cls (List.forall_mem_nil _)⟩

end Session

end Scriptlet

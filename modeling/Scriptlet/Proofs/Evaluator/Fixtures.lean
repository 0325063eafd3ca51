import Scriptlet.Proofs.Evaluator.Closures
import Scriptlet.Proofs.Scope.Roles

/-!
# Receivers and superclasses on the heap

`this` and `super` are bound in scopes of their own: a receiver when a method is bound to it or an
object is made, a superclass when the declaration of a class runs. No variable has their names, so
such a binding stays as it was made, for which it is called a fixture (`Heap.Steady`).

A heap serves the roles of a scene (`Heap.Serves`) if every scope for a receiver or a superclass
holds one. A ledger tells which fixtures may have been made, and lists the uses of `super` in the
code that runs. A heap is settled (`Heap.Settled`) if all functions on it stand where the scopes of
their declarations are served.
-/

namespace Scriptlet

/-! ## Fixtures -/

/-- A binding that no program changes, in the scope that was made for it. -/
inductive Fixture where
  | receiver (scope : ScopeId) (value : Value)
  /-- The superclass of a class with some declaration. -/
  | superclass (scope : ScopeId) (declaration : Stmt (Option Link)) (cls : ClassValue)

/-- A value that methods can be bound to. -/
def Value.IsReceiver : Value → Prop
  | .object .. | .cls _ => True
  | _ => False

/-- A task that makes a fixture when it begins on a machine. -/
inductive Eval.Task.Fixes : Eval.Task → Machine → Fixture → Prop where
  /-- A method is bound to its receiver. -/
  | bound (token : Token) (method : Closure) (receiver : Value) (m : Machine) :
    Fixes (.bound token method receiver) m (.receiver m.heap.nextScope receiver)
  /-- An initializer is bound to a new object. -/
  | construct (token : Token) {c : ClassValue} (args : List Value) {init : Closure} (m : Machine) :
    c.method? ClassValue.initName = some init →
      Fixes (.enter token (.cls c) args) m
        (.receiver m.heap.nextScope (.object m.heap.nextObject c))
  /-- A class is declared, and this is the superclass that it finds. -/
  | declare (span : Span) (name parent : Token) (link : Option Link)
    (methods classMethods : List (Declaration (Option Link))) {m : Machine} {cls : ClassValue} :
    Eval.readLink parent link m = .ok (.cls cls) m →
      Fixes (.stmt (.declareClass span name (some (parent, link)) methods classMethods)) m
        (.superclass m.heap.nextScope
          (.declareClass span name (some (parent, link)) methods classMethods) cls)

/-- The uses of `super` in some code, and the fixtures that may have been made. -/
structure Ledger where
  supers : List (Super (Option Link))
  made : Fixture → Prop

/-! ## Trees all of whose uses of `super` are listed -/

section

variable (L : Ledger) (p : Scene (Option Link))

structure Expr.Listed (e : Expr (Option Link)) : Prop where
  words : e.Words Token.ReadsAs
  supers : e.supers p ⊆ L.supers

structure Expr.ListedAll (es : List (Expr (Option Link))) : Prop where
  words : Expr.WordsList Token.ReadsAs es
  supers : Expr.supersList p es ⊆ L.supers

structure Function.Listed (f : LinkedFunction) : Prop where
  words : f.Words Token.ReadsAs
  supers : f.supers p ⊆ L.supers

structure Declaration.ListedAll (ds : List (Declaration (Option Link))) : Prop where
  words : Declaration.WordsList Token.ReadsAs ds
  supers : Declaration.supersList p ds ⊆ L.supers

structure Stmt.Listed (s : Stmt (Option Link)) : Prop where
  words : s.Words Token.ReadsAs
  supers : s.supers p ⊆ L.supers

structure Stmt.ListedAll (ss : List (Stmt (Option Link))) : Prop where
  words : Stmt.WordsList Token.ReadsAs ss
  supers : Stmt.supersList p ss ⊆ L.supers

end

section

variable {L : Ledger} {p : Scene (Option Link)}

theorem Expr.ListedAll.of_cons {e : Expr (Option Link)} {es : List (Expr (Option Link))}
    (h : Expr.ListedAll L p (e :: es)) : e.Listed L p ∧ Expr.ListedAll L p es := by
  have hsupers := List.append_subset.mp h.supers
  exact ⟨⟨h.words.1, hsupers.1⟩, h.words.2, hsupers.2⟩

theorem Declaration.ListedAll.of_cons {d : Declaration (Option Link)}
    {ds : List (Declaration (Option Link))} (h : Declaration.ListedAll L p (d :: ds)) :
    d.function.Listed L p ∧ Declaration.ListedAll L p ds := by
  obtain ⟨_, _, function⟩ := d
  have hsupers := List.append_subset.mp h.supers
  exact ⟨⟨h.words.1, hsupers.1⟩, h.words.2, hsupers.2⟩

theorem Stmt.ListedAll.of_cons {s : Stmt (Option Link)} {ss : List (Stmt (Option Link))}
    (h : Stmt.ListedAll L p (s :: ss)) :
    s.Listed L p ∧ Stmt.ListedAll L (p.addAll s.declared) ss := by
  have hsupers := List.append_subset.mp h.supers
  exact ⟨⟨h.words.1, hsupers.1⟩, h.words.2, hsupers.2⟩

theorem Function.Listed.body {f : LinkedFunction} (h : f.Listed L p) :
    Stmt.ListedAll L (p.inFunction f.params f.body) f.body := by
  obtain ⟨_, _, params, body, getter⟩ := f
  exact ⟨h.words.2, h.supers⟩

section

variable {span : Span} {condition : Expr (Option Link)}

theorem Stmt.Listed.of_branch {onTrue : Stmt (Option Link)} {onFalse : Option (Stmt (Option Link))}
    (h : (Stmt.branch span condition onTrue onFalse).Listed L p) :
    condition.Listed L p ∧ onTrue.Listed L p ∧ ∀ s ∈ onFalse, s.Listed L p := by
  cases onFalse with
  | none =>
    obtain ⟨hcondition, htrue⟩ := List.append_subset.mp h.supers
    exact ⟨⟨h.words.1, hcondition⟩, ⟨h.words.2, htrue⟩, fun s hs => by cases hs⟩
  | some s =>
    obtain ⟨hcondition, hrest⟩ := List.append_subset.mp h.supers
    obtain ⟨htrue, hfalse⟩ := List.append_subset.mp hrest
    refine ⟨⟨h.words.1, hcondition⟩, ⟨h.words.2.1, htrue⟩, fun s' hs => ?_⟩
    cases hs
    exact ⟨h.words.2.2, hfalse⟩

theorem Stmt.Listed.of_loop {body : Stmt (Option Link)} {update : Option (Expr (Option Link))}
    {bodyFirst : Bool} (h : (Stmt.loop span condition body update bodyFirst).Listed L p) :
    condition.Listed L p ∧ body.Listed L p ∧ ∀ u ∈ update, u.Listed L p := by
  cases update with
  | none =>
    obtain ⟨hcondition, hbody⟩ := List.append_subset.mp h.supers
    exact ⟨⟨h.words.1, hcondition⟩, ⟨h.words.2, hbody⟩, fun u hu => by cases hu⟩
  | some u =>
    obtain ⟨hcondition, hrest⟩ := List.append_subset.mp h.supers
    obtain ⟨hbody, hupdate⟩ := List.append_subset.mp hrest
    refine ⟨⟨h.words.1, hcondition⟩, ⟨h.words.2.1, hbody⟩, fun u' hu => ?_⟩
    cases hu
    exact ⟨h.words.2.2, hupdate⟩

end

end

/-! ## Scopes that serve roles -/

/-- What a scope holds that serves a role. -/
def Role.Served (L : Ledger) (h : Heap) (id : ScopeId) : Role (Option Link) → Prop
  | .ordinary => True
  | .receiver => ∃ v, (h.slots id).get? "this" = some v ∧ v.IsReceiver ∧ L.made (.receiver id v)
  | .superclass declaration =>
    ∃ c, (h.slots id).get? "super" = some (.cls c) ∧ L.made (.superclass id declaration c)

/-- A scope and the scopes around it that serve some roles. -/
def Heap.Serves (L : Ledger) (h : Heap) : ScopeId → List (Role (Option Link)) → Prop
  | _, [] => True
  | id, role :: roles => role.Served L h id ∧ ∃ p, h.parent? id = some p ∧ h.Serves L p roles

/-- A heap in which scopes have kept their parents and their fixtures, and no object was lost. -/
structure Heap.Steady (h h' : Heap) : Prop where
  parents : ∀ id p, h.parent? id = some p → h'.parent? id = some p
  slots : ∀ id x v, ¬ IsVariableName x → (h.slots id).get? x = some v →
    (h'.slots id).get? x = some v
  objects : h.nextObject ≤ h'.nextObject

theorem not_isVariableName_this : ¬ IsVariableName "this" := fun h => h.1 rfl

theorem not_isVariableName_super : ¬ IsVariableName "super" := fun h => h.2 rfl

namespace Heap.Steady

variable {h h' h'' : Heap}

theorem refl (h : Heap) : Steady h h :=
  ⟨fun _ _ hp => hp, fun _ _ _ _ hv => hv, Nat.le_refl _⟩

theorem trans (hh : Steady h h') (hh' : Steady h' h'') : Steady h h'' :=
  ⟨fun id p hp => hh'.parents id p (hh.parents id p hp),
    fun id x v hx hv => hh'.slots id x v hx (hh.slots id x v hx hv),
    Nat.le_trans hh.objects hh'.objects⟩

/-- A change of something other than scopes. -/
theorem of_scopes_eq (hs : h'.scopes = h.scopes) (ho : h.nextObject ≤ h'.nextObject) :
    Steady h h' := by
  refine ⟨fun id p hp => ?_, fun id x v _ hv => ?_, ho⟩
  · rwa [Heap.parent?, hs]
  · rwa [Heap.slots, hs]

theorem define (id : ScopeId) {x : Text} (hx : IsVariableName x) (v : Value) :
    Steady h (h.define id x v) := by
  refine ⟨fun j p hp => ?_, fun j y w hy hw => ?_, Nat.le_refl _⟩
  · rwa [Heap.parent?_define]
  · rw [Heap.slots_define]
    split
    · rw [Entries.get?_put, if_neg]
      · exact hw
      · rintro rfl
        exact hy hx
    · exact hw

theorem addScope (parent : ScopeId) (slots : Entries Value) :
    Steady h (h.addScope parent slots) := by
  refine ⟨fun j p hp => ?_, fun j y w hy hw => ?_, Nat.le_refl _⟩
  · rw [Heap.parent?_addScope, if_neg]
    · exact hp
    · rintro rfl
      rw [Heap.parent?_nextScope] at hp
      cases hp
  · rw [Heap.slots_addScope, if_neg]
    · exact hw
    · rintro rfl
      rw [Heap.slots_nextScope] at hw
      cases hw

theorem addIdentity (h : Heap) : Steady h h.addIdentity := .of_scopes_eq rfl (Nat.le_refl _)

theorem addObject (h : Heap) : Steady h h.addObject :=
  .of_scopes_eq rfl (by simp [Heap.nextObject, Heap.addObject])

theorem setField (h : Heap) (id : ObjectId) (name : Text) (v : Value) :
    Steady h (h.setField id name v) :=
  .of_scopes_eq rfl (by simp [Heap.nextObject, Heap.setField])

end Heap.Steady

section

variable {L : Ledger} {h h' : Heap}

theorem Role.Served.mono {role : Role (Option Link)} {id : ScopeId} (hr : role.Served L h id)
    (hh : h.Steady h') : role.Served L h' id := by
  cases role with
  | ordinary => trivial
  | receiver =>
    obtain ⟨v, hv, hreceiver⟩ := hr
    exact ⟨v, hh.slots id _ v not_isVariableName_this hv, hreceiver⟩
  | superclass declaration =>
    obtain ⟨c, hc, hmade⟩ := hr
    exact ⟨c, hh.slots id _ _ not_isVariableName_super hc, hmade⟩

namespace Heap.Serves

variable {id : ScopeId} {roles : List (Role (Option Link))}

theorem mono (hs : h.Serves L id roles) (hh : h.Steady h') : h'.Serves L id roles := by
  induction roles generalizing id with
  | nil => trivial
  | cons role roles ih =>
    obtain ⟨hr, p, hp, hs⟩ := hs
    exact ⟨hr.mono hh, p, hh.parents id p hp, ih hs⟩

/-- A new scope serves a role inside of its parent. -/
theorem addScope (hs : h.Serves L id roles) (slots : Entries Value) {role : Role (Option Link)}
    (hr : role.Served L (h.addScope id slots) h.nextScope) :
    (h.addScope id slots).Serves L h.nextScope (role :: roles) := by
  refine ⟨hr, id, ?_, hs.mono (.addScope id slots)⟩
  rw [Heap.parent?_addScope, if_pos rfl]

/-- The scope for a superclass is found past the scopes of variables and that of the receiver. -/
theorem ancestorFrom {n : Nat} {declaration : Stmt (Option Link)}
    {rest : List (Role (Option Link))}
    (hs : h.Serves L id
      (List.replicate n .ordinary ++ .receiver :: .superclass declaration :: rest))
    (d d' : Int) (hops hops' : Nat) :
    ∃ inner outer, h.ancestorFrom d n hops id = .ok inner ∧
      h.ancestorFrom d' (n + 1) hops' id = .ok outer ∧ Role.receiver.Served L h inner ∧
      (Role.superclass declaration).Served L h outer := by
  induction n generalizing id hops hops' with
  | zero =>
    obtain ⟨hreceiver, p, hp, hsuper, -⟩ := hs
    exact ⟨id, p, rfl, by rw [Heap.ancestorFrom, hp]; rfl, hreceiver, hsuper⟩
  | succ n ih =>
    obtain ⟨-, p, hp, hs⟩ := hs
    obtain ⟨inner, outer, hi, ho, hrest⟩ := ih hs (hops + 1) (hops' + 1)
    refine ⟨inner, outer, ?_, ?_, hrest⟩
    · rw [Heap.ancestorFrom, hp]
      exact hi
    · rw [Heap.ancestorFrom, hp]
      exact ho

/-- Inside of a derived class, its receiver and its superclass are where they are expected. -/
theorem inside {p : Scene (Option Link)} (hs : h.Serves L id p.roles) {n : Nat}
    {declaration : Stmt (Option Link)} (hp : p.Inside n declaration) :
    ∃ inner outer, h.ancestor id n = .ok inner ∧ h.ancestor id (n + 1 : Nat) = .ok outer ∧
      Role.receiver.Served L h inner ∧ (Role.superclass declaration).Served L h outer := by
  obtain ⟨rest, hroles⟩ := hp
  rw [hroles] at hs
  exact hs.ancestorFrom n (n + 1 : Nat) 0 0

end Heap.Serves

end

/-! ## Functions, classes and values -/

section

variable (L : Ledger) (h : Heap)

/-- A function that stands where its scope serves the roles of a scene. An initializer stands right
inside of its receiver. -/
def Closure.Suits (f : Closure) : Prop :=
  ∃ p : Scene (Option Link), h.Serves L f.scope p.roles ∧ f.function.Listed L p ∧
    (f.initializer → ∃ roles, p.roles = .receiver :: roles)

/-- A method, which lacks the scope of its receiver. -/
def Closure.SuitsUnbound (f : Closure) : Prop :=
  ∃ p : Scene (Option Link), h.Serves L f.scope p.roles ∧ f.function.Listed L p.withReceiver

/-- A class all of whose methods suit, those of its superclasses included. -/
def ClassValue.Suits : ClassValue → Prop
  | .base body =>
    body.methods.All (Closure.SuitsUnbound L h) ∧ body.classMethods.All (Closure.SuitsUnbound L h)
  | .derived body superclass =>
    (body.methods.All (Closure.SuitsUnbound L h) ∧
      body.classMethods.All (Closure.SuitsUnbound L h)) ∧ superclass.Suits

/-- A value all of whose functions suit. -/
def Value.Suits : Value → Prop
  | .function f => f.Suits L h
  | .cls c | .object _ c => c.Suits L h
  | _ => True

/-- A signal all of whose functions suit. -/
def Signal.Suits : Signal → Prop
  | .leave v => v.Suits L h
  | _ => True

/-- A heap all of whose functions suit. -/
structure Heap.Settled : Prop where
  slots : ∀ id, (h.slots id).All (Value.Suits L h)
  fields : ∀ id x v, h.field? id x = some v → v.Suits L h

end

section

variable {L : Ledger} {h h' : Heap}

theorem Closure.Suits.mono {f : Closure} (hf : f.Suits L h) (hh : h.Steady h') : f.Suits L h' := by
  obtain ⟨p, hs, hrest⟩ := hf
  exact ⟨p, hs.mono hh, hrest⟩

theorem Closure.SuitsUnbound.mono {f : Closure} (hf : f.SuitsUnbound L h) (hh : h.Steady h') :
    f.SuitsUnbound L h' := by
  obtain ⟨p, hs, hrest⟩ := hf
  exact ⟨p, hs.mono hh, hrest⟩

theorem Entries.All.imp {α : Type} {P Q : α → Prop} {es : Entries α} (h : es.All P)
    (hPQ : ∀ a, P a → Q a) : es.All Q :=
  fun x a hx => hPQ a (h x a hx)

namespace ClassValue.Suits

variable {c : ClassValue} {name : Text} {f : Closure}

theorem mono (hc : c.Suits L h) (hh : h.Steady h') : c.Suits L h' := by
  induction c with
  | base body => exact ⟨hc.1.imp fun _ hf => hf.mono hh, hc.2.imp fun _ hf => hf.mono hh⟩
  | derived body superclass ih =>
    exact ⟨⟨hc.1.1.imp fun _ hf => hf.mono hh, hc.1.2.imp fun _ hf => hf.mono hh⟩, ih hc.2⟩

theorem method? (hc : c.Suits L h) (hf : c.method? name = some f) : f.SuitsUnbound L h := by
  induction c with
  | base body => exact hc.1 name f hf
  | derived body superclass ih =>
    rw [ClassValue.method?] at hf
    split at hf
    · next hown => cases hf; exact hc.1.1 name f hown
    · exact ih hc.2 hf

theorem classMethod? (hc : c.Suits L h) (hf : c.classMethod? name = some f) :
    f.SuitsUnbound L h := by
  induction c with
  | base body => exact hc.2 name f hf
  | derived body superclass ih =>
    rw [ClassValue.classMethod?] at hf
    split at hf
    · next hown => cases hf; exact hc.1.2 name f hown
    · exact ih hc.2 hf

theorem make {body : ClassBody} {superclass : Option ClassValue}
    (hbody : body.methods.All (Closure.SuitsUnbound L h) ∧
      body.classMethods.All (Closure.SuitsUnbound L h))
    (hsuper : ∀ c ∈ superclass, c.Suits L h) : (ClassValue.make body superclass).Suits L h := by
  cases superclass with
  | none => exact hbody
  | some c => exact ⟨hbody, hsuper c rfl⟩

end ClassValue.Suits

theorem Value.Suits.mono {v : Value} (hv : v.Suits L h) (hh : h.Steady h') : v.Suits L h' := by
  cases v with
  | function f => exact Closure.Suits.mono hv hh
  | cls c => exact ClassValue.Suits.mono hv hh
  | object _ c => exact ClassValue.Suits.mono hv hh
  | _ => trivial

theorem Value.IsPlain.suits {v : Value} (hv : v.IsPlain) : v.Suits L h := by
  cases v with
  | function | cls | object => cases hv
  | _ => trivial

/-! ## Settled heaps -/

namespace Heap.Settled

theorem getAt (hh : h.Settled L) {id : ScopeId} {distance : Int} {name : Text} {v : Value}
    (hv : h.getAt id distance name = .ok v) : v.Suits L h := by
  cases ha : h.ancestor id distance with
  | error fault =>
    simp only [Heap.getAt, ha] at hv
    cases hv
  | ok home =>
    rw [Heap.getAt_of_ancestor name ha] at hv
    split at hv
    · next hget => cases hv; exact hh.slots home name _ hget
    · cases hv

/-- The heap goes on to be settled if every value in it did suit before. -/
theorem of_steady (hh : h.Steady h') (hslots : ∀ id, (h'.slots id).All (Value.Suits L h))
    (hfields : ∀ id x v, h'.field? id x = some v → v.Suits L h) : h'.Settled L :=
  ⟨fun id => (hslots id).imp fun _ hv => hv.mono hh, fun id x v hv => (hfields id x v hv).mono hh⟩

theorem define (hh : h.Settled L) (id : ScopeId) {name : Text} (hname : IsVariableName name)
    {value : Value} (hv : value.Suits L h) : (h.define id name value).Settled L := by
  refine .of_steady (.define id hname value) (fun j => ?_) hh.fields
  rw [Heap.slots_define]
  split
  · exact (hh.slots j).put name hv
  · exact hh.slots j

theorem addScope (hh : h.Settled L) (parent : ScopeId) {slots : Entries Value}
    (hs : slots.All (Value.Suits L h)) : (h.addScope parent slots).Settled L := by
  refine .of_steady (.addScope parent slots) (fun j => ?_) hh.fields
  rw [Heap.slots_addScope]
  split
  · exact hs
  · exact hh.slots j

theorem addIdentity (hh : h.Settled L) : h.addIdentity.Settled L :=
  .of_steady (.addIdentity h) hh.slots hh.fields

theorem addObject (hh : h.Settled L) : h.addObject.Settled L := by
  refine .of_steady (.addObject h) hh.slots fun id x v hv => ?_
  rw [Heap.field?_addObject] at hv
  exact hh.fields id x v hv

theorem setField (hh : h.Settled L) (id : ObjectId) (name : Text) {value : Value}
    (hv : value.Suits L h) : (h.setField id name value).Settled L := by
  refine .of_steady (.setField h id name value) hh.slots fun j x v hx => ?_
  rcases h.field?_setField id name value j x hx with rfl | hx
  · exact hv
  · exact hh.fields j x v hx

end Heap.Settled

end

/-- On a machine at its start there are no functions but native ones. -/
theorem settled_start (L : Ledger) (natives : List Native) (clock : Float) (broken : Bool) :
    (Machine.start natives clock broken).heap.Settled L := by
  have hnatives : ∀ h : Heap, h.Settled L →
      (natives.foldl (fun h n => h.define Heap.globals n.name (.native n)) h).Settled L := by
    induction natives with
    | nil => exact fun h hh => hh
    | cons n natives ih =>
      refine fun h hh => ih _ (hh.define Heap.globals ?_ trivial)
      cases n <;> exact ⟨by decide, by decide⟩
  refine hnatives {} ⟨fun id x v hv => ?_, fun id x v hv => ?_⟩
  · cases id with
    | zero | succ => simp [Heap.slots, Entries.get?] at hv
  · simp [Heap.field?] at hv

end Scriptlet

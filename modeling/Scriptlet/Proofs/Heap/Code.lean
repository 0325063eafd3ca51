import Scriptlet.Evaluator
import Scriptlet.Proofs.Heap.Access
import Scriptlet.Proofs.Value.Operators

/-!
# Values and heaps with other code

Functions carry their code. `mapCode` puts other code into every function of a value, a heap or a
machine. No operation on values and heaps looks at code, but for how many parameters a function has
and whether it is a getter. So other code goes through each of these operations, if it agrees with
the old one in that (`KeepsShape`).
-/

namespace Scriptlet

namespace Entries

variable {α : Type}

/-- Changes every value. -/
def mapValues (f : α → α) (es : Entries α) : Entries α := es.map fun (n, a) => (n, f a)

theorem get?_mapValues (f : α → α) (es : Entries α) (x : Text) :
    (es.mapValues f).get? x = (es.get? x).map f := by
  induction es with
  | nil => rfl
  | cons e es ih =>
    obtain ⟨n, a⟩ := e
    simp only [mapValues, List.map_cons, get?] at ih ⊢
    split
    · rfl
    · exact ih

theorem has_mapValues (f : α → α) (es : Entries α) (x : Text) :
    (es.mapValues f).has x = es.has x := by
  simp only [has, get?_mapValues, Option.isSome_map]

theorem names_mapValues (f : α → α) (es : Entries α) : (es.mapValues f).names = es.names := by
  simp only [names, mapValues, List.map_map, Function.comp_def]

theorem mapValues_put (f : α → α) (es : Entries α) (name : Text) (a : α) :
    (es.put name a).mapValues f = (es.mapValues f).put name (f a) := by
  induction es with
  | nil => rfl
  | cons e es ih =>
    obtain ⟨n, b⟩ := e
    simp only [mapValues, List.map_cons, put] at ih ⊢
    split
    · rfl
    · rw [List.map_cons, ih]

theorem mapValues_mapValues (f g : α → α) (es : Entries α) :
    (es.mapValues f).mapValues g = es.mapValues fun a => g (f a) := by
  simp [mapValues, List.map_map, Function.comp_def]

theorem mapValues_eq_self {f : α → α} (hf : ∀ a, f a = a) (es : Entries α) :
    es.mapValues f = es := by
  simp [mapValues, hf]

end Entries

/-- Other code for functions that take as many arguments as before and run when they are read if
they did. -/
structure KeepsShape (g : LinkedFunction → LinkedFunction) : Prop where
  params : ∀ f, (g f).params.length = f.params.length
  getter : ∀ f, (g f).getter = f.getter

/-! ## Values -/

section

variable (g : LinkedFunction → LinkedFunction)

def Closure.mapCode (c : Closure) : Closure := { c with function := g c.function }

def ClassBody.mapCode (b : ClassBody) : ClassBody :=
  { b with
    methods := b.methods.mapValues (Closure.mapCode g)
    classMethods := b.classMethods.mapValues (Closure.mapCode g) }

def ClassValue.mapCode : ClassValue → ClassValue
  | .base body => .base (body.mapCode g)
  | .derived body superclass => .derived (body.mapCode g) superclass.mapCode

/-- The same value with other code. -/
def Value.mapCode : Value → Value
  | .function c => .function (c.mapCode g)
  | .cls c => .cls (c.mapCode g)
  | .object fields c => .object fields (c.mapCode g)
  | v => v

end

variable {g : LinkedFunction → LinkedFunction}

namespace KeepsShape

theorem arity (hg : KeepsShape g) (c : Closure) : (c.mapCode g).arity = c.arity := hg.params _

theorem closureGetter (hg : KeepsShape g) (c : Closure) : (c.mapCode g).getter = c.getter :=
  hg.getter _

end KeepsShape

namespace ClassValue

@[simp] theorem mapCode_name (c : ClassValue) : (c.mapCode g).name = c.name := by
  cases c <;> rfl

@[simp] theorem mapCode_identity (c : ClassValue) : (c.mapCode g).identity = c.identity := by
  cases c <;> rfl

theorem method?_mapCode (c : ClassValue) (name : Text) :
    (c.mapCode g).method? name = (c.method? name).map (·.mapCode g) := by
  induction c with
  | base body => exact Entries.get?_mapValues ..
  | derived body superclass ih =>
    simp only [mapCode, method?, ClassBody.mapCode, Entries.get?_mapValues]
    cases body.methods.get? name with
    | none => exact ih
    | some m => rfl

theorem classMethod?_mapCode (c : ClassValue) (name : Text) :
    (c.mapCode g).classMethod? name = (c.classMethod? name).map (·.mapCode g) := by
  induction c with
  | base body => exact Entries.get?_mapValues ..
  | derived body superclass ih =>
    simp only [mapCode, classMethod?, ClassBody.mapCode, Entries.get?_mapValues]
    cases body.classMethods.get? name with
    | none => exact ih
    | some m => rfl

theorem mapCode_make (body : ClassBody) (superclass : Option ClassValue) :
    (make body superclass).mapCode g = make (body.mapCode g) (superclass.map (·.mapCode g)) := by
  cases superclass <;> rfl

end ClassValue

theorem KeepsShape.classArity (hg : KeepsShape g) (c : ClassValue) :
    (c.mapCode g).arity = c.arity := by
  unfold ClassValue.arity
  rw [ClassValue.method?_mapCode]
  cases c.method? ClassValue.initName with
  | none => rfl
  | some init => exact hg.arity init

namespace Value

@[simp] theorem mapCode_shown (v : Value) : (v.mapCode g).shown = v.shown := by
  cases v with
  | cls c => exact c.mapCode_name
  | object fields c => simp only [mapCode, shown, ClassValue.mapCode_name]
  | _ => rfl

@[simp] theorem mapCode_truthy (v : Value) : (v.mapCode g).truthy = v.truthy := by
  cases v <;> rfl

theorem IsPlain.mapCode {v : Value} (hv : v.IsPlain) : v.mapCode g = v := by
  cases v with
  | function | cls | object => exact hv.elim
  | _ => rfl

theorem equal_mapCode (v w : Value) : (v.mapCode g).equal (w.mapCode g) = v.equal w := by
  cases v <;> cases w <;> simp only [mapCode, equal, Closure.mapCode, ClassValue.mapCode_identity]

theorem mapCode_eq_number (v : Value) (x : Float) : v.mapCode g = .number x ↔ v = .number x := by
  cases v <;> simp [mapCode]

theorem mapCode_eq_text (v : Value) (t : Text) : v.mapCode g = .text t ↔ v = .text t := by
  cases v <;> simp [mapCode]

theorem repeatText_mapCode (t : Text) (v : Value) :
    repeatText t (v.mapCode g) = repeatText t v := by
  cases v <;> rfl

/-- Operators do not tell functions apart by their code. -/
theorem combine_mapCode (kind : Kind) (op : Text) (left right : Value) :
    combine kind op (left.mapCode g) (right.mapCode g) = combine kind op left right := by
  unfold combine
  simp only [equal_mapCode, repeatText_mapCode]
  split
  · rfl
  · rfl
  all_goals split <;> simp_all [mapCode_eq_number, mapCode_eq_text]

theorem unary_mapCode (kind : Kind) (op : Text) (operand : Value) :
    unary kind op (operand.mapCode g) = unary kind op operand := by
  unfold unary
  simp only [mapCode_truthy]
  split
  · rfl
  all_goals split <;> simp_all [mapCode_eq_number]

end Value

theorem KeepsShape.valueArity (hg : KeepsShape g) (v : Value) :
    Eval.arity? (v.mapCode g) = Eval.arity? v := by
  cases v with
  | function f => exact congrArg some (hg.arity f)
  | cls c => exact congrArg some (hg.classArity c)
  | _ => rfl

theorem Native.call_mapCode (clock : Float) (n : Native) (args : List Value) :
    n.call clock (args.map (Value.mapCode g)) = n.call clock args := by
  cases n with
  | clock => cases args <;> rfl
  | len =>
    match args with
    | [v] => simp only [List.map_cons, List.map_nil, call, Value.mapCode_shown]
    | [] | _ :: _ :: _ => rfl
  | str =>
    match args with
    | [v] => simp only [List.map_cons, List.map_nil, call, Value.mapCode_shown]
    | [] | _ :: _ :: _ => rfl
  | search =>
    match args with
    | [text, pattern] => cases text <;> cases pattern <;> rfl
    | [] | [_] | _ :: _ :: _ :: _ => rfl

/-! ## Heaps -/

section

variable (g)

def Scope.mapCode (s : Scope) : Scope := { s with slots := s.slots.mapValues (Value.mapCode g) }

/-- The same heap with other code. -/
def Heap.mapCode (h : Heap) : Heap :=
  { h with
    scopes := h.scopes.map (Scope.mapCode g)
    objects := h.objects.map (Entries.mapValues (Value.mapCode g)) }

/-- The same machine with other code. -/
def Machine.mapCode (m : Machine) : Machine := { m with heap := m.heap.mapCode g }

end

namespace Heap

variable (h : Heap)

theorem slots_mapCode (id : ScopeId) :
    (h.mapCode g).slots id = (h.slots id).mapValues (Value.mapCode g) := by
  simp only [slots, mapCode, Array.getElem?_map]
  cases h.scopes[id]? <;> rfl

theorem get?_slots_mapCode (id : ScopeId) (x : Text) :
    ((h.mapCode g).slots id).get? x = ((h.slots id).get? x).map (·.mapCode g) := by
  rw [slots_mapCode, Entries.get?_mapValues]

theorem has_slots_mapCode (id : ScopeId) (x : Text) :
    ((h.mapCode g).slots id).has x = (h.slots id).has x := by
  rw [slots_mapCode, Entries.has_mapValues]

theorem names_mapCode (id : ScopeId) : (h.mapCode g).names id = h.names id := by
  rw [names, slots_mapCode, Entries.names_mapValues, names]

@[simp] theorem parent?_mapCode (id : ScopeId) : (h.mapCode g).parent? id = h.parent? id := by
  simp only [parent?, mapCode, Array.getElem?_map]
  cases h.scopes[id]? <;> rfl

@[simp] theorem nextScope_mapCode : (h.mapCode g).nextScope = h.nextScope := by
  simp [nextScope, mapCode]

@[simp] theorem nextObject_mapCode : (h.mapCode g).nextObject = h.nextObject := by
  simp [nextObject, mapCode]

theorem mapCode_addScope (parent : ScopeId) (slots : Entries Value) :
    (h.addScope parent slots).mapCode g =
      (h.mapCode g).addScope parent (slots.mapValues (Value.mapCode g)) := by
  simp [addScope, mapCode, Scope.mapCode]

theorem mapCode_addObject : h.addObject.mapCode g = (h.mapCode g).addObject := by
  simp [addObject, mapCode, Entries.mapValues]

theorem mapCode_define (id : ScopeId) (name : Text) (value : Value) :
    (h.define id name value).mapCode g = (h.mapCode g).define id name (value.mapCode g) := by
  have hscopes : (h.define id name value).scopes.map (Scope.mapCode g) =
      ((h.mapCode g).define id name (value.mapCode g)).scopes := by
    refine Array.ext_getElem? fun j => ?_
    simp only [define, mapCode, Array.getElem?_map, Array.getElem?_modify]
    split
    · cases h.scopes[j]? with
      | none => rfl
      | some s => simp [Scope.mapCode, Entries.mapValues_put]
    · rfl
  simp only [mapCode, hscopes]
  rfl

theorem mapCode_setField (id : ObjectId) (name : Text) (value : Value) :
    (h.setField id name value).mapCode g = (h.mapCode g).setField id name (value.mapCode g) := by
  have hobjects : (h.setField id name value).objects.map (Entries.mapValues (Value.mapCode g)) =
      ((h.mapCode g).setField id name (value.mapCode g)).objects := by
    refine Array.ext_getElem? fun j => ?_
    simp only [setField, mapCode, Array.getElem?_map, Array.getElem?_modify]
    split
    · cases h.objects[j]? with
      | none => rfl
      | some fields => simp [Entries.mapValues_put]
    · rfl
  simp only [mapCode, hobjects]
  rfl

theorem field?_mapCode (id : ObjectId) (x : Text) :
    (h.mapCode g).field? id x = (h.field? id x).map (·.mapCode g) := by
  simp only [field?, mapCode, Array.getElem?_map]
  cases h.objects[id]? with
  | none => rfl
  | some fields => exact Entries.get?_mapValues ..

@[simp] theorem ancestor_mapCode (id : ScopeId) (distance : Int) :
    (h.mapCode g).ancestor id distance = h.ancestor id distance := by
  have hfrom : ∀ left hops id,
      (h.mapCode g).ancestorFrom distance left hops id = h.ancestorFrom distance left hops id := by
    intro left
    induction left with
    | zero => intro hops id; rfl
    | succ left ih =>
      intro hops id
      simp only [ancestorFrom, parent?_mapCode, ih]
  exact hfrom ..

@[simp] theorem missing_mapCode (id : ScopeId) (name : Text) (distance : Int) :
    (h.mapCode g).missing id name distance = h.missing id name distance := by
  simp only [missing, parent?_mapCode]

theorem getAt_mapCode (id : ScopeId) (distance : Int) (name : Text) :
    (h.mapCode g).getAt id distance name = (h.getAt id distance name).map (·.mapCode g) := by
  cases ha : h.ancestor id distance with
  | error fault => simp only [getAt, ancestor_mapCode, ha]; rfl
  | ok home =>
    rw [getAt_of_ancestor name ha, getAt_of_ancestor name ((ancestor_mapCode h ..).trans ha),
      get?_slots_mapCode, missing_mapCode]
    cases (h.slots home).get? name <;> rfl

@[simp] theorem binderAt_mapCode (id : ScopeId) (distance : Int) (name : Text) :
    (h.mapCode g).binderAt id distance name = h.binderAt id distance name := by
  simp only [binderAt, ancestor_mapCode, has_slots_mapCode, missing_mapCode]

end Heap

/-! ## Other code twice, and the same code -/

section

variable {g' g'' : LinkedFunction → LinkedFunction}

theorem Closure.mapCode_mapCode (hg : ∀ f, g' (g f) = g'' f) (c : Closure) :
    (c.mapCode g).mapCode g' = c.mapCode g'' := by
  simp only [mapCode, hg]

theorem ClassBody.mapCode_mapCode (hg : ∀ f, g' (g f) = g'' f) (b : ClassBody) :
    (b.mapCode g).mapCode g' = b.mapCode g'' := by
  simp only [mapCode, Entries.mapValues_mapValues, Closure.mapCode_mapCode hg]

theorem ClassValue.mapCode_mapCode (hg : ∀ f, g' (g f) = g'' f) (c : ClassValue) :
    (c.mapCode g).mapCode g' = c.mapCode g'' := by
  induction c with
  | base body => simp only [mapCode, ClassBody.mapCode_mapCode hg]
  | derived body superclass ih => simp only [mapCode, ClassBody.mapCode_mapCode hg, ih]

theorem Value.mapCode_mapCode (hg : ∀ f, g' (g f) = g'' f) (v : Value) :
    (v.mapCode g).mapCode g' = v.mapCode g'' := by
  cases v with
  | function c => simp only [mapCode, Closure.mapCode_mapCode hg]
  | cls c | object fields c => simp only [mapCode, ClassValue.mapCode_mapCode hg]
  | _ => rfl

theorem Machine.mapCode_mapCode (hg : ∀ f, g' (g f) = g'' f) (m : Machine) :
    (m.mapCode g).mapCode g' = m.mapCode g'' := by
  simp only [mapCode, Heap.mapCode, Array.map_map, Function.comp_def, Scope.mapCode,
    Entries.mapValues_mapValues, Value.mapCode_mapCode hg]
  rfl

theorem ClassBody.mapCode_eq_self (hg : ∀ f, g f = f) (b : ClassBody) : b.mapCode g = b := by
  have hclosure : ∀ c : Closure, c.mapCode g = c := fun c => by
    simp only [Closure.mapCode, hg]
  simp only [mapCode, Entries.mapValues_eq_self hclosure]

theorem ClassValue.mapCode_eq_self (hg : ∀ f, g f = f) (c : ClassValue) : c.mapCode g = c := by
  induction c with
  | base body => simp only [mapCode, body.mapCode_eq_self hg]
  | derived body superclass ih => simp only [mapCode, body.mapCode_eq_self hg, ih]

theorem Value.mapCode_eq_self (hg : ∀ f, g f = f) (v : Value) : v.mapCode g = v := by
  cases v with
  | function c => simp only [mapCode, Closure.mapCode, hg]
  | cls c | object fields c => simp only [mapCode, ClassValue.mapCode_eq_self hg]
  | _ => rfl

theorem Machine.mapCode_eq_self (hg : ∀ f, g f = f) (m : Machine) : m.mapCode g = m := by
  have hslots : ∀ es : Entries Value, es.mapValues (Value.mapCode g) = es :=
    Entries.mapValues_eq_self (Value.mapCode_eq_self hg)
  have hscope : ∀ s : Scope, s.mapCode g = s := fun s => by simp only [Scope.mapCode, hslots]
  have hscopes : ∀ a : Array Scope, a.map (Scope.mapCode g) = a := fun a => by
    rw [funext hscope, Array.map_id']
  have hobjects : ∀ a : Array (Entries Value), a.map (Entries.mapValues (Value.mapCode g)) = a :=
    fun a => by rw [funext hslots, Array.map_id']
  simp only [mapCode, Heap.mapCode, hscopes, hobjects]

end

end Scriptlet

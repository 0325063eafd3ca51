import Scriptlet.Heap

/-!
# What the operations of the heap do

For each operation, what it does to the variables of every scope, to the parents of scopes and to
the fields of instances. `Heap.Depth` counts the scopes around a place, the outermost left out.
-/

namespace Scriptlet

namespace Entries

variable {α : Type}

theorem get?_put (es : Entries α) (name : Text) (value : α) (x : Text) :
    (es.put name value).get? x = if name = x then some value else es.get? x := by
  induction es with
  | nil => simp [put, get?]
  | cons e es ih =>
    obtain ⟨n, a⟩ := e
    by_cases hn : n = name
    · subst hn
      by_cases hx : n = x <;> simp [put, get?, hx]
    · by_cases hx : n = x
      · subst hx
        simp [put, get?, hn, Ne.symm hn]
      · simp [put, get?, hn, hx, ih]

theorem has_put (es : Entries α) (name : Text) (value : α) (x : Text) :
    (es.put name value).has x ↔ name = x ∨ es.has x := by
  unfold has
  rw [get?_put]
  by_cases h : name = x <;> simp [h]

theorem mem_names (es : Entries α) (x : Text) : x ∈ es.names ↔ es.has x := by
  induction es with
  | nil => simp [names, has, get?]
  | cons e es ih =>
    obtain ⟨n, a⟩ := e
    simp only [names, List.map_cons, List.mem_cons, has, get?, beq_iff_eq] at ih ⊢
    by_cases hx : n = x
    · simp [hx]
    · simp [hx, Ne.symm hx, ih]

theorem has_of_get? {es : Entries α} {x : Text} {a : α} (h : es.get? x = some a) : es.has x := by
  simp [has, h]

end Entries

namespace Heap

variable (h : Heap)

/-! ## Variables and parents -/

theorem slots_nextScope : h.slots h.nextScope = [] := by
  simp [slots, nextScope]

theorem parent?_nextScope : h.parent? h.nextScope = none := by
  simp [parent?, nextScope]

theorem slots_define (id : ScopeId) (name : Text) (value : Value) (j : ScopeId) :
    (h.define id name value).slots j =
      if id = j ∧ j < h.scopes.size then (h.slots j).put name value else h.slots j := by
  simp only [slots, define, Array.getElem?_modify]
  by_cases hid : id = j
  · by_cases hj : j < h.scopes.size
    · simp [hid, hj]
    · simp [hid, hj]
  · simp [hid]

theorem parent?_define (id : ScopeId) (name : Text) (value : Value) (j : ScopeId) :
    (h.define id name value).parent? j = h.parent? j := by
  simp only [parent?, define, Array.getElem?_modify]
  by_cases hid : id = j
  · cases h.scopes[j]? <;> simp [hid]
  · simp [hid]

theorem nextScope_define (id : ScopeId) (name : Text) (value : Value) :
    (h.define id name value).nextScope = h.nextScope := by
  simp [define, nextScope]

theorem slots_addScope (parent : ScopeId) (slots : Entries Value) (j : ScopeId) :
    (h.addScope parent slots).slots j = if j = h.nextScope then slots else h.slots j := by
  simp only [Heap.slots, addScope, nextScope, Array.getElem?_push]
  by_cases hj : j = h.scopes.size
  · simp [hj]
  · simp [hj]

theorem nextScope_addScope (parent : ScopeId) (slots : Entries Value) :
    (h.addScope parent slots).nextScope = h.nextScope + 1 := by
  simp [addScope, nextScope]

theorem parent?_addScope (parent : ScopeId) (slots : Entries Value) (j : ScopeId) :
    (h.addScope parent slots).parent? j =
      if j = h.nextScope then some parent else h.parent? j := by
  simp only [parent?, addScope, nextScope, Array.getElem?_push]
  by_cases hj : j = h.scopes.size
  · simp [hj]
  · simp [hj]

/-! ## Fields -/

theorem field?_setField (id : ObjectId) (name : Text) (value : Value) (j : ObjectId) (x : Text)
    {v : Value} (hv : (h.setField id name value).field? j x = some v) :
    v = value ∨ h.field? j x = some v := by
  simp only [field?, setField, Array.getElem?_modify] at hv ⊢
  by_cases hid : id = j
  · cases hj : h.objects[j]? with
    | none => simp [hid, hj] at hv
    | some fields =>
      simp only [hid, ↓reduceIte, hj, Option.map_some, Option.bind_some, Entries.get?_put] at hv ⊢
      split at hv
      · exact .inl (Option.some.inj hv).symm
      · exact .inr hv
  · simp only [hid, ↓reduceIte] at hv
    exact .inr hv

theorem field?_addObject (j : ObjectId) (x : Text) : h.addObject.field? j x = h.field? j x := by
  simp only [field?, addObject, Array.getElem?_push]
  by_cases hj : j = h.objects.size
  · simp [hj, Entries.get?]
  · simp [hj]

/-! ## Distances -/

/-- A scope inside some number of scopes, itself counted and the outermost one not. -/
inductive Depth (h : Heap) : ScopeId → Nat → Prop where
  | root {id : ScopeId} : h.parent? id = none → Depth h id 0
  | inside {id p : ScopeId} {n : Nat} : h.parent? id = some p → Depth h p n → Depth h id (n + 1)

theorem getAt_of_ancestor {h : Heap} {id home : ScopeId} {distance : Int} (name : Text)
    (ha : h.ancestor id distance = .ok home) :
    h.getAt id distance name =
      match (h.slots home).get? name with
      | some v => .ok v
      | none => .error (h.missing home name distance) := by
  simp only [getAt, ha]
  rfl

theorem binderAt_of_ancestor {h : Heap} {id home : ScopeId} {distance : Int} (name : Text)
    (ha : h.ancestor id distance = .ok home) :
    h.binderAt id distance name =
      if (h.slots home).has name then .ok home else .error (h.missing home name distance) := by
  simp only [binderAt, ha]
  rfl

end Heap

end Scriptlet

import Scriptlet.Proofs.Heap.Access

/-!
# The order of a heap

Scopes refer to their parents, functions to scopes, and classes to their superclasses. Each of these
is made after what it refers to, so none of the chains that a lookup follows comes back to where it
was: in an ordered heap the parents of every scope lead to the outermost one (`Ordered.outward`),
and looking for a name through all of them comes to an end (`Ordered.search`).

A class holds its superclass itself. That this makes no cycle among the classes of a program, which
are told apart by their numbers, is seen from the order of these numbers along the lineage of a
class (`ClassValue.Descends`).
-/

namespace Scriptlet

namespace Heap

/-- A heap in which every scope but the outermost was made after its parent. -/
structure Ordered (h : Heap) : Prop where
  nonempty : globals < h.nextScope
  root : h.parent? globals = none
  parents : ∀ id, id < h.nextScope → id ≠ globals → ∃ p, h.parent? id = some p ∧ p < id

/-- The scopes from a scope outwards, up to one that has no parent. -/
inductive Outward (h : Heap) : ScopeId → List ScopeId → Prop where
  | outermost {id : ScopeId} : h.parent? id = none → Outward h id [id]
  | inside {id p : ScopeId} {ids : List ScopeId} :
    h.parent? id = some p → Outward h p ids → Outward h id (id :: ids)

/-- A search for a name from a scope outwards, which goes on to the parent for as long as there is
one and the name is not bound. It comes to an end with the scope that binds the name, if any. -/
inductive Search (h : Heap) (name : Text) : ScopeId → Option ScopeId → Prop where
  | found {id : ScopeId} : (h.slots id).has name → Search h name id (some id)
  | lost {id : ScopeId} :
    (h.slots id).has name = false → h.parent? id = none → Search h name id none
  | outwards {id p : ScopeId} {found : Option ScopeId} :
    (h.slots id).has name = false → h.parent? id = some p → Search h name p found →
      Search h name id found

namespace Ordered

variable {h : Heap}

/-- The parents of a scope lead to the outermost one, each older than the one before. -/
theorem outward (ho : h.Ordered) {id : ScopeId} (hid : id < h.nextScope) :
    ∃ ids, h.Outward id ids ∧ ids.getLast? = some globals ∧ ids.Pairwise (fun a b => b < a) ∧
      ∀ j ∈ ids, j ≤ id := by
  induction id using Nat.strongRecOn with
  | ind id ih =>
    by_cases hglobals : id = globals
    · subst hglobals
      refine ⟨[globals], .outermost ho.root, rfl, List.pairwise_singleton _ _, ?_⟩
      intro j hj
      exact Nat.le_of_eq (List.mem_singleton.mp hj)
    · obtain ⟨p, hp, hlt⟩ := ho.parents id hid hglobals
      obtain ⟨ids, hids, hlast, hdown, hle⟩ := ih p hlt (Nat.lt_trans hlt hid)
      have hbelow : ∀ j ∈ ids, j < id := fun j hj => Nat.lt_of_le_of_lt (hle j hj) hlt
      refine ⟨id :: ids, .inside hp hids, ?_, List.pairwise_cons.mpr ⟨hbelow, hdown⟩, ?_⟩
      · rw [List.getLast?_cons, hlast]
        rfl
      · rw [List.forall_mem_cons]
        exact ⟨Nat.le_refl id, fun j hj => Nat.le_of_lt (hbelow j hj)⟩

/-- A search that goes on for as long as there is a parent finds what `binder?` finds. -/
theorem search (ho : h.Ordered) (name : Text) {id : ScopeId} (hid : id < h.nextScope) :
    h.Search name id (h.binder? name id) := by
  induction id using Nat.strongRecOn with
  | ind id ih =>
    unfold binder?
    split
    · next hhas => exact .found hhas
    · next hhas =>
      rw [Bool.not_eq_true] at hhas
      by_cases hglobals : id = globals
      · subst hglobals
        rw [ho.root]
        exact .lost hhas ho.root
      · obtain ⟨p, hp, hlt⟩ := ho.parents id hid hglobals
        rw [hp]
        dsimp only
        rw [if_pos hlt]
        exact .outwards hhas hp (ih p hlt (Nat.lt_trans hlt hid))

end Ordered

end Heap

/-! ## Classes -/

namespace ClassValue

/-- A class and the classes above it. -/
def lineage : ClassValue → List ClassValue
  | .base body => [.base body]
  | .derived body superclass => .derived body superclass :: superclass.lineage

theorem method?_eq (c : ClassValue) (name : Text) :
    c.method? name = c.lineage.findSome? fun d => d.body.methods.get? name := by
  induction c with
  | base body =>
    rw [method?, lineage, List.findSome?_singleton]
    rfl
  | derived body superclass ih =>
    rw [method?, lineage, List.findSome?_cons, ih]
    cases h : body.methods.get? name with
    | none | some => simp only [ClassValue.body, h]

theorem classMethod?_eq (c : ClassValue) (name : Text) :
    c.classMethod? name = c.lineage.findSome? fun d => d.body.classMethods.get? name := by
  induction c with
  | base body =>
    rw [classMethod?, lineage, List.findSome?_singleton]
    rfl
  | derived body superclass ih =>
    rw [classMethod?, lineage, List.findSome?_cons, ih]
    cases h : body.classMethods.get? name with
    | none | some => simp only [ClassValue.body, h]

/-- A class that was made before a number was given out, and after the classes above it. -/
structure Descends (limit : Nat) (c : ClassValue) : Prop where
  made : ∀ d ∈ c.lineage, d.identity < limit
  order : c.lineage.Pairwise fun c d => d.identity < c.identity

end ClassValue

end Scriptlet

import Scriptlet.Evaluator
import Scriptlet.Proofs.Heap.Access

/-!
# Names and distances

A variable is reached by its name, through the scopes around a place up to the first that binds it,
or at a distance, which is trusted to lead to that scope. Both ways are told apart from what they
should find: the scope a number of hops outwards (`Hops`) and the nearest one that binds a name
(`Nearest`). At the distance of the nearest scope the two ways read the same value and write the
same variable, and nothing else. Of a name that is bound nowhere, each way fails at every distance,
and the fault tells whether the distance led to an outermost scope.

There may be any number of outermost scopes here, and any number of scopes inside another. All that
is asked of the heap is that a scope was made after its parent, which is how scopes are made.
-/

namespace Scriptlet

namespace Heap

/-- A heap whose scopes are the trees of a forest, each scope made after its parent. -/
def Forest (h : Heap) : Prop := ∀ id p, h.parent? id = some p → p < id

/-- The scope that is a number of hops out from a scope. -/
inductive Hops (h : Heap) : ScopeId → Nat → ScopeId → Prop where
  | here {id : ScopeId} : Hops h id 0 id
  | outwards {id p home : ScopeId} {n : Nat} :
    h.parent? id = some p → Hops h p n home → Hops h id (n + 1) home

/-- The nearest scope out from a scope that binds a name, and how far out it is. -/
structure Nearest (h : Heap) (id : ScopeId) (name : Text) (d : Nat) (home : ScopeId) : Prop where
  hops : h.Hops id d home
  binds : (h.slots home).has name
  least : ∀ k s, h.Hops id k s → (h.slots s).has name → d ≤ k

/-- Whether a distance leads to an outermost scope. -/
def Lands (h : Heap) (id : ScopeId) (distance : Int) : Prop :=
  ∃ root, h.Hops id distance.toNat root ∧ h.parent? root = none

/-- A heap in which a variable of a scope has a new value, and everything else is as it was. -/
structure Assigned (h h' : Heap) (home : ScopeId) (name : Text) (v : Value) : Prop where
  value : (h'.slots home).get? name = some v
  others : ∀ s x, ¬(s = home ∧ x = name) → (h'.slots s).get? x = (h.slots s).get? x
  parents : ∀ s, h'.parent? s = h.parent? s
  scopes : h'.nextScope = h.nextScope
  objects : h'.objects = h.objects
  identities : h'.nextIdentity = h.nextIdentity

variable {h : Heap} {id : ScopeId}

/-! ## Forests -/

theorem forest_empty : Forest {} := by
  intro id p hp
  cases id with
  | zero => simp [parent?] at hp
  | succ id => simp [parent?] at hp

theorem Forest.define (hf : h.Forest) (home : ScopeId) (name : Text) (v : Value) :
    (h.define home name v).Forest := by
  intro id p hp
  rw [parent?_define] at hp
  exact hf id p hp

theorem Forest.addScope (hf : h.Forest) {parent : ScopeId} (hparent : parent < h.nextScope)
    (slots : Entries Value) : (h.addScope parent slots).Forest := by
  intro id p hp
  rw [parent?_addScope] at hp
  by_cases hid : id = h.nextScope
  · rw [if_pos hid] at hp
    obtain rfl := Option.some.inj hp
    rw [hid]
    exact hparent
  · rw [if_neg hid] at hp
    exact hf id p hp

/-! ## Hops -/

/-- A distance leads to one scope at most. -/
theorem Hops.unique {n : Nat} {s s' : ScopeId} (hs : h.Hops id n s) (hs' : h.Hops id n s') :
    s = s' := by
  induction hs with
  | here =>
    cases hs'
    rfl
  | outwards hp _ ih =>
    cases hs' with
    | outwards hp' hs' =>
      obtain rfl := Option.some.inj (hp.symm.trans hp')
      exact ih hs'

/-- The parents are followed to the scope at a distance, or to an outermost scope before it. -/
theorem ancestorFrom_cases (h : Heap) (distance : Int) (left hops : Nat) (id : ScopeId) :
    (∃ home, h.Hops id left home ∧ h.ancestorFrom distance left hops id = .ok home) ∨
      (∀ home, ¬ h.Hops id left home) ∧
        ∃ depth, h.ancestorFrom distance left hops id = .error (.tooFar distance depth) := by
  induction left generalizing hops id with
  | zero => exact .inl ⟨id, .here, rfl⟩
  | succ left ih =>
    rw [ancestorFrom]
    cases hp : h.parent? id with
    | none =>
      refine .inr ⟨?_, hops, rfl⟩
      intro home hhome
      cases hhome with
      | outwards hp' _ => simp [hp] at hp'
    | some p =>
      rcases ih (hops + 1) p with ⟨home, hhome, heq⟩ | ⟨hnone, depth, heq⟩
      · exact .inl ⟨home, .outwards hp hhome, heq⟩
      · refine .inr ⟨?_, depth, heq⟩
        intro home hhome
        cases hhome with
        | outwards hp' hrest =>
          obtain rfl := Option.some.inj (hp.symm.trans hp')
          exact hnone home hrest

theorem ancestor_of_hops {distance : Int} {home : ScopeId}
    (hhome : h.Hops id distance.toNat home) : h.ancestor id distance = .ok home := by
  rcases ancestorFrom_cases h distance distance.toNat 0 id with ⟨s, hs, heq⟩ | ⟨hnone, -⟩
  · rw [ancestor, heq, hs.unique hhome]
  · exact absurd hhome (hnone home)

theorem ancestor_of_no_hops {distance : Int} (hnone : ∀ home, ¬ h.Hops id distance.toNat home) :
    ∃ depth, h.ancestor id distance = .error (.tooFar distance depth) := by
  rcases ancestorFrom_cases h distance distance.toNat 0 id with ⟨s, hs, -⟩ | ⟨-, hfar⟩
  · exact absurd hs (hnone s)
  · exact hfar

/-! ## Names -/

/-- Looking for a name finds the nearest scope that binds it. -/
theorem binder?_of_nearest (hf : h.Forest) {name : Text} {d : Nat} {home : ScopeId}
    (hn : h.Nearest id name d home) : h.binder? name id = some home := by
  obtain ⟨hhops, hbinds, hleast⟩ := hn
  induction hhops with
  | here =>
    unfold binder?
    rw [if_pos hbinds]
  | @outwards id p home n hp _ ih =>
    have hfree : ¬ (h.slots id).has name := by
      intro hhas
      have hle := hleast 0 id .here hhas
      omega
    unfold binder?
    rw [if_neg hfree, hp]
    dsimp only
    rw [if_pos (hf id p hp)]
    apply ih hbinds
    intro k s hs hhas
    have hle := hleast (k + 1) s (.outwards hp hs) hhas
    omega

/-- Looking for a name finds nothing if no scope out from here binds it. -/
theorem binder?_eq_none {name : Text}
    (hfree : ∀ n s, h.Hops id n s → ¬ (h.slots s).has name) : h.binder? name id = none := by
  induction id using Nat.strongRecOn with
  | ind id ih =>
    unfold binder?
    rw [if_neg (hfree 0 id .here)]
    cases hp : h.parent? id with
    | none => rfl
    | some p =>
      dsimp only
      by_cases hlt : p < id
      · rw [if_pos hlt]
        apply ih p hlt
        intro n s hs
        exact hfree (n + 1) s (.outwards hp hs)
      · rw [if_neg hlt]

/-- If some scope out from here binds a name, one of them is the nearest. -/
theorem exists_nearest {name : Text} {n : Nat} {s : ScopeId} (hs : h.Hops id n s)
    (hbinds : (h.slots s).has name) : ∃ d home, h.Nearest id name d home := by
  induction n using Nat.strongRecOn generalizing s with
  | ind n ih =>
    by_cases hcloser : ∃ k s', k < n ∧ h.Hops id k s' ∧ (h.slots s').has name
    · obtain ⟨k, s', hlt, hs', hbinds'⟩ := hcloser
      exact ih k hlt hs' hbinds'
    · refine ⟨n, s, hs, hbinds, ?_⟩
      intro k s' hs' hbinds'
      by_cases hlt : k < n
      · exact absurd ⟨k, s', hlt, hs', hbinds'⟩ hcloser
      · omega

theorem not_has_of_no_nearest {name : Text} (hnone : ∀ d home, ¬ h.Nearest id name d home) :
    ∀ n s, h.Hops id n s → ¬ (h.slots s).has name := by
  intro n s hs hbinds
  obtain ⟨d, home, hn⟩ := exists_nearest hs hbinds
  exact hnone d home hn

/-! ## Writing -/

/-- A scope that binds a name exists. -/
theorem lt_size_of_has {home : ScopeId} {name : Text} (hbinds : (h.slots home).has name) :
    home < h.scopes.size := by
  by_cases hlt : home < h.scopes.size
  · exact hlt
  · simp [slots, hlt, Entries.has, Entries.get?] at hbinds

theorem assigned_define {home : ScopeId} {name : Text} (hbinds : (h.slots home).has name)
    (v : Value) : h.Assigned (h.define home name v) home name v := by
  have hlt := lt_size_of_has hbinds
  constructor
  · simp [slots_define, hlt, Entries.get?_put]
  · intro s x hne
    rw [slots_define]
    by_cases hs : home = s
    · subst hs
      have hx : ¬ name = x := fun hx => hne ⟨rfl, hx.symm⟩
      simp [hlt, Entries.get?_put, hx]
    · simp [hs]
  · exact parent?_define h home name v
  · exact nextScope_define h home name v
  · rfl
  · rfl

namespace Assigned

variable {h' : Heap} {home : ScopeId} {name : Text} {v : Value}

theorem has (ha : h.Assigned h' home name v) (hbinds : (h.slots home).has name) (s : ScopeId)
    (x : Text) : (h'.slots s).has x = (h.slots s).has x := by
  by_cases hsx : s = home ∧ x = name
  · obtain ⟨rfl, rfl⟩ := hsx
    rw [Entries.has_of_get? ha.value, hbinds]
  · unfold Entries.has
    rw [ha.others s x hsx]

theorem hops_iff (ha : h.Assigned h' home name v) {n : Nat} {s : ScopeId} :
    h'.Hops id n s ↔ h.Hops id n s := by
  constructor
  · intro hs
    induction hs with
    | here => exact .here
    | outwards hp _ ih => exact .outwards ((ha.parents _).symm.trans hp) ih
  · intro hs
    induction hs with
    | here => exact .here
    | outwards hp _ ih => exact .outwards ((ha.parents _).trans hp) ih

/-- The nearest scope that binds a name stays the nearest. -/
theorem nearest (ha : h.Assigned h' home name v) {d : Nat} (hn : h.Nearest id name d home) :
    h'.Nearest id name d home := by
  refine ⟨ha.hops_iff.mpr hn.hops, ?_, ?_⟩
  · rw [ha.has hn.binds, hn.binds]
  · intro k s hs hbinds
    rw [ha.has hn.binds] at hbinds
    exact hn.least k s (ha.hops_iff.mp hs) hbinds

end Assigned

/-! ## The two ways of access -/

section

variable {name : Text}

theorem get_of_nearest (hf : h.Forest) {d : Nat} {home : ScopeId} {value : Value}
    (hn : h.Nearest id name d home) (hvalue : (h.slots home).get? name = some value) :
    h.get id name = .ok value := by
  simp [get, binder?_of_nearest hf hn, hvalue]

theorem getAt_of_nearest {d : Nat} {home : ScopeId} {value : Value}
    (hn : h.Nearest id name d home) (hvalue : (h.slots home).get? name = some value) :
    h.getAt id d name = .ok value := by
  have ha : h.ancestor id d = .ok home := ancestor_of_hops hn.hops
  rw [getAt_of_ancestor name ha, hvalue]

theorem assign_of_nearest (hf : h.Forest) {d : Nat} {home : ScopeId}
    (hn : h.Nearest id name d home) (v : Value) :
    h.assign id name v = .ok (h.define home name v) := by
  simp [assign, binder?_of_nearest hf hn]

theorem assignAt_of_nearest {d : Nat} {home : ScopeId} (hn : h.Nearest id name d home)
    (v : Value) : h.assignAt id d name v = .ok (h.define home name v) := by
  have ha : h.ancestor id d = .ok home := ancestor_of_hops hn.hops
  have hb : h.binderAt id d name = .ok home := by
    rw [binderAt_of_ancestor name ha, if_pos hn.binds]
  simp only [assignAt, hb]
  rfl

theorem get?_eq_none_of_not_has {es : Entries Value} (hfree : ¬ es.has name) :
    es.get? name = none := by
  simpa [Entries.has] using hfree

theorem code_access_iff (fault : AccessFault) :
    (RuntimeFault.access fault).code = "E4011" ↔ fault.isMismatch = false := by
  cases hf : fault.isMismatch with
  | false => simp [RuntimeFault.code, hf]
  | true =>
    have hne : ("E9001" : Text) ≠ "E4011" := by decide
    simp [RuntimeFault.code, hf, hne]

/-- At every distance a name that is bound nowhere is missed, and the fault tells whether the
distance led to an outermost scope. -/
theorem exists_fault_of_unbound (hfree : ∀ n s, h.Hops id n s → ¬ (h.slots s).has name)
    (distance : Int) : ∃ fault, h.getAt id distance name = .error fault ∧
      h.binderAt id distance name = .error fault ∧
      (fault = .undefined name ∧ h.Lands id distance ∨
        fault.isMismatch ∧ ¬ h.Lands id distance) := by
  by_cases hreach : ∃ home, h.Hops id distance.toNat home
  · obtain ⟨home, hhome⟩ := hreach
    have ha := ancestor_of_hops hhome
    have hmiss := hfree _ _ hhome
    refine ⟨h.missing home name distance, ?_, ?_, ?_⟩
    · rw [getAt_of_ancestor name ha, get?_eq_none_of_not_has hmiss]
    · rw [binderAt_of_ancestor name ha, if_neg hmiss]
    · cases hp : h.parent? home with
      | none => exact .inl ⟨by simp [missing, hp], home, hhome, hp⟩
      | some p =>
        refine .inr ⟨by simp [missing, hp, AccessFault.isMismatch], ?_⟩
        rintro ⟨root, hroot, hnone⟩
        rw [← hhome.unique hroot, hp] at hnone
        contradiction
  · have hnone : ∀ home, ¬ h.Hops id distance.toNat home := by
      intro home hhome
      exact hreach ⟨home, hhome⟩
    obtain ⟨depth, ha⟩ := ancestor_of_no_hops hnone
    refine ⟨.tooFar distance depth, ?_, ?_, .inr ⟨rfl, ?_⟩⟩
    · simp only [getAt, ha]
      rfl
    · simp only [binderAt, ha]
      rfl
    · rintro ⟨root, hroot, -⟩
      exact hnone root hroot

end

end Heap

/-! ## The variable that a reference is linked to -/

namespace Eval

variable {m : Machine} {token : Token} {link : Link} {fault : AccessFault}

theorem readLink_of_error
    (hget : m.heap.getAt m.scope link.hops token.lexeme = .error fault) :
    readLink token (some link) m = .error ⟨.access fault, token⟩ m := by
  simp [readLink, hget]

theorem writeLink_of_error (v : Value)
    (hbinder : m.heap.binderAt m.scope link.hops token.lexeme = .error fault) :
    writeLink token (some link) v m = .error ⟨.access fault, token⟩ m := by
  simp [writeLink, hbinder]

end Eval

namespace Heap

/-- Access by name and access by distance agree. At the distance of the nearest scope that binds a
name both read the value there, and both write there: the new value is what both then read, and
every other variable keeps its value. A name that no scope from here outwards binds is undefined,
and at every distance it is undefined if the distance leads to an outermost scope, and a mismatch
of the scopes if not; a program that reads or writes at such a distance fails as it stands. -/
theorem access_by_name_and_distance_agree {h : Heap} (hf : h.Forest) (id : ScopeId) (name : Text) :
    (∀ d home, h.Nearest id name d home →
      (∃ value, (h.slots home).get? name = some value ∧ h.get id name = .ok value ∧
        h.getAt id d name = .ok value) ∧
      ∀ v, ∃ h', h.assign id name v = .ok h' ∧ h.assignAt id d name v = .ok h' ∧
        h'.get id name = .ok v ∧ h'.getAt id d name = .ok v ∧ h.Assigned h' home name v) ∧
    ((∀ d home, ¬ h.Nearest id name d home) →
      (RuntimeFault.access (.undefined name)).code = "E4011" ∧
      h.get id name = .error (.undefined name) ∧
      (∀ v, h.assign id name v = .error (.undefined name)) ∧
      ∀ d : Int, ∃ fault, h.getAt id d name = .error fault ∧
        (∀ v, h.assignAt id d name v = .error fault) ∧
        ((RuntimeFault.access fault).code = "E4011" ↔ h.Lands id d) ∧
        (fault.isMismatch ↔ ¬ h.Lands id d) ∧
        ∀ (m : Machine) (token : Token) (link : Link), m.heap = h → m.scope = id →
          token.lexeme = name → link.hops = d →
          Eval.readLink token (some link) m = .error ⟨.access fault, token⟩ m ∧
          ∀ v, Eval.writeLink token (some link) v m = .error ⟨.access fault, token⟩ m) := by
  constructor
  · intro d home hn
    constructor
    · obtain ⟨value, hvalue⟩ := Option.isSome_iff_exists.mp hn.binds
      exact ⟨value, hvalue, get_of_nearest hf hn hvalue, getAt_of_nearest hn hvalue⟩
    · intro v
      have ha := assigned_define hn.binds v
      have hn' := ha.nearest hn
      have hf' := hf.define home name v
      exact ⟨h.define home name v, assign_of_nearest hf hn v, assignAt_of_nearest hn v,
        get_of_nearest hf' hn' ha.value, getAt_of_nearest hn' ha.value, ha⟩
  · intro hnone
    have hfree := not_has_of_no_nearest hnone
    have hbinder := binder?_eq_none hfree
    refine ⟨rfl, by simp [get, hbinder], by simp [assign, hbinder], ?_⟩
    intro d
    obtain ⟨fault, hget, hbinderAt, hfault⟩ := exists_fault_of_unbound hfree d
    refine ⟨fault, hget, ?_, ?_, ?_, ?_⟩
    · intro v
      simp only [assignAt, hbinderAt]
      rfl
    · rw [code_access_iff]
      rcases hfault with ⟨rfl, hlands⟩ | ⟨hmismatch, hlands⟩
      · simp [AccessFault.isMismatch, hlands]
      · simp [hmismatch, hlands]
    · rcases hfault with ⟨rfl, hlands⟩ | ⟨hmismatch, hlands⟩
      · simp [AccessFault.isMismatch, hlands]
      · simp [hmismatch, hlands]
    · rintro m token link rfl rfl rfl rfl
      exact ⟨Eval.readLink_of_error hget, fun v => Eval.writeLink_of_error v hbinderAt⟩

/-- Two scopes side by side, of which one shadows a name of the outermost scope. -/
def siblings : Heap :=
  ((((({} : Heap).define globals "x" (.bool true)).addScope globals [("y", .none)]).addScope 1
    [("x", .bool false)]).addScope 1 [])

theorem forest_siblings : siblings.Forest :=
  (((forest_empty.define _ _ _).addScope (by decide) _).addScope (by decide) _).addScope
    (by decide) _

theorem nearest_siblings : siblings.Nearest 3 "x" 2 globals := by
  refine ⟨.outwards rfl (.outwards rfl .here), rfl, ?_⟩
  intro k s hs hbinds
  rcases k with _ | _ | k
  · cases hs
    contradiction
  · cases hs with
    | outwards hp hs =>
      obtain rfl := Option.some.inj hp
      cases hs
      contradiction
  · omega

theorem unbound_siblings (d : Nat) (home : ScopeId) : ¬ siblings.Nearest 3 "z" d home := by
  intro hn
  have hlt : home < 4 := lt_size_of_has hn.binds
  have hfree : ∀ s < 4, (siblings.slots s).has "z" = false := by decide
  have hbinds := hn.binds
  rw [hfree home hlt] at hbinds
  contradiction

theorem access_by_name_and_distance_agree_siblings :
    siblings.Forest ∧ siblings.Nearest 3 "x" 2 globals ∧
      (∀ d home, ¬ siblings.Nearest 3 "z" d home) ∧
      (∃ value, (siblings.slots globals).get? "x" = some value ∧
        siblings.get 3 "x" = .ok value ∧ siblings.getAt 3 (2 : Nat) "x" = .ok value) ∧
      siblings.get 3 "z" = .error (.undefined "z") ∧
      ∃ fault, siblings.getAt 3 (-1) "z" = .error fault ∧
        (fault.isMismatch ↔ ¬ siblings.Lands 3 (-1)) := by
  obtain ⟨hbound, -⟩ := access_by_name_and_distance_agree forest_siblings 3 "x"
  obtain ⟨-, hunbound⟩ := access_by_name_and_distance_agree forest_siblings 3 "z"
  obtain ⟨-, hget, -, hfault⟩ := hunbound unbound_siblings
  obtain ⟨fault, hgetAt, -, -, hlands, -⟩ := hfault (-1)
  exact ⟨forest_siblings, nearest_siblings, unbound_siblings, (hbound 2 _ nearest_siblings).1, hget,
    fault, hgetAt, hlands⟩

end Heap

end Scriptlet

import Scriptlet.Proofs.Heap.Access
import Scriptlet.Proofs.Scope.Linking
import Scriptlet.Proofs.Value.Operators

/-!
# Scopes of the heap and scopes of the program

When a program runs, every scope of the heap belongs to one scope of the program. A world keeps, for
every scope of the heap, the names that the program declares there by its end. A scope fits a site
(`Chain`) if it and its parents belong to the frames of the site, one after the other, and bind at
least the names that are ready there. A function fits if its scope fits the site at which it was
declared and its references are known; and a heap is sound (`Sound`) if all it holds fits.

Heaps and worlds only grow (`Grows`), and what fits goes on to fit. So a function can be called long
after the scope in which it was made has ended.
-/

namespace Scriptlet

/-- The names that belong to each scope of a heap by its end. -/
abbrev World := List (List Text)

/-- A heap that has grown, together with its world. -/
structure Grows (W : World) (h : Heap) (W' : World) (h' : Heap) : Prop where
  world : W <+: W'
  parent : ∀ id p, h.parent? id = some p → h'.parent? id = some p
  slots : ∀ id x, (h.slots id).has x → (h'.slots id).has x
  identity : h.nextIdentity ≤ h'.nextIdentity

namespace Grows

variable {W W' W'' : World} {h h' h'' : Heap}

theorem refl (W : World) (h : Heap) : Grows W h W h :=
  ⟨List.prefix_refl W, fun _ _ hp => hp, fun _ _ hx => hx, Nat.le_refl _⟩

theorem trans (hg : Grows W h W' h') (hg' : Grows W' h' W'' h'') : Grows W h W'' h'' :=
  ⟨hg.world.trans hg'.world, fun id p hp => hg'.parent id p (hg.parent id p hp),
    fun id x hx => hg'.slots id x (hg.slots id x hx), Nat.le_trans hg.identity hg'.identity⟩

theorem getElem? (hg : Grows W h W' h') {id : ScopeId} {names : List Text}
    (hid : W[id]? = some names) : W'[id]? = some names := by
  obtain ⟨more, rfl⟩ := hg.world
  have hlt := (List.getElem?_eq_some_iff.mp hid).1
  rwa [List.getElem?_append_left hlt]

/-- A change of something other than scopes. -/
theorem of_scopes_eq (hs : h'.scopes = h.scopes) (hi : h.nextIdentity ≤ h'.nextIdentity) :
    Grows W h W h' := by
  refine ⟨List.prefix_refl W, fun id p hp => ?_, fun id x hx => ?_, hi⟩
  · rwa [Heap.parent?, hs]
  · rwa [Heap.slots, hs]

end Grows

/-! ## Chains of scopes -/

/-- A scope that fits a site. -/
def Chain (W : World) (h : Heap) : ScopeId → Site → Prop
  | id, [] => id = Heap.globals
  | id, f :: Γ => ∃ p, h.parent? id = some p ∧ W[id]? = some f.names ∧
    (∀ x ∈ f.ready, (h.slots id).has x) ∧ Chain W h p Γ

namespace Chain

variable {W W' : World} {h h' : Heap} {id : ScopeId} {Γ : Site}

theorem mono (hc : Chain W h id Γ) (hg : Grows W h W' h') : Chain W' h' id Γ := by
  induction Γ generalizing id with
  | nil => exact hc
  | cons f Γ ih =>
    obtain ⟨p, hp, hn, hr, hc⟩ := hc
    exact ⟨p, hg.parent id p hp, hg.getElem? hn, fun x hx => hg.slots id x (hr x hx), ih hc⟩

theorem await (hc : Chain W h id Γ) (x : Text) : Chain W h id (Γ.await x) := by
  cases Γ with
  | nil => exact hc
  | cons f Γ => exact hc

theorem add (hc : Chain W h id Γ) {x : Text} (hx : (h.slots id).has x) :
    Chain W h id (Γ.add x) := by
  cases Γ with
  | nil => exact hc
  | cons f Γ =>
    obtain ⟨p, hp, hn, hr, hc⟩ := hc
    exact ⟨p, hp, hn, List.forall_mem_cons.mpr ⟨hx, hr⟩, hc⟩

theorem addAll {xs : List Text} (hc : Chain W h id Γ) (hxs : ∀ x ∈ xs, (h.slots id).has x) :
    Chain W h id (Γ.addAll xs) := by
  induction xs generalizing Γ with
  | nil => exact hc
  | cons x xs ih =>
    rw [List.forall_mem_cons] at hxs
    exact ih (hc.add hxs.1) hxs.2

theorem depth (hc : Chain W h id Γ) (hroot : h.parent? Heap.globals = none) :
    h.Depth id Γ.length := by
  induction Γ generalizing id with
  | nil => rw [show id = Heap.globals from hc]; exact .root hroot
  | cons f Γ ih =>
    obtain ⟨p, hp, -, -, hc⟩ := hc
    exact .inside hp (ih hc)

/-- At every distance up to the length of the site there is a scope, which fits the rest of it. -/
theorem ancestorFrom (hc : Chain W h id Γ) {k : Nat} (hk : k ≤ Γ.length) (distance : Int)
    (hops : Nat) :
    ∃ home, h.ancestorFrom distance k hops id = .ok home ∧ Chain W h home (Γ.drop k) := by
  induction k generalizing id Γ hops with
  | zero => exact ⟨id, rfl, hc⟩
  | succ k ih =>
    cases Γ with
    | nil => simp at hk
    | cons f Γ =>
      obtain ⟨p, hp, -, -, hc⟩ := hc
      obtain ⟨home, ha, hh⟩ := ih hc (Nat.le_of_succ_le_succ hk) (hops + 1)
      exact ⟨home, by rw [Heap.ancestorFrom, hp]; exact ha, hh⟩

/-- The scope at the distance of a frame belongs to this frame. -/
theorem ancestor (hc : Chain W h id Γ) {k : Nat} {f : Frame} (hf : Γ[k]? = some f) :
    ∃ home p, h.ancestor id k = .ok home ∧ h.parent? home = some p ∧ W[home]? = some f.names ∧
      ∀ x ∈ f.ready, (h.slots home).has x := by
  obtain ⟨hlt, rfl⟩ := List.getElem?_eq_some_iff.mp hf
  obtain ⟨home, ha, hh⟩ := hc.ancestorFrom (Nat.le_of_lt hlt) k 0
  rw [List.drop_eq_getElem_cons hlt] at hh
  obtain ⟨p, hp, hn, hr, -⟩ := hh
  exact ⟨home, p, ha, hp, hn, hr⟩

/-- The scope at the distance of all frames is the outermost one. -/
theorem ancestor_length (hc : Chain W h id Γ) : h.ancestor id Γ.length = .ok Heap.globals := by
  obtain ⟨home, ha, hh⟩ := hc.ancestorFrom (Nat.le_refl _) Γ.length 0
  rw [List.drop_length] at hh
  rw [← show home = Heap.globals from hh]
  exact ha

end Chain

/-! ## Values that fit -/

/-- A reference that stands in a list at the number of its link. -/
def Reference.Known (T : List (Reference (Option Link))) (ref : Reference (Option Link)) : Prop :=
  ∃ l, ref.link = some l ∧ T[l.ordinal]? = some ref

theorem Reference.Known.mono {T T' : List (Reference (Option Link))} {ref : Reference (Option Link)}
    (hk : ref.Known T) (hT : T <+: T') : ref.Known T' := by
  obtain ⟨l, hl, hget⟩ := hk
  obtain ⟨more, rfl⟩ := hT
  have hlt := (List.getElem?_eq_some_iff.mp hget).1
  exact ⟨l, hl, by rwa [List.getElem?_append_left hlt]⟩

/-- References that are numbered from zero on are known. -/
theorem Numbered.known {records : List LinkRecord} {refs : List (Reference (Option Link))}
    (h : Numbered 0 records refs) : ∀ ref ∈ refs, ref.Known refs := by
  intro ref href
  obtain ⟨i, hi⟩ := List.mem_iff_getElem?.mp href
  obtain ⟨record, -, hm⟩ := h.getElem? hi
  rw [Nat.zero_add] at hm
  exact ⟨_, hm.link, hi⟩

/-- A function at a site, all of whose references are known. -/
structure Function.Known (T : List (Reference (Option Link))) (Γ : Site) (f : LinkedFunction) :
    Prop where
  wellFormed : f.WellFormed
  references : ∀ ref ∈ f.references Γ, ref.Known T

/-- Methods at a site, all of whose references are known. -/
structure Declaration.KnownList (T : List (Reference (Option Link))) (Γ : Site)
    (ds : List (Declaration (Option Link))) : Prop where
  wellFormed : Declaration.WellFormedList ds
  references : ∀ ref ∈ Declaration.referencesList Γ ds, ref.Known T

theorem Declaration.KnownList.of_cons {T : List (Reference (Option Link))} {Γ : Site}
    {d : Declaration (Option Link)} {ds : List (Declaration (Option Link))}
    (h : Declaration.KnownList T Γ (d :: ds)) :
    d.function.Known T Γ ∧ Declaration.KnownList T Γ ds := by
  obtain ⟨hw, hr⟩ := h
  obtain ⟨_, _, function⟩ := d
  rw [Declaration.referencesList, List.forall_mem_append] at hr
  exact ⟨⟨hw.1, hr.1⟩, hw.2, hr.2⟩

/-- A function whose scope fits the site at which it was declared. -/
def Closure.Fits (T : List (Reference (Option Link))) (W : World) (h : Heap) (c : Closure) : Prop :=
  ∃ Γ, Chain W h c.scope Γ ∧ c.function.Known T Γ

/-- A method, which lacks the scope of its receiver. -/
def Closure.FitsUnbound (T : List (Reference (Option Link))) (W : World) (h : Heap) (c : Closure) :
    Prop :=
  ∃ Γ, Chain W h c.scope Γ ∧ c.function.Known T Γ.withReceiver

/-- Methods that fit. -/
def MethodsFit (T : List (Reference (Option Link))) (W : World) (h : Heap) (ms : Entries Closure) :
    Prop :=
  ∀ x f, ms.get? x = some f → f.FitsUnbound T W h

/-- What a class adds to its superclass: methods that fit, under a number that is used up. -/
structure ClassBody.Fits (T : List (Reference (Option Link))) (W : World) (h : Heap)
    (body : ClassBody) : Prop where
  methods : MethodsFit T W h body.methods
  classMethods : MethodsFit T W h body.classMethods
  identity : body.identity < h.nextIdentity

/-- A class all of whose methods fit, those of its superclasses included. It is younger than its
superclass. -/
def ClassValue.Fits (T : List (Reference (Option Link))) (W : World) (h : Heap) : ClassValue → Prop
  | .base body => body.Fits T W h
  | .derived body superclass =>
    body.Fits T W h ∧ superclass.identity < body.identity ∧ superclass.Fits T W h

/-- A value all of whose functions fit. -/
def Value.Fits (T : List (Reference (Option Link))) (W : World) (h : Heap) : Value → Prop
  | .function c => c.Fits T W h
  | .cls c => c.Fits T W h
  | .object _ c => c.Fits T W h
  | _ => True

section

variable {T T' : List (Reference (Option Link))} {W W' : World} {h h' : Heap}

theorem Function.Known.mono {f : LinkedFunction} {Γ : Site} (hf : f.Known T Γ) (hT : T <+: T') :
    f.Known T' Γ :=
  ⟨hf.wellFormed, fun ref href => (hf.references ref href).mono hT⟩

theorem Closure.Fits.mono {c : Closure} (hc : c.Fits T W h) (hT : T <+: T')
    (hg : Grows W h W' h') : c.Fits T' W' h' := by
  obtain ⟨Γ, hΓ, hf⟩ := hc
  exact ⟨Γ, hΓ.mono hg, hf.mono hT⟩

theorem Closure.FitsUnbound.mono {c : Closure} (hc : c.FitsUnbound T W h) (hT : T <+: T')
    (hg : Grows W h W' h') : c.FitsUnbound T' W' h' := by
  obtain ⟨Γ, hΓ, hf⟩ := hc
  exact ⟨Γ, hΓ.mono hg, hf.mono hT⟩

theorem MethodsFit.mono {ms : Entries Closure} (hm : MethodsFit T W h ms) (hT : T <+: T')
    (hg : Grows W h W' h') : MethodsFit T' W' h' ms :=
  fun x f hf => (hm x f hf).mono hT hg

theorem MethodsFit.nil : MethodsFit T W h [] := by
  intro x f hf
  cases hf

theorem MethodsFit.put {ms : Entries Closure} (hms : MethodsFit T W h ms) {name : Text}
    {f : Closure} (hf : f.FitsUnbound T W h) : MethodsFit T W h (ms.put name f) := by
  intro x g hg
  rw [Entries.get?_put] at hg
  split at hg
  · cases hg; exact hf
  · exact hms x g hg

theorem ClassBody.Fits.mono {body : ClassBody} (hb : body.Fits T W h) (hT : T <+: T')
    (hg : Grows W h W' h') : body.Fits T' W' h' :=
  ⟨hb.methods.mono hT hg, hb.classMethods.mono hT hg, Nat.lt_of_lt_of_le hb.identity hg.identity⟩

theorem ClassValue.Fits.mono {c : ClassValue} (hc : c.Fits T W h) (hT : T <+: T')
    (hg : Grows W h W' h') : c.Fits T' W' h' := by
  induction c with
  | base body => exact ClassBody.Fits.mono hc hT hg
  | derived body superclass ih => exact ⟨hc.1.mono hT hg, hc.2.1, ih hc.2.2⟩

/-- Every class that fits has a number that is used up. -/
theorem ClassValue.Fits.identity {c : ClassValue} (hc : c.Fits T W h) :
    c.identity < h.nextIdentity := by
  cases c with
  | base body => exact ClassBody.Fits.identity hc
  | derived body superclass => exact hc.1.identity

theorem Value.Fits.mono {v : Value} (hv : v.Fits T W h) (hT : T <+: T') (hg : Grows W h W' h') :
    v.Fits T' W' h' := by
  cases v with
  | function c => exact Closure.Fits.mono hv hT hg
  | cls c => exact ClassValue.Fits.mono hv hT hg
  | object _ c => exact ClassValue.Fits.mono hv hT hg
  | _ => trivial

theorem Value.IsPlain.fits {v : Value} (hv : v.IsPlain) : v.Fits T W h := by
  cases v with
  | function | cls | object => exact hv.elim
  | _ => trivial

/-- What fits goes on to fit while the heap grows. -/
theorem Value.Fits.grow {v : Value} (hv : v.Fits T W h) (hg : Grows W h W' h') : v.Fits T W' h' :=
  hv.mono (List.prefix_refl T) hg

theorem ClassValue.Fits.method? {c : ClassValue} (hc : c.Fits T W h) {x : Text} {f : Closure}
    (hf : c.method? x = some f) : f.FitsUnbound T W h := by
  induction c with
  | base body => exact ClassBody.Fits.methods hc x f hf
  | derived body superclass ih =>
    unfold ClassValue.method? at hf
    split at hf
    · next hm => cases hf; exact hc.1.methods x _ hm
    · exact ih hc.2.2 hf

theorem ClassValue.Fits.classMethod? {c : ClassValue} (hc : c.Fits T W h) {x : Text} {f : Closure}
    (hf : c.classMethod? x = some f) : f.FitsUnbound T W h := by
  induction c with
  | base body => exact ClassBody.Fits.classMethods hc x f hf
  | derived body superclass ih =>
    unfold ClassValue.classMethod? at hf
    split at hf
    · next hm => cases hf; exact hc.1.classMethods x _ hm
    · exact ih hc.2.2 hf

end

/-! ## Sound heaps -/

/-- A heap whose scopes bind only names that belong there and that holds only what fits. Every scope
but the outermost was made after its parent. The superclass of a class is never bound in the
outermost scope, and is a class where it is bound. -/
structure Sound (T : List (Reference (Option Link))) (W : World) (h : Heap) : Prop where
  size : W.length = h.nextScope
  nonempty : Heap.globals < h.nextScope
  root : h.parent? Heap.globals = none
  parents : ∀ id, id < h.nextScope → id ≠ Heap.globals → ∃ p, h.parent? id = some p ∧ p < id
  names : ∀ id x, (h.slots id).has x → id ≠ Heap.globals → ∃ names, W[id]? = some names ∧ x ∈ names
  outermost : ¬ (h.slots Heap.globals).has "super"
  superclass : ∀ id v, (h.slots id).get? "super" = some v → ∃ c, v = .cls c
  slots : ∀ id x v, (h.slots id).get? x = some v → v.Fits T W h
  fields : ∀ id x v, h.field? id x = some v → v.Fits T W h

namespace Sound

variable {T T' : List (Reference (Option Link))} {W : World} {h : Heap}

theorem mono (hs : Sound T W h) (hT : T <+: T') : Sound T' W h :=
  { hs with
    slots := fun id x v hv => (hs.slots id x v hv).mono hT (.refl W h)
    fields := fun id x v hv => (hs.fields id x v hv).mono hT (.refl W h) }

theorem grows_define (id : ScopeId) (x : Text) (v : Value) : Grows W h W (h.define id x v) := by
  refine ⟨List.prefix_refl W, fun j p hp => ?_, fun j y hy => ?_, Nat.le_refl _⟩
  · rwa [Heap.parent?_define]
  · rw [Heap.slots_define]
    split
    · exact (Entries.has_put ..).mpr (.inr hy)
    · exact hy

/-- A name that belongs to a scope may be bound there to a value that fits once it is bound. -/
theorem define (hs : Sound T W h) {id : ScopeId} {x : Text} {v : Value} (hx : x ≠ "super")
    (hid : id ≠ Heap.globals → ∃ names, W[id]? = some names ∧ x ∈ names)
    (hv : v.Fits T W (h.define id x v)) : Sound T W (h.define id x v) := by
  have hg : Grows W h W (h.define id x v) := grows_define id x v
  have hget : ∀ j y w, ((h.define id x v).slots j).get? y = some w →
      (id = j ∧ x = y ∧ w = v) ∨ (h.slots j).get? y = some w := by
    intro j y w hw
    rw [Heap.slots_define] at hw
    split at hw
    · next hj =>
      rw [Entries.get?_put] at hw
      split at hw
      · next hxy => exact .inl ⟨hj.1, hxy, (Option.some.inj hw).symm⟩
      · exact .inr hw
    · exact .inr hw
  have hhas : ∀ j y, ((h.define id x v).slots j).has y → (id = j ∧ x = y) ∨ (h.slots j).has y := by
    intro j y hy
    obtain ⟨w, hw⟩ := Option.isSome_iff_exists.mp hy
    rcases hget j y w hw with ⟨hj, hxy, -⟩ | hw
    · exact .inl ⟨hj, hxy⟩
    · exact .inr (Entries.has_of_get? hw)
  exact {
    size := by rw [Heap.nextScope_define]; exact hs.size
    nonempty := by rw [Heap.nextScope_define]; exact hs.nonempty
    root := by rw [Heap.parent?_define]; exact hs.root
    parents := by
      intro j hj hne
      rw [Heap.nextScope_define] at hj
      rw [Heap.parent?_define]
      exact hs.parents j hj hne
    names := by
      intro j y hy hj
      rcases hhas j y hy with ⟨rfl, rfl⟩ | hy
      · exact hid hj
      · exact hs.names j y hy hj
    outermost := by
      intro hsup
      rcases hhas _ _ hsup with ⟨-, hxy⟩ | hsup
      · exact hx hxy
      · exact hs.outermost hsup
    superclass := by
      intro j w hw
      rcases hget j _ w hw with ⟨-, hxy, -⟩ | hw
      · exact absurd hxy hx
      · exact hs.superclass j w hw
    slots := by
      intro j y w hw
      rcases hget j y w hw with ⟨-, -, rfl⟩ | hw
      · exact hv
      · exact (hs.slots j y w hw).grow hg
    fields := fun j y w hw => (hs.fields j y w hw).grow hg }

theorem grows_addScope (parent : ScopeId) (slots : Entries Value) (names : List Text) :
    Grows W h (W ++ [names]) (h.addScope parent slots) := by
  refine ⟨List.prefix_append W [names], fun j p hp => ?_, fun j y hy => ?_, Nat.le_refl _⟩
  · rw [Heap.parent?_addScope, if_neg]
    · exact hp
    · rintro rfl
      rw [Heap.parent?_nextScope] at hp
      cases hp
  · rw [Heap.slots_addScope, if_neg]
    · exact hy
    · rintro rfl
      rw [Heap.slots_nextScope] at hy
      cases hy

/-- A scope may be added inside another whose variables have names that belong there. -/
theorem addScope (hs : Sound T W h) {parent : ScopeId} {slots : Entries Value} {names : List Text}
    (hparent : parent < h.nextScope) (hnames : ∀ x, slots.has x → x ∈ names)
    (hsuper : ∀ v, slots.get? "super" = some v → ∃ c, v = .cls c)
    (hslots : ∀ x v, slots.get? x = some v → v.Fits T W h) :
    Sound T (W ++ [names]) (h.addScope parent slots) := by
  have hg : Grows W h (W ++ [names]) (h.addScope parent slots) := grows_addScope parent slots names
  have hne : Heap.globals ≠ h.nextScope := Nat.ne_of_lt hs.nonempty
  have hold : ∀ id x, ((h.addScope parent slots).slots id).has x →
      (id = h.nextScope ∧ slots.has x) ∨ (h.slots id).has x := by
    intro id x hx
    rw [Heap.slots_addScope] at hx
    split at hx
    · next hid => exact .inl ⟨hid, hx⟩
    · exact .inr hx
  have hget : ∀ id x v, ((h.addScope parent slots).slots id).get? x = some v →
      slots.get? x = some v ∨ (h.slots id).get? x = some v := by
    intro id x v hv
    rw [Heap.slots_addScope] at hv
    split at hv
    · exact .inl hv
    · exact .inr hv
  exact {
    size := by rw [List.length_append, hs.size, Heap.nextScope_addScope]; rfl
    nonempty := by rw [Heap.nextScope_addScope]; exact Nat.lt_succ_of_lt hs.nonempty
    root := by rw [Heap.parent?_addScope, if_neg hne]; exact hs.root
    parents := by
      intro id hid hglobals
      rw [Heap.parent?_addScope]
      split
      · next hnew => exact ⟨parent, rfl, hnew ▸ hparent⟩
      · next hold =>
        rw [Heap.nextScope_addScope] at hid
        exact hs.parents id (Nat.lt_of_le_of_ne (Nat.le_of_lt_succ hid) hold) hglobals
    names := by
      intro id x hx hid
      rcases hold id x hx with ⟨rfl, hnew⟩ | hin
      · exact ⟨names, by rw [← hs.size]; simp, hnames x hnew⟩
      · obtain ⟨ns, hns, hmem⟩ := hs.names id x hin hid
        exact ⟨ns, hg.getElem? hns, hmem⟩
    outermost := by
      rw [Heap.slots_addScope, if_neg hne]
      exact hs.outermost
    superclass := fun id v hv => (hget id _ v hv).elim (hsuper v) (hs.superclass id v)
    slots := fun id x v hv =>
      ((hget id x v hv).elim (hslots x v) (hs.slots id x v)).grow hg
    fields := fun id x v hv => (hs.fields id x v hv).grow hg }

/-- A new scope fits inside the site of its parent. -/
theorem chain_addScope (hs : Sound T W h) {parent : ScopeId} {Γ : Site} (hΓ : Chain W h parent Γ)
    (slots : Entries Value) {f : Frame} (hready : ∀ x ∈ f.ready, slots.has x) :
    Chain (W ++ [f.names]) (h.addScope parent slots) h.nextScope (f :: Γ) := by
  refine ⟨parent, ?_, ?_, ?_, hΓ.mono (grows_addScope parent slots f.names)⟩
  · rw [Heap.parent?_addScope, if_pos rfl]
  · rw [← hs.size]; simp
  · rw [Heap.slots_addScope, if_pos rfl]; exact hready

/-- A change of something other than scopes keeps a heap sound if the fields still fit. -/
theorem of_scopes_eq (hs : Sound T W h) {h' : Heap} (hscopes : h'.scopes = h.scopes)
    (hi : h.nextIdentity ≤ h'.nextIdentity)
    (hfields : ∀ id x v, h'.field? id x = some v → v.Fits T W h) : Sound T W h' := by
  have hg : Grows W h W h' := .of_scopes_eq hscopes hi
  have hslots : ∀ id, h'.slots id = h.slots id := fun id => by rw [Heap.slots, hscopes]; rfl
  have hnext : h'.nextScope = h.nextScope := by rw [Heap.nextScope, hscopes]; rfl
  exact {
    size := by rw [hnext]; exact hs.size
    nonempty := by rw [hnext]; exact hs.nonempty
    root := by rw [Heap.parent?, hscopes]; exact hs.root
    parents := by
      intro id hid hne
      rw [Heap.parent?, hscopes]
      exact hs.parents id (hnext ▸ hid) hne
    names := fun id x hx => hs.names id x (hslots id ▸ hx)
    outermost := by rw [hslots]; exact hs.outermost
    superclass := fun id v hv => hs.superclass id v (hslots id ▸ hv)
    slots := fun id x v hv => (hs.slots id x v (hslots id ▸ hv)).grow hg
    fields := fun id x v hv => (hfields id x v hv).grow hg }

theorem setField (hs : Sound T W h) (id : ObjectId) (x : Text) {v : Value} (hv : v.Fits T W h) :
    Sound T W (h.setField id x v) := by
  refine hs.of_scopes_eq rfl (Nat.le_refl _) fun j y w hw => ?_
  rcases h.field?_setField id x v j y hw with rfl | hw
  · exact hv
  · exact hs.fields j y w hw

theorem addObject (hs : Sound T W h) : Sound T W h.addObject := by
  refine hs.of_scopes_eq rfl (Nat.le_refl _) fun j y w hw => ?_
  rw [Heap.field?_addObject] at hw
  exact hs.fields j y w hw

theorem addIdentity (hs : Sound T W h) : Sound T W h.addIdentity :=
  hs.of_scopes_eq rfl (Nat.le_succ _) hs.fields

/-- A scope that fits a site is a scope of the heap. -/
theorem lt_nextScope (hs : Sound T W h) {id : ScopeId} {Γ : Site} (hΓ : Chain W h id Γ) :
    id < h.nextScope := by
  cases Γ with
  | nil => rw [show id = Heap.globals from hΓ]; exact hs.nonempty
  | cons f Γ =>
    obtain ⟨p, -, hn, -⟩ := hΓ
    rw [← hs.size]
    exact (List.getElem?_eq_some_iff.mp hn).1

end Sound

end Scriptlet

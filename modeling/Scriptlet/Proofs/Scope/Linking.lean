import Scriptlet.Proofs.Scope.Site
import Scriptlet.Scope.Resolver

/-!
# What resolution makes of the references

Resolution keeps a stack of open scopes, and at every place of a program this stack binds the names
that the site of the place has declared (`Aligned`). So the link of a reference leads to a frame of
its site that declares the name, or past all of them; links are numbered in order, and the record
of a link tells how many scopes are open (`Reference.Matches`). `Resolve.Walks` says what a part of
a resolution does to the scopes and which references it meets, and there is one such statement for
each kind of tree (`Expr.walks_resolve`, `Stmt.walks_resolve` and their companions). They end in
`resolveStmts_numbered` and `resolveExpr_numbered`, about a whole source without errors.
-/

namespace Scriptlet

/-! ## Links of references -/

/-- A reference whose link has a number and was recorded. -/
structure Reference.Matches (ref : Reference (Option Link)) (n : Nat) (record : LinkRecord) :
    Prop where
  link : ref.link = some ⟨n, record.hops⟩
  depth : record.depth = ref.site.length
  /-- The link leads to where the name is found. -/
  leads : ∃ skipped, ref.site.LeavesOut ref.name.lexeme skipped ∧
    record.hops = ref.site.hops skipped ref.name.lexeme
  shaped : ref.site.Shaped

/-- References that were numbered from some number on, with their records. -/
inductive Numbered : Nat → List LinkRecord → List (Reference (Option Link)) → Prop where
  | nil (n : Nat) : Numbered n [] []
  | cons {n : Nat} {record : LinkRecord} {ref : Reference (Option Link)}
    {records : List LinkRecord} {refs : List (Reference (Option Link))} :
    ref.Matches n record → Numbered (n + 1) records refs →
      Numbered n (record :: records) (ref :: refs)

namespace Numbered

variable {n : Nat} {records records' : List LinkRecord}
  {refs refs' : List (Reference (Option Link))}

theorem append (h : Numbered n records refs) (h' : Numbered (n + records.length) records' refs') :
    Numbered n (records ++ records') (refs ++ refs') := by
  induction h with
  | nil => exact h'
  | cons hm _ ih =>
    refine .cons hm (ih ?_)
    rwa [List.length_cons, Nat.add_comm _ 1, ← Nat.add_assoc] at h'

theorem getElem? (h : Numbered n records refs) {i : Nat} {ref : Reference (Option Link)}
    (hi : refs[i]? = some ref) :
    ∃ record, records[i]? = some record ∧ ref.Matches (n + i) record := by
  induction h generalizing i with
  | nil => simp at hi
  | cons hm _ ih =>
    cases i with
    | zero => cases hi; exact ⟨_, rfl, hm⟩
    | succ i =>
      obtain ⟨record, hr, hm'⟩ := ih hi
      exact ⟨record, hr, by rwa [Nat.add_comm i 1, ← Nat.add_assoc]⟩

end Numbered

/-! ## Scopes and sites -/

namespace LocalScope

theorem binds_put (s : LocalScope) (b : Binding) (x : Text) :
    (s.put b).binds x ↔ x = b.name.lexeme ∨ s.binds x := by
  induction s with
  | nil =>
    simp only [put, binds, List.any_cons, List.any_nil, Bool.or_false, beq_iff_eq]
    grind
  | cons a s ih =>
    unfold put
    split
    · next heq =>
      simp only [binds, List.any_cons, Bool.or_eq_true, beq_iff_eq] at heq ⊢
      grind
    · simp only [binds, List.any_cons, Bool.or_eq_true, beq_iff_eq] at ih ⊢
      rw [ih]
      grind

theorem binds_mark (s : LocalScope) (name : Text) (state : BindingState) (x : Text) :
    (s.mark name state).binds x = s.binds x := by
  induction s with
  | nil => rfl
  | cons a s ih =>
    simp only [binds, mark, List.map_cons, List.any_cons] at ih ⊢
    rw [ih]
    split
    · rfl
    · rfl

theorem binds_of_any_find? {s : LocalScope} {x : Text} {p : Binding → Bool}
    (h : (s.find? x).any p) : s.binds x := by
  unfold find? at h
  cases hb : List.find? (fun b : Binding => b.name.lexeme == x) s with
  | none => rw [hb] at h; cases h
  | some b =>
    have hname := List.find?_some hb
    exact List.any_eq_true.mpr ⟨b, List.mem_of_find?_eq_some hb, hname⟩

end LocalScope

/-- Open scopes that bind the names which a site has declared. -/
inductive Aligned : ScopeStack → Site → Prop where
  | nil : Aligned [] []
  | cons {s : LocalScope} {f : Frame} {scopes : ScopeStack} {Γ : Site} :
    (∀ x, s.binds x ↔ x ∈ f.declared) → Aligned scopes Γ → Aligned (s :: scopes) (f :: Γ)

namespace Aligned

variable {scopes : ScopeStack} {Γ : Site}

theorem length (h : Aligned scopes Γ) : scopes.length = Γ.length := by
  induction h with
  | nil => rfl
  | cons _ _ ih => simp [ih]

theorem tail (h : Aligned scopes Γ) : Aligned scopes.tail Γ.tail := by
  cases h with
  | nil => exact .nil
  | cons _ h => exact h

theorem drop (h : Aligned scopes Γ) (n : Nat) : Aligned (scopes.drop n) (Γ.drop n) := by
  induction h generalizing n with
  | nil => simpa using Aligned.nil
  | cons hb h ih =>
    cases n with
    | zero => exact .cons hb h
    | succ n => exact ih n

theorem markAt (h : Aligned scopes Γ) (hops : Nat) (name : Text) (state : BindingState) :
    Aligned (scopes.markAt hops name state) Γ := by
  induction h generalizing hops with
  | nil => simpa [ScopeStack.markAt] using Aligned.nil
  | cons hb h ih =>
    cases hops with
    | zero => exact .cons (fun x => by rw [LocalScope.binds_mark]; exact hb x) h
    | succ hops => exact .cons hb (ih hops)

/-- A name is found in the open scopes as far out as in the site. -/
theorem hops? (h : Aligned scopes Γ) (name : Text) :
    (ScopeStack.hops? scopes name).getD scopes.length =
      Γ.findIdx fun f => decide (name ∈ f.declared) := by
  rw [ScopeStack.hops?, ← List.findIdx_eq_getD_findIdx?]
  induction h with
  | nil => rfl
  | @cons s f _ _ hb _ ih =>
    have heq : s.binds name = decide (name ∈ f.declared) := by
      rw [Bool.eq_iff_iff, decide_eq_true_iff]
      exact hb name
    rw [List.findIdx_cons, List.findIdx_cons, heq, ih]

theorem settle {x : Text} (h : Aligned scopes (Γ.await x)) : Aligned scopes (Γ.add x) := by
  cases Γ with
  | nil => exact h
  | cons f Γ =>
    cases h with
    | cons hb h =>
      refine .cons (fun y => (hb y).trans ?_) h
      simp only [Frame.declared, List.cons_append, List.mem_cons, List.mem_append]
      grind

end Aligned

namespace Site

theorem addAll_append (xs ys : List Text) (Γ : Site) :
    Γ.addAll (xs ++ ys) = (Γ.addAll xs).addAll ys := by
  induction xs generalizing Γ with
  | nil => rfl
  | cons x xs ih => exact ih _

@[simp]
theorem tail_add (x : Text) (Γ : Site) : (Γ.add x).tail = Γ.tail := by
  cases Γ with
  | nil => rfl
  | cons f Γ => rfl

@[simp]
theorem tail_addAll (xs : List Text) (Γ : Site) : (Γ.addAll xs).tail = Γ.tail := by
  induction xs generalizing Γ with
  | nil => rfl
  | cons x xs ih => rw [addAll, ih, tail_add]

@[simp]
theorem tail_enter (names : List Text) (Γ : Site) : (Γ.enter names).tail = Γ := rfl

end Site

/-! ## Parts of a resolution -/

/-- Whether no error was found so far. -/
def Resolution.Clean (r : Resolution) : Prop := Report.hasErrors r.found = false

/-- What a part of a resolution that meets some references does to findings and links. As long as
there is no error, it numbers and records these references, and errors are never taken back. -/
structure Visits (r r' : Resolution) (refs : List (Reference (Option Link))) : Prop where
  clean : r'.Clean → r.Clean
  links : r'.Clean → ∃ records, r'.links = records.reverse ++ r.links ∧
    r'.linkCount = r.linkCount + records.length ∧ Numbered r.linkCount records refs

namespace Visits

variable {r r' r'' : Resolution} {refs refs' : List (Reference (Option Link))}

/-- Neither findings that are no errors nor scopes matter. -/
theorem none (hfound : r'.Clean → r.Clean) (hlinks : r'.links = r.links)
    (hcount : r'.linkCount = r.linkCount) : Visits r r' [] :=
  ⟨hfound, fun _ => ⟨[], by simpa using hlinks, by simpa using hcount, .nil _⟩⟩

theorem refl (r : Resolution) : Visits r r [] := none id rfl rfl

theorem trans (h : Visits r r' refs) (h' : Visits r' r'' refs') : Visits r r'' (refs ++ refs') := by
  refine ⟨fun hc => h.clean (h'.clean hc), fun hc => ?_⟩
  obtain ⟨records, hl, hn, hnum⟩ := h.links (h'.clean hc)
  obtain ⟨records', hl', hn', hnum'⟩ := h'.links hc
  refine ⟨records ++ records', ?_, ?_, hnum.append (hn ▸ hnum')⟩
  · rw [hl', hl, List.reverse_append, List.append_assoc]
  · rw [hn', hn, List.length_append, Nat.add_assoc]

end Visits

namespace Resolve

variable {α β : Type} {Γ Γ' Γ'' : Site}

/-- What holds after a part of a resolution, with the references that it met. -/
def Arrives (r : Resolution) (Γ' : Site) (P : α → List (Reference (Option Link)) → Prop)
    (out : α × Resolution) : Prop :=
  Aligned out.2.scopes Γ' ∧ ∃ refs, P out.1 refs ∧ Visits r out.2 refs

/-- A part of a resolution that goes from one site to another. -/
def Walks (Γ : Site) (x : Resolve α) (Γ' : Site)
    (P : α → List (Reference (Option Link)) → Prop) : Prop :=
  ∀ r : Resolution, Aligned r.scopes Γ → Arrives r Γ' P (x.run r)

theorem Walks.bind {x : Resolve α} {f : α → Resolve β}
    {P : α → List (Reference (Option Link)) → Prop} {Q : β → List (Reference (Option Link)) → Prop}
    (hx : Walks Γ x Γ' P)
    (hf : ∀ a refs, P a refs → Walks Γ' (f a) Γ'' fun b refs' => Q b (refs ++ refs')) :
    Walks Γ (x >>= f) Γ'' Q := by
  intro r hr
  obtain ⟨hr', refs, hp, hv⟩ := hx r hr
  obtain ⟨hr'', refs', hq, hv'⟩ := hf _ refs hp _ hr'
  exact ⟨hr'', _, hq, hv.trans hv'⟩

theorem walks_pure {a : α} {P : α → List (Reference (Option Link)) → Prop} (h : P a []) :
    Walks Γ (pure a) Γ P :=
  fun r hr => ⟨hr, [], h, .refl r⟩

/-- A step that meets no reference. -/
theorem Walks.andThen {x : Resolve α} {f : α → Resolve β}
    {Q : β → List (Reference (Option Link)) → Prop} (hx : Walks Γ x Γ' fun _ refs => refs = [])
    (hf : ∀ a, Walks Γ' (f a) Γ'' Q) : Walks Γ (x >>= f) Γ'' Q := by
  refine hx.bind fun a refs h => ?_
  rw [h]
  exact hf a

/-- A part that looks at the state of the resolution first. -/
theorem walks_get {f : Resolution → Resolve β} {Q : β → List (Reference (Option Link)) → Prop}
    (hf : ∀ r : Resolution, Aligned r.scopes Γ → Walks Γ (f r) Γ' Q) : Walks Γ (get >>= f) Γ' Q :=
  fun r hr => hf r hr r hr

/-- A change that makes no link and takes no finding back. -/
theorem walks_modify {f : Resolution → Resolution}
    (hscopes : ∀ r : Resolution, Aligned r.scopes Γ → Aligned (f r).scopes Γ')
    (hrest : ∀ r : Resolution, Visits r (f r) []) :
    Walks Γ (modify f) Γ' fun _ refs => refs = [] :=
  fun r hr => ⟨hscopes r hr, [], rfl, hrest r⟩

/-! ## Scopes -/

theorem walks_openScope (names : List Text) :
    Walks Γ openScope (Γ.enter names) fun _ refs => refs = [] :=
  fun r hr => ⟨.cons (by simp [LocalScope.binds, Frame.declared]) hr, [], rfl, .none id rfl rfl⟩

theorem clean_of_append {found : Report} (more : Report)
    (h : Report.hasErrors (more ++ found) = false) : Report.hasErrors found = false := by
  simp only [Report.hasErrors, List.any_append, Bool.or_eq_false_iff] at h
  exact h.2

theorem walks_closeScope (h : Γ.tail = Γ') : Walks Γ closeScope Γ' fun _ refs => refs = [] := by
  subst h
  intro r hr
  change Arrives r _ _ ((), _)
  cases hs : r.scopes with
  | nil =>
    rw [hs] at hr
    refine ⟨?_, [], rfl, .none ?_ ?_ ?_⟩ <;> simp only [hs]
    · exact hr.tail
    · exact id
  | cons top rest =>
    rw [hs] at hr
    refine ⟨?_, [], rfl, .none ?_ ?_ ?_⟩ <;> simp only [hs]
    · exact hr.tail
    · exact clean_of_append _

/-- Findings are only ever added. -/
theorem walks_report (f : ScopeFault) (token : Token) :
    Walks Γ (report f token) Γ fun _ refs => refs = [] :=
  fun _ hr => ⟨hr, [], rfl, .none (clean_of_append [_]) rfl rfl⟩

/-- A finding that is made under some condition. -/
theorem walks_reportIf {c : Prop} [Decidable c] {f : ScopeFault} {token : Token}
    {rest : Unit → Resolve β} {Q : β → List (Reference (Option Link)) → Prop}
    (hrest : ∀ u, Walks Γ (rest u) Γ' Q) :
    Walks Γ (if c then report f token >>= rest else rest ()) Γ' Q := by
  split
  · exact (walks_report f token).andThen hrest
  · exact hrest ()

/-- After an error nothing is promised about links. -/
theorem walks_report_error {f : ScopeFault} (h : f.severity = .error) (token : Token)
    (refs : List (Reference (Option Link))) :
    Walks Γ (report f token) Γ fun _ refs' => refs' = refs := by
  -- any references will do, since the resolution is not clean any more
  have hdirty : ∀ r : Resolution, ¬ ((report f token).run r).2.Clean := by
    intro r hc
    have := (Bool.or_eq_false_iff.mp hc).1
    simp [Diagnostic.isError, ScopeFault.report, h] at this
  exact fun r hr => ⟨hr, refs, rfl, fun hc => absurd hc (hdirty r), fun hc => absurd hc (hdirty r)⟩

theorem walks_declare (name : Token) :
    Walks Γ (declare name) (Γ.await name.lexeme) fun _ refs => refs = [] := by
  unfold declare
  refine walks_get fun r hr => ?_
  revert hr
  generalize r.scopes = scopes
  rintro (_ | @⟨top, f, rest, Γ, hb, h⟩)
  · exact walks_modify (fun _ h => h) fun _ => .none id rfl rfl
  · have hput : Aligned (top.put ⟨name, .declared⟩ :: rest) (Site.await name.lexeme (f :: Γ)) := by
      refine .cons (fun x => ?_) h
      rw [LocalScope.binds_put, hb x]
      simp [Frame.declared]
    dsimp only
    split
    · refine (walks_report _ _).andThen fun _ => ?_
      exact walks_modify (fun _ _ => hput) fun _ => .none id rfl rfl
    · exact walks_modify (fun _ _ => hput) fun _ => .none id rfl rfl

/-- To define a name changes nothing about the names of a scope. -/
theorem walks_define (name : Token) : Walks Γ (define name) Γ fun _ refs => refs = [] :=
  walks_modify (fun _ h => h.markAt 0 _ _) fun _ => .none id rfl rfl

/-- A name whose initializer has ended is bound. -/
theorem Walks.settle {x : Resolve α} {name : Text} {P : α → List (Reference (Option Link)) → Prop}
    (h : Walks (Γ.add name) x Γ' P) : Walks (Γ.await name) x Γ' P :=
  fun r hr => h r hr.settle

theorem walks_bindImplicit (name : Text) (f : Frame) :
    Walks (f :: Γ) (bindImplicit name) (Site.add name (f :: Γ)) fun _ refs => refs = [] := by
  rintro ⟨scopes, globals, found, links, count⟩ hr
  cases hr with
  | @cons top _ rest _ hb hr =>
    refine ⟨.cons (fun x => ?_) hr, [], rfl, .none id rfl rfl⟩
    rw [LocalScope.binds_put, hb x]
    simp only [Frame.declared, List.mem_append, List.mem_cons]
    grind

theorem walks_parameters (params : List Token) :
    Walks Γ (parameters params) (Γ.addAll (params.map Token.lexeme)) fun _ refs => refs = [] := by
  induction params generalizing Γ with
  | nil => exact walks_pure rfl
  | cons p ps ih =>
    exact (walks_declare p).andThen fun _ => (walks_define p).andThen fun _ => ih.settle

/-! ## References -/

/-- The references that a link was made for. -/
abbrev LinkOf (Γ : Site) (name : Token) (link : Option Link)
    (refs : List (Reference (Option Link))) : Prop :=
  refs = [⟨Γ, name, link⟩]

theorem walks_link {label : Text} {start : Position} {hops : Nat} {name : Token} (hΓ : Γ.Shaped)
    (h : ∃ skipped, Γ.LeavesOut name.lexeme skipped ∧ hops = Γ.hops skipped name.lexeme) :
    Walks Γ (link label start hops) Γ (LinkOf Γ name) := by
  intro r hr
  refine ⟨hr, _, rfl, id, fun _ => ⟨[⟨label, start, hops, r.scopes.length⟩], rfl, rfl, ?_⟩⟩
  exact .cons ⟨rfl, hr.length, h, hΓ⟩ (.nil _)

theorem walks_linkBeyond {skipped : Nat} {label : Text} {start : Position} {name : Token}
    {isRead : Bool} (hΓ : Γ.Shaped) (hout : Γ.LeavesOut name.lexeme skipped) :
    Walks Γ (linkBeyond skipped label start name.lexeme isRead) Γ (LinkOf Γ name) := by
  unfold linkBeyond
  refine walks_get fun r hr => ?_
  have hfound := (hr.drop skipped).hops? name.lexeme
  dsimp only
  split
  · next k hk =>
    rw [hk, Option.getD_some] at hfound
    have hlink : Walks Γ (link label start (skipped + k)) Γ (LinkOf Γ name) :=
      walks_link hΓ ⟨skipped, hout, by rw [Site.hops, hfound]⟩
    split
    · refine Walks.andThen (walks_modify (fun _ h => h.markAt _ _ _) ?_) fun _ => hlink
      exact fun _ => .none id rfl rfl
    · exact hlink
  · next hk =>
    rw [hk, Option.getD_none, List.length_drop, hr.length] at hfound
    refine walks_link hΓ ⟨skipped, hout, ?_⟩
    rw [Site.hops, ← hfound, hr.length, Nat.add_sub_cancel' hout.le_length]

theorem walks_linkVariable {start : Position} {name : Token} (hΓ : Γ.Shaped) :
    Walks Γ (linkVariable start name) Γ (LinkOf Γ name) := by
  unfold linkVariable
  refine walks_get fun r hr => ?_
  extract_lets label initializing outside
  split
  · next hinit =>
    have hout : Γ.LeavesOut name.lexeme 1 := by
      obtain ⟨scopes, _, _, _, _⟩ := r
      unfold initializing at hinit
      cases hr with
      | nil => cases hinit
      | cons hb _ => exact .inr ⟨rfl, _, rfl, (hb _).mp (LocalScope.binds_of_any_find? hinit)⟩
    split
    · exact walks_linkBeyond hΓ hout
    · refine (walks_report_error rfl name [⟨Γ, name, none⟩]).bind ?_
      rintro _ _ rfl
      exact walks_pure rfl
  · exact walks_linkBeyond hΓ (.inl rfl)

end Resolve

/-! ## Trees -/

open Resolve

/-- A declared name may name a variable. -/
theorem Stmt.WellFormed.declared {β : Type} {s : Stmt β} (h : s.WellFormed) :
    ∀ x ∈ s.declared, x ≠ "super" := by
  cases s with
  | declareVar _ _ init =>
    cases init with
    | none => exact List.forall_mem_singleton.mpr h
    | some _ => exact List.forall_mem_singleton.mpr h.1
  | declareFunction d => cases d; exact List.forall_mem_singleton.mpr h.1
  | declareClass => exact List.forall_mem_singleton.mpr h.1
  | _ => simp [Stmt.declared]

/-- A resolved expression, with the references that were met in it. -/
abbrev Expr.Met (Γ : Site) (e : Expr (Option Link)) (refs : List (Reference (Option Link))) :
    Prop :=
  refs = e.references Γ ∧ e.WellFormed

abbrev Expr.MetList (Γ : Site) (es : List (Expr (Option Link)))
    (refs : List (Reference (Option Link))) : Prop :=
  refs = Expr.referencesList Γ es ∧ Expr.WellFormedList es

abbrev Function.Met (Γ : Site) (f : Function (Option Link))
    (refs : List (Reference (Option Link))) : Prop :=
  refs = f.references Γ ∧ f.WellFormed

abbrev Declaration.MetList (Γ : Site) (ds : List (Declaration (Option Link)))
    (refs : List (Reference (Option Link))) : Prop :=
  refs = Declaration.referencesList Γ ds ∧ Declaration.WellFormedList ds

/-- A resolved statement, with the references that were met in it and the names that it declares. -/
abbrev Stmt.Met (Γ : Site) (declared : List Text) (s : Stmt (Option Link))
    (refs : List (Reference (Option Link))) : Prop :=
  refs = s.references Γ ∧ s.WellFormed ∧ s.declared = declared

abbrev Stmt.MetList (Γ : Site) (declared : List Text) (ss : List (Stmt (Option Link)))
    (refs : List (Reference (Option Link))) : Prop :=
  refs = Stmt.referencesList Γ ss ∧ Stmt.WellFormedList ss ∧ Stmt.declaredList ss = declared

mutual

theorem Expr.walks_resolve : ∀ (e : Expr Unit) (s : Surroundings) {Γ : Site}, e.WellFormed →
    Γ.Shaped → Walks Γ (e.resolve s) Γ (Expr.Met Γ)
  | .literal span value, s, Γ, h, hΓ => by
    rw [Expr.resolve]
    exact walks_pure ⟨rfl, trivial⟩
  | .name span name _, s, Γ, h, hΓ => by
    rw [Expr.resolve]
    refine (walks_linkVariable hΓ).bind fun link _ hl => ?_
    exact walks_pure ⟨by rw [hl]; rfl, h⟩
  | .assign span name op value _, s, Γ, h, hΓ => by
    rw [Expr.resolve]
    refine walks_reportIf fun _ => ?_
    refine (value.walks_resolve s h.2.2 hΓ).bind fun value' _ hv => ?_
    refine (walks_linkBeyond hΓ (.inl rfl)).bind fun link _ hl => ?_
    exact walks_pure ⟨by rw [hv.1, hl]; rfl, h.1, h.2.1, hv.2⟩
  | .binary span left op right, s, Γ, h, hΓ => by
    rw [Expr.resolve]
    refine (left.walks_resolve s h.2.1 hΓ).bind fun left' _ hl => ?_
    refine (right.walks_resolve s h.2.2 hΓ).bind fun right' _ hr => ?_
    exact walks_pure ⟨by rw [hl.1, hr.1, List.append_nil]; rfl, h.1, hl.2, hr.2⟩
  | .logical span left op right, s, Γ, h, hΓ => by
    rw [Expr.resolve]
    refine (left.walks_resolve s h.1 hΓ).bind fun left' _ hl => ?_
    refine (right.walks_resolve s h.2 hΓ).bind fun right' _ hr => ?_
    exact walks_pure ⟨by rw [hl.1, hr.1, List.append_nil]; rfl, hl.2, hr.2⟩
  | .unary span op operand trailing, s, Γ, h, hΓ => by
    rw [Expr.resolve]
    refine (operand.walks_resolve s h.2 hΓ).bind fun operand' _ ho => ?_
    exact walks_pure ⟨by rw [ho.1, List.append_nil]; rfl, h.1, ho.2⟩
  | .ternary span condition onTrue onFalse, s, Γ, h, hΓ => by
    rw [Expr.resolve]
    refine (condition.walks_resolve _ h.1 hΓ).bind fun condition' _ hc => ?_
    refine (onTrue.walks_resolve s h.2.1 hΓ).bind fun onTrue' _ ht => ?_
    refine (onFalse.walks_resolve s h.2.2 hΓ).bind fun onFalse' _ hf => ?_
    exact walks_pure ⟨by rw [hc.1, ht.1, hf.1, List.append_nil]; rfl, hc.2, ht.2, hf.2⟩
  | .group span inner, s, Γ, h, hΓ => by
    rw [Expr.resolve]
    refine (inner.walks_resolve s h hΓ).bind fun inner' _ hi => ?_
    exact walks_pure ⟨by rw [hi.1, List.append_nil]; rfl, hi.2⟩
  | .call span callee paren args, s, Γ, h, hΓ => by
    rw [Expr.resolve]
    refine (callee.walks_resolve s h.1 hΓ).bind fun callee' _ hc => ?_
    refine (Expr.walks_resolveList args s h.2 hΓ).bind fun args' _ ha => ?_
    exact walks_pure ⟨by rw [hc.1, ha.1, List.append_nil]; rfl, hc.2, ha.2⟩
  | .lambda function, s, Γ, h, hΓ => by
    rw [Expr.resolve]
    refine (function.walks_resolve _ h hΓ).bind fun function' _ hf => ?_
    exact walks_pure ⟨by rw [hf.1, List.append_nil]; rfl, hf.2⟩
  | .get span object name, s, Γ, h, hΓ => by
    rw [Expr.resolve]
    refine (object.walks_resolve s h hΓ).bind fun object' _ ho => ?_
    exact walks_pure ⟨by rw [ho.1, List.append_nil]; rfl, ho.2⟩
  | .set span object name value, s, Γ, h, hΓ => by
    rw [Expr.resolve]
    refine (value.walks_resolve s h.2 hΓ).bind fun value' _ hv => ?_
    refine (object.walks_resolve s h.1 hΓ).bind fun object' _ ho => ?_
    exact walks_pure ⟨by rw [hv.1, ho.1, List.append_nil]; rfl, ho.2, hv.2⟩
  | .receiver span keyword _, s, Γ, h, hΓ => by
    rw [Expr.resolve]
    split
    · refine (walks_report_error rfl keyword [⟨Γ, keyword, none⟩]).bind fun _ _ hl => ?_
      exact walks_pure ⟨by rw [hl]; rfl, trivial⟩
    · refine (walks_linkBeyond hΓ (.inl rfl)).bind fun link _ hl => ?_
      exact walks_pure ⟨by rw [hl]; rfl, trivial⟩
  | .inherited span keyword method _, s, Γ, h, hΓ => by
    rw [Expr.resolve]
    split
    · refine (walks_report_error rfl keyword [⟨Γ, keyword, none⟩]).bind fun _ _ hl => ?_
      exact walks_pure ⟨by rw [hl]; rfl, h⟩
    · refine (walks_report_error rfl keyword [⟨Γ, keyword, none⟩]).bind fun _ _ hl => ?_
      exact walks_pure ⟨by rw [hl]; rfl, h⟩
    · refine (walks_linkBeyond hΓ (.inl rfl)).bind fun link _ hl => ?_
      exact walks_pure ⟨by rw [hl]; rfl, h⟩

theorem Expr.walks_resolveList : ∀ (es : List (Expr Unit)) (s : Surroundings) {Γ : Site},
    Expr.WellFormedList es → Γ.Shaped → Walks Γ (Expr.resolveList s es) Γ (Expr.MetList Γ)
  | [], s, Γ, h, hΓ => by
    rw [Expr.resolveList]
    exact walks_pure ⟨rfl, trivial⟩
  | e :: es, s, Γ, h, hΓ => by
    rw [Expr.resolveList]
    refine (e.walks_resolve s h.1 hΓ).bind fun e' _ he => ?_
    refine (Expr.walks_resolveList es s h.2 hΓ).bind fun es' _ hes => ?_
    exact walks_pure ⟨by rw [he.1, hes.1, List.append_nil]; rfl, he.2, hes.2⟩

theorem Function.walks_resolve : ∀ (f : Function Unit) (s : Surroundings) {Γ : Site}, f.WellFormed →
    Γ.Shaped → Walks Γ (f.resolve s) Γ (Function.Met Γ)
  | .mk span keyword params body getter, s, Γ, h, hΓ => by
    rw [Function.resolve]
    have hparams : ∀ x ∈ params.map Token.lexeme, x ≠ "super" := List.forall_mem_map.mpr h.1
    have hinside : (Γ.inFunction params body).Shaped := (hΓ.enter _).addAll hparams
    have hbody := Stmt.walks_resolveList body { s with inLoop := false } h.2.2 hinside
    let names := params.map Token.lexeme ++ Stmt.declaredList body
    refine (walks_openScope names).andThen fun _ => (walks_parameters params).andThen fun _ => ?_
    refine hbody.bind fun body' _ hb => ?_
    refine (walks_closeScope (show _ = Γ by simp [Site.inFunction])).andThen fun _ => ?_
    refine walks_pure ⟨?_, h.1, h.2.1, hb.2.1⟩
    rw [hb.1, List.append_nil, Function.references, Site.inFunction, Site.inFunction, hb.2.2]

theorem Declaration.walks_resolveMethods : ∀ (ds : List (Declaration Unit)) (s : Surroundings)
    (initializers : Bool) {Γ : Site}, Declaration.WellFormedList ds → Γ.Shaped →
    Walks Γ (Declaration.resolveMethods s initializers ds) Γ (Declaration.MetList Γ)
  | [], s, initializers, Γ, h, hΓ => by
    rw [Declaration.resolveMethods]
    exact walks_pure ⟨rfl, trivial⟩
  | .mk span name function :: rest, s, initializers, Γ, h, hΓ => by
    rw [Declaration.resolveMethods]
    refine (function.walks_resolve _ h.1 hΓ).bind fun function' _ hf => ?_
    refine (Declaration.walks_resolveMethods rest s initializers h.2 hΓ).bind fun rest' _ hr => ?_
    exact walks_pure ⟨by rw [hf.1, hr.1, List.append_nil]; rfl, hf.2, hr.2⟩

theorem Stmt.walks_resolve : ∀ (stmt : Stmt Unit) (s : Surroundings) {Γ : Site}, stmt.WellFormed →
    Γ.Shaped → Walks Γ (stmt.resolve s) (Γ.addAll stmt.declared) (Stmt.Met Γ stmt.declared)
  | .evaluate span expr, s, Γ, h, hΓ => by
    rw [Stmt.resolve]
    refine (expr.walks_resolve s h hΓ).bind fun expr' _ he => ?_
    exact walks_pure ⟨by rw [he.1, List.append_nil]; rfl, he.2, rfl⟩
  | .print span keyword value, s, Γ, h, hΓ => by
    rw [Stmt.resolve]
    refine (value.walks_resolve s h hΓ).bind fun value' _ hv => ?_
    exact walks_pure ⟨by rw [hv.1, List.append_nil]; rfl, hv.2, rfl⟩
  | .declareVar span name none, s, Γ, h, hΓ => by
    rw [Stmt.resolve]
    refine (walks_declare name).andThen fun _ => (walks_define name).andThen fun _ => ?_
    exact (walks_pure ⟨rfl, h, rfl⟩).settle
  | .declareVar span name (some init), s, Γ, h, hΓ => by
    rw [Stmt.resolve]
    refine (walks_declare name).andThen fun _ => ?_
    refine (init.walks_resolve s h.2 (hΓ.await h.1)).bind fun init' _ hi => ?_
    refine (walks_define name).andThen fun _ => ?_
    exact (walks_pure ⟨by rw [hi.1, List.append_nil]; rfl, ⟨h.1, hi.2⟩, rfl⟩).settle
  | .block span stmts, s, Γ, h, hΓ => by
    rw [Stmt.resolve]
    refine (walks_openScope (Stmt.declaredList stmts)).andThen fun _ => ?_
    refine (Stmt.walks_resolveList stmts s h (hΓ.enter _)).bind fun stmts' _ hs => ?_
    refine (walks_closeScope (show _ = Γ by simp)).andThen fun _ => walks_pure ⟨?_, hs.2.1, rfl⟩
    rw [hs.1, List.append_nil, Stmt.references, hs.2.2]
  | .branch span condition onTrue none, s, Γ, h, hΓ => by
    rw [Stmt.resolve]
    have hTrue := onTrue.walks_resolve s h.2.1 hΓ
    rw [h.2.2] at hTrue
    refine (condition.walks_resolve _ h.1 hΓ).bind fun condition' _ hc => ?_
    refine hTrue.bind fun onTrue' _ ht => ?_
    exact walks_pure ⟨by rw [hc.1, ht.1, List.append_nil]; rfl, ⟨hc.2, ht.2⟩, rfl⟩
  | .branch span condition onTrue (some onFalse), s, Γ, h, hΓ => by
    rw [Stmt.resolve]
    have hTrue := onTrue.walks_resolve s h.2.1.1 hΓ
    have hFalse := onFalse.walks_resolve s h.2.2.1 hΓ
    rw [h.2.1.2] at hTrue
    rw [h.2.2.2] at hFalse
    refine (condition.walks_resolve _ h.1 hΓ).bind fun condition' _ hc => ?_
    refine hTrue.bind fun onTrue' _ ht => hFalse.bind fun onFalse' _ hf => ?_
    exact walks_pure ⟨by rw [hc.1, ht.1, hf.1, List.append_nil]; rfl, ⟨hc.2, ht.2, hf.2⟩, rfl⟩
  | .loop span condition body none bodyFirst, s, Γ, h, hΓ => by
    rw [Stmt.resolve]
    have hbody := body.walks_resolve { s with inLoop := true } h.2.1 hΓ
    rw [h.2.2] at hbody
    refine (condition.walks_resolve _ h.1 hΓ).bind fun condition' _ hc => ?_
    refine hbody.bind fun body' _ hb => ?_
    exact walks_pure ⟨by rw [hc.1, hb.1, List.append_nil]; rfl, ⟨hc.2, hb.2⟩, rfl⟩
  | .loop span condition body (some update) bodyFirst, s, Γ, h, hΓ => by
    rw [Stmt.resolve]
    have hbody := body.walks_resolve { s with inLoop := true } h.2.1.1 hΓ
    rw [h.2.1.2] at hbody
    refine (condition.walks_resolve _ h.1 hΓ).bind fun condition' _ hc => ?_
    refine hbody.bind fun body' _ hb => ?_
    refine (update.walks_resolve _ h.2.2 hΓ).bind fun update' _ hu => ?_
    exact walks_pure ⟨by rw [hc.1, hb.1, hu.1, List.append_nil]; rfl, ⟨hc.2, hb.2, hu.2⟩, rfl⟩
  | .leave span keyword none, s, Γ, h, hΓ => by
    rw [Stmt.resolve]
    exact walks_reportIf fun _ => walks_pure ⟨rfl, trivial, rfl⟩
  | .leave span keyword (some value), s, Γ, h, hΓ => by
    rw [Stmt.resolve]
    refine walks_reportIf fun _ => walks_reportIf fun _ => ?_
    refine (value.walks_resolve s h hΓ).bind fun value' _ hv => ?_
    exact walks_pure ⟨by rw [hv.1, List.append_nil]; rfl, hv.2, rfl⟩
  | .breakLoop span keyword, s, Γ, h, hΓ => by
    rw [Stmt.resolve]
    have hend : Walks Γ (pure (.breakLoop span keyword)) Γ (Stmt.Met Γ []) :=
      walks_pure ⟨rfl, trivial, rfl⟩
    split
    · exact hend
    · exact (walks_report _ _).andThen fun _ => hend
  | .continueLoop span keyword, s, Γ, h, hΓ => by
    rw [Stmt.resolve]
    have hend : Walks Γ (pure (.continueLoop span keyword)) Γ (Stmt.Met Γ []) :=
      walks_pure ⟨rfl, trivial, rfl⟩
    split
    · exact hend
    · exact (walks_report _ _).andThen fun _ => hend
  | .declareFunction (.mk span name function), s, Γ, h, hΓ => by
    rw [Stmt.resolve]
    refine (walks_declare name).andThen fun _ => (walks_define name).andThen fun _ => ?_
    refine (function.walks_resolve _ h.2 (hΓ.add h.1)).settle.bind fun function' _ hf => ?_
    exact walks_pure ⟨by rw [hf.1, List.append_nil]; rfl, ⟨h.1, hf.2⟩, rfl⟩
  | .declareClass span name none methods classMethods, s, Γ, h, hΓ => by
    rw [Stmt.resolve]
    have hinside := (hΓ.add h.1).withReceiver false
    refine (walks_declare name).andThen fun _ => (walks_define name).andThen fun _ => ?_
    refine (walks_openScope ["this"]).settle.andThen fun _ => ?_
    refine (walks_bindImplicit "this" _).andThen fun _ => ?_
    refine (Declaration.walks_resolveMethods methods _ true h.2.1 hinside).bind fun _ _ hm => ?_
    refine (Declaration.walks_resolveMethods classMethods _ false h.2.2 hinside).bind
      fun _ _ hc => ?_
    refine (walks_closeScope rfl).andThen fun _ => walks_pure ⟨?_, ⟨h.1, hm.2, hc.2⟩, rfl⟩
    rw [hm.1, hc.1, List.append_nil]
    rfl
  | .declareClass span name (some (parent, _)) methods classMethods, s, Γ, h, hΓ => by
    rw [Stmt.resolve]
    have hinside := (hΓ.add h.1).withReceiver true
    refine (walks_declare name).andThen fun _ => (walks_define name).andThen fun _ => ?_
    refine walks_reportIf fun _ => ?_
    -- when the program runs, the name is not bound yet where the superclass is named
    refine (walks_linkVariable (hΓ.await h.1)).bind fun link _ hl => ?_
    refine (walks_openScope ["super"]).settle.andThen fun _ => ?_
    refine (walks_bindImplicit "super" _).andThen fun _ => ?_
    refine (walks_openScope ["this"]).andThen fun _ => ?_
    refine (walks_bindImplicit "this" _).andThen fun _ => ?_
    refine (Declaration.walks_resolveMethods methods _ true h.2.1 hinside).bind fun _ _ hm => ?_
    refine (Declaration.walks_resolveMethods classMethods _ false h.2.2 hinside).bind
      fun _ _ hc => ?_
    refine (walks_closeScope rfl).andThen fun _ => (walks_closeScope rfl).andThen fun _ => ?_
    refine walks_pure ⟨?_, ⟨h.1, hm.2, hc.2⟩, rfl⟩
    rw [hl, hm.1, hc.1, List.append_nil]
    rfl

theorem Stmt.walks_resolveList : ∀ (stmts : List (Stmt Unit)) (s : Surroundings) {Γ : Site},
    Stmt.WellFormedList stmts → Γ.Shaped →
    Walks Γ (Stmt.resolveList s stmts) (Γ.addAll (Stmt.declaredList stmts))
      (Stmt.MetList Γ (Stmt.declaredList stmts))
  | [], s, Γ, h, hΓ => by
    rw [Stmt.resolveList]
    exact walks_pure ⟨rfl, trivial, rfl⟩
  | stmt :: stmts, s, Γ, h, hΓ => by
    rw [Stmt.resolveList]
    have hrest := Stmt.walks_resolveList stmts s h.2 (hΓ.addAll h.1.declared)
    rw [← Site.addAll_append] at hrest
    refine (stmt.walks_resolve s h.1 hΓ).bind fun stmt' _ hs => hrest.bind fun stmts' _ hss => ?_
    refine walks_pure ⟨?_, ⟨hs.2.1, hss.2.1⟩, ?_⟩
    · rw [hs.1, hss.1, List.append_nil, Stmt.referencesList, hs.2.2]
    · change stmt'.declared ++ Stmt.declaredList stmts' = _
      rw [hs.2.2, hss.2.2]
      rfl

end

/-! ## The names of a scope at its end -/

theorem Site.addAll_nil (xs : List Text) : Site.addAll xs [] = [] := by
  induction xs with
  | nil => rfl
  | cons x xs ih => exact ih

theorem Site.addAll_cons (xs : List Text) (f : Frame) (Γ : Site) :
    Site.addAll xs (f :: Γ) = { f with ready := xs.reverse ++ f.ready } :: Γ := by
  induction xs generalizing f with
  | nil => rfl
  | cons x xs ih =>
    rw [Site.addAll, Site.add, ih]
    simp

theorem Aligned.binds_at_end {scopes : ScopeStack} {Γ : Site} {names : List Text}
    (h : Aligned scopes ((Γ.enter names).addAll names)) :
    ∃ top rest, scopes = top :: rest ∧ ∀ x, top.binds x ↔ x ∈ names := by
  rw [Site.enter, Site.addAll_cons] at h
  cases h with
  | cons hb _ => exact ⟨_, _, rfl, fun x => (hb x).trans (by simp [Frame.declared])⟩

/-- By the end of the body of a function, resolution has declared in its scope the names of its
frame. A block is resolved like a function without parameters. -/
theorem Stmt.binds_at_end {params : List Token} {body : List (Stmt Unit)} {s : Surroundings}
    {Γ : Site} {r : Resolution} (hparams : ∀ p ∈ params, p.Ordinary)
    (h : Stmt.WellFormedList body) (hΓ : Γ.Shaped) (hr : Aligned r.scopes Γ) :
    ∃ top rest,
      ((openScope *> parameters params *> Stmt.resolveList s body).run r).2.scopes = top :: rest ∧
        ∀ f ∈ (Γ.inFunction params body).head?, ∀ x, top.binds x ↔ x ∈ f.names := by
  let names := params.map Token.lexeme ++ Stmt.declaredList body
  have hopen := (walks_openScope names r hr).1
  have hparams' := (walks_parameters params _ hopen).1
  have hinside : (Γ.inFunction params body).Shaped :=
    (hΓ.enter _).addAll (List.forall_mem_map.mpr hparams)
  have hbody := (Stmt.walks_resolveList body s h hinside _ hparams').1
  rw [Site.inFunction, ← Site.addAll_append] at hbody
  obtain ⟨top, rest, hscopes, hbinds⟩ := hbody.binds_at_end
  refine ⟨top, rest, hscopes, fun f hf x => ?_⟩
  rw [Site.inFunction, Site.enter, Site.addAll_cons] at hf
  cases hf
  exact hbinds x

/-! ## Sources -/

theorem Resolve.finish_numbered {α : Type} {x : Resolve α} {Γ : Site} {globals : List Text}
    {first : Nat} {P : α → List (Reference (Option Link)) → Prop} (hx : Walks [] x Γ P)
    (h : (finish globals first x).report.hasErrors = false) :
    ∃ refs, P (finish globals first x).tree refs ∧
      Numbered first (finish globals first x).links refs := by
  obtain ⟨-, refs, hp, hv⟩ := hx { globals := globals, linkCount := first } .nil
  have hclean : (x.run { globals := globals, linkCount := first }).2.Clean := by
    change Report.hasErrors (List.reverse _) = false at h
    rwa [Report.hasErrors, List.any_reverse] at h
  obtain ⟨records, hl, -, hnum⟩ := hv.links hclean
  refine ⟨refs, hp, ?_⟩
  change Numbered first (x.run { globals := globals, linkCount := first }).2.links.reverse refs
  rw [hl]
  simpa using hnum

/-- The references of a program without errors are linked in order, from the first number on. -/
theorem resolveStmts_numbered {globals : List Text} {stmts : List (Stmt Unit)} {first : Nat}
    (hw : Stmt.WellFormedList stmts)
    (h : (resolveStmts globals stmts first).report.hasErrors = false) :
    Stmt.WellFormedList (resolveStmts globals stmts first).tree ∧
      Numbered first (resolveStmts globals stmts first).links
        (Stmt.referencesList [] (resolveStmts globals stmts first).tree) := by
  obtain ⟨refs, ⟨rfl, hwf, -⟩, hnum⟩ :=
    finish_numbered (Stmt.walks_resolveList stmts {} hw .nil) h
  exact ⟨hwf, hnum⟩

/-- The references of an expression without errors are linked in order, from the first number on. -/
theorem resolveExpr_numbered {globals : List Text} {expr : Expr Unit} {first : Nat}
    (hw : expr.WellFormed) (h : (resolveExpr globals expr first).report.hasErrors = false) :
    (resolveExpr globals expr first).tree.WellFormed ∧
      Numbered first (resolveExpr globals expr first).links
        ((resolveExpr globals expr first).tree.references []) := by
  obtain ⟨refs, ⟨rfl, hwf⟩, hnum⟩ := finish_numbered (expr.walks_resolve {} hw .nil) h
  exact ⟨hwf, hnum⟩

end Scriptlet

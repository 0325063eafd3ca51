import Scriptlet.Proofs.Evaluator.Extension

/-!
# Evaluation follows the scopes of the program

A task fits a machine (`Task.Fits`) if the current scope fits the site of what is to be evaluated,
its references are known and all values in it fit. One evaluation on a sound heap keeps to this: the
tasks inside it fit whenever they begin, the heap stays sound, and the result fits (`Agree.step`).

References are what it all is for. The link of a known reference leads to a scope that belongs to
the frame it was resolved to, and so to the variable that is meant, with one exception: inside the
initializer of a local variable, its name is declared, and references may be linked to it, while it
is not bound yet. A task that reads or writes such a variable too early is premature
(`Task.Premature`), and nothing else can fail because of scopes.
-/

namespace Scriptlet

/-! ## Trees whose references are known -/

/-- An expression at a site, all of whose references are known. -/
structure Expr.Known (T : List (Reference (Option Link))) (Γ : Site) (e : Expr (Option Link)) :
    Prop where
  wellFormed : e.WellFormed
  references : ∀ ref ∈ e.references Γ, ref.Known T

structure Expr.KnownList (T : List (Reference (Option Link))) (Γ : Site)
    (es : List (Expr (Option Link))) : Prop where
  wellFormed : Expr.WellFormedList es
  references : ∀ ref ∈ Expr.referencesList Γ es, ref.Known T

/-- A site whose innermost scope has some names by its end. -/
def Site.Hosts (Γ : Site) (names : List Text) : Prop := ∀ f ∈ Γ.head?, ∀ x ∈ names, x ∈ f.names

/-- A statement at a site, all of whose references are known. -/
structure Stmt.Known (T : List (Reference (Option Link))) (Γ : Site) (s : Stmt (Option Link)) :
    Prop where
  wellFormed : s.WellFormed
  references : ∀ ref ∈ s.references Γ, ref.Known T
  hosted : Γ.Hosts s.declared

structure Stmt.KnownList (T : List (Reference (Option Link))) (Γ : Site)
    (ss : List (Stmt (Option Link))) : Prop where
  wellFormed : Stmt.WellFormedList ss
  references : ∀ ref ∈ Stmt.referencesList Γ ss, ref.Known T
  hosted : Γ.Hosts (Stmt.declaredList ss)

theorem Site.Hosts.addAll {Γ : Site} {names xs : List Text} (h : Γ.Hosts names) :
    (Γ.addAll xs).Hosts names := by
  cases Γ with
  | nil => rwa [Site.addAll_nil]
  | cons f Γ =>
    rw [Site.addAll_cons]
    intro f' hf'
    cases hf'
    exact h f rfl

/-- A statement that declares nothing may stand anywhere. -/
theorem Stmt.Known.of_inner {T : List (Reference (Option Link))} {Γ : Site} {s : Stmt (Option Link)}
    (hw : s.WellFormed ∧ s.declared = []) (hr : ∀ ref ∈ s.references Γ, ref.Known T) :
    s.Known T Γ := by
  refine ⟨hw.1, hr, fun f hf x hx => ?_⟩
  rw [hw.2] at hx
  cases hx

theorem Stmt.KnownList.of_cons {T : List (Reference (Option Link))} {Γ : Site}
    {s : Stmt (Option Link)} {ss : List (Stmt (Option Link))} (h : Stmt.KnownList T Γ (s :: ss)) :
    s.Known T Γ ∧ Stmt.KnownList T (Γ.addAll s.declared) ss := by
  obtain ⟨hw, hr, hh⟩ := h
  rw [Stmt.referencesList, List.forall_mem_append] at hr
  have hmem : ∀ x, x ∈ s.declared ∨ x ∈ Stmt.declaredList ss → x ∈ Stmt.declaredList (s :: ss) :=
    fun x hx => List.mem_append.mpr hx
  exact ⟨⟨hw.1, hr.1, fun f hf x hx => hh f hf x (hmem x (.inl hx))⟩, hw.2, hr.2,
    Site.Hosts.addAll fun f hf x hx => hh f hf x (hmem x (.inr hx))⟩

/-- The body of a function that is known. -/
theorem Function.Known.body {T : List (Reference (Option Link))} {Γ : Site} {f : LinkedFunction}
    (h : f.Known T Γ) : Stmt.KnownList T (Γ.inFunction f.params f.body) f.body := by
  obtain ⟨_, _, params, body, getter⟩ := f
  refine ⟨h.wellFormed.2.2, h.references, Site.Hosts.addAll ?_⟩
  intro f hf x hx
  cases hf
  exact List.mem_append_right _ hx

/-! ## Links of known references -/

/-- References that were numbered from zero on. -/
def Linked (T : List (Reference (Option Link))) : Prop := ∃ records, Numbered 0 records T

/-- Where the link of a known reference leads. -/
theorem Reference.Known.leads {T : List (Reference (Option Link))} (hT : Linked T)
    {ref : Reference (Option Link)} (h : ref.Known T) :
    ∃ (n k : Nat), ref.link = some ⟨n, k⟩ ∧ T[n]? = some ref ∧ ref.site.Shaped ∧
      (k = ref.site.length ∨ ∃ f, ref.site[k]? = some f ∧ ref.name.lexeme ∈ f.declared) := by
  obtain ⟨records, hnum⟩ := hT
  obtain ⟨l, hl, hget⟩ := h
  obtain ⟨record, -, hm⟩ := hnum.getElem? hget
  rw [Nat.zero_add] at hm
  refine ⟨l.ordinal, record.hops, hm.link, hget, hm.shaped, ?_⟩
  obtain ⟨skipped, hout, hhops⟩ := hm.leads
  rw [hhops]
  by_cases hlength : ref.site.hops skipped ref.name.lexeme = ref.site.length
  · exact .inl hlength
  · exact .inr (Site.getElem?_hops hout hlength)

namespace Eval

/-- A reference that may be followed from the current scope. -/
def Refers (T : List (Reference (Option Link))) (W : World) (m : Machine) (name : Token)
    (link : Option Link) : Prop :=
  ∃ ref : Reference (Option Link), ref.Known T ∧ ref.name = name ∧ ref.link = link ∧
    Chain W m.heap m.scope ref.site

/-- A task that reads or writes a local variable inside its initializer, before it is bound. -/
def Task.Premature (T : List (Reference (Option Link))) (m : Machine) : Task → Prop
  | .read name (some l) | .write name (some l) _ =>
    ∃ ref f home, T[l.ordinal]? = some ref ∧ ref.site[l.hops.toNat]? = some f ∧
      name.lexeme ∈ f.pending ∧ m.heap.ancestor m.scope l.hops = .ok home ∧
      m.heap.parent? home ≠ none ∧ ¬ (m.heap.slots home).has name.lexeme
  | _ => False

/-- A signal all of whose functions fit. -/
def SignalFits (T : List (Reference (Option Link))) (W : World) (h : Heap) : Signal → Prop
  | .leave v => v.Fits T W h
  | _ => True

/-- A task that may begin on a machine. A function is only called with as many arguments as it
takes. -/
def Task.Fits (T : List (Reference (Option Link))) (W : World) (m : Machine) : Task → Prop
  | .read name link => Refers T W m name link
  | .write name link value => name.Ordinary ∧ value.Fits T W m.heap ∧ Refers T W m name link
  | .inherit keyword link => keyword.lexeme = "super" ∧ Refers T W m keyword link
  | .expr e => ∃ Γ, Chain W m.heap m.scope Γ ∧ e.Known T Γ
  | .exprs es => ∃ Γ, Chain W m.heap m.scope Γ ∧ Expr.KnownList T Γ es
  | .bound _ method receiver => method.FitsUnbound T W m.heap ∧ receiver.Fits T W m.heap
  | .call _ callee args | .enter _ callee args =>
    callee.Fits T W m.heap ∧ (∀ v ∈ args, v.Fits T W m.heap) ∧ arity? callee = some args.length
  | .body f args => f.Fits T W m.heap ∧ (∀ v ∈ args, v.Fits T W m.heap) ∧ f.arity = args.length
  | .stmt s => ∃ Γ, Chain W m.heap m.scope Γ ∧ s.Known T Γ
  | .stmts ss => ∃ Γ, Chain W m.heap m.scope Γ ∧ Stmt.KnownList T Γ ss
  | .loop condition round update _ => ∃ Γ, Chain W m.heap m.scope Γ ∧ condition.Known T Γ ∧
    round.Known T Γ ∧ ∀ u ∈ update, u.Known T Γ

/-- What holds of the result of a task that began in some scope. -/
def Task.Yields (T : List (Reference (Option Link))) (scope : ScopeId) (W : World) (h : Heap) :
    (t : Task) → t.Result → Prop
  | .write .., _ => True
  | .inherit .., (superclass, receiver) =>
    (∃ c, superclass = .cls c) ∧ superclass.Fits T W h ∧ receiver.Fits T W h
  | .exprs _, vs => ∀ v ∈ vs, v.Fits T W h
  | .stmt s, signal =>
    SignalFits T W h signal ∧ (signal = .next → ∀ x ∈ s.declared, (h.slots scope).has x)
  | .stmts _, signal | .loop .., signal => SignalFits T W h signal
  | .read .., v | .expr _, v | .bound .., v | .call .., v | .enter .., v | .body .., v =>
    Value.Fits T W h v

section

variable {T : List (Reference (Option Link))} {allowed : RuntimeError → Prop} {W : World}
  {m : Machine}

/-! ## Following links -/

/-- What is absent from the scope that a link leads to is undefined, or it is not bound yet. -/
theorem Refers.home (hT : Linked T) (hs : Sound T W m.heap) {name : Token} {link : Option Link}
    (h : Refers T W m name link) :
    ∃ (n k : Nat) (home : ScopeId), link = some ⟨n, k⟩ ∧ m.heap.ancestor m.scope k = .ok home ∧
      (¬ (m.heap.slots home).has name.lexeme →
        m.heap.missing home name.lexeme k = .undefined name.lexeme ∨
        m.heap.missing home name.lexeme k = .absent name.lexeme k ∧
          ∀ v, (Task.read name link).Premature T m ∧ (Task.write name link v).Premature T m) := by
  obtain ⟨ref, hknown, rfl, rfl, hΓ⟩ := h
  obtain ⟨n, k, hl, hget, -, hk⟩ := hknown.leads hT
  rw [hl]
  rcases hk with rfl | ⟨f, hf, hdeclared⟩
  · refine ⟨n, _, Heap.globals, rfl, hΓ.ancestor_length, fun _ => .inl ?_⟩
    simp [Heap.missing, hs.root]
  · obtain ⟨home, p, ha, hp, -, hready⟩ := hΓ.ancestor hf
    refine ⟨n, k, home, rfl, ha, fun hnot => .inr ⟨by simp [Heap.missing, hp], fun v => ?_⟩⟩
    have hpending : ref.name.lexeme ∈ f.pending :=
      (List.mem_append.mp hdeclared).resolve_right fun hr => hnot (hready _ hr)
    have hprem : (Task.read ref.name (some ⟨n, k⟩)).Premature T m :=
      ⟨ref, f, home, hget, hf, hpending, ha, by simp [hp], hnot⟩
    exact ⟨hprem, hprem⟩

theorem evaluates_readLink
    (hfault : ∀ e : RuntimeError, e.fault.isInternal = false → allowed e) (hT : Linked T)
    (hs : Sound T W m.heap) {name : Token} {link : Option Link} (h : Refers T W m name link)
    (hprem : (Task.read name link).Premature T m →
      ∀ x d token, allowed ⟨.access (.absent x d), token⟩) :
    Evaluates T allowed W m (readLink name link) (readLink name link)
      fun W h v => v.Fits T W h := by
  obtain ⟨n, k, home, rfl, ha, hmissing⟩ := h.home hT hs
  cases hv : (m.heap.slots home).get? name.lexeme with
  | some v =>
    refine .of_ok ?_ (.refl hs) (hs.slots home _ v hv)
    simp only [readLink, Heap.getAt_of_ancestor name.lexeme ha, hv]
  | none =>
    have hnot : ¬ (m.heap.slots home).has name.lexeme := by simp [Entries.has, hv]
    refine .of_error ?_ hs (e := ⟨.access (m.heap.missing home name.lexeme k), name⟩) ?_
    · simp only [readLink, Heap.getAt_of_ancestor name.lexeme ha, hv]
    · rcases hmissing hnot with hu | ⟨habsent, hearly⟩
      · rw [hu]; exact hfault _ rfl
      · rw [habsent]; exact hprem (hearly .none).1 _ _ _

theorem evaluates_writeLink
    (hfault : ∀ e : RuntimeError, e.fault.isInternal = false → allowed e) (hT : Linked T)
    (hs : Sound T W m.heap) {name : Token} {link : Option Link} {value : Value}
    (hname : name.Ordinary) (hv : value.Fits T W m.heap) (h : Refers T W m name link)
    (hprem : (Task.write name link value).Premature T m →
      ∀ x d token, allowed ⟨.access (.absent x d), token⟩) :
    Evaluates T allowed W m (writeLink name link value) (writeLink name link value)
      fun _ _ _ => True := by
  obtain ⟨n, k, home, rfl, ha, hmissing⟩ := h.home hT hs
  by_cases hhas : (m.heap.slots home).has name.lexeme
  · have hext : m.Extends T W W { m with heap := m.heap.define home name.lexeme value } :=
      ⟨hs.define hname (hs.names home _ hhas) (hv.grow (Sound.grows_define _ _ _)),
        Sound.grows_define _ _ _, rfl⟩
    refine .of_ok (a := ()) ?_ hext trivial
    simp only [writeLink, Heap.binderAt_of_ancestor name.lexeme ha, hhas, ↓reduceIte]
  · refine .of_error ?_ hs (e := ⟨.access (m.heap.missing home name.lexeme k), name⟩) ?_
    · simp only [writeLink, Heap.binderAt_of_ancestor name.lexeme ha, hhas, Bool.false_eq_true,
        ↓reduceIte]
    · rcases hmissing hhas with hu | ⟨habsent, hearly⟩
      · rw [hu]; exact hfault _ rfl
      · rw [habsent]; exact hprem (hearly value).2 _ _ _

/-- Where a superclass is found, it is a class, and there is a receiver. -/
theorem evaluates_inheritance
    (hfault : ∀ e : RuntimeError, e.fault.isInternal = false → allowed e) (hT : Linked T)
    (hs : Sound T W m.heap) {keyword : Token} {link : Option Link}
    (hkeyword : keyword.lexeme = "super") (h : Refers T W m keyword link) :
    Evaluates T allowed W m (inheritance keyword link) (inheritance keyword link)
      fun W h p => (∃ c, p.1 = .cls c) ∧ p.1.Fits T W h ∧ p.2.Fits T W h := by
  obtain ⟨ref, hknown, rfl, rfl, hΓ⟩ := h
  obtain ⟨n, k, hl, -, hshaped, hk⟩ := hknown.leads hT
  rw [hl]
  rcases hk with rfl | ⟨f, hf, hdeclared⟩
  · have hget : (m.heap.slots Heap.globals).get? ref.name.lexeme = none := by
      have := hs.outermost
      rw [← hkeyword] at this
      simpa [Entries.has] using this
    -- past all frames there is no superclass, but this is an error that a program may end with
    refine .of_error ?_ hs (hfault ⟨.access (.undefined ref.name.lexeme), ref.name⟩ rfl)
    simp only [inheritance, Heap.getAt_of_ancestor _ hΓ.ancestor_length, hget, Heap.missing,
      hs.root, Option.isNone_none, ↓reduceIte]
  · rw [hkeyword] at hdeclared
    obtain ⟨hready, j, g, rfl, hg, hthis⟩ := hshaped.receiver hf hdeclared
    obtain ⟨home, -, ha, -, -, hin⟩ := hΓ.ancestor hf
    obtain ⟨home', -, ha', -, -, hin'⟩ := hΓ.ancestor hg
    obtain ⟨superclass, hsuper⟩ := Option.isSome_iff_exists.mp (hin _ hready)
    obtain ⟨receiver, hreceiver⟩ := Option.isSome_iff_exists.mp (hin' _ hthis)
    refine .of_ok (a := (superclass, receiver)) ?_ (.refl hs)
      ⟨hs.superclass _ _ hsuper, hs.slots _ _ _ hsuper, hs.slots _ _ _ hreceiver⟩
    have hd : ((j + 1 : Nat) : Int) - 1 = j := by omega
    rw [← hkeyword] at hsuper
    simp only [inheritance, hd, Heap.getAt_of_ancestor _ ha, hsuper, Heap.getAt_of_ancestor _ ha',
      hreceiver]

/-! ## The variables of a call -/

theorem get?_parameterSlots {params : List Token} {args : List Value} {x : Text} {v : Value}
    (h : (parameterSlots params args).get? x = some v) :
    x ∈ params.map Token.lexeme ∧ v ∈ args := by
  have hfold : ∀ (ps : List (Token × Value)) (slots : Entries Value),
      (ps.foldl (fun slots p => slots.put p.1.lexeme p.2) slots).get? x = some v →
        slots.get? x = some v ∨ ∃ p, (p, v) ∈ ps ∧ p.lexeme = x := by
    intro ps
    induction ps with
    | nil => exact fun slots h => .inl h
    | cons p ps ih =>
      intro slots h
      rcases ih _ h with h | ⟨q, hq, hx⟩
      · rw [Entries.get?_put] at h
        split at h
        · next hx => cases h; exact .inr ⟨p.1, List.mem_cons_self, hx⟩
        · exact .inl h
      · exact .inr ⟨q, List.mem_cons_of_mem _ hq, hx⟩
  rcases hfold _ _ h with h | ⟨p, hp, rfl⟩
  · cases h
  · exact ⟨List.mem_map_of_mem (List.of_mem_zip hp).1, (List.of_mem_zip hp).2⟩

theorem has_parameterSlots {params : List Token} {args : List Value}
    (hlen : params.length = args.length) {x : Text} (hx : x ∈ params.map Token.lexeme) :
    (parameterSlots params args).has x := by
  have hfold : ∀ (ps : List (Token × Value)) (slots : Entries Value),
      slots.has x ∨ x ∈ ps.map (fun p => p.1.lexeme) →
        (ps.foldl (fun slots p => slots.put p.1.lexeme p.2) slots).has x := by
    intro ps
    induction ps with
    | nil => exact fun slots h => h.resolve_right List.not_mem_nil
    | cons p ps ih =>
      intro slots h
      refine ih _ ?_
      rw [Entries.has_put]
      rw [List.map_cons, List.mem_cons] at h
      rcases h with h | h | h
      · exact .inl (.inr h)
      · exact .inl (.inl h.symm)
      · exact .inr h
  refine hfold _ [] (.inr ?_)
  have hzip : (params.zip args).map (fun p => p.1.lexeme) = params.map Token.lexeme := by
    change (params.zip args).map (Token.lexeme ∘ Prod.fst) = _
    rw [← List.map_map, List.map_fst_zip (Nat.le_of_eq hlen)]
  rwa [hzip]

end

/-! ## Evaluations -/

/-- Two ways to evaluate tasks that do the same wherever a task fits, and keep heaps sound. -/
structure Agree (T : List (Reference (Option Link))) (allowed : RuntimeError → Prop)
    (r' r : Runner) : Prop where
  fault : ∀ e : RuntimeError, e.fault.isInternal = false → allowed e
  task : ∀ (t : Task) (W : World) (m : Machine), Sound T W m.heap → t.Fits T W m →
    Evaluates T allowed W m (r' t) (r t) fun W' h a => t.Yields T m.scope W' h a

namespace Agree

variable {T : List (Reference (Option Link))} {allowed : RuntimeError → Prop} {r' r : Runner}
  {W : World} {m : Machine} {Γ : Site}

theorem expr (h : Agree T allowed r' r) (hs : Sound T W m.heap) (hΓ : Chain W m.heap m.scope Γ)
    {e : Expr (Option Link)} (he : e.Known T Γ) :
    Evaluates T allowed W m (r'.expr e) (r.expr e) fun W h v => v.Fits T W h :=
  h.task (.expr e) W m hs ⟨Γ, hΓ, he⟩

theorem exprs (h : Agree T allowed r' r) (hs : Sound T W m.heap) (hΓ : Chain W m.heap m.scope Γ)
    {es : List (Expr (Option Link))} (hes : Expr.KnownList T Γ es) :
    Evaluates T allowed W m (r'.exprs es) (r.exprs es) fun W h vs => ∀ v ∈ vs, v.Fits T W h :=
  h.task (.exprs es) W m hs ⟨Γ, hΓ, hes⟩

theorem read (h : Agree T allowed r' r) (hs : Sound T W m.heap) (hΓ : Chain W m.heap m.scope Γ)
    {name : Token} {link : Option Link}
    (href : (⟨Γ, name, link⟩ : Reference (Option Link)).Known T) :
    Evaluates T allowed W m (r'.read name link) (r.read name link) fun W h v => v.Fits T W h :=
  h.task (.read name link) W m hs ⟨_, href, rfl, rfl, hΓ⟩

theorem write (h : Agree T allowed r' r) (hs : Sound T W m.heap) (hΓ : Chain W m.heap m.scope Γ)
    {name : Token} {link : Option Link} {value : Value}
    (href : (⟨Γ, name, link⟩ : Reference (Option Link)).Known T) (hname : name.Ordinary)
    (hv : value.Fits T W m.heap) :
    Evaluates T allowed W m (r'.write name link value) (r.write name link value)
      fun _ _ _ => True :=
  h.task (.write name link value) W m hs ⟨hname, hv, _, href, rfl, rfl, hΓ⟩

theorem stmt (h : Agree T allowed r' r) (hs : Sound T W m.heap) (hΓ : Chain W m.heap m.scope Γ)
    {s : Stmt (Option Link)} (hstmt : s.Known T Γ) :
    Evaluates T allowed W m (r'.stmt s) (r.stmt s) fun W h signal =>
      SignalFits T W h signal ∧ (signal = .next → ∀ x ∈ s.declared, (h.slots m.scope).has x) :=
  h.task (.stmt s) W m hs ⟨Γ, hΓ, hstmt⟩

/-- A statement that stands where nothing is declared. -/
theorem inner (h : Agree T allowed r' r) (hs : Sound T W m.heap) (hΓ : Chain W m.heap m.scope Γ)
    {s : Stmt (Option Link)} (hstmt : s.Known T Γ) {scope : ScopeId} :
    Evaluates T allowed W m (r'.stmt s) (r.stmt s) fun W h signal =>
      SignalFits T W h signal ∧ (signal = .next → ∀ x ∈ ([] : List Text), (h.slots scope).has x) :=
  (h.stmt hs hΓ hstmt).imp fun _ _ _ hsignal => ⟨hsignal.1, nofun⟩

theorem assignStep (h : Agree T allowed r' r) (hs : Sound T W m.heap)
    (hΓ : Chain W m.heap m.scope Γ) {name op : Token} {value : Expr (Option Link)}
    {link : Option Link} (hname : name.Ordinary)
    (hop : op.kind = .assign ∨ op.kind.isCompoundAssign) (hvalue : value.Known T Γ)
    (href : (⟨Γ, name, link⟩ : Reference (Option Link)).Known T) :
    Evaluates T allowed W m (assignStep r' name op value link) (assignStep r name op value link)
      fun W h v => v.Fits T W h := by
  unfold Eval.assignStep
  split
  · refine (h.expr hs hΓ hvalue).bind fun v W₁ m₁ he₁ hv => ?_
    refine (h.write he₁.sound (he₁.chain hΓ) href hname hv).bind fun _ W₂ m₂ he₂ _ => ?_
    exact evaluates_pure he₂.sound (hv.grow he₂.grows)
  · next hassign =>
    have hcompound : op.kind.isCompoundAssign := hop.resolve_left hassign
    refine (h.read hs hΓ href).bind fun current W₁ m₁ he₁ _ => ?_
    have hΓ₁ := he₁.chain hΓ
    refine (h.expr he₁.sound hΓ₁ hvalue).bind fun v W₂ m₂ he₂ _ => ?_
    have hΓ₂ := he₂.chain hΓ₁
    refine Evaluates.bind (P := fun W h v => Value.Fits T W h v) ?_ fun v W₃ m₃ he₃ hv => ?_
    · refine evaluates_lift he₂.sound (fun v hv => (Value.combine_isPlain hv).fits) ?_
      exact fun fault hf => h.fault _ (Value.combine_error (Kind.isBinary_binary hcompound) hf)
    · refine (h.write he₃.sound (he₃.chain hΓ₂) href hname hv).bind fun _ W₄ m₄ he₄ _ => ?_
      exact evaluates_pure he₄.sound (hv.grow he₄.grows)

theorem increment (h : Agree T allowed r' r) (hs : Sound T W m.heap)
    (hΓ : Chain W m.heap m.scope Γ) (op : Token) (trailing : Bool) {name : Token}
    {link : Option Link} (hname : name.Ordinary)
    (href : (⟨Γ, name, link⟩ : Reference (Option Link)).Known T) :
    Evaluates T allowed W m (increment r' op trailing name link) (increment r op trailing name link)
      fun W h v => v.Fits T W h := by
  unfold Eval.increment
  refine (h.read hs hΓ href).bind fun old W₁ m₁ he₁ _ => ?_
  cases old with
  | number x =>
    have hnumber : Value.Fits T W₁ m₁.heap (.number (stepped op.kind x)) := trivial
    refine (h.write he₁.sound (he₁.chain hΓ) href hname hnumber).bind fun _ W₂ m₂ he₂ _ => ?_
    exact evaluates_pure he₂.sound trivial
  | _ => exact evaluates_fail he₁.sound (h.fault _ rfl)

theorem unaryStep (h : Agree T allowed r' r) (hs : Sound T W m.heap)
    (hΓ : Chain W m.heap m.scope Γ) {op : Token} {operand : Expr (Option Link)} (trailing : Bool)
    (hop : op.kind.isUnary) (hoperand : operand.Known T Γ) :
    Evaluates T allowed W m (unaryStep r' op operand trailing) (unaryStep r op operand trailing)
      fun W h v => v.Fits T W h := by
  unfold Eval.unaryStep
  split
  · cases operand with
    | name span name link =>
      exact h.increment hs hΓ op trailing hoperand.wellFormed
        (List.forall_mem_singleton.mp hoperand.references)
    | _ => exact evaluates_fail hs (h.fault _ rfl)
  · next hstep =>
    have hkind : op.kind = .bang ∨ op.kind = .minus := by
      rw [not_or] at hstep
      cases hk : op.kind
      all_goals first | exact .inl rfl | exact .inr rfl | simp_all [Kind.isUnary]
    refine (h.expr hs hΓ hoperand).bind fun v W₁ m₁ he₁ _ => ?_
    exact evaluates_lift he₁.sound (fun v hv => (Value.unary_isPlain hv).fits)
      fun fault hf => h.fault _ (Value.unary_error hkind hf)

theorem callStep (h : Agree T allowed r' r) (hs : Sound T W m.heap)
    (hΓ : Chain W m.heap m.scope Γ) {callee : Expr (Option Link)} (paren : Token)
    {args : List (Expr (Option Link))} (hcallee : callee.Known T Γ)
    (hargs : Expr.KnownList T Γ args) :
    Evaluates T allowed W m (callStep r' callee paren args) (callStep r callee paren args)
      fun W h v => v.Fits T W h := by
  unfold Eval.callStep
  refine (h.expr hs hΓ hcallee).bind fun f W₁ m₁ he₁ hf => ?_
  refine (h.exprs he₁.sound (he₁.chain hΓ) hargs).bind fun vs W₂ m₂ he₂ hvs => ?_
  split
  · exact evaluates_fail he₂.sound (h.fault _ rfl)
  · next n harity =>
    split
    · next hlen =>
      exact h.task (.call paren f vs) W₂ m₂ he₂.sound ⟨hf.grow he₂.grows, hvs, hlen ▸ harity⟩
    · exact evaluates_fail he₂.sound (h.fault _ rfl)

theorem setStep (h : Agree T allowed r' r) (hs : Sound T W m.heap) (hΓ : Chain W m.heap m.scope Γ)
    {object value : Expr (Option Link)} (name : Token) (hobject : object.Known T Γ)
    (hvalue : value.Known T Γ) :
    Evaluates T allowed W m (setStep r' object name value) (setStep r object name value)
      fun W h v => v.Fits T W h := by
  unfold Eval.setStep
  refine (h.expr hs hΓ hobject).bind fun o W₁ m₁ he₁ _ => ?_
  cases o with
  | object id c =>
    refine (h.expr he₁.sound (he₁.chain hΓ) hvalue).bind fun v W₂ m₂ he₂ hv => ?_
    refine (evaluates_setField he₂.sound id name.lexeme hv).bind fun _ W₃ m₃ he₃ _ => ?_
    exact evaluates_pure he₃.sound (hv.grow he₃.grows)
  | _ => exact evaluates_fail he₁.sound (h.fault _ rfl)

theorem inheritedStep (h : Agree T allowed r' r) (hs : Sound T W m.heap)
    (hΓ : Chain W m.heap m.scope Γ) {keyword : Token} (method : Token) {link : Option Link}
    (hkeyword : keyword.lexeme = "super")
    (href : (⟨Γ, keyword, link⟩ : Reference (Option Link)).Known T) :
    Evaluates T allowed W m (inheritedStep r' keyword method link)
      (inheritedStep r keyword method link) fun W h v => v.Fits T W h := by
  unfold Eval.inheritedStep
  have hinherit := h.task (.inherit keyword link) W m hs ⟨hkeyword, _, href, rfl, rfl, hΓ⟩
  refine hinherit.bind fun (superclass, receiver) W₁ m₁ he₁ hp => ?_
  obtain ⟨⟨c, rfl⟩, hc, hv⟩ := hp
  dsimp only
  split
  · next f hf =>
    refine h.task (.bound method f receiver) W₁ m₁ he₁.sound ⟨?_, hv⟩
    split at hf
    · exact ClassValue.Fits.classMethod? hc hf
    · exact ClassValue.Fits.method? hc hf
  · exact evaluates_fail he₁.sound (h.fault _ rfl)

theorem exprStep (h : Agree T allowed r' r) (hs : Sound T W m.heap) (hΓ : Chain W m.heap m.scope Γ)
    {e : Expr (Option Link)} (hknown : e.Known T Γ) :
    Evaluates T allowed W m (exprStep r' e) (exprStep r e) fun W h v => v.Fits T W h := by
  obtain ⟨hw, hrefs⟩ := hknown
  cases e with
  | literal span value => exact evaluates_pure hs (Value.isPlain_ofLiteral value).fits
  | name span name link => exact h.read hs hΓ (List.forall_mem_singleton.mp hrefs)
  | assign span name op value link =>
    simp only [Expr.references, List.forall_mem_append, List.forall_mem_singleton] at hrefs
    exact h.assignStep hs hΓ hw.1 hw.2.1 ⟨hw.2.2, hrefs.1⟩ hrefs.2
  | binary span left op right =>
    simp only [Expr.references, List.forall_mem_append] at hrefs
    refine (h.expr hs hΓ ⟨hw.2.1, hrefs.1⟩).bind fun l W₁ m₁ he₁ _ => ?_
    refine (h.expr he₁.sound (he₁.chain hΓ) ⟨hw.2.2, hrefs.2⟩).bind fun v W₂ m₂ he₂ hv => ?_
    split
    · exact evaluates_pure he₂.sound hv
    · next hcomma =>
      refine evaluates_lift he₂.sound (fun v hv => (Value.combine_isPlain hv).fits) ?_
      exact fun fault hf => h.fault _ (Value.combine_error (hw.1.resolve_left hcomma) hf)
  | logical span left op right =>
    simp only [Expr.references, List.forall_mem_append] at hrefs
    refine (h.expr hs hΓ ⟨hw.1, hrefs.1⟩).bind fun l W₁ m₁ he₁ hl => ?_
    split
    · exact evaluates_pure he₁.sound hl
    · exact h.expr he₁.sound (he₁.chain hΓ) ⟨hw.2, hrefs.2⟩
  | unary span op operand trailing => exact h.unaryStep hs hΓ trailing hw.1 ⟨hw.2, hrefs⟩
  | ternary span condition onTrue onFalse =>
    simp only [Expr.references, List.forall_mem_append] at hrefs
    refine (h.expr hs hΓ ⟨hw.1, hrefs.1⟩).bind fun c W₁ m₁ he₁ _ => ?_
    split
    · exact h.expr he₁.sound (he₁.chain hΓ) ⟨hw.2.1, hrefs.2.1⟩
    · exact h.expr he₁.sound (he₁.chain hΓ) ⟨hw.2.2, hrefs.2.2⟩
  | group span inner => exact h.expr hs hΓ ⟨hw, hrefs⟩
  | call span callee paren args =>
    simp only [Expr.references, List.forall_mem_append] at hrefs
    exact h.callStep hs hΓ paren ⟨hw.1, hrefs.1⟩ ⟨hw.2, hrefs.2⟩
  | lambda function =>
    refine (evaluates_closure hs [] function).bind fun c W₁ m₁ he₁ hc => ?_
    refine evaluates_pure he₁.sound ⟨Γ, ?_, ?_⟩
    · rw [hc.2]; exact hΓ.mono he₁.grows
    · rw [hc.1]; exact ⟨hw, hrefs⟩
  | get span object name =>
    have hobject : object.Known T Γ := ⟨hw, hrefs⟩
    refine (h.expr hs hΓ hobject).bind fun o W₁ m₁ he₁ ho => ?_
    refine (evaluates_property h.fault he₁.sound ho name).bind fun p W₂ m₂ he₂ hp => ?_
    cases p with
    | field v => exact evaluates_pure he₂.sound hp
    | method f => exact h.task (.bound name f o) W₂ m₂ he₂.sound ⟨hp, ho.grow he₂.grows⟩
  | set span object name value =>
    simp only [Expr.references, List.forall_mem_append] at hrefs
    exact h.setStep hs hΓ name ⟨hw.1, hrefs.2⟩ ⟨hw.2, hrefs.1⟩
  | receiver span keyword link => exact h.read hs hΓ (List.forall_mem_singleton.mp hrefs)
  | inherited span keyword method link =>
    exact h.inheritedStep hs hΓ method hw (List.forall_mem_singleton.mp hrefs)

/-- A getter is called without arguments, and has no parameters. -/
theorem boundStep (h : Agree T allowed r' r) (hs : Sound T W m.heap) (token : Token)
    {method : Closure} {receiver : Value} (hmethod : method.FitsUnbound T W m.heap)
    (hreceiver : receiver.Fits T W m.heap) :
    Evaluates T allowed W m (boundStep r' token method receiver) (boundStep r token method receiver)
      fun W h v => v.Fits T W h := by
  unfold Eval.boundStep
  refine (evaluates_bindReceiver hs hmethod hreceiver).bind fun f W₁ m₁ he₁ hf => ?_
  split
  · next hgetter =>
    have harity : f.arity = 0 := by
      obtain ⟨⟨Γ, -, hknown⟩, -⟩ := hf
      have hw := hknown.wellFormed
      unfold Closure.getter at hgetter
      unfold Closure.arity
      cases hfun : f.function with
      | mk span keyword params body getter =>
        rw [hfun] at hw hgetter
        rw [Function.params, hw.2.1 hgetter]
        rfl
    refine h.task (.call token (.function f) []) W₁ m₁ he₁.sound ⟨hf.1, List.forall_mem_nil _, ?_⟩
    exact congrArg some harity
  · exact evaluates_pure he₁.sound hf.1

theorem construct (h : Agree T allowed r' r) (hs : Sound T W m.heap) {c : ClassValue}
    {args : List Value} (hc : c.Fits T W m.heap) (hargs : ∀ v ∈ args, v.Fits T W m.heap)
    (harity : c.arity = args.length) :
    Evaluates T allowed W m (construct r' c args) (construct r c args)
      fun W h v => v.Fits T W h := by
  unfold Eval.construct
  refine (evaluates_newObject hs).bind fun id W₁ m₁ he₁ _ => ?_
  have hobject : Value.Fits T W₁ m₁.heap (.object id c) := hc.mono (List.prefix_refl T) he₁.grows
  dsimp only
  split
  · exact evaluates_pure he₁.sound hobject
  · next init hinit =>
    have hmethod := ClassValue.Fits.method? hobject hinit
    refine (evaluates_bindReceiver he₁.sound hmethod hobject).bind fun f W₂ m₂ he₂ hf => ?_
    have hbody : (Task.body f args).Fits T W₂ m₂ := by
      refine ⟨hf.1, fun v hv => (hargs v hv).grow (he₁.grows.trans he₂.grows), ?_⟩
      rw [ClassValue.arity, hinit] at harity
      rw [← harity, Closure.arity, hf.2]
      rfl
    refine (h.task (.body f args) W₂ m₂ he₂.sound hbody).bind fun _ W₃ m₃ he₃ _ => ?_
    exact evaluates_pure he₃.sound (hobject.grow (he₂.grows.trans he₃.grows))

theorem enterStep (h : Agree T allowed r' r) (hs : Sound T W m.heap) (token : Token)
    {callee : Value} {args : List Value} (hcallee : callee.Fits T W m.heap)
    (hargs : ∀ v ∈ args, v.Fits T W m.heap) (harity : arity? callee = some args.length) :
    Evaluates T allowed W m (enterStep r' token callee args) (enterStep r token callee args)
      fun W h v => v.Fits T W h := by
  cases callee with
  | function f => exact h.task (.body f args) W m hs ⟨hcallee, hargs, Option.some.inj harity⟩
  | cls c => exact h.construct hs hcallee hargs (Option.some.inj harity)
  | native n => exact evaluates_callNative h.fault hs token n args
  | _ => cases harity

theorem bodyStep (h : Agree T allowed r' r) (hs : Sound T W m.heap) {f : Closure}
    {args : List Value} (hf : f.Fits T W m.heap) (hargs : ∀ v ∈ args, v.Fits T W m.heap)
    (harity : f.arity = args.length) :
    Evaluates T allowed W m (bodyStep r' f args) (bodyStep r f args)
      fun W h v => v.Fits T W h := by
  obtain ⟨Γ, hΓ, hknown⟩ := hf
  have hordinary : ∀ p ∈ f.function.params, p.Ordinary := by
    have hw := hknown.wellFormed
    cases hfun : f.function with
    | mk => rw [hfun] at hw; exact hw.1
  have hinside : Evaluates T allowed W m
      (newScope f.scope (parameterSlots f.function.params args))
      (newScope f.scope (parameterSlots f.function.params args))
      fun W h id => Chain W h id (Γ.inFunction f.function.params f.function.body) := by
    rw [Site.inFunction, Site.enter, Site.addAll_cons]
    refine evaluates_newScope hs hΓ _ ?_ ?_ ?_ ?_
    · intro x hx
      exact has_parameterSlots harity (by simpa using hx)
    · intro x hx
      obtain ⟨v, hv⟩ := Option.isSome_iff_exists.mp hx
      exact List.mem_append_left _ (get?_parameterSlots hv).1
    · intro v hv
      obtain ⟨p, hp, hpx⟩ := List.mem_map.mp (get?_parameterSlots hv).1
      exact absurd hpx (hordinary p hp)
    · exact fun x v hv => hargs v (get?_parameterSlots hv).2
  -- the body begins with the parameters bound, so they are the names that are ready
  unfold Eval.bodyStep
  refine hinside.bind fun scope W₁ m₁ he₁ hscope => ?_
  have hbody := h.task (.stmts f.function.body) W₁ { m₁ with scope := scope } he₁.sound
    ⟨_, hscope, hknown.body⟩
  refine hbody.inScope.bind fun signal W₂ m₂ he₂ hsignal => ?_
  split
  · exact evaluates_receiverOf he₂.sound f
  · cases signal with
    | leave v => exact evaluates_pure he₂.sound hsignal
    | _ => exact evaluates_pure he₂.sound trivial

theorem superclassOf (h : Agree T allowed r' r) (hs : Sound T W m.heap)
    (hΓ : Chain W m.heap m.scope Γ) {superclass : Option (Token × Option Link)}
    (href : ∀ p ∈ superclass, (⟨Γ, p.1, p.2⟩ : Reference (Option Link)).Known T) :
    Evaluates T allowed W m (superclassOf r' superclass) (superclassOf r superclass)
      fun W h parent => parent.isSome = superclass.isSome ∧ ∀ c ∈ parent, c.Fits T W h := by
  cases superclass with
  | none => exact evaluates_pure hs ⟨rfl, nofun⟩
  | some p =>
    refine (h.read hs hΓ (href p rfl)).bind fun v W₁ m₁ he₁ hv => ?_
    cases v with
    | cls c =>
      refine evaluates_pure he₁.sound ⟨rfl, fun c' hc' => ?_⟩
      cases hc'
      exact hv
    | _ => exact evaluates_fail he₁.sound (h.fault _ rfl)

/-- A declared name is bound when its declaration goes on to the next statement. -/
theorem declare (hs : Sound T W m.heap) (hΓ : Chain W m.heap m.scope Γ) {scope : ScopeId}
    (hscope : m.scope = scope) {name : Text} {value : Value} (hname : name ≠ "super")
    (hhosts : Γ.Hosts [name]) (hv : value.Fits T W (m.heap.define m.scope name value)) :
    Evaluates T allowed W m (do define name value; return .next)
      (do define name value; return .next)
      fun W h signal => SignalFits T W h signal ∧
        (signal = .next → ∀ x ∈ [name], (h.slots scope).has x) := by
  have hhosted : ∀ f ∈ Γ.head?, name ∈ f.names := fun f hf => hhosts f hf _ List.mem_cons_self
  refine (evaluates_define hs hΓ hname hhosted hv).bind fun _ W' m' he hhas => ?_
  exact evaluates_pure he.sound ⟨trivial, fun _ => List.forall_mem_singleton.mpr (hscope ▸ hhas)⟩

theorem declareClass (h : Agree T allowed r' r) (hs : Sound T W m.heap)
    (hΓ : Chain W m.heap m.scope Γ) {span : Span} {name : Token}
    {superclass : Option (Token × Option Link)}
    {methods classMethods : List (Declaration (Option Link))}
    (hknown : (Stmt.declareClass span name superclass methods classMethods).Known T Γ) :
    Evaluates T allowed W m (declareClass r' name superclass methods classMethods)
      (declareClass r name superclass methods classMethods)
      fun W h signal => SignalFits T W h signal ∧
        (signal = .next → ∀ x ∈ [name.lexeme], (h.slots m.scope).has x) := by
  obtain ⟨⟨hname, hwm, hwc⟩, hrefs, hhosts⟩ := hknown
  have hhosted : ∀ f ∈ Γ.head?, name.lexeme ∈ f.names :=
    fun f hf => hhosts f hf _ List.mem_cons_self
  simp only [Stmt.references, List.forall_mem_append] at hrefs
  obtain ⟨hparent, hmethods, hclassMethods⟩ := hrefs
  have hsuperclass : ∀ p ∈ superclass,
      (⟨Γ.await name.lexeme, p.1, p.2⟩ : Reference (Option Link)).Known T := by
    rintro p rfl
    exact List.forall_mem_singleton.mp hparent
  unfold Eval.declareClass
  -- the name is bound once before the methods are made and once after it
  refine (h.superclassOf hs (hΓ.await _) hsuperclass).bind fun parent W₁ m₁ he₁ hp => ?_
  have hΓ₁ := he₁.chain hΓ
  have hnone : Value.Fits T W₁ (m₁.heap.define m₁.scope name.lexeme .none) .none := trivial
  refine (evaluates_define he₁.sound hΓ₁ hname hhosted hnone).bind fun _ W₂ m₂ he₂ hhas => ?_
  have hΓ₂ := he₂.chain hΓ₁
  have hadded : Chain W₂ m₂.heap m₂.scope (Γ.add name.lexeme) := hΓ₂.add (he₂.scope ▸ hhas)
  rw [← hp.1] at hmethods hclassMethods
  refine (evaluates_makeClass he₂.sound hadded name.lexeme
    (fun c hc => (hp.2 c hc).mono (List.prefix_refl T) he₂.grows) ⟨hwm, hmethods⟩
    ⟨hwc, hclassMethods⟩).bind fun c W₃ m₃ he₃ hc => ?_
  have hcls : Value.Fits T W₃ m₃.heap (.cls c) := hc
  refine declare he₃.sound (he₃.chain hΓ₂) ?_ hname hhosts (hcls.grow (Sound.grows_define _ _ _))
  rw [he₃.scope, he₂.scope, he₁.scope]

theorem stmtStep (h : Agree T allowed r' r) (hs : Sound T W m.heap) (hΓ : Chain W m.heap m.scope Γ)
    {s : Stmt (Option Link)} (hknown : s.Known T Γ) :
    Evaluates T allowed W m (stmtStep r' s) (stmtStep r s) fun W h signal =>
      SignalFits T W h signal ∧ (signal = .next → ∀ x ∈ s.declared, (h.slots m.scope).has x) := by
  cases s with
  | declareClass span name superclass methods classMethods => exact h.declareClass hs hΓ hknown
  | evaluate span e =>
    refine (h.expr hs hΓ ⟨hknown.wellFormed, hknown.references⟩).bind fun _ W₁ m₁ he₁ _ => ?_
    exact evaluates_pure he₁.sound ⟨trivial, nofun⟩
  | print span keyword value =>
    have hvalue : value.Known T Γ := ⟨hknown.wellFormed, hknown.references⟩
    refine (h.expr hs hΓ hvalue).bind fun v W₁ m₁ he₁ _ => ?_
    refine (evaluates_printLine he₁.sound v.shown).bind fun _ W₂ m₂ he₂ _ => ?_
    exact evaluates_pure he₂.sound ⟨trivial, nofun⟩
  | declareVar span name init =>
    cases init with
    | none => exact declare hs hΓ rfl hknown.wellFormed hknown.hosted trivial
    | some init =>
      have hinit : init.Known T (Γ.await name.lexeme) := ⟨hknown.wellFormed.2, hknown.references⟩
      refine (h.expr hs (hΓ.await _) hinit).bind fun v W₁ m₁ he₁ hv => ?_
      exact declare he₁.sound (he₁.chain hΓ) he₁.scope hknown.wellFormed.1 hknown.hosted
        (hv.grow (Sound.grows_define _ _ _))
  | block span body =>
    refine Evaluates.bind (P := fun _ _ here => here = m.scope) (.of_ok rfl (.refl hs) rfl)
      fun here W₁ m₁ he₁ hhere => ?_
    have hΓ₁ : Chain W₁ m₁.heap here Γ := hhere ▸ hΓ.mono he₁.grows
    refine (evaluates_emptyScope he₁.sound hΓ₁ (Stmt.declaredList body)).bind
      fun scope W₂ m₂ he₂ hscope => ?_
    have hbody : Stmt.KnownList T (Γ.enter (Stmt.declaredList body)) body := by
      refine ⟨hknown.wellFormed, hknown.references, fun f hf x hx => ?_⟩
      cases hf
      exact hx
    have hrun := h.task (.stmts body) W₂ { m₂ with scope := scope } he₂.sound ⟨_, hscope, hbody⟩
    exact hrun.inScope.imp fun signal W' h' hsignal => ⟨hsignal, nofun⟩
  | branch span condition onTrue onFalse =>
    cases onFalse with
    | none =>
      obtain ⟨⟨hwc, hwt⟩, hrefs, -⟩ := hknown
      simp only [Stmt.references, List.forall_mem_append] at hrefs
      refine (h.expr hs hΓ ⟨hwc, hrefs.1⟩).bind fun c W₁ m₁ he₁ _ => ?_
      split
      · exact h.inner he₁.sound (he₁.chain hΓ) (.of_inner hwt hrefs.2)
      · exact evaluates_pure he₁.sound ⟨trivial, nofun⟩
    | some onFalse =>
      obtain ⟨⟨hwc, hwt, hwf⟩, hrefs, -⟩ := hknown
      simp only [Stmt.references, List.forall_mem_append] at hrefs
      refine (h.expr hs hΓ ⟨hwc, hrefs.1⟩).bind fun c W₁ m₁ he₁ _ => ?_
      split
      · exact h.inner he₁.sound (he₁.chain hΓ) (.of_inner hwt hrefs.2.1)
      · exact h.inner he₁.sound (he₁.chain hΓ) (.of_inner hwf hrefs.2.2)
  | loop span condition body update bodyFirst =>
    have hfits : (Task.loop condition body update bodyFirst).Fits T W m := by
      cases update with
      | none =>
        obtain ⟨⟨hwc, hwb⟩, hrefs, -⟩ := hknown
        simp only [Stmt.references, List.forall_mem_append] at hrefs
        exact ⟨Γ, hΓ, ⟨hwc, hrefs.1⟩, .of_inner hwb hrefs.2, nofun⟩
      | some u =>
        obtain ⟨⟨hwc, hwb, hwu⟩, hrefs, -⟩ := hknown
        simp only [Stmt.references, List.forall_mem_append] at hrefs
        refine ⟨Γ, hΓ, ⟨hwc, hrefs.1⟩, .of_inner hwb hrefs.2.1, fun e he => ?_⟩
        cases he
        exact ⟨hwu, hrefs.2.2⟩
    exact (h.task (.loop condition body update bodyFirst) W m hs hfits).imp
      fun _ _ _ hsignal => ⟨hsignal, nofun⟩
  | leave span keyword value =>
    cases value with
    | none => exact evaluates_pure hs ⟨trivial, nofun⟩
    | some value =>
      refine (h.expr hs hΓ ⟨hknown.wellFormed, hknown.references⟩).bind fun v W₁ m₁ he₁ hv => ?_
      exact evaluates_pure he₁.sound ⟨hv, nofun⟩
  | breakLoop span keyword => exact evaluates_pure hs ⟨trivial, nofun⟩
  | continueLoop span keyword => exact evaluates_pure hs ⟨trivial, nofun⟩
  | declareFunction d =>
    obtain ⟨span, name, function⟩ := d
    refine (evaluates_closure hs name.lexeme function).bind fun c W₁ m₁ he₁ hc => ?_
    have hΓ₁ := he₁.chain hΓ
    refine declare he₁.sound hΓ₁ he₁.scope hknown.wellFormed.1 hknown.hosted
      ⟨Γ.add name.lexeme, ?_, ?_⟩
    · rw [hc.2, ← he₁.scope]
      refine (hΓ₁.mono (Sound.grows_define _ _ _)).add ?_
      rw [Heap.slots_define, if_pos ⟨rfl, he₁.sound.lt_nextScope hΓ₁⟩]
      exact (Entries.has_put ..).mpr (.inl rfl)
    · rw [hc.1]
      exact ⟨hknown.wellFormed.2, hknown.references⟩

theorem stmtsStep (h : Agree T allowed r' r) (hs : Sound T W m.heap)
    (hΓ : Chain W m.heap m.scope Γ) {ss : List (Stmt (Option Link))}
    (hknown : Stmt.KnownList T Γ ss) :
    Evaluates T allowed W m (stmtsStep r' ss) (stmtsStep r ss)
      fun W h signal => SignalFits T W h signal := by
  cases ss with
  | nil => exact evaluates_pure hs trivial
  | cons s rest =>
    obtain ⟨hstmt, hrest⟩ := hknown.of_cons
    refine (h.stmt hs hΓ hstmt).bind fun signal W₁ m₁ he₁ hsignal => ?_
    cases signal with
    | next =>
      -- only a statement that goes on to the next has bound the names that it declares
      have hdeclared : ∀ x ∈ s.declared, (m₁.heap.slots m₁.scope).has x :=
        he₁.scope ▸ hsignal.2 rfl
      exact h.task (.stmts rest) W₁ m₁ he₁.sound ⟨_, (he₁.chain hΓ).addAll hdeclared, hrest⟩
    | leave v => exact evaluates_pure he₁.sound hsignal.1
    | breakLoop => exact evaluates_pure he₁.sound trivial
    | continueLoop => exact evaluates_pure he₁.sound trivial

theorem loopStep (h : Agree T allowed r' r) (hs : Sound T W m.heap) (hΓ : Chain W m.heap m.scope Γ)
    {condition : Expr (Option Link)} {body : Stmt (Option Link)}
    {update : Option (Expr (Option Link))} (skipTest : Bool) (hcondition : condition.Known T Γ)
    (hbody : body.Known T Γ) (hupdate : ∀ u ∈ update, u.Known T Γ) :
    Evaluates T allowed W m (loopStep r' condition body update skipTest)
      (loopStep r condition body update skipTest) fun W h signal => SignalFits T W h signal := by
  have htest : Evaluates T allowed W m (testStep r' condition skipTest)
      (testStep r condition skipTest) fun _ _ _ => True := by
    unfold testStep
    split
    · exact evaluates_pure hs trivial
    · exact (h.expr hs hΓ hcondition).imp fun _ _ _ _ => trivial
  unfold Eval.loopStep
  refine htest.bind fun c W₁ m₁ he₁ _ => ?_
  split
  · refine (h.stmt he₁.sound (he₁.chain hΓ) hbody).bind fun signal W₂ m₂ he₂ hsignal => ?_
    have hΓ₂ := he₂.chain (he₁.chain hΓ)
    split
    · exact evaluates_pure he₂.sound trivial
    · exact evaluates_pure he₂.sound hsignal.1
    · refine Evaluates.bind (P := fun _ _ _ => True) ?_ fun _ W₃ m₃ he₃ _ => ?_
      · cases update with
        | none => exact evaluates_pure he₂.sound trivial
        | some u =>
          refine (h.expr he₂.sound hΓ₂ (hupdate u rfl)).bind fun _ W₃ m₃ he₃ _ => ?_
          exact evaluates_pure he₃.sound trivial
      · exact h.task (.loop condition body update false) W₃ m₃ he₃.sound
          ⟨Γ, he₃.chain hΓ₂, hcondition, hbody, hupdate⟩
  · exact evaluates_pure he₁.sound trivial

theorem exprsStep (h : Agree T allowed r' r) (hs : Sound T W m.heap)
    (hΓ : Chain W m.heap m.scope Γ) {es : List (Expr (Option Link))}
    (hknown : Expr.KnownList T Γ es) :
    Evaluates T allowed W m (exprsStep r' es) (exprsStep r es)
      fun W h vs => ∀ v ∈ vs, v.Fits T W h := by
  cases es with
  | nil => exact evaluates_pure hs nofun
  | cons e es =>
    obtain ⟨hw, hrefs⟩ := hknown
    rw [Expr.referencesList, List.forall_mem_append] at hrefs
    refine (h.expr hs hΓ ⟨hw.1, hrefs.1⟩).bind fun v W₁ m₁ he₁ hv => ?_
    refine (h.exprs he₁.sound (he₁.chain hΓ) ⟨hw.2, hrefs.2⟩).bind fun vs W₂ m₂ he₂ hvs => ?_
    exact evaluates_pure he₂.sound (List.forall_mem_cons.mpr ⟨hv.grow he₂.grows, hvs⟩)

/-- One evaluation keeps to the scopes of the program if the evaluations inside it do. -/
theorem step (h : Agree T allowed r' r) (hT : Linked T) (t : Task) (hs : Sound T W m.heap)
    (ht : t.Fits T W m)
    (hprem : t.Premature T m → ∀ x d token, allowed ⟨.access (.absent x d), token⟩) :
    Evaluates T allowed W m (step r' t) (step r t) fun W' h a => t.Yields T m.scope W' h a := by
  cases t with
  | read name link => exact evaluates_readLink h.fault hT hs ht hprem
  | write name link value =>
    exact evaluates_writeLink h.fault hT hs ht.1 ht.2.1 ht.2.2 hprem
  | inherit keyword link => exact evaluates_inheritance h.fault hT hs ht.1 ht.2
  | expr e =>
    obtain ⟨Γ, hΓ, he⟩ := ht
    exact h.exprStep hs hΓ he
  | exprs es =>
    obtain ⟨Γ, hΓ, hes⟩ := ht
    exact h.exprsStep hs hΓ hes
  | bound token method receiver => exact h.boundStep hs token ht.1 ht.2
  | call token callee args =>
    exact (h.task (.enter token callee args) W { m with depth := m.depth + 1 } hs ht).nested hs
      (h.fault _ rfl)
  | enter token callee args => exact h.enterStep hs token ht.1 ht.2.1 ht.2.2
  | body f args => exact h.bodyStep hs ht.1 ht.2.1 ht.2.2
  | stmt s =>
    obtain ⟨Γ, hΓ, hstmt⟩ := ht
    exact h.stmtStep hs hΓ hstmt
  | stmts ss =>
    obtain ⟨Γ, hΓ, hss⟩ := ht
    exact h.stmtsStep hs hΓ hss
  | loop condition body update skipTest =>
    obtain ⟨Γ, hΓ, hcondition, hbody, hupdate⟩ := ht
    exact h.loopStep hs hΓ skipTest hcondition hbody hupdate

end Agree

end Eval

end Scriptlet

import Scriptlet.Proofs.Evaluator.Scoping

/-!
# Runs of a source on a sound heap

A source that was read and resolved is known (`Code.Known`), and the machine on which it runs is in
the outermost scope. By induction on the fuel, every task in its run fits when it begins
(`agree_halting`), so the heap is sound afterwards (`Code.Known.meets`), and what holds of no task
that fits never happens in the run (`Code.Known.not_reaches`).

Two things are said with this about references. Wherever one is evaluated, its link leads to the
scope that belongs to the frame in which its name was found (`Task.Fits.lands`). And a run ends with
an internal error exactly if it comes to a premature task (`Code.Known.internal_iff`).
-/

namespace Scriptlet

/-- The references of a source. -/
def Code.references : Code → List (Reference (Option Link))
  | .program stmts => Stmt.referencesList [] stmts
  | .expression e => e.references []

/-- A source that the parser can yield. -/
def Code.WellFormed : Code → Prop
  | .program stmts => Stmt.WellFormedList stmts
  | .expression e => e.WellFormed

/-- A source all of whose references are known. -/
structure Code.Known (T : List (Reference (Option Link))) (code : Code) : Prop where
  wellFormed : code.WellFormed
  references : ∀ ref ∈ code.references, ref.Known T

/-! ## What a reference meets -/

/-- A reference that is evaluated on a machine, with the record of its link. The current scope is
inside as many scopes as were open when the reference was resolved. The link leads to the outermost
scope exactly if the name was found in no frame; otherwise the scope to which it leads binds only
names that belong to the frame in which the name was found. -/
structure Reference.Lands (ref : Reference (Option Link)) (record : LinkRecord) (m : Machine) :
    Prop where
  depth : m.heap.Depth m.scope record.depth
  home : ∃ skipped home, ref.site.LeavesOut ref.name.lexeme skipped ∧
    record.hops = ref.site.hops skipped ref.name.lexeme ∧
    m.heap.ancestor m.scope record.hops = .ok home ∧
    (home = Heap.globals ↔ ∀ f ∈ ref.site.drop skipped, ref.name.lexeme ∉ f.declared) ∧
    (home ≠ Heap.globals → ∃ f, ref.site[record.hops]? = some f ∧ ref.name.lexeme ∈ f.declared ∧
      ∀ y ∈ m.heap.names home, y ∈ f.names)

/-- A scope that fits the site of a reference sees what the resolution of the reference saw. -/
theorem Reference.Matches.lands {T : List (Reference (Option Link))} {W : World} {m : Machine}
    {ref : Reference (Option Link)} {n : Nat} {record : LinkRecord}
    (hm : ref.Matches n record) (hs : Sound T W m.heap) (hΓ : Chain W m.heap m.scope ref.site) :
    ref.Lands record m := by
  refine ⟨hm.depth ▸ hΓ.depth hs.root, ?_⟩
  obtain ⟨skipped, hout, hhops⟩ := hm.leads
  have hglobal := Site.hops_eq_length_iff hout
  rw [← hhops] at hglobal
  by_cases hlength : record.hops = ref.site.length
  · refine ⟨skipped, Heap.globals, hout, hhops, hlength ▸ hΓ.ancestor_length, ?_, nofun⟩
    exact iff_of_true rfl (hglobal.mp hlength)
  · obtain ⟨f, hf, hdeclared⟩ := Site.getElem?_hops hout (hhops ▸ hlength)
    rw [← hhops] at hf
    obtain ⟨home, p, ha, hp, hn, -⟩ := hΓ.ancestor hf
    have hne : home ≠ Heap.globals := by
      rintro rfl
      rw [hs.root] at hp
      cases hp
    refine ⟨skipped, home, hout, hhops, ha, iff_of_false hne (hlength ∘ hglobal.mpr), fun _ => ?_⟩
    refine ⟨f, hf, hdeclared, fun y hy => ?_⟩
    obtain ⟨names, hnames, hmem⟩ := hs.names home y ((Entries.mem_names _ _).mp hy) hne
    rw [hn] at hnames
    cases hnames
    exact hmem

namespace Eval

/-- The reference that is evaluated in a task, if it is about one. -/
def Task.reference? : Task → Option (Token × Option Link)
  | .read name link | .write name link _ | .inherit name link => some (name, link)
  | .expr (.name _ name link) | .expr (.assign _ name _ _ link) => some (name, link)
  | .expr (.receiver _ keyword link) | .expr (.inherited _ keyword _ link) => some (keyword, link)
  | _ => none

/-- If a task is about a reference, it is one of those that were resolved, and it lands. -/
def Task.Lands (refs : List (Reference (Option Link))) (records : List LinkRecord) (t : Task)
    (m : Machine) : Prop :=
  ∀ name link, t.reference? = some (name, link) → ∃ l ref record, link = some l ∧
    refs[l.ordinal]? = some ref ∧ records[l.ordinal]? = some record ∧ ref.name = name ∧
    ref.link = some l ∧ l.hops = record.hops ∧ ref.Lands record m

section

variable {T : List (Reference (Option Link))} {W : World} {m : Machine}

theorem Task.Fits.refers {t : Task} (h : t.Fits T W m) {name : Token} {link : Option Link}
    (ht : t.reference? = some (name, link)) : Refers T W m name link := by
  cases t with
  | read => cases ht; exact h
  | write => cases ht; exact h.2.2
  | inherit => cases ht; exact h.2
  | expr e =>
    obtain ⟨Γ, hΓ, he⟩ := h
    have href : (⟨Γ, name, link⟩ : Reference (Option Link)) ∈ e.references Γ := by
      cases e with
      | name | receiver | inherited => cases ht; exact List.mem_singleton_self _
      | assign => cases ht; exact List.mem_append_right _ (List.mem_singleton_self _)
      | _ => cases ht
    exact ⟨_, he.references _ href, rfl, rfl, hΓ⟩
  | _ => cases ht

/-- Wherever a reference is evaluated, its link leads to where its name was found. -/
theorem Task.Fits.lands {records : List LinkRecord} (hnum : Numbered 0 records T)
    (hs : Sound T W m.heap) {t : Task} (h : t.Fits T W m) : t.Lands T records m := by
  intro name link ht
  obtain ⟨ref, ⟨l, hl, hget⟩, rfl, rfl, hΓ⟩ := h.refers ht
  obtain ⟨record, hrecord, hm⟩ := hnum.getElem? hget
  have hlink : l = ⟨0 + l.ordinal, record.hops⟩ := Option.some.inj (hl.symm.trans hm.link)
  exact ⟨l, ref, record, hl, hget, hrecord, rfl, hl, by rw [hlink], hm.lands hs hΓ⟩

end

/-! ## Evaluation with fuel -/

/-- Evaluation that never stops early is evaluation. -/
theorem halting_never (e : RuntimeError) (fuel : Nat) :
    halting (fun _ _ => False) e fuel = within fuel := by
  induction fuel with
  | zero => rfl
  | succ fuel ih =>
    funext t m
    rw [halting, stopWhen_of_not not_false, ih]
    rfl

/-- Two evaluations that stop at the same tasks, as far as these fit. -/
theorem agree_halting {T : List (Reference (Option Link))} {allowed : RuntimeError → Prop}
    {stop' stop : Task → Machine → Prop} {e : RuntimeError} (hT : Linked T)
    (hfault : ∀ e : RuntimeError, e.fault.isInternal = false → allowed e)
    (hstop : ∀ t W m, Sound T W m.heap → t.Fits T W m → (stop' t m ↔ stop t m))
    (hallowed : ∀ t m, stop t m → allowed e)
    (hprem : ∀ t m, ¬ stop t m → t.Premature T m →
      ∀ x d token, allowed ⟨.access (.absent x d), token⟩) (fuel : Nat) :
    Agree T allowed (halting stop' e fuel) (halting stop e fuel) := by
  induction fuel with
  | zero => exact ⟨hfault, fun t W m hs ht => ⟨rfl, trivial⟩⟩
  | succ fuel ih =>
    refine ⟨hfault, fun t W m hs ht => ?_⟩
    -- a task that fits stops both evaluations or neither; in the second case one step is left
    by_cases hm : stop t m
    · refine ⟨?_, ?_⟩
      · rw [halting, halting, stopWhen_of hm, stopWhen_of ((hstop t W m hs ht).mpr hm)]
      · rw [halting, stopWhen_of hm]
        exact ⟨hallowed t m hm, W, .refl hs⟩
    · have hstep := ih.step hT t hs ht (hprem t m hm)
      unfold Evaluates
      rw [halting, halting, stopWhen_of_not hm, stopWhen_of_not (hm ∘ (hstop t W m hs ht).mp)]
      exact hstep

/-- A run of a whole source keeps to the scopes of the program if the evaluations in it do. -/
theorem Agree.runWith {T : List (Reference (Option Link))} {allowed : RuntimeError → Prop}
    {r' r : Runner} (h : Agree T allowed r' r) {code : Code} (hcode : code.Known T) {W : World}
    {m : Machine} (hs : Sound T W m.heap) (hscope : m.scope = Heap.globals) :
    Evaluates T allowed W m (code.runWith r') (code.runWith r) fun _ _ _ => True := by
  obtain ⟨hw, hrefs⟩ := hcode
  cases code with
  | expression e =>
    exact (h.expr (Γ := []) hs hscope ⟨hw, hrefs⟩).imp fun _ _ _ _ => trivial
  | program stmts =>
    -- at the top level no frame is open, and it stays so from one statement to the next
    have hknown : Stmt.KnownList T [] stmts := ⟨hw, hrefs, nofun⟩
    change Evaluates T allowed W m (Machine.runWith r' stmts) (Machine.runWith r stmts) _
    clear hw hrefs
    induction stmts generalizing W m with
    | nil => exact evaluates_pure hs trivial
    | cons s rest ih =>
      obtain ⟨hstmt, hrest⟩ := hknown.of_cons
      rw [Site.addAll_nil] at hrest
      refine (h.stmt (Γ := []) hs hscope hstmt).bind fun _ W₁ m₁ he₁ _ => ?_
      exact ih he₁.sound (he₁.scope.trans hscope) hrest

/-! ## Premature tasks -/

/-- A premature task fails: the name is absent from the scope to which the link leads. -/
theorem Task.Premature.step_eq {T : List (Reference (Option Link))} {m : Machine} {t : Task}
    (h : t.Premature T m) (r : Runner) :
    ∃ e, step r t m = .error e m ∧ e.fault.isInternal := by
  cases t with
  | read name link =>
    cases link with
    | none => exact h.elim
    | some l =>
      obtain ⟨-, -, home, -, -, -, ha, hp, hnot⟩ := h
      have hnone : (m.heap.slots home).get? name.lexeme = none := by simpa [Entries.has] using hnot
      refine ⟨⟨.access (m.heap.missing home name.lexeme l.hops), name⟩, ?_, ?_⟩
      · simp only [step, readLink, Heap.getAt_of_ancestor name.lexeme ha, hnone]
      · simp [Heap.missing, hp, RuntimeFault.isInternal, AccessFault.isMismatch]
  | write name link value =>
    cases link with
    | none => exact h.elim
    | some l =>
      obtain ⟨-, -, home, -, -, -, ha, hp, hnot⟩ := h
      refine ⟨⟨.access (m.heap.missing home name.lexeme l.hops), name⟩, ?_, ?_⟩
      · simp only [step, writeLink, Heap.binderAt_of_ancestor name.lexeme ha, hnot,
          Bool.false_eq_true, ↓reduceIte]
      · simp [Heap.missing, hp, RuntimeFault.isInternal, AccessFault.isMismatch]
  | _ => exact h.elim

/-- Computations that do the same, unless the second one ends with an internal error. -/
def AgreesUnlessInternal {α : Type} (x y : Eval α) : Prop :=
  ∀ m, x m = y m ∨ ∃ e m', y m = .error e m' ∧ e.fault.isInternal

theorem agreesUnlessInternal_congruence : Congruence AgreesUnlessInternal where
  simple _ := fun _ => .inl rfl
  bind := by
    intro _ _ x y f g hxy hfg m
    rw [bind_apply, bind_apply]
    rcases hxy m with heq | ⟨e, m', hy, he⟩
    · rw [heq]
      cases y m with
      | ok a m' => exact hfg a m'
      | error e m' => exact .inl rfl
      | outOfFuel => exact .inl rfl
    · rw [hy]
      exact .inr ⟨e, m', rfl, he⟩
  inScope := by
    intro _ x y scope hxy m
    unfold inScope
    dsimp only
    rcases hxy { m with scope := scope } with heq | ⟨e, m', hy, he⟩
    · rw [heq]; exact .inl rfl
    · rw [hy]; exact .inr ⟨e, _, rfl, he⟩
  nested := by
    intro _ x y token hxy m
    unfold nested
    split
    · exact .inl rfl
    · rcases hxy { m with depth := m.depth + 1 } with heq | ⟨e, m', hy, he⟩
      · rw [heq]; exact .inl rfl
      · rw [hy]; exact .inr ⟨e, _, rfl, he⟩

end Eval

namespace Code

open Eval

variable {T : List (Reference (Option Link))} {code : Code} {W : World} {m : Machine}

/-- A run that comes to a premature task ends with an internal error. -/
theorem Reaches.internal {fuel : Nat} (h : code.Reaches (fun t m => t.Premature T m) fuel m) :
    ∃ e m', code.runWith (within fuel) m = .error e m' ∧ e.fault.isInternal := by
  obtain ⟨e, hne⟩ := h
  have hr : ∀ t, AgreesUnlessInternal (halting (fun t m => t.Premature T m) e fuel t)
      (within fuel t) := by
    refine agreesUnlessInternal_congruence.halting ?_ fuel
    intro fuel t x hx m
    by_cases hprem : t.Premature T m
    · obtain ⟨err, hstep, hint⟩ := hprem.step_eq (within fuel)
      exact .inr ⟨err, m, hstep, hint⟩
    · rw [stopWhen_of_not hprem]
      exact hx m
  exact (agreesUnlessInternal_congruence.runWith hr code m).resolve_left hne

/-- An error that is not internal, or that says that a name is absent from the scope in which it was
found. -/
def OnlyAbsence (e : RuntimeError) : Prop :=
  e.fault.isInternal → ∃ x d, e.fault = .access (.absent x d)

theorem onlyAbsence_of_not_internal {e : RuntimeError} (h : e.fault.isInternal = false) :
    OnlyAbsence e := by
  intro hint
  rw [h] at hint
  cases hint

namespace Known

/-- A run does the same if it is stopped at tasks that do not fit. -/
theorem evaluates (h : code.Known T) (hT : Linked T) (hs : Sound T W m.heap)
    (hscope : m.scope = Heap.globals) {stop : Task → Machine → Prop}
    (hstop : ∀ t W m, Sound T W m.heap → t.Fits T W m → ¬ stop t m) (e : RuntimeError)
    (fuel : Nat) :
    Evaluates T OnlyAbsence W m (code.runWith (halting stop e fuel)) (code.runWith (within fuel))
      fun _ _ _ => True := by
  have hagree : Agree T OnlyAbsence (halting stop e fuel) (halting (fun _ _ => False) e fuel) :=
    agree_halting hT (fun _ => onlyAbsence_of_not_internal)
      (fun t W m hs ht => iff_false_intro (hstop t W m hs ht)) (fun _ _ => False.elim)
      (fun _ _ _ _ x d _ _ => ⟨x, d, rfl⟩) fuel
  rw [halting_never] at hagree
  exact hagree.runWith h hs hscope

/-- What holds of no task that fits never happens in a run. -/
theorem not_reaches (h : code.Known T) (hT : Linked T) (hs : Sound T W m.heap)
    (hscope : m.scope = Heap.globals) {stop : Task → Machine → Prop}
    (hstop : ∀ t W m, Sound T W m.heap → t.Fits T W m → ¬ stop t m) (fuel : Nat) :
    ¬ code.Reaches stop fuel m := by
  rintro ⟨e, hne⟩
  exact hne (h.evaluates hT hs hscope hstop e fuel).1

/-- A run leaves a sound heap behind, and the only internal error that it can end with is that a
name is absent from the scope in which it was found. -/
theorem meets (h : code.Known T) (hT : Linked T) (hs : Sound T W m.heap)
    (hscope : m.scope = Heap.globals) (fuel : Nat) :
    (code.runWith (within fuel) m).Meets (fun _ m' => ∃ W', m.Extends T W W' m')
      fun e m' => OnlyAbsence e ∧ ∃ W', m.Extends T W W' m' := by
  have hnever : ∀ (t : Task) W m, Sound T W m.heap → t.Fits T W m → ¬ False :=
    fun _ _ _ _ _ => not_false
  have hrun := h.evaluates hT hs hscope hnever ⟨.notCallable, default⟩ fuel
  exact hrun.2.imp (fun _ _ ⟨W', he, _⟩ => ⟨W', he⟩) fun _ _ he => he

/-- A run ends with an internal error exactly if it comes to a premature task. -/
theorem internal_iff (h : code.Known T) (hT : Linked T) (hs : Sound T W m.heap)
    (hscope : m.scope = Heap.globals) (fuel : Nat) :
    (∃ e m', code.runWith (within fuel) m = .error e m' ∧ e.fault.isInternal) ↔
      code.Reaches (fun t m => t.Premature T m) fuel m := by
  refine ⟨?_, Reaches.internal⟩
  rintro ⟨e, m', hrun, hint⟩
  -- Stopped at premature tasks with another error, the run ends with no internal error.
  let other : RuntimeError := ⟨.notCallable, default⟩
  have hagree : Agree T (fun e => e.fault.isInternal = false)
      (halting (fun t m => t.Premature T m) other fuel)
      (halting (fun t m => t.Premature T m) other fuel) :=
    agree_halting hT (fun _ => id) (fun _ _ _ _ _ => .rfl) (fun _ _ _ => rfl)
      (fun _ _ hnot hprem => absurd hprem hnot) fuel
  refine ⟨other, fun heq => ?_⟩
  have hmeets := (hagree.runWith h hs hscope).2
  rw [heq, hrun] at hmeets
  rw [hmeets.1] at hint
  cases hint

end Known

end Code

end Scriptlet

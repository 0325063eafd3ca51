import Scriptlet.Proofs.Scope.Layers

/-!
# Resolution follows the text

At every spot of a program the state of a resolution is as the text says (`Resolution.Shows`). So a
part of a resolution makes exactly the links and the findings of its spots, one after the other
(`Resolve.Surveys`). There are rules for putting parts together, and one statement for each step
that a resolution is made of.
-/

namespace Scriptlet

/-! ## Parts of a resolution -/

/-- A state that is as the text says. -/
structure Resolution.Shows (r : Resolution) (c : Context) : Prop where
  scopes : ScopeStack.Shows r.scopes c.layers
  globals : r.globals = c.globals

/-- Whether a finding is about something other than a name that nobody reads. -/
def Diagnostic.isFault (d : Diagnostic) : Bool := d.code != ("W3001" : Text)

/-- The findings so far about anything other than names that nobody reads. -/
def Resolution.faults (r : Resolution) : Report := r.found.filter Diagnostic.isFault

/-- What a reference was written as, with its link. -/
def Reference.entry (ref : Reference (Option Link)) : Token × Option Link := (ref.name, ref.link)

/-- The entry of a reference, where links are numbered from some number on. -/
def Spot.entry? (n : Nat) (s : Spot) : Option (Token × Option Link) :=
  s.item.reference?.map fun name => (name, s.link?.map fun record => ⟨n, record.hops⟩)

/-- The entries of all references, where links are numbered from some number on. -/
def Spot.entries : Nat → List Spot → List (Token × Option Link)
  | _, [] => []
  | n, s :: ss => (s.entry? n).toList ++ entries (n + s.link?.toList.length) ss

theorem Spot.entries_append (n : Nat) (ss ss' : List Spot) :
    Spot.entries n (ss ++ ss') =
      Spot.entries n ss ++ Spot.entries (n + (ss.filterMap Spot.link?).length) ss' := by
  induction ss generalizing n with
  | nil => rfl
  | cons s ss ih =>
    have hlength : n + s.link?.toList.length + (ss.filterMap Spot.link?).length =
        n + ((s :: ss).filterMap Spot.link?).length := by
      rw [List.filterMap_cons]
      cases s.link? with
      | none => rfl
      | some record => simp only [Option.toList, List.length_cons, List.length_nil]; omega
    rw [List.cons_append, Spot.entries, Spot.entries, ih, List.append_assoc, hlength]

/-- A reference that is linked changes the scopes if it reads its name. -/
theorem Spot.effect?_reference {s : Spot} {name : Token} (hname : s.item.reference? = some name) :
    s.effect? = s.link?.bind fun record =>
      if s.item.isRead then some (.reads (record.depth - record.hops) name.lexeme) else none := by
  obtain ⟨context, trail, item⟩ := s
  cases item with
  | declare => cases hname
  | _ =>
    simp only [Spot.effect?, hname]
    cases Spot.link? _ <;> rfl

/-- A reference that is linked from its place has an effect on the scope to which it leads. -/
theorem Spot.effect?_linked {c : Context} {t : Trail} {item : Item} {name : Token} {skipped : Nat}
    {label : Text} {start : Position} (hname : item.reference? = some name)
    (hlink : (⟨c, t, item⟩ : Spot).link? = some (c.link skipped label start name.lexeme)) :
    (⟨c, t, item⟩ : Spot).effect? =
      if item.isRead then
        some (.reads (c.layers.length - c.distance skipped name.lexeme) name.lexeme)
      else none := by
  rw [effect?_reference hname, hlink]
  rfl

namespace Resolution.Shows

variable {r : Resolution} {c : Context} {skipped k : Nat} {name : Text}

/-- A name that is found in the open scopes is as far out in the text. -/
theorem distance_of_some (hr : r.Shows c)
    (hk : ScopeStack.hops? (r.scopes.drop skipped) name = some k) :
    c.distance skipped name = skipped + k ∧ skipped + k < c.layers.length := by
  have hfound := hr.scopes.hops? skipped name
  rw [hk, Option.getD_some] at hfound
  have hlt := (List.findIdx?_eq_some_iff_getElem.mp hk).1
  rw [List.length_drop, hr.scopes.length] at hlt
  refine ⟨?_, by omega⟩
  rw [Context.distance, ← hfound]

theorem distance_of_none (hr : r.Shows c) (hskipped : skipped ≤ c.layers.length)
    (hk : ScopeStack.hops? (r.scopes.drop skipped) name = none) :
    c.distance skipped name = c.layers.length := by
  have hfound := hr.scopes.hops? skipped name
  rw [hk, Option.getD_none, List.length_drop, hr.scopes.length] at hfound
  rw [Context.distance, ← hfound, Nat.add_sub_cancel' hskipped]

end Resolution.Shows

/-- What happens to a state while some spots are met: their links and their findings are added. -/
structure Surveyed (r : Resolution) (spots : List Spot) (c' : Context) (r' : Resolution) :
    Prop where
  shows : r'.Shows c'
  links : r'.links = (spots.filterMap Spot.link?).reverse ++ r.links
  count : r'.linkCount = r.linkCount + (spots.filterMap Spot.link?).length
  faults : r'.faults = (spots.flatMap Spot.faults).reverse ++ r.faults

namespace Surveyed

variable {r r' r'' : Resolution} {spots spots' : List Spot} {c' c'' : Context}

theorem of_eq (hshows : r'.Shows c') (hlinks : r'.links = r.links)
    (hcount : r'.linkCount = r.linkCount) (hfaults : r'.faults = r.faults) :
    Surveyed r [] c' r' :=
  ⟨hshows, hlinks, hcount, hfaults⟩

theorem trans (h : Surveyed r spots c' r') (h' : Surveyed r' spots' c'' r'') :
    Surveyed r (spots ++ spots') c'' r'' := by
  refine ⟨h'.shows, ?_, ?_, ?_⟩
  · rw [h'.links, h.links, List.filterMap_append, List.reverse_append, List.append_assoc]
  · rw [h'.count, h.count, List.filterMap_append, List.length_append, Nat.add_assoc]
  · rw [h'.faults, h.faults, List.flatMap_append, List.reverse_append, List.append_assoc]

end Surveyed

/-- A spot that is neither a reference nor a declaration. -/
structure Spot.IsRemark (s : Spot) : Prop where
  reference : s.item.reference? = none
  link : s.link? = none

namespace Resolve

variable {α β : Type} {c c' c'' : Context} {t : Trail} {spots spots' : List Spot}
  {P : α → List (Token × Option Link) → Prop} {Q : β → List (Token × Option Link) → Prop}

/-- A part of a resolution that meets some spots on the way from one place to another, and yields
something with the entries of the references among them. -/
def Surveys (c : Context) (x : Resolve α) (spots : List Spot) (c' : Context)
    (P : α → List (Token × Option Link) → Prop) : Prop :=
  ∀ r : Resolution, r.Shows c →
    Surveyed r spots c' (x.run r).2 ∧ P (x.run r).1 (Spot.entries r.linkCount spots)

/-- A part of a resolution that is done once its spots were met. -/
abbrev Traverses (c : Context) (x : Resolve α) (spots : List Spot)
    (P : α → List (Token × Option Link) → Prop) : Prop :=
  Surveys c x spots (c.after spots) P

/-- A part of a resolution without references. -/
abbrev Passes (c : Context) (x : Resolve α) (spots : List Spot) (c' : Context) : Prop :=
  Surveys c x spots c' fun _ met => met = []

theorem Surveys.bind {x : Resolve α} {f : α → Resolve β} (hx : Surveys c x spots c' P)
    (hf : ∀ a met, P a met → Surveys c' (f a) spots' c'' fun b met' => Q b (met ++ met')) :
    Surveys c (x >>= f) (spots ++ spots') c'' Q := by
  intro r hr
  obtain ⟨hs, hp⟩ := hx r hr
  obtain ⟨hs', hq⟩ := hf _ _ hp _ hs.shows
  refine ⟨hs.trans hs', ?_⟩
  rw [Spot.entries_append, ← hs.count]
  exact hq

/-- A part that comes first and has no references. -/
theorem Surveys.andThen {x : Resolve α} {f : α → Resolve β} (hx : Passes c x spots c')
    (hf : ∀ a, Surveys c' (f a) spots' c'' Q) : Surveys c (x >>= f) (spots ++ spots') c'' Q := by
  refine hx.bind fun a met hmet => ?_
  rw [hmet]
  exact hf a

/-- A part that comes last and has no spots. -/
theorem Surveys.finally {x : Resolve α} {f : α → Resolve β} (hx : Surveys c x spots c' P)
    (hf : ∀ a met, P a met → Surveys c' (f a) [] c'' fun b _ => Q b met) :
    Surveys c (x >>= f) spots c'' Q := by
  have h : Surveys c (x >>= f) (spots ++ []) c'' Q := by
    refine hx.bind fun a met hp r hr => ?_
    obtain ⟨hs, hq⟩ := hf a met hp r hr
    refine ⟨hs, ?_⟩
    change Q _ (met ++ [])
    rwa [List.append_nil]
  rwa [List.append_nil] at h

/-- The place where a part ends may be described in another way. -/
theorem Surveys.ends {x : Resolve α} (hx : Surveys c x spots c' P) (h : c' = c'') :
    Surveys c x spots c'' P :=
  h ▸ hx

theorem surveys_pure {a : α} (h : P a []) : Surveys c (pure a) [] c P :=
  fun _ hr => ⟨.of_eq hr rfl rfl rfl, h⟩

/-- A part that traverses its spots, followed by another. -/
theorem Traverses.bind {x : Resolve α} {f : α → Resolve β} (hx : Traverses c x spots P)
    (hf : ∀ a met, P a met →
      Traverses (c.after spots) (f a) spots' fun b met' => Q b (met ++ met')) :
    Traverses c (x >>= f) (spots ++ spots') Q :=
  (Surveys.bind hx hf).ends (c.after_append spots spots').symm

/-- What a part yields may be built into something else. -/
theorem Traverses.map {x : Resolve α} {f : α → β} (hx : Traverses c x spots P)
    (h : ∀ a met, P a met → Q (f a) met) : Traverses c (x >>= fun a => pure (f a)) spots Q :=
  Surveys.finally hx fun a met hp => surveys_pure (h a met hp)

/-- A part that looks at the state of the resolution first. -/
theorem surveys_get {f : Resolution → Resolve β}
    (hf : ∀ r : Resolution, r.Shows c → Surveys c (f r) spots c' Q) :
    Surveys c (get >>= f) spots c' Q :=
  fun r hr => hf r hr r hr

/-- A change of the scopes. -/
theorem passes_modify {f : Resolution → Resolution} (hshows : ∀ r, r.Shows c → (f r).Shows c')
    (hlinks : ∀ r, (f r).links = r.links) (hcount : ∀ r, (f r).linkCount = r.linkCount)
    (hfound : ∀ r, (f r).found = r.found) : Passes c (modify f) [] c' :=
  fun r hr => ⟨.of_eq (hshows r hr) (hlinks r) (hcount r)
    (congrArg (List.filter Diagnostic.isFault) (hfound r)), rfl⟩

/-! ## Findings -/

theorem isFault_report {f : ScopeFault} (hf : f.severity = .error) (token : Token) :
    (f.report token).isFault = true := by
  cases f with
  | unused => cases hf
  | _ => rfl

/-- A finding that is made under some condition, as one spot says. -/
theorem surveys_reportIf {b : Prop} [Decidable b] {f : ScopeFault} {token : Token}
    {rest : Unit → Resolve β} {s : Spot} (hs : s.IsRemark) (hf : f.severity = .error)
    (hfaults : s.faults = if b then [f.report token] else [])
    (hrest : ∀ u, Surveys c (rest u) spots c' Q) :
    Surveys c (if b then report f token >>= rest else rest ()) (s :: spots) c' Q := by
  have hremark : ∀ x : Resolve Unit, (∀ r, (x.run r).2 = { r with found := (x.run r).2.found }) →
      (∀ r, (x.run r).2.faults = s.faults.reverse ++ r.faults) → Passes c x [s] c := by
    intro x hstate hfound r hr
    refine ⟨⟨?_, ?_, ?_, ?_⟩, ?_⟩
    · rw [hstate]; exact ⟨hr.scopes, hr.globals⟩
    · rw [hstate]; simp [hs.link]
    · rw [hstate]; simp [hs.link]
    · rw [hfound, List.flatMap_singleton]
    · simp [Spot.entries, Spot.entry?, hs.reference]
  split
  · next hb =>
    have hone : Passes c (report f token) [s] c := by
      refine hremark _ (fun _ => rfl) fun r => ?_
      rw [hfaults, if_pos hb]
      exact List.filter_cons_of_pos (isFault_report hf token)
    exact hone.andThen hrest
  · next hb =>
    have hnone : Passes c (pure ()) [s] c := by
      refine hremark _ (fun _ => rfl) fun r => ?_
      rw [hfaults, if_neg hb]
      rfl
    exact hnone.andThen (f := rest) hrest

/-! ## Scopes -/

theorem passes_openScope : Passes c openScope [] c.enter :=
  passes_modify (fun _ hr => ⟨.cons .empty hr.scopes, hr.globals⟩) (fun _ => rfl) (fun _ => rfl)
    fun _ => rfl

/-- At the end of a scope there are only findings about names that nobody reads. -/
theorem passes_closeScope : Passes c closeScope [] c.leave := by
  rintro ⟨scopes, globals, found, links, count⟩ hr
  refine ⟨?_, rfl⟩
  cases scopes with
  | nil => exact .of_eq ⟨hr.scopes.tail, hr.globals⟩ rfl rfl rfl
  | cons top rest =>
    refine .of_eq ⟨hr.scopes.tail, hr.globals⟩ rfl rfl ?_
    have hunread : List.filter Diagnostic.isFault
        (top.unread.map fun name => (ScopeFault.unused name.lexeme).report name).reverse = [] := by
      rw [List.filter_eq_nil_iff]
      intro d hd
      obtain ⟨name, -, rfl⟩ := List.mem_map.mp (List.mem_reverse.mp hd)
      simp [Diagnostic.isFault, ScopeFault.report, ScopeFault.code]
    change List.filter Diagnostic.isFault (_ ++ found) = List.filter Diagnostic.isFault found
    rw [List.filter_append, hunread, List.nil_append]

/-- A scope that holds a name from its beginning. -/
theorem passes_implicit {name : Text} {f : Unit → Resolve β}
    (hf : ∀ u, Surveys (c.enterWith name) (f u) spots c' Q) :
    Surveys c (openScope >>= fun _ => bindImplicit name >>= f) spots c' Q := by
  have hboth : Passes c (openScope >>= fun _ => bindImplicit name) [] (c.enterWith name) :=
    passes_modify
      (f := fun r => { r with scopes := [⟨⟨.identifier, name, none, .nowhere⟩, .read⟩] :: r.scopes })
      (fun _ hr => ⟨.cons (.implicit _ rfl) hr.scopes, hr.globals⟩) (fun _ => rfl) (fun _ => rfl)
      fun _ => rfl
  exact hboth.andThen hf

/-- A declaration begins the initializer of its name. -/
theorem passes_declare (hc : c.Idle) (t : Trail) (name : Token) :
    Passes c (declare name) [⟨c, t, .declare name⟩]
      ((c.note ⟨c, t, .declare name⟩).await name.lexeme) := by
  obtain ⟨layers, globals⟩ := c
  unfold declare
  refine surveys_get fun r hr => ?_
  obtain ⟨hscopes, -⟩ := hr
  revert hscopes
  generalize r.scopes = scopes
  rintro (_ | @⟨top, l, rest, ls, htop, hrest⟩)
  · exact fun r hr => ⟨⟨⟨hr.scopes, congrArg (name.lexeme :: ·) hr.globals⟩, rfl, rfl, rfl⟩, rfl⟩
  · have hfaults : (⟨⟨l :: ls, globals⟩, t, .declare name⟩ : Spot).faults =
        if top.binds name.lexeme then [(ScopeFault.redeclared name.lexeme).report name] else [] := by
      simp [Spot.faults, Spot.misplaced, Spot.unbound, Spot.unboundWhere, htop.names name.lexeme]
    rw [Context.note_declare]
    refine surveys_reportIf ⟨rfl, rfl⟩ rfl hfaults fun _ => ?_
    refine passes_modify (fun r hr => ⟨?_, hr.globals⟩) (fun _ => rfl) (fun _ => rfl) fun _ => rfl
    exact .cons (htop.declare (hc l rfl) name) hrest

/-- To define a name ends its initializer. -/
theorem passes_define {name : Token} (h : Context.Settles name.lexeme c c') :
    Passes c (define name) [] c' := by
  refine passes_modify (fun r hr => ?_) (fun _ => rfl) (fun _ => rfl) fun _ => rfl
  obtain ⟨scopes, globals', found, links, count⟩ := r
  obtain ⟨hscopes, hglobals⟩ := hr
  dsimp only at hscopes hglobals
  cases h with
  | top =>
    cases hscopes
    exact ⟨.nil, hglobals⟩
  | scope hnames hinit hidle =>
    cases hscopes with
    | cons htop hrest => exact ⟨.cons (htop.define hinit hnames hidle) hrest, hglobals⟩

/-- A name that is defined as soon as it is declared. -/
theorem passes_introduce (hc : c.Idle) (t : Trail) (name : Token) {f : Unit → Resolve β}
    (hf : ∀ u, Surveys (c.note ⟨c, t, .declare name⟩) (f u) spots c' Q) :
    Surveys c (declare name >>= fun _ => define name >>= f) (⟨c, t, .declare name⟩ :: spots) c' Q :=
  (passes_declare hc t name).andThen fun _ =>
    (passes_define (.await (hc.note _) name.lexeme)).andThen hf

theorem passes_parameters (hc : c.Idle) (t : Trail) (params : List Token) :
    Passes c (parameters params) (c.parameters t params) (c.after (c.parameters t params)) := by
  induction params generalizing c with
  | nil => exact surveys_pure rfl
  | cons p ps ih => exact passes_introduce hc t p fun _ => ih (hc.note _)

/-! ## References -/

/-- The link of a reference has the entry of the reference. -/
abbrev EntryOf (name : Token) (link : Option Link) (met : List (Token × Option Link)) : Prop :=
  met = [(name, link)]

theorem surveys_link {s : Spot} {name : Token} {record : LinkRecord}
    (hname : s.item.reference? = some name) (hlink : s.link? = some record)
    (hdepth : record.depth = c.layers.length) (hfaults : s.faults = []) :
    Surveys c (link record.label record.start record.hops) [s] c (EntryOf name) := by
  rintro ⟨scopes, globals, found, links, count⟩ hr
  have hrecord : (⟨record.label, record.start, record.hops, scopes.length⟩ : LinkRecord) = record := by
    rw [hr.scopes.length, ← hdepth]
  refine ⟨⟨⟨hr.scopes, hr.globals⟩, ?_, ?_, ?_⟩, ?_⟩
  · change ⟨record.label, record.start, record.hops, scopes.length⟩ :: links = _
    rw [hrecord]
    simp [hlink]
  · simp only [List.filterMap_cons, hlink]
    rfl
  · simp only [List.flatMap_singleton, hfaults]
    rfl
  · simp only [Spot.entries, Spot.entry?, hname, hlink]
    rfl

/-- A reference that leaves some scopes out leads to where its name was declared. If it reads the
name, this is noted. -/
theorem surveys_linkBeyond {skipped : Nat} {label : Text} {start : Position} {name : Token}
    (item : Item) (hskipped : skipped ≤ c.layers.length) (hname : item.reference? = some name)
    (hlink : (⟨c, t, item⟩ : Spot).link? = some (c.link skipped label start name.lexeme))
    (hfaults : (⟨c, t, item⟩ : Spot).faults = []) :
    Traverses c (linkBeyond skipped label start name.lexeme item.isRead) [⟨c, t, item⟩]
      (EntryOf name) := by
  have heffect := Spot.effect?_linked hname hlink
  have hend : Surveys (c.note ⟨c, t, item⟩)
      (link label start (c.distance skipped name.lexeme)) [⟨c, t, item⟩]
      (c.note ⟨c, t, item⟩) (EntryOf name) := by
    have hdepth : (c.link skipped label start name.lexeme).depth =
        (c.note ⟨c, t, item⟩).layers.length := (c.length_note _).symm
    exact surveys_link hname hlink hdepth hfaults
  unfold linkBeyond
  refine surveys_get fun r hr => ?_
  dsimp only
  split
  · next k hk =>
    obtain ⟨hdistance, hlt⟩ := hr.distance_of_some hk
    rw [hdistance] at hend heffect
    split
    · next hread =>
      rw [if_pos hread] at heffect
      have hmark : Passes c
          (modify fun r => { r with scopes := r.scopes.markAt (skipped + k) name.lexeme .read }) []
          (c.note ⟨c, t, item⟩) := by
        refine passes_modify (fun r hr => ?_) (fun _ => rfl) (fun _ => rfl) fun _ => rfl
        rw [Context.note_of_effect heffect]
        exact ⟨hr.scopes.markAt hlt name.lexeme, hr.globals⟩
      exact hmark.andThen fun _ => hend
    · next hread =>
      rw [if_neg hread] at heffect
      have hsame := Context.note_of_none (c := c) heffect
      rw [hsame] at hend
      exact hend.ends hsame.symm
  · next hk =>
    have hdistance := hr.distance_of_none hskipped hk
    have hsame : c.note ⟨c, t, item⟩ = c := by
      split at heffect
      · rw [Context.note_of_effect heffect, hdistance, Nat.sub_self, Effect.onLayers_of_zero rfl]
        rfl
      · exact Context.note_of_none heffect
    rw [hdistance, hsame] at hend
    rw [hr.scopes.length]
    exact hend.ends hsame.symm

/-- A name counts as being initialized in the open scopes where it does in the text. -/
theorem initializing_iff {r : Resolution} (hr : r.Shows c) (name : Text) :
    (match r.scopes with
      | [] => false
      | top :: _ => (top.find? name).any fun b => b.state = .declared) = c.skips name := by
  obtain ⟨scopes, globals, found, links, count⟩ := r
  obtain ⟨layers, globals'⟩ := c
  obtain ⟨hscopes, -⟩ := hr
  cases hscopes with
  | nil => rfl
  | @cons top l rest ls htop hrest =>
    rw [Bool.eq_iff_iff]
    exact (htop.awaits name).trans (by simp [Context.skips])

theorem bindsOutside_iff {r : Resolution} (hr : r.Shows c) (name : Text) :
    ((ScopeStack.hops? (r.scopes.drop 1) name).isSome || r.globals.contains name) =
      c.bindsOutside name := by
  have hfound := hr.scopes.hops? 1 name
  have hlength := hr.scopes.length
  unfold Context.bindsOutside
  rw [hr.globals, ← List.drop_one]
  congr 1
  rw [Bool.eq_iff_iff, List.any_eq_true, ← List.findIdx_lt_length]
  cases hk : ScopeStack.hops? (r.scopes.drop 1) name with
  | none =>
    rw [hk, Option.getD_none, List.length_drop, hlength] at hfound
    rw [← hfound, List.length_drop]
    simp
  | some k =>
    have hlt := (List.findIdx?_eq_some_iff_getElem.mp hk).1
    rw [hk, Option.getD_some] at hfound
    rw [← hfound, List.length_drop, ← hlength, ← List.length_drop]
    simpa using hlt

/-- A reference that is reported instead of being linked. -/
theorem surveys_refuse {a : α} {s : Spot} {name token : Token} {f : ScopeFault}
    (hname : s.item.reference? = some name) (hlink : s.link? = none) (hf : f.severity = .error)
    (hfaults : s.faults = [f.report token]) (ha : P a [(name, none)]) :
    Traverses c (report f token >>= fun _ => pure a) [s] P := by
  have hsame : c.note s = c := by
    refine Context.note_of_none ?_
    rw [Spot.effect?_reference hname, hlink]
    rfl
  intro r hr
  refine ⟨⟨?_, ?_, ?_, ?_⟩, ?_⟩
  · change Resolution.Shows _ (c.note s)
    rw [hsame]
    exact ⟨hr.scopes, hr.globals⟩
  · simp only [List.filterMap_cons, hlink]
    rfl
  · simp only [List.filterMap_cons, hlink]
    rfl
  · rw [List.flatMap_singleton, hfaults]
    exact List.filter_cons_of_pos (isFault_report hf token)
  · simp only [Spot.entries, Spot.entry?, hname, hlink]
    exact ha

/-- A variable that is read is linked as any reference, with the innermost scope left out where the
text says so, or it is reported. -/
theorem linkVariable_cases {r : Resolution} (hr : r.Shows c) (t : Trail) (start : Position)
    (name : Token) :
    (∃ skipped ≤ c.layers.length,
      (linkVariable start name).run r =
        (linkBeyond skipped ("var " ++ name.lexeme) start name.lexeme true).run r ∧
      (⟨c, t, .read start name⟩ : Spot).link? =
        some (c.link skipped ("var " ++ name.lexeme) start name.lexeme) ∧
      (⟨c, t, .read start name⟩ : Spot).faults = []) ∨
    (linkVariable start name).run r =
        (report (.ownInitializer name.lexeme) name >>= fun _ => pure none).run r ∧
      (⟨c, t, .read start name⟩ : Spot).link? = none ∧
      (⟨c, t, .read start name⟩ : Spot).faults =
        [(ScopeFault.ownInitializer name.lexeme).report name] := by
  have hrun : (linkVariable start name).run r =
      (if c.skips name.lexeme then
        if c.bindsOutside name.lexeme then
          linkBeyond 1 ("var " ++ name.lexeme) start name.lexeme true
        else report (.ownInitializer name.lexeme) name >>= fun _ => pure none
      else linkBeyond 0 ("var " ++ name.lexeme) start name.lexeme true).run r := by
    rw [← initializing_iff hr, ← bindsOutside_iff hr]
    rfl
  rw [hrun]
  by_cases hskips : c.skips name.lexeme
  · rw [if_pos hskips]
    by_cases hbinds : c.bindsOutside name.lexeme
    · have hlayers : 1 ≤ c.layers.length := by
        cases h : c.layers with
        | nil => simp [Context.skips, h] at hskips
        | cons l ls => exact Nat.succ_le_succ (Nat.zero_le _)
      rw [if_pos hbinds]
      refine Or.inl ⟨1, hlayers, rfl, ?_, ?_⟩
      · simp [Spot.link?, Spot.linkWhere, hskips, hbinds]
      · simp [Spot.faults, Spot.misplaced, Spot.unbound, Spot.unboundWhere, hbinds]
    · rw [if_neg hbinds]
      refine Or.inr ⟨rfl, ?_, ?_⟩
      · simp [Spot.link?, Spot.linkWhere, hskips, hbinds]
      · simp [Spot.faults, Spot.misplaced, Spot.unbound, Spot.unboundWhere, hskips, hbinds]
  · rw [if_neg hskips]
    refine Or.inl ⟨0, Nat.zero_le _, rfl, ?_, ?_⟩
    · simp [Spot.link?, Spot.linkWhere, hskips]
    · simp [Spot.faults, Spot.misplaced, Spot.unbound, Spot.unboundWhere, hskips]

theorem surveys_linkVariable (start : Position) (name : Token) :
    Traverses c (linkVariable start name) [⟨c, t, .read start name⟩] (EntryOf name) := by
  intro r hr
  rcases linkVariable_cases hr t start name with
    ⟨skipped, hskipped, hrun, hlink, hfaults⟩ | ⟨hrun, hlink, hfaults⟩
  · rw [hrun]
    exact surveys_linkBeyond (.read start name) hskipped rfl hlink hfaults r hr
  · have hrefuse : Traverses c
        (report (.ownInitializer name.lexeme) name >>= fun _ => pure none)
        [⟨c, t, .read start name⟩] (EntryOf name) :=
      surveys_refuse rfl hlink rfl hfaults rfl
    rw [hrun]
    exact hrefuse r hr

end Resolve

end Scriptlet

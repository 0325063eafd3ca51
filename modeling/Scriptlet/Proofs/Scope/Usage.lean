import Scriptlet.Proofs.Scope.Regions
import Scriptlet.Proofs.Scope.Survey

/-!
# What resolution knows of reads

An open scope marks a name as declared, defined or read, and a name may be marked anew: it is
defined when its initializer ends, whatever it was before. So a read counts unless it stands in the
initializer of the variable that it reads. That is what `LocalScope.meet` does to a scope for one
spot; after all spots of a region the unread names of the scope are the unused names of the region
(`LocalScope.unread_foldl_meet`).

Resolution does the same to all open scopes, if one takes them as they are once the initializers
around a place have ended (`ScopeStack.settled`). `Resolve.Watches` says so of a part of a
resolution, as long as no name is declared twice, and there is a rule for each step.
-/

namespace Scriptlet

/-- To read a variable of a scope is an effect on the scope. -/
theorem Spot.reads_iff {s : Spot} {level : Nat} {x : Text} :
    s.reads level x ↔ s.effect? = some (.reads level x) := by
  cases hname : s.item.reference? with
  | none =>
    obtain ⟨context, trail, item⟩ := s
    cases item <;> simp_all [reads, effect?, Item.reference?]
  | some name =>
    rw [effect?_reference hname, reads, hname]
    cases s.link? <;> cases s.item.isRead <;> simp [and_comm]

/-! ## Scopes -/

namespace LocalScope

/-- A scope once the initializer of which a layer tells has ended. -/
def settled (s : LocalScope) (l : Layer) : LocalScope :=
  match l.initializing with
  | none => s
  | some x => s.mark x .defined

/-- What a spot comes to for the scope at some level. A declared name is taken as defined. -/
def meet (level : Nat) (s : LocalScope) (spot : Spot) : LocalScope :=
  s.map (fun b => if spot.uses level b.name.lexeme then { b with state := .read } else b) ++
    ((spot.declares? level).map fun name => ⟨name, .defined⟩).toList

theorem settled_of_idle {l : Layer} (h : l.initializing = none) (s : LocalScope) :
    s.settled l = s := by
  rw [settled, h]

theorem settled_of_initializing {l : Layer} {x : Text} (h : l.initializing = some x)
    (s : LocalScope) : s.settled l = s.mark x .defined := by
  rw [settled, h]

theorem put_of_fresh {s : LocalScope} {b : Binding} (h : s.binds b.name.lexeme = false) :
    s.put b = s ++ [b] := by
  induction s with
  | nil => rfl
  | cons a s ih =>
    simp only [binds, List.any_cons, Bool.or_eq_false_iff] at h
    rw [put, h.1, if_neg Bool.false_ne_true, ih h.2]
    rfl

theorem mark_of_fresh {s : LocalScope} {x : Text} (h : s.binds x = false) (state : BindingState) :
    s.mark x state = s := by
  induction s with
  | nil => rfl
  | cons a s ih =>
    simp only [binds, List.any_cons, Bool.or_eq_false_iff] at h
    rw [mark, List.map_cons, h.1, if_neg Bool.false_ne_true]
    exact congrArg (a :: ·) (ih h.2)

/-- A name that was added to a scope without it is marked at the end. -/
theorem mark_new {s : LocalScope} {name : Token} {state state' : BindingState}
    (h : s.binds name.lexeme = false) :
    mark name.lexeme state' (s ++ [⟨name, state⟩]) = s ++ [⟨name, state'⟩] := by
  have hold := mark_of_fresh h state'
  rw [mark] at hold ⊢
  rw [List.map_append, hold]
  simp

/-- Of two marks of a name the last one stays. -/
theorem mark_mark (s : LocalScope) (x : Text) (state state' : BindingState) :
    (s.mark x state).mark x state' = s.mark x state' := by
  unfold mark
  rw [List.map_map]
  refine List.map_congr_left fun b _ => ?_
  by_cases hb : b.name.lexeme = x <;> simp [hb]

theorem mark_comm {x y : Text} (h : x ≠ y) (s : LocalScope) (state state' : BindingState) :
    (s.mark x state).mark y state' = (s.mark y state').mark x state := by
  unfold mark
  rw [List.map_map, List.map_map]
  refine List.map_congr_left fun b _ => ?_
  by_cases hx : b.name.lexeme = x
  · simp [hx, h]
  · by_cases hy : b.name.lexeme = y <;> simp [hx, hy, h.symm]

/-- A spot that has no effect on a scope changes nothing in it. -/
theorem meet_of_ne {level : Nat} {spot : Spot} (h : ∀ e ∈ spot.effect?, e.level ≠ level)
    (s : LocalScope) : s.meet level spot = s := by
  have hreads : ∀ x, spot.reads level x = false := by
    intro x
    rw [Bool.eq_false_iff, ne_eq, Spot.reads_iff]
    intro he
    exact h _ he rfl
  have hdeclares : spot.declares? level = none := by
    obtain ⟨context, trail, item⟩ := spot
    cases item with
    | declare name => exact if_neg (h _ rfl)
    | _ => rfl
  simp [meet, Spot.uses, hreads, hdeclares]

theorem meet_declare (c : Context) (t : Trail) (name : Token) (s : LocalScope) :
    s.meet c.layers.length ⟨c, t, .declare name⟩ = s ++ [⟨name, .defined⟩] := by
  have hreads : ∀ x, (⟨c, t, .declare name⟩ : Spot).reads c.layers.length x = false := fun _ => rfl
  simp [meet, Spot.uses, hreads, Spot.declares?]

theorem meet_reads {level : Nat} {x : Text} {spot : Spot} (h : spot.effect? = some (.reads level x))
    (s : LocalScope) :
    s.meet level spot = if spot.context.initializesAt level x then s else s.mark x .read := by
  have hdeclares : spot.declares? level = none := by
    obtain ⟨context, trail, item⟩ := spot
    cases item with
    | declare name => cases h
    | _ => rfl
  have huses : ∀ y, spot.uses level y =
      (decide (x = y) && !spot.context.initializesAt level x) := by
    intro y
    have hread : spot.reads level y = decide (x = y) := by
      rw [Bool.eq_iff_iff, Spot.reads_iff, h]
      simp
    rw [Spot.uses, hread]
    by_cases hy : x = y <;> simp [hy]
  rw [meet, hdeclares, Option.map_none, Option.toList_none, List.append_nil]
  simp only [huses]
  cases spot.context.initializesAt level x with
  | false =>
    refine List.map_congr_left fun b _ => ?_
    by_cases hb : b.name.lexeme = x
    · simp [hb]
    · simp [hb, Ne.symm hb]
  | true => simp

/-- The names of a scope that are defined and that no spot of some others reads. -/
def unreadBy (level : Nat) (spots : List Spot) (s : LocalScope) : List Token :=
  (s.filter fun b => b.state = .defined && !spots.any (Spot.uses level b.name.lexeme)).map
    Binding.name

theorem unreadBy_nil (level : Nat) (s : LocalScope) : s.unreadBy level [] = s.unread := by
  simp [unreadBy, unread]

theorem unreadBy_meet (level : Nat) (spot : Spot) (spots : List Spot) (s : LocalScope) :
    (s.meet level spot).unreadBy level spots = s.unreadBy level (spot :: spots) ++
      ((spot.declares? level).filter fun name =>
        !spots.any (Spot.uses level name.lexeme)).toList := by
  have hnew : unreadBy level spots
      ((spot.declares? level).map fun name => ⟨name, .defined⟩).toList =
        ((spot.declares? level).filter fun name =>
          !spots.any (Spot.uses level name.lexeme)).toList := by
    cases spot.declares? level with
    | none => rfl
    | some name =>
      cases hlater : spots.any (Spot.uses level name.lexeme) <;>
        simp [unreadBy, Option.filter, hlater]
  have hkept : ∀ s : LocalScope,
      unreadBy level spots
        (s.map fun b => if spot.uses level b.name.lexeme then { b with state := .read } else b) =
        s.unreadBy level (spot :: spots) := by
    intro s
    induction s with
    | nil => rfl
    | cons b s ih =>
      simp only [unreadBy, List.map_cons, List.filter_cons, List.any_cons] at ih ⊢
      cases hb : spot.uses level b.name.lexeme with
      | false =>
        simp only [Bool.false_eq_true, ↓reduceIte, Bool.false_or]
        split
        · rw [List.map_cons, List.map_cons, ih]
        · exact ih
      | true => simpa using ih
  rw [← hnew, ← hkept, meet, unreadBy, List.filter_append, List.map_append]
  rfl

/-- A read that is marked in a scope is seen there unless it is being initialized. -/
theorem settled_mark {level : Nat} {x : Text} {spot : Spot} {l : Layer}
    (heffect : spot.effect? = some (.reads level x))
    (hinit : spot.context.initializesAt level x = decide (l.initializing = some x))
    (s : LocalScope) :
    (s.mark x .read).settled ((Effect.reads level x).onLayer l) =
      (s.settled l).meet level spot := by
  have hlayer := Effect.initializing_onLayer (.reads level x) l
  rw [meet_reads heffect, hinit]
  cases hl : l.initializing with
  | none =>
    rw [hl] at hlayer
    rw [settled_of_idle hlayer, settled_of_idle hl]
    simp
  | some y =>
    rw [hl] at hlayer
    rw [settled_of_initializing hlayer, settled_of_initializing hl]
    by_cases hy : y = x
    · simp [hy, mark_mark]
    · simp [hy, mark_comm (Ne.symm hy)]

/-- After some spots, the unread names of a scope are those that it had, less the ones that were
read, and those that were declared and not read later. -/
theorem unread_foldl_meet (level : Nat) (spots : List Spot) (s : LocalScope) :
    (spots.foldl (meet level) s).unread =
      s.unreadBy level spots ++ Spot.unreadWhere Spot.uses level spots := by
  induction spots generalizing s with
  | nil => rw [List.foldl_nil, unreadBy_nil, Spot.unreadWhere, List.append_nil]
  | cons spot spots ih =>
    rw [List.foldl_cons, ih, unreadBy_meet, Spot.unreadWhere, List.append_assoc]

/-- A scope that held nothing but read names from its beginning. -/
theorem unread_foldl_meet_of_read (level : Nat) (spots : List Spot) {s : LocalScope}
    (h : ∀ b ∈ s, b.state = .read) :
    (spots.foldl (meet level) s).unread = Spot.unreadWhere Spot.uses level spots := by
  have hnone : s.unreadBy level spots = [] := by
    rw [unreadBy, List.map_eq_nil_iff, List.filter_eq_nil_iff]
    intro b hb
    simp [h b hb]
  rw [unread_foldl_meet, hnone, List.nil_append]

end LocalScope

namespace ScopeStack

/-- Open scopes once all initializers around a place have ended. -/
def settled (scopes : ScopeStack) (ls : List Layer) : ScopeStack :=
  List.zipWith LocalScope.settled scopes ls

theorem settled_cons (s : LocalScope) (scopes : ScopeStack) (l : Layer) (ls : List Layer) :
    settled (s :: scopes) (l :: ls) = s.settled l :: settled scopes ls := rfl

/-- What a spot comes to for open scopes. -/
def meet : ScopeStack → Spot → ScopeStack
  | [], _ => []
  | s :: scopes, spot => s.meet (scopes.length + 1) spot :: meet scopes spot

@[simp]
theorem length_meet (scopes : ScopeStack) (spot : Spot) :
    (scopes.meet spot).length = scopes.length := by
  induction scopes with
  | nil => rfl
  | cons s scopes ih => rw [meet, List.length_cons, List.length_cons, ih]

theorem foldl_meet_cons (spots : List Spot) (s : LocalScope) (scopes : ScopeStack) :
    spots.foldl meet (s :: scopes) =
      spots.foldl (LocalScope.meet (scopes.length + 1)) s :: spots.foldl meet scopes := by
  induction spots generalizing s scopes with
  | nil => rfl
  | cons spot spots ih =>
    rw [List.foldl_cons, meet, ih, length_meet]
    rfl

/-- A spot changes no scope if its effect is none, or further in than all of them, or on globals. -/
theorem meet_of_outside {spot : Spot} {scopes : ScopeStack}
    (h : ∀ e ∈ spot.effect?, e.level = 0 ∨ scopes.length < e.level) :
    scopes.meet spot = scopes := by
  induction scopes with
  | nil => rfl
  | cons s scopes ih =>
    have hrest : ∀ e ∈ spot.effect?, e.level = 0 ∨ scopes.length < e.level := by
      intro e he
      exact (h e he).imp_right Nat.lt_of_succ_lt
    have hne : ∀ e ∈ spot.effect?, e.level ≠ scopes.length + 1 := by
      intro e he
      have := h e he
      rw [List.length_cons] at this
      omega
    rw [meet, ih hrest, s.meet_of_ne hne]

theorem meet_of_none {spot : Spot} (h : spot.effect? = none) (scopes : ScopeStack) :
    scopes.meet spot = scopes := by
  refine meet_of_outside fun e he => ?_
  rw [h] at he
  cases he

namespace Shows

variable {scopes : ScopeStack} {ls : List Layer}

theorem length_settled (h : Shows scopes ls) : (scopes.settled ls).length = ls.length := by
  rw [settled, List.length_zipWith, h.length, Nat.min_self]

/-- A name that is read is marked in its scope, which is seen there unless it is being
initialized. -/
theorem settled_markAt (h : Shows scopes ls) {k : Nat} (hk : k < ls.length) {x : Text} {spot : Spot}
    (heffect : spot.effect? = some (.reads (ls.length - k) x))
    (hinit : spot.context.initializesAt (ls.length - k) x =
      (ls[k]?.any fun l => l.initializing = some x)) :
    (scopes.markAt k x .read).settled ((Effect.reads (ls.length - k) x).onLayers ls) =
      (scopes.settled ls).meet spot := by
  induction h generalizing k with
  | nil => simp at hk
  | @cons s l scopes ls hs h ih =>
    have hlength : (scopes.settled ls).length = ls.length := h.length_settled
    rw [settled_cons, meet, hlength]
    cases k with
    | zero =>
      rw [Nat.sub_zero, List.length_cons] at heffect hinit ⊢
      have hothers : (scopes.settled ls).meet spot = scopes.settled ls := by
        refine meet_of_outside fun e he => ?_
        rw [heffect] at he
        cases he
        rw [hlength]
        exact Or.inr (Nat.lt_succ_self _)
      rw [hothers, Effect.onLayers, if_pos (by rfl), Effect.onLayers_of_lt (Nat.lt_succ_self _),
        ← LocalScope.settled_mark heffect hinit]
      rfl
    | succ k =>
      rw [List.length_cons, Nat.add_sub_add_right] at heffect hinit ⊢
      have hne : (Effect.reads (ls.length - k) x).level ≠ ls.length + 1 :=
        Nat.ne_of_lt (Nat.lt_succ_of_le (Nat.sub_le ..))
      have hsame : (s.settled l).meet (ls.length + 1) spot = s.settled l := by
        refine LocalScope.meet_of_ne (fun e he => ?_) _
        rw [heffect] at he
        cases he
        exact hne
      rw [hsame, ← ih (Nat.lt_of_succ_lt_succ hk) heffect hinit, Effect.onLayers, if_neg hne]
      rfl

end Shows

end ScopeStack

namespace Context

theorem initializesAt_sub (c : Context) {k : Nat} (hk : k < c.layers.length) (x : Text) :
    c.initializesAt (c.layers.length - k) x =
      (c.layers[k]?.any fun l => l.initializing = some x) := by
  rw [initializesAt, Nat.sub_sub_self (Nat.le_of_lt hk)]

/-- Past some spots in a scope one is still in it, and what is around it is as without it. -/
theorem after_inside (c : Context) {l : Layer} (hl : l.initializing = none) (spots : List Spot) :
    ∃ l' : Layer, l'.initializing = none ∧
      (after ⟨l :: c.layers, c.globals⟩ spots).layers = l' :: (c.after spots).layers := by
  have hidle : Idle ⟨l :: c.layers, c.globals⟩ := by
    rintro l' ⟨⟩
    exact hl
  have hidle' := hidle.after spots
  have hlength := length_after ⟨l :: c.layers, c.globals⟩ spots
  have hleave := leave_after ⟨l :: c.layers, c.globals⟩ spots
  generalize after ⟨l :: c.layers, c.globals⟩ spots = c' at hidle' hlength hleave
  obtain ⟨layers, globals⟩ := c'
  cases layers with
  | nil => cases hlength
  | cons l' ls => exact ⟨l', hidle' l' rfl, congrArg (l' :: ·) (congrArg layers hleave)⟩

end Context

theorem filter_unusedWarnings (names : List Token) :
    (unusedWarnings names).reverse.filter Diagnostic.isUnused = (unusedWarnings names).reverse := by
  rw [List.filter_eq_self]
  intro d hd
  obtain ⟨name, -, rfl⟩ := List.mem_map.mp (List.mem_reverse.mp hd)
  rfl

/-! ## Parts of a resolution -/

/-- The findings so far about names that nobody reads. -/
def Resolution.unused (r : Resolution) : Report := r.found.filter Diagnostic.isUnused

/-- A spot that does not declare a name for the second time. -/
def Spot.Fresh (s : Spot) : Prop :=
  ∀ name, s.item = .declare name → (s.context.layers.head?.any fun l => l.binds name.lexeme) = false

/-- What happens to a state while some spots are met and some scopes end. -/
structure Watched (r : Resolution) (c : Context) (spots : List Spot) (regions : List Region)
    (c' : Context) (r' : Resolution) : Prop where
  shows : r'.Shows c'
  scopes : r'.scopes.settled c'.layers = spots.foldl ScopeStack.meet (r.scopes.settled c.layers)
  unused : r'.unused = (Region.warnings regions).reverse ++ r.unused

namespace Resolve

variable {α β : Type} {c c' c'' : Context} {t : Trail} {spots spots' : List Spot}
  {regions regions' : List Region}

/-- A part of a resolution that meets some spots on the way from one place to another, and ends some
scopes, which are those of `regions`. -/
def Watches (c : Context) (x : Resolve α) (spots : List Spot) (regions : List Region)
    (c' : Context) : Prop :=
  ∀ r : Resolution, r.Shows c → (∀ s ∈ spots, s.Fresh) →
    Watched r c spots regions c' (x.run r).2

/-- A part of a resolution that is done once its spots were met. -/
abbrev Follows (c : Context) (x : Resolve α) (spots : List Spot) (regions : List Region) : Prop :=
  Watches c x spots regions (c.after spots)

theorem Watches.bind {x : Resolve α} {f : α → Resolve β} (hx : Watches c x spots regions c')
    (hf : ∀ a, Watches c' (f a) spots' regions' c'') :
    Watches c (x >>= f) (spots ++ spots') (regions ++ regions') c'' := by
  intro r hr hfresh
  obtain ⟨hspots, hspots'⟩ := List.forall_mem_append.mp hfresh
  have h := hx r hr hspots
  have h' := hf (x.run r).1 (x.run r).2 h.shows hspots'
  refine ⟨h'.shows, ?_, ?_⟩
  · rw [List.foldl_append, ← h.scopes]
    exact h'.scopes
  · rw [Region.warnings, List.flatMap_append, List.reverse_append, List.append_assoc]
    exact h'.unused.trans (congrArg _ h.unused)

/-- A part that comes first and meets nothing. -/
theorem Watches.andThen {x : Resolve α} {f : α → Resolve β} (hx : Watches c x [] [] c')
    (hf : ∀ a, Watches c' (f a) spots regions c'') : Watches c (x >>= f) spots regions c'' :=
  hx.bind hf

theorem watches_pure (a : α) : Watches c (pure a) [] [] c :=
  fun _ hr _ => ⟨hr, rfl, rfl⟩

/-- A part that comes last and meets nothing. -/
theorem Watches.finally {x : Resolve α} {f : α → Resolve β} (hx : Watches c x spots regions c')
    (hf : ∀ a, Watches c' (f a) [] [] c'') : Watches c (x >>= f) spots regions c'' := by
  have h := hx.bind hf
  rw [List.append_nil, List.append_nil] at h
  exact h

theorem Watches.map {x : Resolve α} (hx : Watches c x spots regions c') (f : α → β) :
    Watches c (x >>= fun a => pure (f a)) spots regions c' :=
  hx.finally fun a => watches_pure (f a)

theorem Follows.bind {x : Resolve α} {f : α → Resolve β} (hx : Follows c x spots regions)
    (hf : ∀ a, Follows (c.after spots) (f a) spots' regions') :
    Follows c (x >>= f) (spots ++ spots') (regions ++ regions') := by
  unfold Follows
  rw [c.after_append]
  exact Watches.bind hx hf

theorem Follows.both {x : Resolve α} {y : Resolve β} (hx : Follows c x spots regions)
    (hy : Follows (c.after spots) y spots' regions') :
    Follows c (x >>= fun a => y >>= fun b => pure (a, b)) (spots ++ spots')
      (regions ++ regions') :=
  hx.bind fun a => hy.map fun b => (a, b)

/-- A spot without effect may be met first. -/
theorem Watches.remark {x : Resolve α} {s : Spot} (hs : s.effect? = none)
    (hx : Watches c x spots regions c') : Watches c x (s :: spots) regions c' := by
  intro r hr hfresh
  obtain ⟨-, hspots⟩ := List.forall_mem_cons.mp hfresh
  have h := hx r hr hspots
  refine ⟨h.shows, ?_, h.unused⟩
  rw [List.foldl_cons, ScopeStack.meet_of_none hs]
  exact h.scopes

theorem watches_report {f : ScopeFault} (hf : f.severity = .error) (token : Token) :
    Watches c (report f token) [] [] c := by
  intro r hr _
  have hother : (f.report token).isUnused = false := by
    cases f with
    | unused => cases hf
    | _ => rfl
  refine ⟨⟨hr.scopes, hr.globals⟩, rfl, ?_⟩
  change List.filter Diagnostic.isUnused (f.report token :: r.found) = r.unused
  rw [List.filter_cons_of_neg (by rw [hother]; exact Bool.false_ne_true)]
  rfl

/-- A finding that is made under some condition. -/
theorem watches_reportIf {b : Prop} [Decidable b] {f : ScopeFault} {token : Token}
    {rest : Unit → Resolve β} (hf : f.severity = .error)
    (hrest : ∀ u, Watches c (rest u) spots regions c') :
    Watches c (if b then report f token >>= rest else rest ()) spots regions c' := by
  split
  · exact (watches_report hf token).andThen hrest
  · exact hrest ()

/-- A reference that is reported instead of being linked. -/
theorem watches_refuse {f : ScopeFault} {token : Token} {a : α} {s : Spot} (hs : s.effect? = none)
    (hf : f.severity = .error) : Follows c (report f token >>= fun _ => pure a) [s] [] := by
  change Watches c _ [s] [] (c.note s)
  rw [Context.note_of_none hs]
  exact ((watches_report hf token).andThen fun _ => watches_pure a).remark hs

/-! ## Declarations -/

/-- A fresh name is added at the end of the innermost scope. -/
theorem declare_run {r : Resolution} {top : LocalScope} {rest : ScopeStack} {name : Token}
    (hscopes : r.scopes = top :: rest) (hfresh : top.binds name.lexeme = false) :
    (declare name).run r = ((), { r with scopes := (top ++ [⟨name, .declared⟩]) :: rest }) := by
  have hput : top.put ⟨name, .declared⟩ = top ++ [⟨name, .declared⟩] :=
    LocalScope.put_of_fresh hfresh
  obtain ⟨scopes, globals, found, links, count⟩ := r
  dsimp only at hscopes
  subst hscopes
  change StateT.run (if top.binds name.lexeme = true then _ else _) _ = _
  rw [hfresh, ← hput]
  rfl

theorem watches_declare (hc : c.Idle) (t : Trail) (name : Token) :
    Watches c (declare name) [⟨c, t, .declare name⟩] []
      ((c.note ⟨c, t, .declare name⟩).await name.lexeme) := by
  intro r hr hfresh
  have hshows := (passes_declare hc t name r hr).1.shows
  have hname := List.forall_mem_singleton.mp hfresh name rfl
  obtain ⟨layers, globals⟩ := c
  obtain ⟨scopes, globals', found, links, count⟩ := r
  obtain ⟨hscopes, -⟩ := hr
  dsimp only at hscopes hname
  cases hscopes with
  | nil => exact ⟨hshows, rfl, rfl⟩
  | @cons top l rest ls htop hrest =>
    have hbinds : top.binds name.lexeme = false := by
      rw [Bool.eq_false_iff]
      intro hbinds
      have hmem := (htop.names name.lexeme).mp hbinds
      simp [hmem] at hname
    have hmeet : ScopeStack.meet (top :: rest.settled ls) ⟨⟨l :: ls, globals⟩, t, .declare name⟩ =
        (top ++ [⟨name, .defined⟩]) :: rest.settled ls := by
      have hlevel := LocalScope.meet_declare ⟨l :: ls, globals⟩ t name top
      rw [List.length_cons] at hlevel
      rw [ScopeStack.meet, hrest.length_settled, hlevel, ScopeStack.meet_of_outside]
      intro e he
      cases he
      rw [hrest.length_settled]
      exact Or.inr (Nat.lt_succ_self _)
    rw [declare_run rfl hbinds] at hshows ⊢
    refine ⟨hshows, ?_, rfl⟩
    rw [Context.note_declare, List.foldl_cons, List.foldl_nil, ScopeStack.settled_cons,
      LocalScope.settled_of_idle (hc l rfl), hmeet]
    exact congrArg (· :: ScopeStack.settled rest ls) (LocalScope.mark_new hbinds)

/-- To define a name ends its initializer. -/
theorem watches_define {name : Token} (h : Context.Settles name.lexeme c c') :
    Watches c (define name) [] [] c' := by
  intro r hr _
  refine ⟨(passes_define h r hr).1.shows, ?_, rfl⟩
  obtain ⟨scopes, globals', found, links, count⟩ := r
  obtain ⟨hscopes, -⟩ := hr
  dsimp only at hscopes
  cases h with
  | top =>
    cases hscopes
    rfl
  | @scope l l' ls globals hnames hinit hidle =>
    cases hscopes with
    | @cons top _ rest _ htop hrest =>
      change LocalScope.settled (top.mark name.lexeme .defined) _ :: ScopeStack.settled rest ls =
        top.settled _ :: ScopeStack.settled rest ls
      rw [LocalScope.settled_of_idle hidle, LocalScope.settled_of_initializing hinit]

/-- A name that is defined as soon as it is declared. -/
theorem watches_introduce (hc : c.Idle) (t : Trail) (name : Token) {f : Unit → Resolve β}
    (hf : ∀ u, Watches (c.note ⟨c, t, .declare name⟩) (f u) spots regions c') :
    Watches c (declare name >>= fun _ => define name >>= f) (⟨c, t, .declare name⟩ :: spots) regions
      c' :=
  (watches_declare hc t name).bind fun _ =>
    (watches_define (.await (hc.note _) name.lexeme)).andThen hf

theorem watches_parameters (hc : c.Idle) (t : Trail) (params : List Token) :
    Follows c (parameters params) (c.parameters t params) [] := by
  induction params generalizing c with
  | nil => exact watches_pure ()
  | cons p ps ih => exact watches_introduce hc t p fun _ => ih (hc.note _)

/-! ## References -/

/-- A reference changes no more in the scopes than the mark of a name that it reads. -/
theorem linkBeyond_run (skipped : Nat) (label : Text) (start : Position) (name : Text)
    (isRead : Bool) (r : Resolution) :
    ((linkBeyond skipped label start name isRead).run r).2.found = r.found ∧
      ((linkBeyond skipped label start name isRead).run r).2.scopes =
        match ScopeStack.hops? (r.scopes.drop skipped) name with
        | some k => if isRead then r.scopes.markAt (skipped + k) name .read else r.scopes
        | none => r.scopes := by
  cases hfound : ScopeStack.hops? (r.scopes.drop skipped) name with
  | none =>
    have hrun : (linkBeyond skipped label start name isRead).run r =
        (link label start r.scopes.length).run r := by
      simp [linkBeyond, hfound]
    rw [hrun]
    exact ⟨rfl, rfl⟩
  | some k =>
    cases isRead with
    | false =>
      have hrun : (linkBeyond skipped label start name false).run r =
          (link label start (skipped + k)).run r := by
        simp [linkBeyond, hfound]
      rw [hrun]
      exact ⟨rfl, rfl⟩
    | true =>
      have hrun : (linkBeyond skipped label start name true).run r =
          (link label start (skipped + k)).run
            { r with scopes := r.scopes.markAt (skipped + k) name .read } := by
        simp [linkBeyond, hfound]
      rw [hrun]
      exact ⟨rfl, rfl⟩

theorem watches_linkBeyond {skipped : Nat} {label : Text} {start : Position} {name : Token}
    (item : Item) (hskipped : skipped ≤ c.layers.length) (hname : item.reference? = some name)
    (hlink : (⟨c, t, item⟩ : Spot).link? = some (c.link skipped label start name.lexeme))
    (hfaults : (⟨c, t, item⟩ : Spot).faults = []) :
    Follows c (linkBeyond skipped label start name.lexeme item.isRead) [⟨c, t, item⟩] [] := by
  intro r hr _
  have hshows := (surveys_linkBeyond item hskipped hname hlink hfaults r hr).1.shows
  obtain ⟨hfound, hscopes⟩ :=
    linkBeyond_run skipped label start name.lexeme item.isRead r
  have heffect := Spot.effect?_linked hname hlink
  refine ⟨hshows, ?_, congrArg (List.filter Diagnostic.isUnused) hfound⟩
  rw [hscopes]
  change ScopeStack.settled _ (c.note ⟨c, t, item⟩).layers = (r.scopes.settled c.layers).meet _
  cases hread : item.isRead with
  | false =>
    rw [hread, if_neg Bool.false_ne_true] at heffect
    rw [Context.note_of_none heffect, ScopeStack.meet_of_none heffect]
    split <;> rfl
  | true =>
    rw [hread, if_pos rfl] at heffect
    rw [Context.note_of_effect heffect]
    cases hk : ScopeStack.hops? (r.scopes.drop skipped) name.lexeme with
    | none =>
      have hdistance := hr.distance_of_none hskipped hk
      have hzero : (Effect.reads (c.layers.length - c.distance skipped name.lexeme)
          name.lexeme).level = 0 := by
        rw [hdistance]
        exact Nat.sub_self _
      rw [Effect.onLayers_of_zero hzero, ScopeStack.meet_of_outside]
      intro e he
      rw [heffect] at he
      cases he
      exact Or.inl hzero
    | some k =>
      obtain ⟨hdistance, hlt⟩ := hr.distance_of_some hk
      rw [hdistance] at heffect ⊢
      exact hr.scopes.settled_markAt hlt heffect (c.initializesAt_sub hlt name.lexeme)

theorem watches_linkVariable (start : Position) (name : Token) :
    Follows c (linkVariable start name) [⟨c, t, .read start name⟩] [] := by
  intro r hr hfresh
  rcases linkVariable_cases hr t start name with
    ⟨skipped, hskipped, hrun, hlink, hfaults⟩ | ⟨hrun, hlink, hfaults⟩
  · rw [hrun]
    exact watches_linkBeyond (.read start name) hskipped rfl hlink hfaults r hr hfresh
  · have heffect : (⟨c, t, .read start name⟩ : Spot).effect? = none := by
      rw [Spot.effect?_reference rfl, hlink]
      rfl
    rw [hrun]
    exact watches_refuse (c := c) heffect rfl r hr hfresh

/-! ## The end of a scope -/

/-- A step that opens a scope, in which every name counts as read. -/
structure Opens (c : Context) (x : Resolve Unit) (l : Layer) : Prop where
  run : ∀ r : Resolution, r.Shows c → ∃ s : LocalScope,
    (x.run r).2 = { r with scopes := s :: r.scopes } ∧ s.Shows l ∧ ∀ b ∈ s, b.state = .read
  idle : l.initializing = none

theorem opens_openScope (c : Context) : Opens c openScope {} where
  run _ _ := ⟨[], rfl, .empty, List.forall_mem_nil _⟩
  idle := rfl

theorem opens_implicit (c : Context) (name : Text) :
    Opens c (openScope >>= fun _ => bindImplicit name) { names := [name] } where
  run _ _ := ⟨[⟨⟨.identifier, name, none, .nowhere⟩, .read⟩], rfl, .implicit _ rfl,
    List.forall_mem_singleton.mpr rfl⟩
  idle := rfl

/-- To close a scope is to warn of its unread names. -/
theorem closeScope_run {r : Resolution} {top : LocalScope} {rest : ScopeStack}
    (h : r.scopes = top :: rest) :
    (closeScope.run r).2.scopes = rest ∧
      (closeScope.run r).2.unused = (unusedWarnings top.unread).reverse ++ r.unused := by
  obtain ⟨scopes, globals, found, links, count⟩ := r
  dsimp only at h
  subst h
  refine ⟨rfl, ?_⟩
  change List.filter Diagnostic.isUnused ((unusedWarnings top.unread).reverse ++ found) = _
  rw [List.filter_append, filter_unusedWarnings]
  rfl

/-- At the end of a scope there is a warning about each of its unused names. -/
theorem Follows.scope {l : Layer} {o : Resolve Unit} {x : Resolve α} (ho : Opens c o l)
    (hx : Follows ⟨l :: c.layers, c.globals⟩ x spots regions) (f : α → β) :
    Follows c (o >>= fun _ => x >>= fun a => closeScope >>= fun _ => pure (f a)) spots
      (regions ++ [⟨c.layers.length + 1, spots⟩]) := by
  intro r hr hfresh
  obtain ⟨s, hopen, hs, hread⟩ := ho.run r hr
  obtain ⟨l', hidle', hlayers⟩ := c.after_inside ho.idle spots
  have hinside : (o.run r).2.Shows ⟨l :: c.layers, c.globals⟩ := by
    rw [hopen]
    exact ⟨.cons hs hr.scopes, hr.globals⟩
  obtain ⟨hshows, hscopes, hunused⟩ := hx _ hinside hfresh
  have hclosed := (passes_closeScope _ hshows).1.shows
  change Watched r c spots _ _ (closeScope.run (x.run (o.run r).2).2).2
  generalize (x.run (o.run r).2).2 = r₂ at hshows hscopes hunused hclosed ⊢
  -- The scope that ends lies on top of what the stack will be.
  have hstack := hshows.scopes
  rw [hlayers] at hscopes hstack
  rw [hopen, ScopeStack.settled_cons, LocalScope.settled_of_idle ho.idle,
    ScopeStack.foldl_meet_cons, hr.scopes.length_settled] at hscopes
  cases htop : r₂.scopes with
  | nil =>
    rw [htop] at hstack
    cases hstack
  | cons top rest =>
    obtain ⟨hrest, hwarned⟩ := closeScope_run htop
    rw [htop, ScopeStack.settled_cons, LocalScope.settled_of_idle hidle'] at hscopes
    obtain ⟨hends, houter⟩ := List.cons.inj hscopes
    refine ⟨?_, ?_, ?_⟩
    · rw [Context.leave_after] at hclosed
      exact hclosed
    · rw [hrest]
      exact houter
    · rw [hwarned, hends, LocalScope.unread_foldl_meet_of_read _ _ hread, hunused, hopen]
      simp only [Region.warnings, List.flatMap_append, List.flatMap_singleton, List.reverse_append,
        List.append_assoc]
      rfl

end Resolve

end Scriptlet

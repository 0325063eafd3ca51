import Scriptlet.Proofs.Scope.Lexical
import Scriptlet.Proofs.Scope.Linking

/-!
# Open scopes and the layers of a place

Resolution carries a stack of open scopes along, and marks the names in it as declared, defined or
read. The text says of a place which layers are around it. A stack shows the layers of a place if it
binds the same names, and if a name of the innermost layer is marked as declared exactly where it is
being initialized and was not read yet (`LocalScope.Shows`, `ScopeStack.Shows`). Whatever resolution
does to a scope has an effect on a layer that keeps this.

The other facts are about places alone: what happens inside a scope does to the scopes around it
what it does without that scope (`Context.leave_after`), and the end of an initializer comes to the
same place as if there had been none (`Context.Settles`).
-/

namespace Scriptlet

/-! ## Scopes and layers -/

namespace LocalScope

theorem find?_put (s : LocalScope) (b : Binding) (x : Text) :
    (s.put b).find? x = if b.name.lexeme = x then some b else s.find? x := by
  unfold find?
  induction s with
  | nil => by_cases h : b.name.lexeme = x <;> simp [put, h]
  | cons a s ih =>
    unfold put
    split
    · next heq =>
      rw [beq_iff_eq] at heq
      by_cases h : b.name.lexeme = x
      · simp [h]
      · simp [heq, h]
    · next hne =>
      rw [beq_iff_eq] at hne
      by_cases ha : a.name.lexeme = x
      · subst ha
        simp [Ne.symm hne]
      · rw [List.find?_cons_of_neg (by simpa using ha), ih, List.find?_cons_of_neg (by simpa using ha)]

theorem find?_mark (s : LocalScope) (name : Text) (state : BindingState) (x : Text) :
    (s.mark name state).find? x =
      (s.find? x).map fun b => if x = name then { b with state := state } else b := by
  unfold find? mark
  induction s with
  | nil => rfl
  | cons a s ih =>
    by_cases ha : a.name.lexeme = x
    · subst ha
      by_cases hn : a.name.lexeme = name <;> simp [hn]
    · by_cases hn : a.name.lexeme = name
      · simp only [List.map_cons, hn, beq_self_eq_true, ↓reduceIte]
        rw [List.find?_cons_of_neg (by simpa [hn] using ha), ih,
          List.find?_cons_of_neg (by simpa using ha)]
      · simp only [List.map_cons, beq_iff_eq, hn, ↓reduceIte] at ih ⊢
        rw [List.find?_cons_of_neg (by simpa using ha), ih,
          List.find?_cons_of_neg (by simpa using ha)]

/-- A scope that binds the names of a layer, and in which a name is being initialized exactly if the
layer says so and the name was not read yet. -/
structure Shows (s : LocalScope) (l : Layer) : Prop where
  names : ∀ x, s.binds x ↔ x ∈ l.names
  awaits : ∀ x, ((s.find? x).any fun b => b.state = .declared) ↔
    l.initializing = some x ∧ l.early = false

namespace Shows

variable {s : LocalScope} {l : Layer}

theorem empty : Shows [] {} := by
  refine ⟨fun x => ?_, fun x => ?_⟩
  · simp [binds]
  · simp [find?]

/-- A scope that holds a name from its beginning. -/
theorem implicit (b : Binding) (hb : b.state = .read) :
    Shows [b] { names := [b.name.lexeme] } := by
  refine ⟨fun x => ?_, fun x => ?_⟩
  · simp only [binds, List.any_cons, List.any_nil, Bool.or_false, beq_iff_eq, List.mem_singleton]
    exact eq_comm
  · by_cases h : b.name.lexeme = x <;> simp [find?, h, hb]

/-- A name that is declared is being initialized, and no other is if none was before. -/
theorem declare (h : s.Shows l) (hidle : l.initializing = none) (name : Token) :
    (s.put ⟨name, .declared⟩).Shows
      { l with names := name.lexeme :: l.names, initializing := some name.lexeme, early := false }
    := by
  refine ⟨fun x => ?_, fun x => ?_⟩
  · rw [binds_put, List.mem_cons, h.names]
  · rw [find?_put]
    by_cases hx : name.lexeme = x
    · simp [hx]
    · have hnone := h.awaits x
      rw [hidle] at hnone
      simpa [hx] using hnone

/-- Once its initializer has ended, no name is being initialized. -/
theorem define (h : s.Shows l) {x : Text} (hx : l.initializing = some x) {l' : Layer}
    (hnames : l'.names = l.names) (hidle : l'.initializing = none) :
    (s.mark x .defined).Shows l' := by
  refine ⟨fun y => ?_, fun y => ?_⟩
  · rw [binds_mark, h.names, hnames]
  · rw [find?_mark, hidle]
    by_cases hy : y = x
    · cases s.find? y <;> simp [hy]
    · have hother := h.awaits y
      rw [hx] at hother
      simp only [hy, ↓reduceIte, Option.map_id'] at hother ⊢
      rw [hother]
      simp [Ne.symm hy]

/-- A variable that is read in its initializer does not count as being initialized any more. -/
theorem read (h : s.Shows l) (level : Nat) (x : Text) :
    (s.mark x .read).Shows ((Effect.reads level x).onLayer l) := by
  change (s.mark x .read).Shows (if l.initializing = some x then { l with early := true } else l)
  refine ⟨fun y => ?_, fun y => ?_⟩
  · rw [binds_mark, h.names]
    split <;> rfl
  · rw [find?_mark]
    by_cases hy : y = x
    · subst hy
      by_cases hl : l.initializing = some y
      · cases s.find? y <;> simp [hl]
      · cases s.find? y <;> simp [hl]
    · have hother := h.awaits y
      simp only [hy, ↓reduceIte, Option.map_id']
      rw [hother]
      by_cases hl : l.initializing = some x
      · simp [hl, Ne.symm hy]
      · simp [hl]

end Shows

end LocalScope

namespace Effect

variable {e : Effect}

@[simp]
theorem length_onLayers (e : Effect) (ls : List Layer) : (e.onLayers ls).length = ls.length := by
  induction ls with
  | nil => rfl
  | cons l ls ih => rw [onLayers, List.length_cons, List.length_cons, ih]

/-- An effect at a level further in than all scopes changes none of them. -/
theorem onLayers_of_lt {ls : List Layer} (h : ls.length < e.level) : e.onLayers ls = ls := by
  induction ls with
  | nil => rfl
  | cons l ls ih =>
    rw [List.length_cons] at h
    rw [onLayers, if_neg (Nat.ne_of_gt h), ih (Nat.lt_of_succ_lt h)]

/-- At level zero there are no scopes. -/
theorem onLayers_of_zero (h : e.level = 0) (ls : List Layer) : e.onLayers ls = ls := by
  induction ls with
  | nil => rfl
  | cons l ls ih => rw [onLayers, if_neg (by rw [h]; exact (Nat.succ_ne_zero _).symm), ih]

theorem initializing_onLayer (e : Effect) (l : Layer) :
    (e.onLayer l).initializing = l.initializing := by
  cases e with
  | declares => rfl
  | reads level x =>
    rw [onLayer]
    split <;> rfl

theorem names_onLayer_reads (level : Nat) (x : Text) (l : Layer) :
    ((Effect.reads level x).onLayer l).names = l.names := by
  rw [onLayer]
  split <;> rfl

/-- What an effect does to names depends on names alone. -/
theorem names_onLayer {l l' : Layer} (h : l'.names = l.names) :
    (e.onLayer l').names = (e.onLayer l).names := by
  cases e with
  | declares level x => exact congrArg (x :: ·) h
  | reads level x => rw [names_onLayer_reads, names_onLayer_reads, h]

end Effect

/-- Open scopes that show the layers around a place. -/
inductive ScopeStack.Shows : ScopeStack → List Layer → Prop where
  | nil : Shows [] []
  | cons {s : LocalScope} {l : Layer} {scopes : ScopeStack} {ls : List Layer} :
    s.Shows l → Shows scopes ls → Shows (s :: scopes) (l :: ls)

/-- A layer as a frame of a site. -/
def Layer.frame (l : Layer) : Frame := { names := [], ready := l.names }

namespace ScopeStack.Shows

variable {scopes : ScopeStack} {ls : List Layer}

theorem length (h : Shows scopes ls) : scopes.length = ls.length := by
  induction h with
  | nil => rfl
  | cons _ _ ih => rw [List.length_cons, List.length_cons, ih]

theorem tail (h : Shows scopes ls) : Shows scopes.tail ls.tail := by
  cases h with
  | nil => exact .nil
  | cons _ h => exact h

theorem aligned (h : Shows scopes ls) : Aligned scopes (ls.map Layer.frame) := by
  induction h with
  | nil => exact .nil
  | cons hs _ ih => exact .cons hs.names ih

/-- A name is found in the open scopes as far out as in the layers. -/
theorem hops? (h : Shows scopes ls) (skipped : Nat) (name : Text) :
    (ScopeStack.hops? (scopes.drop skipped) name).getD (scopes.drop skipped).length =
      (ls.drop skipped).findIdx fun l => l.binds name := by
  have hdrop := (h.aligned.drop skipped).hops? name
  rw [← List.map_drop] at hdrop
  simp only [hdrop, List.findIdx_map, Layer.binds_eq]
  rfl

/-- To mark a name as read changes one layer, the one at the level of its scope. -/
theorem markAt (h : Shows scopes ls) {k : Nat} (hk : k < ls.length) (x : Text) :
    Shows (scopes.markAt k x .read) ((Effect.reads (ls.length - k) x).onLayers ls) := by
  induction h generalizing k with
  | nil => simp at hk
  | @cons s l scopes ls hs h ih =>
    rw [Effect.onLayers, List.length_cons]
    cases k with
    | zero =>
      rw [Nat.sub_zero, if_pos (by rfl), Effect.onLayers_of_lt (Nat.lt_succ_self _)]
      exact .cons (hs.read _ x) h
    | succ k =>
      rw [List.length_cons] at hk
      have hlevel : ls.length + 1 - (k + 1) = ls.length - k := Nat.add_sub_add_right ..
      have hne : (Effect.reads (ls.length - k) x).level ≠ ls.length + 1 :=
        Nat.ne_of_lt (Nat.lt_succ_of_le (Nat.sub_le ..))
      rw [hlevel, if_neg hne]
      exact .cons hs (ih (Nat.lt_of_succ_lt_succ hk))

end ScopeStack.Shows

/-! ## Contexts -/

namespace Context

variable {c c' : Context} {x : Text}

theorem after_append (c : Context) (spots spots' : List Spot) :
    c.after (spots ++ spots') = (c.after spots).after spots' :=
  List.foldl_append

theorem note_of_effect {s : Spot} {e : Effect} (h : s.effect? = some e) :
    c.note s = ⟨e.onLayers c.layers, e.onGlobals c.globals⟩ := by
  rw [note, h]

theorem note_of_none {s : Spot} (h : s.effect? = none) : c.note s = c := by rw [note, h]

/-- A declaration adds its name to the innermost scope. -/
theorem note_declare (l : Layer) (ls : List Layer) (globals : List Text) (t : Trail)
    (name : Token) :
    note ⟨l :: ls, globals⟩ ⟨⟨l :: ls, globals⟩, t, .declare name⟩ =
      ⟨{ l with names := name.lexeme :: l.names } :: ls, globals⟩ := by
  rw [note_of_effect rfl]
  change (⟨(Effect.declares (ls.length + 1) name.lexeme).onLayers (l :: ls), _⟩ : Context) = _
  rw [Effect.onLayers, if_pos (by rfl), Effect.onLayers_of_lt (Nat.lt_succ_self _)]
  rfl

@[simp]
theorem length_note (c : Context) (s : Spot) : (c.note s).layers.length = c.layers.length := by
  unfold note
  split
  · exact Effect.length_onLayers _ _
  · rfl

@[simp]
theorem length_after (c : Context) (spots : List Spot) :
    (c.after spots).layers.length = c.layers.length := by
  induction spots generalizing c with
  | nil => rfl
  | cons s spots ih => exact (ih (c.note s)).trans (c.length_note s)

/-- Spots inside a scope do to the scopes around it what they do without it. -/
theorem leave_note (c : Context) (s : Spot) : (c.note s).leave = c.leave.note s := by
  unfold note
  split
  · cases h : c.layers with
    | nil => simp [leave, h, Effect.onLayers]
    | cons l ls => simp [leave, h, Effect.onLayers]
  · rfl

theorem leave_after (c : Context) (spots : List Spot) :
    (c.after spots).leave = c.leave.after spots := by
  induction spots generalizing c with
  | nil => rfl
  | cons s spots ih =>
    change ((c.note s).after spots).leave = (c.leave.note s).after spots
    rw [ih, leave_note]

theorem leave_enter (c : Context) : c.enter.leave = c := rfl

theorem leave_enterWith (c : Context) (x : Text) : (c.enterWith x).leave = c := rfl

/-- No variable of the innermost scope is being initialized. -/
def Idle (c : Context) : Prop := ∀ l ∈ c.layers.head?, l.initializing = none

namespace Idle

theorem top (globals : List Text) : Idle { globals := globals } := nofun

theorem enter (c : Context) : c.enter.Idle := by
  rintro l ⟨⟩
  rfl

theorem note (h : c.Idle) (s : Spot) : (c.note s).Idle := by
  unfold Context.note
  split
  · obtain ⟨layers, globals⟩ := c
    cases layers with
    | nil => exact nofun
    | cons l ls =>
      rintro l' ⟨⟩
      split
      · rw [Effect.initializing_onLayer]
        exact h l rfl
      · exact h l rfl
  · exact h

theorem after (h : c.Idle) (spots : List Spot) : (c.after spots).Idle := by
  induction spots generalizing c with
  | nil => exact h
  | cons s spots ih => exact ih (h.note s)

end Idle

/-- In the initializer of a variable, and in the same place without it. -/
inductive Settles (x : Text) : Context → Context → Prop where
  | top (globals : List Text) : Settles x ⟨[], globals⟩ ⟨[], globals⟩
  | scope {l l' : Layer} {ls : List Layer} {globals : List Text} : l'.names = l.names →
    l.initializing = some x → l'.initializing = none →
      Settles x ⟨l :: ls, globals⟩ ⟨l' :: ls, globals⟩

namespace Settles

theorem await (h : c.Idle) (x : Text) : Settles x (c.await x) c := by
  obtain ⟨layers, globals⟩ := c
  cases layers with
  | nil => exact .top globals
  | cons l ls => exact .scope rfl rfl (h l rfl)

theorem note (h : Settles x c c') (s : Spot) : Settles x (c.note s) (c'.note s) := by
  unfold Context.note
  split
  · cases h with
    | top globals => exact .top _
    | scope hnames hinit hidle =>
      unfold Effect.onLayers
      split
      · refine .scope (Effect.names_onLayer hnames) ?_ ?_
        · rw [Effect.initializing_onLayer]; exact hinit
        · rw [Effect.initializing_onLayer]; exact hidle
      · exact .scope hnames hinit hidle
  · exact h

theorem after (h : Settles x c c') (spots : List Spot) :
    Settles x (c.after spots) (c'.after spots) := by
  induction spots generalizing c c' with
  | nil => exact h
  | cons s spots ih => exact ih (h.note s)

end Settles

end Context

end Scriptlet

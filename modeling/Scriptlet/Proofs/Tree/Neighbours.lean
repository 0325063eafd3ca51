import Scriptlet.Proofs.Tree.Operand

/-!
# A simple statement and its neighbours

A simple statement (`IsSimple`) ends with its only semicolon and has no braces in it; whether it is
right does not matter. Wherever it stands, reading it never gets beyond its semicolon, and what is
read of it does not depend on what stands around it: the readers do the same in any two places
(`Parser.Alike`), and so they find the same faults. A fault at which the statement is given up is
found before the semicolon was taken, so that reading goes on behind it.
-/

namespace Scriptlet

/-- The tokens of a statement, right or wrong, that ends with its only semicolon and has no braces
in it. Only its first token can be a word that begins a statement. -/
structure IsSimple (ts : List Token) : Prop where
  last : ∃ t ∈ ts.getLast?, t.kind = .semicolon
  only : ∀ t ∈ ts.dropLast, t.kind ≠ .semicolon
  plain : ∀ t ∈ ts, t.kind ≠ .leftBrace ∧ t.kind ≠ .rightBrace ∧ t.kind ≠ .endOfInput
  first : ∀ t ∈ ts.head?, t.kind ≠ .kwElse ∧ t.kind ≠ .kwFor ∧ t.kind ≠ .kwDo
  others : ∀ t ∈ ts.tail, Cursor.beginsStatement t.kind = false

/-- Whether a fault of syntax is recorded without giving up the statement around it. -/
abbrev Diagnostic.IsLight (d : Diagnostic) : Prop := d.code = "E2003" ∨ d.code = "E2004"

theorem SyntaxFault.missing_not_light (what : Expected) (t : Token) :
    ¬ ((SyntaxFault.missing what).report t).IsLight := by
  change ¬ (("E2001" : Text) = "E2003" ∨ ("E2001" : Text) = "E2004")
  decide

/-- Where no expression begins, the statement is given up. -/
theorem Parser.noOperand_not_light (kind : Kind) (t : Token) :
    ¬ ((noOperand kind).report t).IsLight := by
  change ¬ ((noOperand kind).code = "E2003" ∨ (noOperand kind).code = "E2004")
  cases kind <;> decide

namespace IsSimple

variable {ts us vs : List Token} {t : Token}

instance : Decidable (IsSimple ts) :=
  decidable_of_iff ((∃ t ∈ ts.getLast?, t.kind = .semicolon) ∧
      (∀ t ∈ ts.dropLast, t.kind ≠ .semicolon) ∧
      (∀ t ∈ ts, t.kind ≠ .leftBrace ∧ t.kind ≠ .rightBrace ∧ t.kind ≠ .endOfInput) ∧
      (∀ t ∈ ts.head?, t.kind ≠ .kwElse ∧ t.kind ≠ .kwFor ∧ t.kind ≠ .kwDo) ∧
      ∀ t ∈ ts.tail, Cursor.beginsStatement t.kind = false)
    ⟨fun ⟨hlast, honly, hplain, hfirst, hothers⟩ => ⟨hlast, honly, hplain, hfirst, hothers⟩,
      fun h => ⟨h.last, h.only, h.plain, h.first, h.others⟩⟩

theorem ends (h : IsSimple ts) :
    ∃ us semi, ts = us ++ [semi] ∧ semi.kind = .semicolon ∧ ∀ t ∈ us, t.kind ≠ .semicolon := by
  obtain ⟨semi, hlast, hsemi⟩ := h.last
  obtain ⟨us, rfl⟩ := List.getLast?_eq_some_iff.mp hlast
  refine ⟨us, semi, rfl, hsemi, ?_⟩
  have honly := h.only
  rwa [List.dropLast_concat] at honly

/-- Only the last token is a semicolon. -/
theorem semicolon_iff (h : IsSimple (us ++ t :: vs)) : t.kind = .semicolon ↔ vs = [] := by
  obtain ⟨init, semi, heq, hsemi, hinit⟩ := h.ends
  rcases List.eq_nil_or_concat vs with rfl | ⟨vs, last, rfl⟩
  · obtain ⟨-, hlast⟩ := List.append_inj' heq rfl
    have hlast : t = semi := List.head_eq_of_cons_eq hlast
    rw [hlast]
    exact iff_of_true hsemi rfl
  · rw [List.concat_eq_append, ← List.cons_append, ← List.append_assoc] at heq
    obtain ⟨rfl, -⟩ := List.append_inj' heq rfl
    exact iff_of_false (hinit t (by simp)) (by simp)

/-- No token in it begins a loop of the kinds that have statements or semicolons inside. -/
theorem kind_ne_loop (h : IsSimple ts) (ht : t ∈ ts) : t.kind ≠ .kwFor ∧ t.kind ≠ .kwDo := by
  cases ts with
  | nil => cases ht
  | cons u us =>
    rcases List.mem_cons.mp ht with rfl | htail
    · exact (h.first t rfl).2
    · have hbegins := h.others t htail
      constructor <;> (intro hk; rw [hk] at hbegins; cases hbegins)

/-- What comes after some of its tokens is inside of it, but for the semicolon. -/
theorem inner (h : IsSimple (us ++ vs ++ [t])) (hus : us ≠ []) : ∀ v ∈ vs, v.IsInner := by
  intro v hv
  obtain ⟨xs, ys, rfl⟩ := List.append_of_mem hv
  obtain ⟨u, us, rfl⟩ := List.exists_cons_of_ne_nil hus
  refine ⟨(h.plain v (by simp)).2.2, ?_, h.others v (by simp)⟩
  have hsplit : u :: us ++ (xs ++ v :: ys) ++ [t] = (u :: us ++ xs) ++ v :: (ys ++ [t]) := by simp
  rw [hsplit] at h
  intro hk
  exact absurd (h.semicolon_iff.mp hk) (by simp)

end IsSimple

/-- What stands around the tokens of a statement: the token before them, the faults so far, and what
follows. -/
structure Neighbours where
  previous : Option Token
  faults : List Diagnostic
  rest : List Token
  follows : Parser.Follows Parser.notElse rest

/-- The tokens of a simple statement in two places. -/
structure TwoPlaces where
  tokens : List Token
  simple : IsSimple tokens
  here : Neighbours
  there : Neighbours

/-- How far the tokens of a statement are taken. -/
inductive Extent where
  /-- Some are left; if `begun`, some are taken, too. -/
  | within (begun : Bool)
  /-- All are taken. -/
  | through
  /-- Where reading never gets. -/
  | never

theorem Extent.through_ne : Extent.through ≠ .within false := by
  intro h
  cases h

theorem Extent.begun_ne : Extent.within true ≠ .within false := by
  intro h
  cases h

/-- Whether taken tokens and the tokens left are so at an extent. -/
def Extent.Holds : Extent → (taken left : List Token) → Prop
  | .within begun, taken, left => left ≠ [] ∧ (begun → taken ≠ [])
  | .through, _, left => left = []
  | .never, _, _ => False

namespace Neighbours

variable {n : Neighbours} {taken left : List Token} {faults : List Diagnostic} {t : Token}

/-- The place in a statement where some of its tokens are taken and some are left. -/
def cursor (n : Neighbours) (taken left : List Token) (faults : List Diagnostic) : Cursor :=
  .place (Cursor.last n.previous taken) (faults ++ n.faults) (left ++ n.rest)

theorem append_ne_nil (n : Neighbours) (left : List Token) : left ++ n.rest ≠ [] :=
  List.append_ne_nil_of_right_ne_nil left n.follows.ne_nil

theorem cursor_faults : (n.cursor taken left faults).faults = faults ++ n.faults := by
  unfold cursor
  cases left ++ n.rest <;> rfl

theorem cursor_advance (ht : t.kind ≠ .endOfInput) :
    (n.cursor taken (t :: left) faults).advance = n.cursor (taken ++ [t]) left faults := by
  unfold cursor
  rw [List.cons_append, Cursor.place_advance ht (n.append_ne_nil left), Cursor.last_append]
  rfl

theorem cursor_record (fault : SyntaxFault) (t : Token) :
    (n.cursor taken left faults).record fault t =
      n.cursor taken left (fault.report t :: faults) := by
  unfold cursor
  cases left ++ n.rest <;> rfl

theorem cursor_lastStop :
    (n.cursor (t :: taken) left faults).lastStop = Cursor.stopAfter t taken := by
  have hstop : (n.cursor (t :: taken.map (·.move id)) left faults).lastStop =
      Cursor.stopAfter t taken :=
    Cursor.lastStop_place id t taken (left ++ n.rest)
  rwa [show taken.map (·.move id) = taken from Token.map_relocate_id _] at hstop

/-- Behind the statement no choice goes on. -/
theorem cursor_not_else : (n.cursor taken [] faults).sees .kwElse = false := by
  obtain ⟨previous, before, rest, hrest⟩ := n
  obtain ⟨t, rest, rfl⟩ := List.exists_cons_of_ne_nil hrest.ne_nil
  exact decide_eq_false (hrest.ne rfl)

/-- After a fault in a simple statement reading goes on behind it. -/
theorem cursor_synchronize (h : IsSimple (taken ++ t :: left)) :
    (n.cursor taken (t :: left) faults).synchronize =
      n.cursor (taken ++ t :: left) [] faults := by
  have hend : t.kind ≠ .endOfInput := (h.plain t (by simp)).2.2
  obtain ⟨u, rest, hrest⟩ := List.exists_cons_of_ne_nil n.follows.ne_nil
  unfold Cursor.synchronize
  dsimp only
  rw [cursor_advance hend]
  rcases List.eq_nil_or_concat left with rfl | ⟨inner, semi, rfl⟩
  · -- the semicolon itself is where the fault was found
    have hsemi : t.kind = .semicolon := h.semicolon_iff.mpr rfl
    unfold cursor
    rw [Cursor.last_append, List.nil_append, hrest]
    cases rest with
    | nil => rfl
    | cons v rest =>
      change Cursor.skip _ (some t) u (v :: rest) = _
      rw [Cursor.skip, if_pos (by simp [hsemi])]
      rfl
  · have hne : t.kind ≠ .semicolon := by
      intro hsemi
      exact absurd (h.semicolon_iff.mp hsemi) (by simp)
    have hsplit : taken ++ t :: inner.concat semi = taken ++ [t] ++ inner ++ [semi] := by simp
    rw [hsplit] at h ⊢
    have hsemi : semi.kind = .semicolon := h.semicolon_iff.mpr rfl
    obtain ⟨v, vs, hvs⟩ : ∃ v vs, inner ++ semi :: u :: rest = v :: vs :=
      List.exists_cons_of_ne_nil (by simp)
    have hcursor : n.cursor (taken ++ [t]) (inner.concat semi) faults =
        ⟨some t, v, vs, faults ++ n.faults⟩ := by
      unfold cursor
      rw [Cursor.last_append, List.concat_append, hrest, hvs]
      rfl
    rw [hcursor]
    dsimp only
    rw [Cursor.skip_inner (h.inner (by simp)) hsemi _ (by simp [hne]) hvs.symm]
    unfold cursor
    rw [Cursor.last_append, List.nil_append, hrest]
    rfl

end Neighbours

namespace TwoPlaces

variable {s : TwoPlaces} {c c' : Cursor} {begun : Bool} {extent : Extent} {t : Token}
  {fault : SyntaxFault}

/-- A finding at a token of the statement. -/
def Within (s : TwoPlaces) (d : Diagnostic) : Prop := ∃ t ∈ s.tokens, d.span = t.span

/-- Two cursors at the same place in the statement, where the statement was not given up. -/
def At (s : TwoPlaces) (extent : Extent) (c c' : Cursor) : Prop :=
  ∃ taken left faults, s.tokens = taken ++ left ∧ extent.Holds taken left ∧
    (∀ d ∈ faults, s.Within d ∧ d.IsLight) ∧
    c = s.here.cursor taken left faults ∧ c' = s.there.cursor taken left faults

/-- Two cursors at the same place in the statement, where the statement is given up. -/
def GivenUp (s : TwoPlaces) (c c' : Cursor) : Prop :=
  ∃ taken left faults, s.tokens = taken ++ left ∧ left ≠ [] ∧
    (∀ d ∈ faults, s.Within d) ∧ (∃ d ∈ faults, ¬ d.IsLight) ∧
    c = s.here.cursor taken left faults ∧ c' = s.there.cursor taken left faults

theorem At.mono (h : s.At (.within true) c c') : s.At (.within begun) c c' := by
  obtain ⟨taken, left, faults, hts, ⟨hleft, htaken⟩, hrest⟩ := h
  exact ⟨taken, left, faults, hts, ⟨hleft, fun _ => htaken rfl⟩, hrest⟩

/-- Both see the same token of the statement. -/
theorem At.current (h : s.At (.within begun) c c') :
    c.current ∈ s.tokens ∧ c'.current = c.current := by
  obtain ⟨taken, left, faults, hts, ⟨hleft, -⟩, -, rfl, rfl⟩ := h
  obtain ⟨t, left, rfl⟩ := List.exists_cons_of_ne_nil hleft
  refine ⟨?_, rfl⟩
  rw [hts]
  exact List.mem_append_right taken List.mem_cons_self

/-- A word for a function is not the last token, so both see the one behind it. -/
theorem At.nextKind (h : s.At (.within begun) c c') (hfun : c.current.kind = .kwFun) :
    c'.nextKind = c.nextKind := by
  obtain ⟨taken, left, faults, hts, ⟨hleft, -⟩, -, rfl, rfl⟩ := h
  obtain ⟨t, left, rfl⟩ := List.exists_cons_of_ne_nil hleft
  have hsimple := s.simple
  rw [hts] at hsimple
  have hkind : t.kind = .kwFun := hfun
  have hmore : left ≠ [] := by
    intro hnone
    rw [hsimple.semicolon_iff.mpr hnone] at hkind
    cases hkind
  obtain ⟨u, left, rfl⟩ := List.exists_cons_of_ne_nil hmore
  rfl

/-- Behind a token the statement goes on exactly if the token is no semicolon. -/
theorem At.advance (h : s.At (.within begun) c c') :
    s.At (if c.current.kind = .semicolon then .through else .within true) c.advance c'.advance := by
  have hend : c.current.kind ≠ .endOfInput := (s.simple.plain _ h.current.1).2.2
  obtain ⟨taken, left, faults, hts, ⟨hleft, -⟩, hfaults, rfl, rfl⟩ := h
  obtain ⟨t, left, rfl⟩ := List.exists_cons_of_ne_nil hleft
  have hsimple := s.simple
  rw [hts] at hsimple
  refine ⟨taken ++ [t], left, faults, by rw [hts, List.append_cons], ?_, hfaults,
    Neighbours.cursor_advance hend, Neighbours.cursor_advance hend⟩
  split
  · next hsemi => exact hsimple.semicolon_iff.mp hsemi
  · next hsemi => exact ⟨fun hnone => hsemi (hsimple.semicolon_iff.mpr hnone), by simp⟩

theorem At.not_else (h : s.At .through c c') :
    c.sees .kwElse = false ∧ c'.sees .kwElse = false := by
  obtain ⟨taken, left, faults, hts, hleft, -, rfl, rfl⟩ := h
  obtain rfl : left = [] := hleft
  exact ⟨Neighbours.cursor_not_else, Neighbours.cursor_not_else⟩

/-- Once a token of the statement was taken, both have the same one before them. -/
theorem At.lastStop (h : s.At extent c c') (hextent : extent ≠ .within false) :
    c'.lastStop = c.lastStop := by
  obtain ⟨taken, left, faults, hts, hholds, -, rfl, rfl⟩ := h
  have htaken : taken ≠ [] := by
    rintro rfl
    match extent with
    | .within false => exact hextent rfl
    | .within true => exact hholds.2 rfl rfl
    | .through =>
      obtain ⟨us, semi, heq, -⟩ := s.simple.ends
      obtain rfl : left = [] := hholds
      rw [heq] at hts
      simp at hts
    | .never => exact hholds.elim
  obtain ⟨t, taken, rfl⟩ := List.exists_cons_of_ne_nil htaken
  rw [Neighbours.cursor_lastStop, Neighbours.cursor_lastStop]

theorem At.record (h : s.At extent c c') (ht : t ∈ s.tokens) (hlight : (fault.report t).IsLight) :
    s.At extent (c.record fault t) (c'.record fault t) := by
  obtain ⟨taken, left, faults, hts, hholds, hfaults, rfl, rfl⟩ := h
  exact ⟨taken, left, _, hts, hholds,
    List.forall_mem_cons.mpr ⟨⟨⟨t, ht, rfl⟩, hlight⟩, hfaults⟩,
    Neighbours.cursor_record fault t, Neighbours.cursor_record fault t⟩

theorem At.giveUp (h : s.At (.within begun) c c') (ht : t ∈ s.tokens)
    (hheavy : ¬ (fault.report t).IsLight) : s.GivenUp (c.record fault t) (c'.record fault t) := by
  obtain ⟨taken, left, faults, hts, ⟨hleft, -⟩, hfaults, rfl, rfl⟩ := h
  exact ⟨taken, left, _, hts, hleft,
    List.forall_mem_cons.mpr ⟨⟨t, ht, rfl⟩, fun d hd => (hfaults d hd).1⟩,
    ⟨_, List.mem_cons_self, hheavy⟩,
    Neighbours.cursor_record fault t, Neighbours.cursor_record fault t⟩

end TwoPlaces

/-- Two attempts that end alike, or one of which lacks fuel. -/
def Parsed.Alike {α : Type} (s : TwoPlaces) (extent : Extent) : Parsed α → Parsed α → Prop
  | .ok a c, .ok a' c' => a' = a ∧ s.At extent c c'
  | .failed c, .failed c' => s.GivenUp c c'
  | .starved, _ | _, .starved => True
  | _, _ => False

theorem Parsed.alike_starved {α : Type} {s : TwoPlaces} {extent : Extent} (r : Parsed α) :
    r.Alike s extent .starved := by
  cases r <;> trivial

namespace Parser

variable {α β : Type} {s : TwoPlaces} {begun : Bool} {before after later : Extent} {t : Token}

/-- Two readers that end alike wherever they begin at the same place. -/
def Alike (s : TwoPlaces) (before after : Extent) (p p' : Parser α) : Prop :=
  ∀ c c', s.At before c c' → (p c).Alike s after (p' c')

/-- Two readers that do so where they see a token. -/
def AlikeAt (s : TwoPlaces) (t : Token) (before after : Extent) (p p' : Parser α) : Prop :=
  ∀ c c', s.At before c c' → c.current = t → (p c).Alike s after (p' c')

theorem Alike.at {p p' : Parser α} (hp : Alike s before after p p') (t : Token) :
    AlikeAt s t before after p p' :=
  fun c c' hc _ => hp c c' hc

theorem Alike.mono {p p' : Parser α} (hp : Alike s (.within begun) after p p') :
    Alike s (.within true) after p p' :=
  fun c c' hc => hp c c' hc.mono

theorem alike_never {p p' : Parser α} : Alike s .never after p p' := by
  rintro c c' ⟨taken, left, faults, -, hnever, -⟩
  exact hnever.elim

theorem alike_starve_left {p : Parser α} : Alike s before after starve p := fun _ _ _ => trivial

theorem alike_starve_right {p : Parser α} : Alike s before after p starve :=
  fun _ _ _ => Parsed.alike_starved _

theorem alike_pure (a : α) : Alike s before before (pure a) (pure a) := fun _ _ hc => ⟨rfl, hc⟩

/-- What is read after two attempts that end alike. -/
theorem alike_bind {p p' : Parser α} {k k' : α → Parser β} {c c' : Cursor}
    (hp : (p c).Alike s after (p' c')) (hk : ∀ a, Alike s after later (k a) (k' a)) :
    ((p >>= k) c).Alike s later ((p' >>= k') c') := by
  change (Parser.bind p k c).Alike s later (Parser.bind p' k' c')
  unfold Parser.bind
  generalize p c = r at hp
  generalize p' c' = r' at hp
  cases r with
  | starved => trivial
  | failed c =>
    cases r' with
    | starved => trivial
    | failed c' => exact hp
    | ok => exact hp.elim
  | ok a c =>
    cases r' with
    | failed => exact hp.elim
    | ok a' c' =>
      obtain ⟨rfl, hc⟩ := hp
      exact hk a' c c' hc
    | starved => exact Parsed.alike_starved _

theorem Alike.bind {p p' : Parser α} {k k' : α → Parser β} (hp : Alike s before after p p')
    (hk : ∀ a, Alike s after later (k a) (k' a)) :
    Alike s before later (p >>= k) (p' >>= k') :=
  fun c c' hc => alike_bind (hp c c' hc) hk

theorem alike_fail {fault : SyntaxFault} (ht : t ∈ s.tokens)
    (hheavy : ¬ (fault.report t).IsLight) :
    Alike s (.within begun) after (fail fault t : Parser α) (fail fault t) :=
  fun _ _ hc => hc.giveUp ht hheavy

theorem alike_record {fault : SyntaxFault} (ht : t ∈ s.tokens)
    (hlight : (fault.report t).IsLight) :
    Alike s before before (record fault t) (record fault t) :=
  fun _ _ hc => ⟨rfl, hc.record ht hlight⟩

/-- What is done with the next token. -/
theorem alike_peek {k k' : Token → Parser α}
    (hk : ∀ t ∈ s.tokens, AlikeAt s t (.within begun) after (k t) (k' t)) :
    Alike s (.within begun) after (peek >>= k) (peek >>= k') := by
  intro c c' hc
  obtain ⟨hmem, heq⟩ := hc.current
  change (k c.current c).Alike s after (k' c'.current c')
  rw [heq]
  exact hk _ hmem c c' hc rfl

theorem alike_advance {k k' : Token → Parser α} (ht : t.kind ≠ .semicolon)
    (hk : Alike s (.within true) after (k t) (k' t)) :
    AlikeAt s t (.within begun) after (advance >>= k) (advance >>= k') := by
  rintro c c' hc rfl
  change (k c.current c.advance).Alike s after (k' c'.current c'.advance)
  have hnext := hc.advance
  rw [if_neg ht] at hnext
  rw [hc.current.2]
  exact hk _ _ hnext

theorem sees_alike {c c' : Cursor} (hc : s.At (.within begun) c c') (kind : Kind) :
    c'.sees kind = c.sees kind := by
  unfold Cursor.sees
  rw [hc.current.2]

theorem alike_sees (kind : Kind) :
    Alike s (.within begun) (.within begun) (sees kind) (sees kind) :=
  fun _ _ hc => ⟨sees_alike hc kind, hc⟩

/-- A token that both see may be taken. -/
theorem alike_sees_bind {kind : Kind} {k k' : Bool → Parser α}
    (htrue : ∀ t : Token, t.kind = kind → AlikeAt s t (.within begun) after (k true) (k' true))
    (hfalse : Alike s (.within begun) after (k false) (k' false)) :
    Alike s (.within begun) after (sees kind >>= k) (sees kind >>= k') := by
  intro c c' hc
  change (k (c.sees kind) c).Alike s after (k' (c'.sees kind) c')
  rw [sees_alike hc kind]
  cases hsees : c.sees kind with
  | true => exact htrue _ (of_decide_eq_true hsees) c c' hc rfl
  | false => exact hfalse c c' hc

theorem alike_accepts {kind : Kind} {k k' : Bool → Parser α} (hsemi : kind ≠ .semicolon)
    (htrue : Alike s (.within true) after (k true) (k' true))
    (hfalse : Alike s (.within begun) after (k false) (k' false)) :
    Alike s (.within begun) after (accepts kind >>= k) (accepts kind >>= k') := by
  intro c c' hc
  change (Parser.bind (accepts kind) k c).Alike s after (Parser.bind (accepts kind) k' c')
  unfold Parser.bind accepts
  rw [sees_alike hc kind]
  cases hsees : c.sees kind with
  | true =>
    have hnext := hc.advance
    rw [if_neg (of_decide_eq_true hsees ▸ hsemi)] at hnext
    exact htrue _ _ hnext
  | false => exact hfalse c c' hc

/-- Behind the statement there is no other choice. -/
theorem alike_accepts_else {k k' : Bool → Parser α}
    (hfalse : Alike s .through after (k false) (k' false)) :
    Alike s .through after (accepts .kwElse >>= k) (accepts .kwElse >>= k') := by
  intro c c' hc
  change (Parser.bind (accepts .kwElse) k c).Alike s after (Parser.bind (accepts .kwElse) k' c')
  unfold Parser.bind accepts
  rw [hc.not_else.1, hc.not_else.2]
  exact hfalse c c' hc

/-- Where a token must stand; the statement goes on behind it if it is no semicolon. -/
theorem alike_expect (kind : Kind) (what : Expected) : Alike s (.within begun)
    (if kind = .semicolon then .through else .within true) (expect kind what) (expect kind what) := by
  intro c c' hc
  unfold expect
  rw [sees_alike hc kind, hc.current.2]
  cases hsees : c.sees kind with
  | true =>
    have hnext := hc.advance
    rw [of_decide_eq_true hsees] at hnext
    exact ⟨rfl, hnext⟩
  | false => exact hc.giveUp hc.current.1 (SyntaxFault.missing_not_light what _)

/-- The statement ends here. -/
theorem alike_semicolon (what : Expected) {k k' : Token → Parser α}
    (hk : ∀ t, Alike s .through after (k t) (k' t)) :
    Alike s (.within begun) after (expect .semicolon what >>= k) (expect .semicolon what >>= k') :=
  (alike_expect .semicolon what).bind hk

/-- The statement goes on with a token. -/
theorem alike_token {kind : Kind} (what : Expected) {k k' : Token → Parser α}
    (hsemi : kind ≠ .semicolon) (hk : ∀ t, Alike s (.within true) after (k t) (k' t)) :
    Alike s (.within begun) after (expect kind what >>= k) (expect kind what >>= k') := by
  have hexpect : Alike s (.within begun)
      (if kind = .semicolon then .through else .within true) (expect kind what) (expect kind what) :=
    alike_expect kind what
  rw [if_neg hsemi] at hexpect
  exact hexpect.bind hk

/-- Reading never gets behind a brace. -/
theorem alike_leftBrace (what : Expected) :
    Alike s (.within begun) .never (expect .leftBrace what) (expect .leftBrace what) := by
  intro c c' hc
  have hnone : c.sees .leftBrace = false := decide_eq_false (s.simple.plain _ hc.current.1).1
  unfold expect
  rw [sees_alike hc, hnone, hc.current.2]
  exact hc.giveUp hc.current.1 (SyntaxFault.missing_not_light what _)

theorem alike_lastStop {k k' : Position → Parser α} (hbefore : before ≠ .within false)
    (hk : ∀ q, Alike s before after (k q) (k' q)) :
    Alike s before after (lastStop >>= k) (lastStop >>= k') := by
  intro c c' hc
  change (k c.lastStop c).Alike s after (k' c'.lastStop c')
  rw [hc.lastStop hbefore]
  exact hk _ c c' hc

/-! ## Readers -/

/-- The readers that a simple statement gets to, with any fuel on both sides. -/
structure ReadersAlike (s : TwoPlaces) (n n' : Nat) : Prop where
  expression : Alike s (.within false) (.within true) (expression n) (expression n')
  commas : ∀ left, Alike s (.within true) (.within true) (commas n left) (commas n' left)
  assignment : Alike s (.within false) (.within true) (assignment n) (assignment n')
  ternary : Alike s (.within false) (.within true) (ternary n) (ternary n')
  binary : ∀ power, Alike s (.within false) (.within true) (binary n power) (binary n' power)
  operators : ∀ power left,
    Alike s (.within true) (.within true) (operators n power left) (operators n' power left)
  unary : Alike s (.within false) (.within true) (unary n) (unary n')
  trailing : Alike s (.within false) (.within true) (trailing n) (trailing n')
  call : Alike s (.within false) (.within true) (call n) (call n')
  callRest : ∀ callee,
    Alike s (.within true) (.within true) (callRest n callee) (callRest n' callee)
  arguments : ∀ count,
    Alike s (.within false) (.within true) (arguments n count) (arguments n' count)
  primary : Alike s (.within false) (.within true) (primary n) (primary n')
  statement : Alike s (.within false) .through (statement n) (statement n')
  expressionStatement :
    Alike s (.within false) .through (expressionStatement n) (expressionStatement n')
  ifStatement : ∀ t : Token, t.kind = .kwIf →
    AlikeAt s t (.within false) .through (ifStatement n) (ifStatement n')
  whileStatement : ∀ t : Token, t.kind = .kwWhile →
    AlikeAt s t (.within false) .through (whileStatement n) (whileStatement n')
  varDeclarations : ∀ t : Token, t.kind = .kwVar →
    AlikeAt s t (.within false) .through (varDeclarations n) (varDeclarations n')
  furtherVariables :
    Alike s (.within true) (.within true) (furtherVariables n) (furtherVariables n')
  classDeclaration : ∀ t : Token, t.kind = .kwClass →
    AlikeAt s t (.within false) .never (classDeclaration n) (classDeclaration n')
  functionDeclaration : ∀ t : Token, t.kind = .kwFun →
    AlikeAt s t (.within false) .never (functionDeclaration n) (functionDeclaration n')
  block : Alike s (.within true) .never (block n) (block n')

/-- Parameters are all before the semicolon. -/
theorem alike_parameterNames (n n' count : Nat) :
    Alike s (.within true) (.within true) (parameterNames n count) (parameterNames n' count) := by
  induction n generalizing n' count with
  | zero => exact alike_starve_left
  | succ n ih =>
    cases n' with
    | zero => exact alike_starve_right
    | succ n' =>
      unfold parameterNames
      extract_lets rest rest'
      have hrest : ∀ u, Alike s (.within true) (.within true) (rest u) (rest' u) := by
        intro u
        refine alike_token _ (by decide) fun name => ?_
        refine alike_accepts (by decide) ?_ (alike_pure _)
        exact (ih n' (count + 1)).bind fun names => alike_pure _
      split
      · refine alike_peek fun t ht => Alike.at ?_ t
        exact (alike_record ht (.inr rfl)).bind hrest
      · exact hrest ()

theorem alike_parameters (n n' : Nat) :
    Alike s (.within begun) (.within true) (parameters n) (parameters n') := by
  unfold parameters
  refine alike_token _ (by decide) fun _ => ?_
  extract_lets rest
  have hrest : ∀ names, Alike s (.within true) (.within true) (rest names) (rest names) :=
    fun names => alike_token _ (by decide) fun _ => alike_pure _
  refine (alike_sees .rightParen).bind fun closes => ?_
  split
  · exact hrest []
  · exact (alike_parameterNames n n' 0).bind hrest

namespace ReadersAlike

variable {n n' : Nat}

theorem zero_left (s : TwoPlaces) (n' : Nat) : ReadersAlike s 0 n' := by
  constructor <;> intros <;> first | exact alike_starve_left | exact alike_starve_left.at _

theorem zero_right (s : TwoPlaces) (n : Nat) : ReadersAlike s n 0 := by
  constructor <;> intros <;> first | exact alike_starve_right | exact alike_starve_right.at _

theorem commasStep (hr : ReadersAlike s n n') (left : Expr Unit) :
    Alike s (.within true) (.within true) (Parser.commas (n + 1) left)
      (Parser.commas (n' + 1) left) := by
  rw [Parser.commas, Parser.commas]
  refine alike_sees_bind (fun t ht => ?_) (alike_pure left)
  exact alike_advance (by rw [ht]; decide) (hr.assignment.mono.bind fun right => hr.commas _)

theorem assignmentStep (hr : ReadersAlike s n n') :
    Alike s (.within false) (.within true) (Parser.assignment (n + 1))
      (Parser.assignment (n' + 1)) := by
  rw [Parser.assignment, Parser.assignment]
  refine hr.ternary.bind fun target => alike_peek fun t ht => ?_
  split
  · next hop =>
    have hsemi : t.kind ≠ .semicolon := by
      intro hk
      rw [hk] at hop
      cases hop
    refine alike_advance hsemi (hr.assignment.mono.bind fun value => ?_)
    cases assignment? target t value with
    | some expr => exact alike_pure expr
    | none => exact (alike_record ht (.inl rfl)).bind fun _ => alike_pure target
  · exact (alike_pure target).at t

theorem ternaryStep (hr : ReadersAlike s n n') :
    Alike s (.within false) (.within true) (Parser.ternary (n + 1)) (Parser.ternary (n' + 1)) := by
  rw [Parser.ternary, Parser.ternary]
  refine (hr.binary 0).bind fun condition => ?_
  refine alike_accepts (by decide) ?_ (alike_pure condition)
  refine hr.expression.mono.bind fun onTrue => alike_token _ (by decide) fun _ => ?_
  exact hr.ternary.mono.bind fun onFalse => alike_pure _

theorem operatorsStep (hr : ReadersAlike s n n') (power : Nat) (left : Expr Unit) :
    Alike s (.within true) (.within true) (Parser.operators (n + 1) power left)
      (Parser.operators (n' + 1) power left) := by
  rw [Parser.operators, Parser.operators]
  refine alike_peek fun t ht => ?_
  dsimp only
  split
  · exact (alike_pure left).at t
  · next hpower =>
    have hsemi : t.kind ≠ .semicolon := by
      intro hk
      rw [hk] at hpower
      exact hpower (Nat.zero_le power)
    exact alike_advance hsemi ((hr.binary _).mono.bind fun right => hr.operators power _)

theorem unaryStep (hr : ReadersAlike s n n') :
    Alike s (.within false) (.within true) (Parser.unary (n + 1)) (Parser.unary (n' + 1)) := by
  rw [Parser.unary, Parser.unary]
  refine alike_peek fun t ht => ?_
  have hprefix : t.kind ≠ .semicolon → AlikeAt s t (.within false) (.within true)
      (do
        let op ← advance
        let operand ← Parser.unary n
        return Expr.unary ⟨op.span.start, operand.span.stop⟩ op operand false)
      (do
        let op ← advance
        let operand ← Parser.unary n'
        return Expr.unary ⟨op.span.start, operand.span.stop⟩ op operand false) :=
    fun hsemi => alike_advance hsemi (hr.unary.mono.bind fun operand => alike_pure _)
  split
  case h_5 => exact hr.trailing.at t
  all_goals
    next hk => exact hprefix (by rw [hk]; decide)

theorem trailingStep (hr : ReadersAlike s n n') :
    Alike s (.within false) (.within true) (Parser.trailing (n + 1))
      (Parser.trailing (n' + 1)) := by
  rw [Parser.trailing, Parser.trailing]
  refine hr.call.bind fun operand => alike_peek fun t ht => ?_
  split
  · next hop =>
    have hsemi : t.kind ≠ .semicolon := by
      intro hk
      rw [hk] at hop
      cases hop
    exact alike_advance hsemi (alike_pure _)
  · exact (alike_pure operand).at t

theorem callRestStep (hr : ReadersAlike s n n') (callee : Expr Unit) :
    Alike s (.within true) (.within true) (Parser.callRest (n + 1) callee)
      (Parser.callRest (n' + 1) callee) := by
  rw [Parser.callRest, Parser.callRest]
  refine alike_accepts (by decide) ?_ (alike_accepts (by decide) ?_ (alike_pure callee))
  · extract_lets rest rest'
    have hrest : ∀ args, Alike s (.within true) (.within true) (rest args) (rest' args) :=
      fun args => alike_token _ (by decide) fun paren => hr.callRest _
    refine (alike_sees .rightParen).bind fun closes => ?_
    split
    · exact hrest []
    · exact (hr.arguments 0).mono.bind hrest
  · exact alike_token _ (by decide) fun name => hr.callRest _

theorem argumentsStep (hr : ReadersAlike s n n') (count : Nat) :
    Alike s (.within false) (.within true) (Parser.arguments (n + 1) count)
      (Parser.arguments (n' + 1) count) := by
  unfold Parser.arguments
  extract_lets rest rest'
  have hrest : ∀ u, Alike s (.within false) (.within true) (rest u) (rest' u) := by
    intro u
    refine hr.assignment.bind fun arg => alike_accepts (by decide) ?_ (alike_pure _)
    exact (hr.arguments (count + 1)).mono.bind fun args => alike_pure _
  split
  · exact alike_peek fun t ht => ((alike_record ht (.inr rfl)).bind hrest).at t
  · exact hrest ()

theorem primaryStep (hr : ReadersAlike s n n') :
    Alike s (.within false) (.within true) (Parser.primary (n + 1)) (Parser.primary (n' + 1)) := by
  rw [Parser.primary, Parser.primary]
  refine alike_peek fun t ht => ?_
  have hconstant (e : Expr Unit) (hsemi : t.kind ≠ .semicolon) :
      AlikeAt s t (.within false) (.within true) (advance >>= fun _ => pure e)
        (advance >>= fun _ => pure e) :=
    alike_advance hsemi (alike_pure e)
  split
  · next hk => exact hconstant _ (by rw [hk]; decide)
  · next hk => exact hconstant _ (by rw [hk]; decide)
  · next hk => exact hconstant _ (by rw [hk]; decide)
  · next hk => exact hconstant _ (by rw [hk]; decide)
  · next hk => exact hconstant _ (by rw [hk]; decide)
  · next hk => exact hconstant _ (by rw [hk]; decide)
  · next hk => exact hconstant _ (by rw [hk]; decide)
  · next hk =>
    refine alike_advance (by rw [hk]; decide) (alike_token _ (by decide) fun _ => ?_)
    exact alike_token _ (by decide) fun method => alike_pure _
  · next hk =>
    refine alike_advance (by rw [hk]; decide) (hr.expression.mono.bind fun inner => ?_)
    exact alike_token _ (by decide) fun close => alike_pure _
  · next hk =>
    refine alike_advance (by rw [hk]; decide) ((alike_parameters n n').bind fun params => ?_)
    exact hr.block.bind fun body => alike_never
  · exact (alike_fail ht (noOperand_not_light _ t)).at t

theorem statementStep (hr : ReadersAlike s n n') :
    Alike s (.within false) .through (Parser.statement (n + 1)) (Parser.statement (n' + 1)) := by
  unfold Parser.statement
  refine alike_peek fun t ht => ?_
  have hend (keyword : Token) (value : Option (Expr Unit)) (what : Expected) :
      Alike s (.within true) .through
        (do
          let _ ← expect .semicolon what
          return Stmt.leave ⟨keyword.span.start, ← lastStop⟩ keyword value)
        (do
          let _ ← expect .semicolon what
          return Stmt.leave ⟨keyword.span.start, ← lastStop⟩ keyword value) :=
    alike_semicolon _ fun _ => alike_lastStop Extent.through_ne fun _ => alike_pure _
  split
  · next hk => exact absurd hk (s.simple.kind_ne_loop ht).1
  · next hk => exact hr.ifStatement t hk
  · next hk =>
    refine alike_advance (by rw [hk]; decide) (hr.expression.mono.bind fun value => ?_)
    exact alike_semicolon _ fun _ => alike_lastStop Extent.through_ne fun _ => alike_pure _
  · next hk =>
    refine alike_advance (by rw [hk]; decide) ((alike_sees .semicolon).bind fun ends => ?_)
    split
    · exact hend t none _
    · exact hr.expression.mono.bind fun value => hend t (some value) _
  · next hk => exact absurd hk (s.simple.kind_ne_loop ht).2
  · next hk => exact hr.whileStatement t hk
  · next hk =>
    refine alike_advance (by rw [hk]; decide) (alike_semicolon _ fun _ => ?_)
    exact alike_lastStop Extent.through_ne fun _ => alike_pure _
  · next hk =>
    refine alike_advance (by rw [hk]; decide) (alike_semicolon _ fun _ => ?_)
    exact alike_lastStop Extent.through_ne fun _ => alike_pure _
  · next hk => exact absurd hk (s.simple.plain t ht).1
  · exact hr.expressionStatement.at t

theorem expressionStatementStep (hr : ReadersAlike s n n') :
    Alike s (.within false) .through (Parser.expressionStatement (n + 1))
      (Parser.expressionStatement (n' + 1)) := by
  rw [Parser.expressionStatement, Parser.expressionStatement]
  refine hr.expression.bind fun expr => alike_semicolon _ fun _ => ?_
  exact alike_lastStop Extent.through_ne fun _ => alike_pure _

theorem ifStatementStep (hr : ReadersAlike s n n') (ht : t.kind = .kwIf) :
    AlikeAt s t (.within false) .through (Parser.ifStatement (n + 1))
      (Parser.ifStatement (n' + 1)) := by
  unfold Parser.ifStatement
  refine alike_advance (by rw [ht]; decide) (alike_token _ (by decide) fun _ => ?_)
  refine hr.expression.mono.bind fun condition => alike_token _ (by decide) fun _ => ?_
  refine hr.statement.mono.bind fun onTrue => ?_
  extract_lets rest
  have hrest : Alike s .through .through (rest none) (rest none) :=
    alike_lastStop Extent.through_ne fun _ => alike_pure _
  exact alike_accepts_else hrest

theorem whileStatementStep (hr : ReadersAlike s n n') (ht : t.kind = .kwWhile) :
    AlikeAt s t (.within false) .through (Parser.whileStatement (n + 1))
      (Parser.whileStatement (n' + 1)) := by
  rw [Parser.whileStatement, Parser.whileStatement]
  refine alike_advance (by rw [ht]; decide) (alike_token _ (by decide) fun _ => ?_)
  refine hr.expression.mono.bind fun condition => alike_token _ (by decide) fun _ => ?_
  refine hr.statement.mono.bind fun body => ?_
  exact alike_lastStop Extent.through_ne fun _ => alike_pure _

theorem varDeclarationsStep (hr : ReadersAlike s n n') (ht : t.kind = .kwVar) :
    AlikeAt s t (.within false) .through (Parser.varDeclarations (n + 1))
      (Parser.varDeclarations (n' + 1)) := by
  unfold Parser.varDeclarations
  refine alike_advance (by rw [ht]; decide) (alike_token _ (by decide) fun name => ?_)
  extract_lets rest rest'
  have hrest : ∀ init, Alike s (.within true) .through (rest init) (rest' init) := by
    intro init
    refine alike_lastStop Extent.begun_ne fun _ => hr.furtherVariables.bind fun more => ?_
    exact alike_semicolon _ fun _ => alike_pure _
  refine alike_accepts (by decide) ?_ (hrest none)
  exact hr.assignment.mono.bind fun value => hrest (some value)

theorem furtherVariablesStep (hr : ReadersAlike s n n') :
    Alike s (.within true) (.within true) (Parser.furtherVariables (n + 1))
      (Parser.furtherVariables (n' + 1)) := by
  rw [Parser.furtherVariables, Parser.furtherVariables]
  refine alike_accepts (by decide) ?_ (alike_pure [])
  refine alike_token _ (by decide) fun name => alike_token _ (by decide) fun _ => ?_
  refine hr.assignment.mono.bind fun init => alike_lastStop Extent.begun_ne fun _ => ?_
  exact hr.furtherVariables.bind fun rest => alike_pure _

theorem classDeclarationStep (ht : t.kind = .kwClass) :
    AlikeAt s t (.within false) .never (Parser.classDeclaration (n + 1))
      (Parser.classDeclaration (n' + 1)) := by
  unfold Parser.classDeclaration
  refine alike_advance (by rw [ht]; decide) (alike_token _ (by decide) fun name => ?_)
  extract_lets rest rest'
  have hrest : ∀ superclass, Alike s (.within true) .never (rest superclass) (rest' superclass) :=
    fun superclass => (alike_leftBrace _).bind fun _ => alike_never
  refine alike_accepts (by decide) ?_ (hrest none)
  exact alike_token _ (by decide) fun token => hrest _

theorem functionDeclarationStep (hr : ReadersAlike s n n') (ht : t.kind = .kwFun) :
    AlikeAt s t (.within false) .never (Parser.functionDeclaration (n + 1))
      (Parser.functionDeclaration (n' + 1)) := by
  rw [Parser.functionDeclaration, Parser.functionDeclaration]
  refine alike_advance (by rw [ht]; decide) (alike_token _ (by decide) fun name => ?_)
  exact (alike_parameters n n').bind fun params => hr.block.bind fun body => alike_never

theorem blockStep : Alike s (.within true) .never (Parser.block (n + 1)) (Parser.block (n' + 1)) := by
  rw [Parser.block, Parser.block]
  exact (alike_leftBrace _).bind fun _ => alike_never

theorem succ (hr : ReadersAlike s n n') : ReadersAlike s (n + 1) (n' + 1) where
  expression := by
    rw [Parser.expression, Parser.expression]
    exact hr.assignment.bind hr.commas
  commas := hr.commasStep
  assignment := hr.assignmentStep
  ternary := hr.ternaryStep
  binary power := by
    rw [Parser.binary, Parser.binary]
    exact hr.unary.bind (hr.operators power)
  operators := hr.operatorsStep
  unary := hr.unaryStep
  trailing := hr.trailingStep
  call := by
    rw [Parser.call, Parser.call]
    exact hr.primary.bind hr.callRest
  callRest := hr.callRestStep
  arguments := hr.argumentsStep
  primary := hr.primaryStep
  statement := hr.statementStep
  expressionStatement := hr.expressionStatementStep
  ifStatement _ := hr.ifStatementStep
  whileStatement _ := hr.whileStatementStep
  varDeclarations _ := hr.varDeclarationsStep
  furtherVariables := hr.furtherVariablesStep
  classDeclaration _ := classDeclarationStep
  functionDeclaration _ := hr.functionDeclarationStep
  block := blockStep

end ReadersAlike

theorem readersAlike (s : TwoPlaces) (n n' : Nat) : ReadersAlike s n n' := by
  induction n generalizing n' with
  | zero => exact .zero_left s n'
  | succ n ih =>
    cases n' with
    | zero => exact .zero_right s _
    | succ n' => exact (ih n').succ

/-! ## The whole statement -/

/-- Reading a simple statement, without recovery. -/
theorem alike_declaration (s : TwoPlaces) (n n' : Nat) :
    Alike s (.within false) .through
      (fun c =>
        if c.sees .kwClass then (do return [← classDeclaration n]) c
        else if c.sees .kwFun && c.nextKind = .identifier then
          (do return [← functionDeclaration n]) c
        else if c.sees .kwVar then varDeclarations n c
        else (do return [← statement n]) c)
      (fun c =>
        if c.sees .kwClass then (do return [← classDeclaration n']) c
        else if c.sees .kwFun && c.nextKind = .identifier then
          (do return [← functionDeclaration n']) c
        else if c.sees .kwVar then varDeclarations n' c
        else (do return [← statement n']) c) := by
  intro c c' hc
  have hr := readersAlike s n n'
  have hnext : (c'.sees .kwFun && c'.nextKind = .identifier) =
      (c.sees .kwFun && c.nextKind = .identifier) := by
    rw [sees_alike hc]
    cases hfun : c.sees .kwFun with
    | false => rfl
    | true => rw [hc.nextKind (of_decide_eq_true hfun)]
  dsimp only
  rw [hnext, sees_alike hc, sees_alike hc]
  split
  · next hclass =>
    exact alike_bind (hr.classDeclaration _ (of_decide_eq_true hclass) c c' hc rfl)
      fun _ => alike_never
  · split
    · next hfun =>
      have hkind : c.current.kind = .kwFun := of_decide_eq_true (Bool.and_eq_true_iff.mp hfun).1
      exact alike_bind (hr.functionDeclaration _ hkind c c' hc rfl) fun _ => alike_never
    · split
      · next hvar => exact hr.varDeclarations _ (of_decide_eq_true hvar) c c' hc rfl
      · exact alike_bind (hr.statement c c' hc) fun stmt => alike_pure [stmt]

/-- An attempt with recovery gets behind a simple statement, with the same faults in both places; if
one of them gave the statement up, nothing is read. -/
theorem recovering_ends {p p' : Parser (List α)} (h : Alike s (.within false) .through p p') :
    recovering p (s.here.cursor [] s.tokens []) = .starved ∨
      recovering p' (s.there.cursor [] s.tokens []) = .starved ∨
      ∃ as faults, (∀ d ∈ faults, s.Within d) ∧ ((∃ d ∈ faults, ¬ d.IsLight) → as = []) ∧
        recovering p (s.here.cursor [] s.tokens []) = .ok as (s.here.cursor s.tokens [] faults) ∧
        recovering p' (s.there.cursor [] s.tokens []) =
          .ok as (s.there.cursor s.tokens [] faults) := by
  have hne : s.tokens ≠ [] := by
    obtain ⟨us, semi, heq, -⟩ := s.simple.ends
    rw [heq]
    exact List.append_ne_nil_of_right_ne_nil us (List.cons_ne_nil _ _)
  have hread := h _ _ ⟨[], s.tokens, [], rfl, ⟨hne, nofun⟩, List.forall_mem_nil _, rfl, rfl⟩
  unfold recovering
  generalize p (s.here.cursor [] s.tokens []) = r at hread ⊢
  generalize p' (s.there.cursor [] s.tokens []) = r' at hread ⊢
  cases r with
  | starved => exact .inl rfl
  | ok as c =>
    cases r' with
    | starved => exact .inr (.inl rfl)
    | failed => exact hread.elim
    | ok as' c' =>
      obtain ⟨rfl, taken, left, faults, hts, hleft, hfaults, rfl, rfl⟩ := hread
      obtain rfl : left = [] := hleft
      obtain rfl : s.tokens = taken := hts.trans (List.append_nil taken)
      have hlight : (∃ d ∈ faults, ¬ d.IsLight) → as' = [] := by
        rintro ⟨d, hd, hheavy⟩
        exact absurd (hfaults d hd).2 hheavy
      exact .inr (.inr ⟨as', faults, fun d hd => (hfaults d hd).1, hlight, rfl, rfl⟩)
  | failed c =>
    cases r' with
    | starved => exact .inr (.inl rfl)
    | ok => exact hread.elim
    | failed c' =>
      obtain ⟨taken, left, faults, hts, hleft, hfaults, -, rfl, rfl⟩ := hread
      obtain ⟨t, left, rfl⟩ := List.exists_cons_of_ne_nil hleft
      have hsimple := s.simple
      rw [hts] at hsimple
      dsimp only
      rw [Neighbours.cursor_synchronize hsimple, Neighbours.cursor_synchronize hsimple, hts]
      exact .inr (.inr ⟨[], faults, hfaults, fun _ => rfl, rfl, rfl⟩)

theorem declaration_ends (s : TwoPlaces) (n n' : Nat) :
    declaration n (s.here.cursor [] s.tokens []) = .starved ∨
      declaration n' (s.there.cursor [] s.tokens []) = .starved ∨
      ∃ stmts faults, (∀ d ∈ faults, s.Within d) ∧ ((∃ d ∈ faults, ¬ d.IsLight) → stmts = []) ∧
        declaration n (s.here.cursor [] s.tokens []) =
          .ok stmts (s.here.cursor s.tokens [] faults) ∧
        declaration n' (s.there.cursor [] s.tokens []) =
          .ok stmts (s.there.cursor s.tokens [] faults) := by
  cases n with
  | zero => exact .inl rfl
  | succ n =>
    cases n' with
    | zero => exact .inr (.inl rfl)
    | succ n' => exact recovering_ends (alike_declaration s n n')

end Parser

/-- Before the end of the input there is fuel enough to read a declaration. -/
theorem Parser.declaration_ne_starved {c : Cursor} (hc : c.Ended)
    (hmore : c.current.kind ≠ .endOfInput) :
    declaration (16 * c.tokens.length + 11) c ≠ .starved := by
  intro hstarved
  have hsound := (readsPhrases (16 * c.tokens.length + 11)).declaration c.tokens.length
    (Nat.le_refl _) c hc (Nat.le_refl _) hmore
  rw [hstarved] at hsound
  exact hsound

namespace IsSimple

variable {ts : List Token}

/-- A simple statement does not begin with the end of the input, or like a choice that goes on. -/
theorem begins (h : IsSimple ts) :
    ∃ t us, ts = t :: us ∧ t.kind ≠ .endOfInput ∧ t.kind ≠ .kwElse := by
  cases ts with
  | nil =>
    obtain ⟨us, semi, heq, -⟩ := h.ends
    simp at heq
  | cons t us =>
    exact ⟨t, us, rfl, (h.plain t List.mem_cons_self).2.2, (h.first t rfl).1⟩

/-- Wherever a simple statement stands, with fuel enough the same is read of it, with the same
faults at its tokens, and reading goes on behind it. -/
theorem reads (h : IsSimple ts) : ∃ stmts faults,
    (∀ d ∈ faults, ∃ t ∈ ts, d.span = t.span) ∧ ((∃ d ∈ faults, ¬ d.IsLight) → stmts = []) ∧
    ∀ fuel previous before rest, Parser.Follows Parser.notElse rest →
      (Parser.declaration fuel (.place previous before (ts ++ rest))).Becomes
        (.ok stmts (.place (Cursor.last previous ts) (faults ++ before) rest)) := by
  -- what is read of the statement alone, with enough fuel
  obtain ⟨fuel, hfuel⟩ : ∃ fuel,
      Parser.declaration fuel (.place none [] (ts ++ [.missingEnd])) ≠ .starved := by
    obtain ⟨t, us, rfl, hmore, -⟩ := h.begins
    exact ⟨_, Parser.declaration_ne_starved ⟨t :: us, .missingEnd, rfl, rfl⟩ hmore⟩
  let alone : Neighbours := ⟨none, [], [.missingEnd], rfl⟩
  have hboth (n : Neighbours) (fuel' : Nat) :=
    (Parser.declaration_ends ⟨ts, h, alone, n⟩ fuel fuel').resolve_left hfuel
  obtain ⟨stmts, faults, hwithin, hlight, halone, -⟩ := (hboth alone fuel).resolve_left hfuel
  refine ⟨stmts, faults, hwithin, hlight, fun fuel' previous before rest hrest => ?_⟩
  rcases hboth ⟨previous, before, rest, hrest⟩ fuel' with
    hstarved | ⟨stmts', faults', -, -, hsame, hread⟩
  · exact .inl hstarved
  · obtain ⟨rfl, hcursor⟩ := Parsed.ok.inj (halone.symm.trans hsame)
    have hfaults := congrArg Cursor.faults hcursor
    rw [Neighbours.cursor_faults, Neighbours.cursor_faults] at hfaults
    obtain rfl : faults = faults' := List.append_cancel_right hfaults
    exact .inr hread

end IsSimple

end Scriptlet

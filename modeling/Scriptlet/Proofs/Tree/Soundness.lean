import Scriptlet.Proofs.Tree.Grammar
import Scriptlet.Proofs.Tree.Reading

/-!
# What is read without a fault is a program

Every function of the reader is given the row of phrases that it reads, and a triple `Parser.Reads`
says so: the reader has fuel enough for the tokens that are left, it never goes back, it fails only
with a fault, and what it took without one derives from the row. The rules for the parts of a reader
follow the rules of `Derives`, so that the proof about a function reads like its production.

`Parser.readsPhrases` collects the triples of all functions at some fuel. A function may call
another one at the same token, but fewer than sixteen deep; the ranks in `Parser.ReadsPhrases` count
how deep.
-/

namespace Scriptlet

namespace Derives

variable {p : Phrase} {row : List Phrase} {ts us : List Token}

theorem eq_nil (h : Derives [] ts) : ts = [] := by
  cases h
  rfl

/-- The tokens of the first phrase of a row and the tokens of the others. -/
theorem split (h : Derives (p :: row) ts) :
    ∃ us vs, ts = us ++ vs ∧ Derives [p] us ∧ Derives row vs := by
  cases h with
  | @token k t _ vs hk hrow => exact ⟨[t], vs, rfl, .token hk .nil, hrow⟩
  | phrase hp hbody hrow => exact ⟨_, _, rfl, of_production hp hbody, hrow⟩

theorem split_append {row' : List Phrase} (h : Derives (row ++ row') ts) :
    ∃ us vs, ts = us ++ vs ∧ Derives row us ∧ Derives row' vs := by
  induction row generalizing ts with
  | nil => exact ⟨[], ts, rfl, .nil, h⟩
  | cons p row ih =>
    obtain ⟨us, rest, rfl, hp, hrest⟩ := split h
    obtain ⟨vs, ws, rfl, hrow, hrow'⟩ := ih hrest
    exact ⟨us ++ vs, ws, (List.append_assoc ..).symm, hp.cons hrow, hrow'⟩

/-- A row that may be left out is there. -/
theorem take_opt {row' : List Phrase} (h : Derives (row ++ row') ts) :
    Derives (.opt row :: row') ts := by
  obtain ⟨us, vs, rfl, hrow, hrow'⟩ := h.split_append
  exact .phrase .optSome hrow hrow'

theorem skip_opt {row' : List Phrase} (h : Derives row' ts) : Derives (.opt row :: row') ts :=
  .phrase .optNone .nil h

theorem production (h : Derives [p] ts) (hp : ∀ k, p ≠ .token k) :
    ∃ body, Production p body ∧ Derives body ts := by
  cases h with
  | token => exact absurd rfl (hp _)
  | phrase hprod hbody hrow =>
    rw [hrow.eq_nil, List.append_nil]
    exact ⟨_, hprod, hbody⟩

theorem many_append (h : Derives [.many row] ts) (h' : Derives [.many row] us) :
    Derives [.many row] (ts ++ us) := by
  -- The repetition ends every row of its own derivation, whatever stands before it there.
  have key : ∀ {phrases vs}, Derives phrases vs → ∀ before, phrases = before ++ [.many row] →
      Derives (before ++ [.many row]) (vs ++ us) := by
    intro phrases vs hvs
    induction hvs with
    | nil => intro before heq; simp at heq
    | token hk _ ih =>
      intro before heq
      cases before with
      | nil => cases heq
      | cons q before => cases heq; exact .token hk (ih before rfl)
    | phrase hp hbody hrest ihbody ihrest =>
      intro before heq
      cases before with
      | cons q before =>
        cases heq
        rw [List.append_assoc]
        exact .phrase hp hbody (ihrest before rfl)
      | nil =>
        cases heq
        rw [hrest.eq_nil, List.append_nil]
        cases hp with
        | manyNone => rw [hbody.eq_nil]; exact h'
        | manyMore => exact of_production .manyMore (ihbody row rfl)
  exact key h [] rfl

/-- A call goes on with one more suffix. -/
theorem call_append (h : Derives [.call] ts) (h' : Derives [.suffix] us) :
    Derives [.call] (ts ++ us) := by
  obtain ⟨_, ⟨⟩, hbody⟩ := h.production nofun
  obtain ⟨ps, ss, rfl, hprimary, hmany⟩ := hbody.split
  rw [List.append_assoc]
  refine of_production .call (hprimary.cons (many_append hmany ?_))
  rw [← List.append_nil us]
  exact many_cons h' many_none

end Derives

/-! ## Triples -/

namespace Cursor

/-- The tokens that are left. -/
def tokens (c : Cursor) : List Token := c.current :: c.following

/-- The last token is the end of input. -/
def Ended (c : Cursor) : Prop := ∃ ts t, c.tokens = ts ++ [t] ∧ t.kind = .endOfInput

/-- What lies between two places: the tokens that were taken, none of which is an end of input, and
the faults that were found. The token before the second place is the last one that was taken. -/
structure Reach (c c' : Cursor) (ts : List Token) (fs : List Diagnostic) : Prop where
  tokens : c.tokens = ts ++ c'.tokens
  inner : ∀ t ∈ ts, t.kind ≠ .endOfInput
  faults : c'.faults = fs ++ c.faults
  previous : c'.previous = ts.getLast?.or c.previous

namespace Reach

variable {c c' c'' : Cursor} {ts us : List Token} {fs gs : List Diagnostic}

theorem refl (c : Cursor) : c.Reach c [] [] := ⟨rfl, by simp, rfl, rfl⟩

theorem trans (h : c.Reach c' ts fs) (h' : c'.Reach c'' us gs) :
    c.Reach c'' (ts ++ us) (gs ++ fs) where
  tokens := by rw [h.tokens, h'.tokens, List.append_assoc]
  inner := List.forall_mem_append.mpr ⟨h.inner, h'.inner⟩
  faults := by rw [h'.faults, h.faults, List.append_assoc]
  previous := by rw [h'.previous, h.previous, List.getLast?_append, Option.or_assoc]

theorem length (h : c.Reach c' ts fs) : c'.tokens.length + ts.length = c.tokens.length := by
  rw [h.tokens, List.length_append, Nat.add_comm]

theorem ended (h : c.Reach c' ts fs) (hc : c.Ended) : c'.Ended := by
  obtain ⟨us, t, heq, ht⟩ := hc
  have hne : c'.tokens ≠ [] := List.cons_ne_nil _ _
  refine ⟨c'.tokens.dropLast, c'.tokens.getLast hne, (List.dropLast_concat_getLast hne).symm, ?_⟩
  have hlast : c.tokens.getLast? = some t := by simp [heq]
  rw [h.tokens, List.getLast?_append, List.getLast?_eq_some_getLast hne] at hlast
  rwa [Option.some.inj hlast]

theorem record (c : Cursor) (fault : SyntaxFault) (token : Token) :
    c.Reach (c.record fault token) [] [fault.report token] :=
  ⟨rfl, by simp, rfl, rfl⟩

/-- A token that is not the end of input is left behind. -/
theorem advance (hc : c.Ended) (h : c.current.kind ≠ .endOfInput) :
    c.Reach c.advance [c.current] [] := by
  obtain ⟨ts, t, heq, ht⟩ := hc
  unfold Cursor.advance
  rw [if_neg (by simpa [Cursor.atEnd] using h)]
  cases hf : c.following with
  | nil =>
    have hlast : [c.current] = ts ++ [t] := by rw [← heq, Cursor.tokens, hf]
    cases ts with
    | nil => cases hlast; exact absurd ht h
    | cons => simp at hlast
  | cons u rest => exact ⟨by simp [Cursor.tokens, hf], by simpa using h, rfl, rfl⟩

theorem skip {faults : List Diagnostic} {previous : Option Token} {current : Token}
    {following : List Token} :
    ∃ ts, Reach ⟨previous, current, following, faults⟩
      (Cursor.skip faults previous current following) ts [] := by
  induction following generalizing previous current with
  | nil => exact ⟨[], refl _⟩
  | cons next rest ih =>
    unfold Cursor.skip
    split
    · exact ⟨[], refl _⟩
    · next h =>
      obtain ⟨ts, hts⟩ := @ih (some current) next
      refine ⟨current :: ts, ?_, ?_, hts.faults, ?_⟩
      · exact congrArg (current :: ·) hts.tokens
      · rw [not_or] at h
        exact List.forall_mem_cons.mpr ⟨h.1, hts.inner⟩
      · rw [hts.previous, List.getLast?_cons]
        cases ts.getLast? <;> rfl

/-- After a fault reading goes on further on, beyond a token that is no end of input. -/
theorem synchronize (hc : c.Ended) : ∃ ts, c.Reach c.synchronize ts [] ∧
    (c.current.kind ≠ .endOfInput → 0 < ts.length) := by
  obtain ⟨ts, hts⟩ := @skip c.advance.faults c.advance.previous c.advance.current
    c.advance.following
  by_cases h : c.current.kind = .endOfInput
  · have hstay : c.advance = c := if_pos (by simpa [Cursor.atEnd] using h)
    refine ⟨ts, ?_, absurd h⟩
    unfold Cursor.synchronize
    dsimp only
    rwa [hstay] at hts ⊢
  · refine ⟨_, (advance hc h).trans hts, fun _ => ?_⟩
    rw [List.length_append]
    exact Nat.lt_add_right _ Nat.zero_lt_one

end Reach

end Cursor

/-- An attempt to read that began at some place: it had fuel enough; it took at least `d` tokens; if
it gave up, it found a fault; and without a fault `P` holds of what it read and took. -/
def Parsed.Sound {α : Type} (c : Cursor) (d : Nat) (P : α → List Token → Prop) : Parsed α → Prop
  | .ok a c' => ∃ ts fs, c.Reach c' ts fs ∧ d ≤ ts.length ∧ (fs = [] → P a ts)
  | .failed c' => ∃ ts fs, c.Reach c' ts fs ∧ fs ≠ []
  | .starved => False

/-- An attempt that began further on. -/
theorem Parsed.Sound.after {α : Type} {r : Parsed α} {c c' : Cursor} {ts : List Token}
    {fs : List Diagnostic} {d e : Nat} {P : α → List Token → Prop}
    (h : r.Sound c' e fun a us => fs = [] → P a (ts ++ us)) (hreach : c.Reach c' ts fs)
    (hd : d ≤ ts.length + e) : r.Sound c d P := by
  cases r with
  | starved => exact h
  | failed c'' =>
    obtain ⟨us, gs, hreach', hgs⟩ := h
    exact ⟨_, _, hreach.trans hreach', fun h => hgs (List.append_eq_nil_iff.mp h).1⟩
  | ok a c'' =>
    obtain ⟨us, gs, hreach', he, hpost⟩ := h
    refine ⟨_, _, hreach.trans hreach', ?_, fun h => ?_⟩
    · rw [List.length_append]; omega
    · obtain ⟨hgs, hfs⟩ := List.append_eq_nil_iff.mp h
      exact hpost hgs hfs

theorem Parsed.Sound.mono {α : Type} {r : Parsed α} {c : Cursor} {d d' : Nat}
    {P P' : α → List Token → Prop} (h : r.Sound c d P) (hd : d' ≤ d)
    (hP : ∀ a ts, P a ts → P' a ts) : r.Sound c d' P' := by
  cases r with
  | starved => exact h
  | failed c' => exact h
  | ok a c' =>
    obtain ⟨ts, fs, hreach, hlen, hpost⟩ := h
    exact ⟨ts, fs, hreach, Nat.le_trans hd hlen, fun hfs => hP a ts (hpost hfs)⟩

namespace Parser

variable {α β : Type}

/-- What a reader does at a token of some sort, with at most `n` tokens left. -/
def Reads (pre : Token → Prop) (n d : Nat) (p : Parser α) (P : α → List Token → Prop) : Prop :=
  ∀ c : Cursor, c.Ended → c.tokens.length ≤ n → pre c.current → (p c).Sound c d P

/-- A reader that reads a row of phrases. -/
abbrev ReadsRow (pre : Token → Prop) (n d : Nat) (p : Parser α) (row : List Phrase) : Prop :=
  Reads pre n d p fun _ => Derives row

/-- No condition on the current token. -/
abbrev anywhere : Token → Prop := fun _ => True

section

variable {pre : Token → Prop} {n d e : Nat} {P : α → List Token → Prop}
  {Q : β → List Token → Prop} {p : Parser α} {f : α → Parser β} {row : List Phrase}

theorem Reads.mono {d' : Nat} {P' : α → List Token → Prop} (h : Reads pre n d p P)
    (hd : d' ≤ d) (hP : ∀ a ts, P a ts → P' a ts) : Reads pre n d' p P' :=
  fun c hc hn ht => (h c hc hn ht).mono hd hP

theorem Reads.imp {P' : α → List Token → Prop} (h : Reads pre n d p P)
    (hP : ∀ a ts, P a ts → P' a ts) : Reads pre n d p P' :=
  h.mono (Nat.le_refl d) hP

theorem Reads.weaken {pre' : Token → Prop} (h : Reads pre n d p P) (hpre : ∀ t, pre' t → pre t) :
    Reads pre' n d p P :=
  fun c hc hn ht => h c hc hn (hpre _ ht)

theorem Reads.here (h : Reads anywhere n d p P) : Reads pre n d p P := h.weaken fun _ _ => trivial

theorem Reads.produce {phrase : Phrase} (h : ReadsRow pre n d p row)
    (hp : Production phrase row) : ReadsRow pre n d p [phrase] :=
  h.imp fun _ _ => .of_production hp

/-- Readers in a row. What the second one is given is what the first one left. -/
theorem Reads.bind (hp : Reads pre n d p P)
    (hf : ∀ a m, m + d ≤ n →
      Reads anywhere m (e - d) (f a) fun b us => ∀ ts, P a ts → Q b (ts ++ us)) :
    Reads pre n e (p >>= f) Q := by
  intro c hc hn ht
  have hs := hp c hc hn ht
  change (Parser.bind p f c).Sound c e Q
  unfold Parser.bind
  cases hpc : p c with
  | starved => rw [hpc] at hs; exact hs
  | failed c' => rw [hpc] at hs; exact hs
  | ok a c' =>
    rw [hpc] at hs
    obtain ⟨ts, fs, hreach, hd, hpost⟩ := hs
    have hlen := hreach.length
    have hs' := hf a c'.tokens.length (by omega) c' (hreach.ended hc) (Nat.le_refl _) trivial
    refine (hs'.mono (Nat.le_refl _) fun b us h hfs => ?_).after hreach (by omega)
    exact h ts (hpost hfs)

/-- A reader of one phrase before readers of others. -/
theorem ReadsRow.bind {phrase : Phrase} (hp : ReadsRow pre n d p [phrase])
    (hf : ∀ a m, m + d ≤ n → ReadsRow anywhere m (e - d) (f a) row) :
    ReadsRow pre n e (p >>= f) (phrase :: row) :=
  Reads.bind hp fun a m hm => (hf a m hm).imp fun _ _ hus _ hts => hts.cons hus

theorem reads_pure {a : α} (h : P a []) : Reads pre n 0 (pure a : Parser α) P :=
  fun c _ _ _ => ⟨[], [], .refl c, Nat.le_refl 0, fun _ => h⟩

theorem reads_fail (fault : SyntaxFault) (token : Token) :
    Reads pre n d (fail fault token : Parser α) P :=
  fun c _ _ _ => ⟨[], _, .record c fault token, by simp⟩

/-- After a fault nothing more is known about what is read. -/
theorem reads_record (fault : SyntaxFault) (token : Token) {f : Unit → Parser β}
    (h : Reads anywhere n d (f ()) fun _ _ => True) :
    Reads pre n d (record fault token >>= f) Q := by
  intro c hc hn _
  have hreach := Cursor.Reach.record c fault token
  have hs := h _ (hreach.ended hc) hn trivial
  exact (hs.mono (Nat.le_refl d) fun b us _ hfs => absurd hfs (List.cons_ne_nil _ _)).after hreach
    (Nat.le_add_left d _)

/-- To look at the current token takes nothing. -/
theorem reads_peek {f : Token → Parser β} (h : ∀ t, pre t → Reads (· = t) n d (f t) Q) :
    Reads pre n d (peek >>= f) Q :=
  fun c hc hn ht => h c.current ht c hc hn rfl

theorem reads_lastStop {f : Position → Parser β} (h : ∀ q, Reads pre n d (f q) Q) :
    Reads pre n d (lastStop >>= f) Q :=
  fun c hc hn ht => h c.lastStop c hc hn ht

theorem reads_sees {kind : Kind} {f : Bool → Parser β}
    (h : ∀ b, Reads (fun t => pre t ∧ (b = true ↔ t.kind = kind)) n d (f b) Q) :
    Reads pre n d (sees kind >>= f) Q :=
  fun c hc hn ht => h (c.sees kind) c hc hn ⟨ht, decide_eq_true_iff⟩

theorem reads_atEnd {f : Bool → Parser β}
    (h : ∀ b, Reads (fun t => pre t ∧ (b = true ↔ t.kind = .endOfInput)) n d (f b) Q) :
    Reads pre n d (atEnd >>= f) Q :=
  fun c hc hn ht => h c.atEnd c hc hn ⟨ht, decide_eq_true_iff⟩

/-- To take the current token. -/
theorem sound_advance {c : Cursor} (hc : c.Ended) (hn : c.tokens.length ≤ n)
    (hk : c.current.kind ≠ .endOfInput)
    (h : ∀ m, m + 1 ≤ n → Reads anywhere m (d - 1) p fun b us => P b (c.current :: us)) :
    (p c.advance).Sound c d P := by
  have hreach := Cursor.Reach.advance hc hk
  have hlen := hreach.length
  rw [List.length_singleton] at hlen
  have hs := h c.advance.tokens.length (by omega) _ (hreach.ended hc) (Nat.le_refl _) trivial
  exact (hs.mono (Nat.le_refl _) fun b us h _ => h).after hreach
    (by rw [List.length_singleton]; omega)

theorem reads_advance {f : Token → Parser β} (hpre : ∀ t, pre t → t.kind ≠ .endOfInput)
    (h : ∀ t m, pre t → m + 1 ≤ n → Reads anywhere m (d - 1) (f t) fun b us => Q b (t :: us)) :
    Reads pre n d (advance >>= f) Q :=
  fun _ hc hn ht => sound_advance hc hn (hpre _ ht) fun m hm => h _ m ht hm

/-- To take a token that the row begins with. -/
theorem reads_keyword {kind : Kind} {f : Token → Parser β} (hk : kind ≠ .endOfInput)
    (h : ∀ t m, m + 1 ≤ n → ReadsRow anywhere m (d - 1) (f t) row) :
    ReadsRow (·.kind = kind) n d (advance >>= f) (kind :: row) :=
  reads_advance (fun _ ht => ht ▸ hk) fun t m ht hm => (h t m hm).imp fun _ _ => .token ht

theorem reads_expect {kind : Kind} {what : Expected} {f : Token → Parser β}
    (hk : kind ≠ .endOfInput)
    (h : ∀ t m, t.kind = kind → m + 1 ≤ n →
      Reads anywhere m (d - 1) (f t) fun b us => Q b (t :: us)) :
    Reads pre n d (expect kind what >>= f) Q := by
  intro c hc hn _
  change (Parser.bind (expect kind what) f c).Sound c d Q
  unfold Parser.bind expect
  by_cases hsees : c.sees kind
  · rw [if_pos hsees]
    have hcur : c.current.kind = kind := of_decide_eq_true hsees
    exact sound_advance hc hn (hcur ▸ hk) fun m hm => h _ m hcur hm
  · rw [if_neg hsees]
    exact ⟨[], _, .record c _ _, by simp⟩

/-- To take a token that must stand here. -/
theorem reads_token {kind : Kind} {what : Expected} {f : Token → Parser β}
    (hk : kind ≠ .endOfInput)
    (h : ∀ t m, m + 1 ≤ n → ReadsRow anywhere m (d - 1) (f t) row) :
    ReadsRow pre n d (expect kind what >>= f) (kind :: row) :=
  reads_expect hk fun t m ht hm => (h t m hm).imp fun _ _ => .token ht

theorem reads_accepts_bind {kind : Kind} {f : Bool → Parser β} (hk : kind ≠ .endOfInput)
    (hyes : ∀ t m, t.kind = kind → m + 1 ≤ n →
      Reads anywhere m (d - 1) (f true) fun b us => Q b (t :: us))
    (hno : Reads (fun t => pre t ∧ t.kind ≠ kind) n d (f false) Q) :
    Reads pre n d (accepts kind >>= f) Q := by
  intro c hc hn ht
  change (Parser.bind (accepts kind) f c).Sound c d Q
  unfold Parser.bind accepts
  by_cases hsees : c.sees kind
  · rw [if_pos hsees]
    have hcur : c.current.kind = kind := of_decide_eq_true hsees
    exact sound_advance hc hn (hcur ▸ hk) fun m hm => hyes _ m hcur hm
  · rw [if_neg hsees]
    exact hno c hc hn ⟨ht, of_decide_eq_false (Bool.not_eq_true _ ▸ hsees)⟩

theorem reads_accepts {kind : Kind} {x y : Parser β} (hk : kind ≠ .endOfInput)
    (hx : ∀ t m, t.kind = kind → m + 1 ≤ n →
      Reads anywhere m (d - 1) x fun b us => Q b (t :: us))
    (hy : Reads (fun t => pre t ∧ t.kind ≠ kind) n d y Q) :
    Reads pre n d (accepts kind >>= fun b => if b = true then x else y) Q :=
  reads_accepts_bind hk hx hy

/-- To recover, at a token that is not the end of input, takes a token at least. -/
theorem Reads.recovering {P : List α → List Token → Prop} {p : Parser (List α)}
    (h : Reads pre n 1 p P) (hpre : ∀ t, pre t → t.kind ≠ .endOfInput) :
    Reads pre n 1 (recovering p) P := by
  intro c hc hn ht
  have hs := h c hc hn ht
  unfold Parser.recovering
  cases hp : p c with
  | starved => rw [hp] at hs; exact hs
  | ok a c' => rw [hp] at hs; exact hs
  | failed c' =>
    rw [hp] at hs
    obtain ⟨ts, fs, hreach, hfs⟩ := hs
    obtain ⟨us, hsync, hus⟩ := Cursor.Reach.synchronize (hreach.ended hc)
    refine ⟨_, _, hreach.trans hsync, ?_, fun h => absurd (List.append_eq_nil_iff.mp h).2 hfs⟩
    rw [List.length_append]
    cases ts with
    | cons t ts => rw [List.length_cons]; omega
    | nil =>
      have hcur : c'.current = c.current := (List.cons.inj hreach.tokens).1.symm
      have := hus (hcur ▸ hpre _ ht)
      omega

end

/-! ## Parameters -/

theorem reads_parameterNames {fuel count n : Nat} (hn : 16 * n + 1 ≤ fuel) :
    Reads anywhere n 0 (parameterNames fuel count) fun _ ts =>
      ∃ k, count + (k + 1) ≤ maxArguments ∧ Derives [.listed (k + 1) Kind.identifier] ts := by
  induction fuel generalizing count n with
  | zero => omega
  | succ fuel ih =>
    unfold parameterNames
    extract_lets rest
    have hrest : Reads anywhere n 0 (rest ()) fun _ ts =>
        count < maxArguments → ∃ k, count + (k + 1) ≤ maxArguments ∧
          Derives [.listed (k + 1) Kind.identifier] ts := by
      refine reads_expect (by decide) fun name m hname hm => ?_
      refine reads_accepts (by decide) (fun comma l hcomma hl => ?_) (reads_pure fun hcount => ?_)
      · refine (ih (by omega)).bind fun names i _ => reads_pure ?_
        rintro ts ⟨k, hk, hts⟩ _
        exact ⟨k + 1, by omega,
          .of_production .listedMore (.token hname (.token hcomma (hts.cons .nil)))⟩
      · exact ⟨0, hcount, .of_production .listedOne (.token hname .nil)⟩
    split
    · exact reads_peek fun t _ => reads_record _ _ (hrest.imp fun _ _ _ => trivial).here
    · next h => exact hrest.imp fun _ ts hts => hts (Nat.lt_of_not_le h)

theorem reads_parameters {fuel n : Nat} (hn : 16 * n + 1 ≤ fuel) :
    ReadsRow anywhere n 1 (parameters fuel) [.params] := by
  unfold parameters
  refine reads_expect (by decide) fun left m hleft hm => ?_
  refine reads_sees fun b => ?_
  extract_lets rest
  have hrest : ∀ names l, ReadsRow anywhere l 0 (rest names) [Kind.rightParen] :=
    fun names l => reads_token (by decide) fun _ _ _ => reads_pure .nil
  split
  · refine (hrest [] m).here.imp fun _ us hus => ?_
    exact .of_production (.params (Nat.zero_le _)) (.token hleft (.phrase .listedNone .nil hus))
  · refine (reads_parameterNames (by omega)).here.bind fun names l _ => ?_
    refine (hrest names l).imp fun _ us hus ts hts => ?_
    obtain ⟨k, hk, hts⟩ := hts
    exact .of_production (.params (by omega)) (.token hleft (hts.cons hus))

/-! ## Programs -/

/-- What an expression that may be assigned to was read from. -/
def TargetOf (ts : List Token) : Expr Unit → Prop
  | .name .. => ∃ t, t.kind = .identifier ∧ ts = [t]
  | .get .. => ∃ us dot name, Derives [.call] us ∧ dot.kind = .dot ∧ name.kind = .identifier ∧
    ts = us ++ [dot, name]
  | _ => True

/-- The operators and operands after a first operand. -/
abbrev operands : Phrase := .many [.infixOp, .unary]

/-- With some fuel, every function of the reader reads its phrases. The number in front of each is
how deep calls can be nested at one token. -/
structure ReadsPhrases (fuel : Nat) : Prop where
  declaration : ∀ n, 16 * n + 11 ≤ fuel →
    ReadsRow (·.kind ≠ .endOfInput) n 1 (declaration fuel) [.decl]
  classDeclaration : ∀ n, 16 * n + 1 ≤ fuel →
    ReadsRow (·.kind = .kwClass) n 1 (classDeclaration fuel) [.decl]
  members : ∀ n, 16 * n + 2 ≤ fuel → ReadsRow anywhere n 0 (members fuel) [.many [.member]]
  method : ∀ n, 16 * n + 1 ≤ fuel →
    ReadsRow anywhere n 1 (method fuel) [Kind.identifier, .opt [.params], .block]
  functionDeclaration : ∀ n, 16 * n + 1 ≤ fuel →
    ReadsRow (·.kind = .kwFun) n 1 (functionDeclaration fuel) [.decl]
  varDeclarations : ∀ n, 16 * n + 1 ≤ fuel →
    ReadsRow (·.kind = .kwVar) n 1 (varDeclarations fuel) [.vars, Kind.semicolon]
  furtherVariables : ∀ n, 16 * n + 1 ≤ fuel →
    ReadsRow anywhere n 0 (furtherVariables fuel)
      [.many [Kind.comma, Kind.identifier, Kind.assign, .asg]]
  statement : ∀ n, 16 * n + 10 ≤ fuel → ReadsRow anywhere n 1 (statement fuel) [.stmt]
  block : ∀ n, 16 * n + 1 ≤ fuel → ReadsRow anywhere n 1 (block fuel) [.block]
  blockItems : ∀ n, 16 * n + 12 ≤ fuel → ReadsRow anywhere n 0 (blockItems fuel) [.many [.decl]]
  expressionStatement : ∀ n, 16 * n + 9 ≤ fuel →
    ReadsRow anywhere n 1 (expressionStatement fuel) [.expr, Kind.semicolon]
  ifStatement : ∀ n, 16 * n + 1 ≤ fuel → ReadsRow (·.kind = .kwIf) n 1 (ifStatement fuel) [.stmt]
  whileStatement : ∀ n, 16 * n + 1 ≤ fuel →
    ReadsRow (·.kind = .kwWhile) n 1 (whileStatement fuel) [.stmt]
  doStatement : ∀ n, 16 * n + 1 ≤ fuel → ReadsRow (·.kind = .kwDo) n 1 (doStatement fuel) [.stmt]
  forStatement : ∀ n, 16 * n + 1 ≤ fuel →
    ReadsRow (·.kind = .kwFor) n 1 (forStatement fuel) [.stmt]
  expression : ∀ n, 16 * n + 8 ≤ fuel → ReadsRow anywhere n 0 (expression fuel) [.expr]
  commas : ∀ n left, 16 * n + 1 ≤ fuel →
    ReadsRow anywhere n 0 (commas fuel left) [.many [Kind.comma, .asg]]
  assignment : ∀ n, 16 * n + 7 ≤ fuel → ReadsRow anywhere n 0 (assignment fuel) [.asg]
  ternary : ∀ n, 16 * n + 6 ≤ fuel →
    Reads anywhere n 0 (ternary fuel) fun e ts => Derives [.tern] ts ∧ TargetOf ts e
  binary : ∀ n power, 16 * n + 5 ≤ fuel → Reads anywhere n 0 (binary fuel power) fun e ts =>
    Derives [.unary, operands] ts ∧ TargetOf ts e
  operators : ∀ n power left, 16 * n + 1 ≤ fuel →
    Reads anywhere n 0 (operators fuel power left) fun e us =>
      Derives [operands] us ∧ ∀ ts, TargetOf ts left → TargetOf (ts ++ us) e
  unary : ∀ n, 16 * n + 4 ≤ fuel →
    Reads anywhere n 0 (unary fuel) fun e ts => Derives [.unary] ts ∧ TargetOf ts e
  trailing : ∀ n, 16 * n + 3 ≤ fuel →
    Reads anywhere n 0 (trailing fuel) fun e ts => Derives [.unary] ts ∧ TargetOf ts e
  call : ∀ n, 16 * n + 2 ≤ fuel →
    Reads anywhere n 0 (call fuel) fun e ts => Derives [.call] ts ∧ TargetOf ts e
  callRest : ∀ n callee, 16 * n + 1 ≤ fuel →
    Reads anywhere n 0 (callRest fuel callee) fun e us =>
      ∀ ts, Derives [.call] ts → TargetOf ts callee →
        Derives [.call] (ts ++ us) ∧ TargetOf (ts ++ us) e
  arguments : ∀ n count, 16 * n + 8 ≤ fuel → Reads anywhere n 0 (arguments fuel count) fun _ ts =>
    ∃ k, count + (k + 1) ≤ maxArguments ∧ Derives [.listed (k + 1) .asg] ts
  primary : ∀ n, 16 * n + 1 ≤ fuel →
    Reads anywhere n 0 (primary fuel) fun e ts => Derives [.primary] ts ∧ TargetOf ts e


theorem readsPhrases_zero : ReadsPhrases 0 := by
  constructor
  all_goals intros; omega

namespace ReadsPhrases

variable {fuel n : Nat}

theorem declaration_succ (h : ReadsPhrases fuel) (hn : 16 * n + 11 ≤ fuel + 1) :
    ReadsRow (·.kind ≠ .endOfInput) n 1 (Parser.declaration (fuel + 1)) [.decl] := by
  refine Reads.recovering ?_ fun _ ht => ht
  intro c hc hlen _
  have hone : ∀ {pre : Token → Prop} {p : Parser (Stmt Unit)} {phrase : Phrase},
      ReadsRow pre n 1 p [phrase] → pre c.current →
      ((do return [← p] : Parser (List (Stmt Unit))) c).Sound c 1 fun _ => Derives [phrase] :=
    fun hp ht => ReadsRow.bind hp (fun _ _ _ => reads_pure .nil) c hc hlen ht
  dsimp only
  split
  · next hk => exact hone (h.classDeclaration n (by omega)) (of_decide_eq_true hk)
  · split
    · next hk =>
      have hfun : c.sees .kwFun := (Bool.and_eq_true_iff.mp hk).1
      exact hone (h.functionDeclaration n (by omega)) (of_decide_eq_true hfun)
    · split
      · next hk =>
        exact (h.varDeclarations n (by omega)).produce .varDecl c hc hlen (of_decide_eq_true hk)
      · exact hone ((h.statement n (by omega)).produce .stmtDecl) trivial

theorem classDeclaration_succ (h : ReadsPhrases fuel) (hn : 16 * n + 1 ≤ fuel + 1) :
    ReadsRow (·.kind = .kwClass) n 1 (Parser.classDeclaration (fuel + 1)) [.decl] := by
  unfold Parser.classDeclaration
  refine Reads.produce ?_ .classDecl
  refine reads_keyword (by decide) fun start m hm => ?_
  refine reads_token (by decide) fun name l hl => ?_
  extract_lets rest
  have hrest : ∀ superclass i, i ≤ l → ReadsRow anywhere i 0 (rest superclass)
      [Kind.leftBrace, .many [.member], Kind.rightBrace] := by
    intro superclass i hi
    refine reads_token (by decide) fun _ j hj => ?_
    refine ReadsRow.bind (h.members j (by omega)) fun members k hk => ?_
    obtain ⟨methods, classMethods⟩ := members
    exact reads_token (by decide) fun _ _ _ => reads_lastStop fun _ => reads_pure .nil
  refine reads_accepts (by decide) (fun less i hless hi => ?_) ?_
  · refine Reads.imp (reads_token (by decide) fun name j hj => hrest _ j (by omega)) ?_
    exact fun _ us hus => .take_opt (.token hless hus)
  · exact (hrest none l (Nat.le_refl l)).here.imp fun _ _ => .skip_opt

theorem members_succ (h : ReadsPhrases fuel) (hn : 16 * n + 2 ≤ fuel + 1) :
    ReadsRow anywhere n 0 (Parser.members (fuel + 1)) [.many [.member]] := by
  have hmember : ∀ {m : Nat} {f : Declaration Unit → List (Declaration Unit) ×
      List (Declaration Unit) → Parser (List (Declaration Unit) × List (Declaration Unit))},
      m ≤ n → (∀ d ms k, ReadsRow anywhere k 0 (f d ms) []) →
      ReadsRow anywhere m 0 (Parser.method fuel >>= fun d => Parser.members fuel >>= f d)
        [Kind.identifier, .opt [.params], .block, .many [.member]] := by
    intro m f hm hf
    refine Reads.bind (h.method m (by omega)) fun d l hl => ?_
    refine Reads.imp (ReadsRow.bind (h.members l (by omega)) fun ms k _ => hf d ms k) ?_
    exact fun _ us hus ts hts => hts.append hus
  unfold Parser.members
  refine reads_sees fun b => reads_atEnd fun b' => ?_
  split
  · exact reads_pure .many_none
  · refine Reads.imp (P := fun _ => Derives [.opt [Kind.kwClass], Kind.identifier,
      .opt [.params], .block, .many [.member]]) ?_ fun _ ts hts => ?_
    · refine reads_accepts (by decide) (fun cls m hcls hm => ?_) ?_
      · refine (hmember (by omega) fun d ms k => reads_pure .nil).imp fun _ us hus => ?_
        exact .take_opt (.token hcls hus)
      · refine (hmember (Nat.le_refl n) fun d ms k => reads_pure .nil).here.imp fun _ us hus => ?_
        exact .skip_opt hus
    · obtain ⟨us, vs, rfl, hus, hvs⟩ := @Derives.split_append
        [.opt [Kind.kwClass], Kind.identifier, .opt [.params], .block] _ _ hts
      exact .many_cons (.of_production .member hus) hvs

theorem method_succ (h : ReadsPhrases fuel) (hn : 16 * n + 1 ≤ fuel + 1) :
    ReadsRow anywhere n 1 (Parser.method (fuel + 1))
      [Kind.identifier, .opt [.params], .block] := by
  unfold Parser.method
  refine reads_token (by decide) fun name m hm => ?_
  refine reads_sees fun b => ?_
  extract_lets getter rest
  have hrest : ∀ params l, l ≤ m → ReadsRow anywhere l 0 (rest params) [.block] := by
    intro params l hl
    refine (h.block l (by omega)).bind fun body _ _ => ?_
    exact reads_lastStop fun _ => reads_pure .nil
  split
  · exact (hrest [] m (Nat.le_refl m)).here.imp fun _ _ => .skip_opt
  · refine Reads.imp (ReadsRow.bind (reads_parameters (by omega)).here fun params l hl => ?_)
      fun _ _ hus => .take_opt hus
    exact hrest params l (by omega)

theorem functionDeclaration_succ (h : ReadsPhrases fuel) (hn : 16 * n + 1 ≤ fuel + 1) :
    ReadsRow (·.kind = .kwFun) n 1 (Parser.functionDeclaration (fuel + 1)) [.decl] := by
  unfold Parser.functionDeclaration
  refine Reads.produce ?_ .funDecl
  refine reads_keyword (by decide) fun start m hm => ?_
  refine reads_token (by decide) fun name l hl => ?_
  refine (reads_parameters (by omega)).bind fun params i hi => ?_
  refine (h.block i (by omega)).bind fun body _ _ => ?_
  exact reads_lastStop fun _ => reads_pure .nil

theorem varDeclarations_succ (h : ReadsPhrases fuel) (hn : 16 * n + 1 ≤ fuel + 1) :
    ReadsRow (·.kind = .kwVar) n 1 (Parser.varDeclarations (fuel + 1))
      [.vars, Kind.semicolon] := by
  unfold Parser.varDeclarations
  refine Reads.imp (P := fun _ => Derives [Kind.kwVar, Kind.identifier, .opt [Kind.assign, .asg],
    .many [Kind.comma, Kind.identifier, Kind.assign, .asg], Kind.semicolon]) ?_ fun _ ts hts => ?_
  · refine reads_keyword (by decide) fun start m hm => ?_
    refine reads_token (by decide) fun name l hl => ?_
    extract_lets rest
    have hrest : ∀ init i, i ≤ l → ReadsRow anywhere i 0 (rest init)
        [.many [Kind.comma, Kind.identifier, Kind.assign, .asg], Kind.semicolon] := by
      intro init i hi
      refine reads_lastStop fun _ => ?_
      refine (h.furtherVariables i (by omega)).bind fun more _ _ => ?_
      exact reads_token (by decide) fun _ _ _ => reads_pure .nil
    refine reads_accepts (by decide) (fun eq i heq hi => ?_) ?_
    · refine Reads.imp ((h.assignment i (by omega)).bind fun value j hj => ?_)
        fun _ us hus => .take_opt (.token heq hus)
      exact hrest _ j (by omega)
    · exact (hrest none l (Nat.le_refl l)).here.imp fun _ _ => .skip_opt
  · obtain ⟨us, vs, rfl, hus, hvs⟩ := @Derives.split_append
      [Kind.kwVar, Kind.identifier, .opt [Kind.assign, .asg],
        .many [Kind.comma, Kind.identifier, Kind.assign, .asg]] _ _ hts
    exact (Derives.of_production .vars hus).cons hvs

theorem furtherVariables_succ (h : ReadsPhrases fuel) (hn : 16 * n + 1 ≤ fuel + 1) :
    ReadsRow anywhere n 0 (Parser.furtherVariables (fuel + 1))
      [.many [Kind.comma, Kind.identifier, Kind.assign, .asg]] := by
  unfold Parser.furtherVariables
  refine reads_accepts (by decide) (fun comma m hcomma hm => ?_) (reads_pure .many_none)
  refine Reads.imp ?_ fun _ us hus => .of_production .manyMore (.token hcomma hus)
  refine reads_token (by decide) fun name l hl => ?_
  refine reads_token (by decide) fun _ i hi => ?_
  refine (h.assignment i (by omega)).bind fun init j hj => reads_lastStop fun _ => ?_
  exact (h.furtherVariables j (by omega)).bind fun _ _ _ => reads_pure .nil

theorem statement_succ (h : ReadsPhrases fuel) (hn : 16 * n + 10 ≤ fuel + 1) :
    ReadsRow anywhere n 1 (Parser.statement (fuel + 1)) [.stmt] := by
  unfold Parser.statement
  refine reads_peek fun t _ => ?_
  split
  · next hk => exact (h.forStatement n (by omega)).weaken fun _ ht => ht ▸ hk
  · next hk => exact (h.ifStatement n (by omega)).weaken fun _ ht => ht ▸ hk
  · next hk =>
    refine Reads.produce (Reads.weaken (reads_keyword (by decide) fun keyword m hm => ?_)
      fun _ ht => ht ▸ hk) .printStmt
    refine (h.expression m (by omega)).bind fun value l hl => ?_
    exact reads_token (by decide) fun _ _ _ => reads_lastStop fun _ => reads_pure .nil
  · next hk =>
    refine Reads.produce (Reads.weaken (reads_keyword (by decide) fun keyword m hm => ?_)
      fun _ ht => ht ▸ hk) .returnStmt
    refine reads_sees fun b => ?_
    extract_lets rest
    have hrest : ∀ value l, ReadsRow anywhere l 0 (rest value) [Kind.semicolon] :=
      fun value l => reads_token (by decide) fun _ _ _ => reads_lastStop fun _ => reads_pure .nil
    split
    · exact (hrest none m).here.imp fun _ _ => .skip_opt
    · exact Reads.imp (ReadsRow.bind (h.expression m (by omega)).here fun value l _ => hrest _ l)
        fun _ _ hus => .take_opt hus
  · next hk => exact (h.doStatement n (by omega)).weaken fun _ ht => ht ▸ hk
  · next hk => exact (h.whileStatement n (by omega)).weaken fun _ ht => ht ▸ hk
  · next hk =>
    refine Reads.produce (Reads.weaken (reads_keyword (by decide) fun keyword m hm => ?_)
      fun _ ht => ht ▸ hk) .breakStmt
    exact reads_token (by decide) fun _ _ _ => reads_lastStop fun _ => reads_pure .nil
  · next hk =>
    refine Reads.produce (Reads.weaken (reads_keyword (by decide) fun keyword m hm => ?_)
      fun _ ht => ht ▸ hk) .continueStmt
    exact reads_token (by decide) fun _ _ _ => reads_lastStop fun _ => reads_pure .nil
  · refine reads_peek fun start _ => Reads.here ?_
    refine Reads.produce ?_ .blockStmt
    exact (h.block n (by omega)).bind fun _ _ _ => reads_lastStop fun _ => reads_pure .nil
  · exact ((h.expressionStatement n (by omega)).produce .exprStmt).here

theorem block_succ (h : ReadsPhrases fuel) (hn : 16 * n + 1 ≤ fuel + 1) :
    ReadsRow anywhere n 1 (Parser.block (fuel + 1)) [.block] := by
  unfold Parser.block
  refine Reads.produce (reads_token (by decide) fun _ m hm => ?_) .block
  refine (h.blockItems m (by omega)).bind fun stmts _ _ => ?_
  exact reads_token (by decide) fun _ _ _ => reads_pure .nil

theorem blockItems_succ (h : ReadsPhrases fuel) (hn : 16 * n + 12 ≤ fuel + 1) :
    ReadsRow anywhere n 0 (Parser.blockItems (fuel + 1)) [.many [.decl]] := by
  unfold Parser.blockItems
  refine reads_sees fun b => reads_atEnd fun b' => ?_
  split
  · exact reads_pure .many_none
  · next hmore =>
    refine Reads.produce (Reads.weaken (ReadsRow.bind (h.declaration n (by omega))
      fun stmts m hm => ?_) fun t ht hend => hmore ?_) .manyMore
    · exact (h.blockItems m (by omega)).bind fun _ _ _ => reads_pure .nil
    · rw [Bool.or_eq_true_iff]
      exact .inr (ht.2.mpr hend)

theorem expressionStatement_succ (h : ReadsPhrases fuel) (hn : 16 * n + 9 ≤ fuel + 1) :
    ReadsRow anywhere n 1 (Parser.expressionStatement (fuel + 1)) [.expr, Kind.semicolon] := by
  unfold Parser.expressionStatement
  refine (h.expression n (by omega)).bind fun expr m hm => ?_
  exact reads_token (by decide) fun _ _ _ => reads_lastStop fun _ => reads_pure .nil

theorem ifStatement_succ (h : ReadsPhrases fuel) (hn : 16 * n + 1 ≤ fuel + 1) :
    ReadsRow (·.kind = .kwIf) n 1 (Parser.ifStatement (fuel + 1)) [.stmt] := by
  unfold Parser.ifStatement
  refine Reads.produce (reads_keyword (by decide) fun start m hm => ?_) .ifStmt
  refine reads_token (by decide) fun _ l hl => ?_
  refine (h.expression l (by omega)).bind fun condition i hi => ?_
  refine reads_token (by decide) fun _ j hj => ?_
  refine ReadsRow.bind (d := 0) ((h.statement j (by omega)).mono (Nat.zero_le 1) fun _ _ h => h)
    fun onTrue k hk => ?_
  extract_lets rest
  have hrest : ∀ onFalse l, ReadsRow anywhere l 0 (rest onFalse) [] :=
    fun onFalse l => reads_lastStop fun _ => reads_pure .nil
  refine reads_accepts (by decide) (fun els l hels hl => ?_) ?_
  · refine Reads.imp ?_ fun _ us hus => .take_opt (.token hels hus)
    refine ReadsRow.bind (d := 0) ((h.statement l (by omega)).mono (Nat.zero_le 1) fun _ _ h => h)
      fun stmt i _ => hrest _ i
  · exact (hrest none k).here.imp fun _ _ => .skip_opt

theorem whileStatement_succ (h : ReadsPhrases fuel) (hn : 16 * n + 1 ≤ fuel + 1) :
    ReadsRow (·.kind = .kwWhile) n 1 (Parser.whileStatement (fuel + 1)) [.stmt] := by
  unfold Parser.whileStatement
  refine Reads.produce (reads_keyword (by decide) fun start m hm => ?_) .whileStmt
  refine reads_token (by decide) fun _ l hl => ?_
  refine (h.expression l (by omega)).bind fun condition i hi => ?_
  refine reads_token (by decide) fun _ j hj => ?_
  exact (h.statement j (by omega)).bind fun _ _ _ => reads_lastStop fun _ => reads_pure .nil

theorem doStatement_succ (h : ReadsPhrases fuel) (hn : 16 * n + 1 ≤ fuel + 1) :
    ReadsRow (·.kind = .kwDo) n 1 (Parser.doStatement (fuel + 1)) [.stmt] := by
  unfold Parser.doStatement
  refine Reads.produce (reads_keyword (by decide) fun start m hm => ?_) .doStmt
  refine (h.statement m (by omega)).bind fun body l hl => ?_
  refine reads_token (by decide) fun _ i hi => reads_token (by decide) fun _ j hj => ?_
  refine (h.expression j (by omega)).bind fun condition k hk => ?_
  refine reads_token (by decide) fun _ _ _ => reads_token (by decide) fun _ _ _ => ?_
  exact reads_lastStop fun _ => reads_pure .nil

theorem forStatement_succ (h : ReadsPhrases fuel) (hn : 16 * n + 1 ≤ fuel + 1) :
    ReadsRow (·.kind = .kwFor) n 1 (Parser.forStatement (fuel + 1)) [.stmt] := by
  unfold Parser.forStatement
  refine Reads.produce (reads_keyword (by decide) fun start m hm => ?_) .forStmt
  refine reads_token (by decide) fun _ l hl => ?_
  extract_lets +onlyGivenNames afterInit
  have hinit : ∀ init i, i ≤ l → ReadsRow anywhere i 0 (afterInit init)
      [.opt [.expr], Kind.semicolon, .opt [.expr], Kind.rightParen, .stmt] := by
    intro init i hi
    refine reads_sees fun b => ?_
    extract_lets afterTest
    have htest : ∀ test j, j ≤ i → ReadsRow anywhere j 0 (afterTest test)
        [Kind.semicolon, .opt [.expr], Kind.rightParen, .stmt] := by
      intro test j hj
      refine reads_token (by decide) fun semicolon k hk => reads_sees fun b' => ?_
      extract_lets condition afterUpdate
      have hupdate : ∀ update j, j ≤ k → ReadsRow anywhere j 0 (afterUpdate update)
          [Kind.rightParen, .stmt] := by
        intro update j hj
        refine reads_token (by decide) fun _ k hk => ?_
        refine (h.statement k (by omega)).bind fun body _ _ => reads_lastStop fun _ => ?_
        split
        · exact reads_pure .nil
        · exact reads_pure .nil
      split
      · exact (hupdate none k (Nat.le_refl k)).here.imp fun _ _ => .skip_opt
      · refine Reads.imp (ReadsRow.bind (h.expression k (by omega)).here fun u j hj => ?_)
          fun _ _ hus => .take_opt hus
        exact hupdate _ j (by omega)
    split
    · exact (htest none i (Nat.le_refl i)).here.imp fun _ _ => .skip_opt
    · refine Reads.imp (ReadsRow.bind (h.expression i (by omega)).here fun t j hj => ?_)
        fun _ _ hus => .take_opt hus
      exact htest _ j (by omega)
  refine reads_accepts_bind (by decide) (fun semicolon i hsemi hi => reads_sees fun _ => ?_)
    (reads_sees fun b => ?_)
  · simp only [↓reduceIte]
    refine (hinit none i (by omega)).here.imp fun _ us hus => ?_
    exact (Derives.of_production .noInit (.token hsemi .nil)).cons hus
  · simp only [Bool.false_eq_true, ↓reduceIte]
    split
    · next hvar =>
      refine ReadsRow.bind (Reads.weaken ((h.varDeclarations l (by omega)).produce .varsInit)
        fun t ht => ht.2.mp hvar) fun stmts i hi => ?_
      exact hinit (some stmts) i (by omega)
    · refine ReadsRow.bind ((h.expressionStatement l (by omega)).produce .exprInit).here
        fun stmt i hi => ?_
      exact hinit (some [stmt]) i (by omega)

theorem expression_succ (h : ReadsPhrases fuel) (hn : 16 * n + 8 ≤ fuel + 1) :
    ReadsRow anywhere n 0 (Parser.expression (fuel + 1)) [.expr] :=
  Reads.produce (ReadsRow.bind (h.assignment n (by omega)) fun left m hm =>
    h.commas m left (by omega)) .expr

theorem commas_succ (h : ReadsPhrases fuel) (left : Expr Unit) (hn : 16 * n + 1 ≤ fuel + 1) :
    ReadsRow anywhere n 0 (Parser.commas (fuel + 1) left) [.many [Kind.comma, .asg]] := by
  unfold Parser.commas
  refine reads_sees fun b => ?_
  split
  · next hcomma =>
    refine Reads.produce (Reads.weaken (reads_keyword (by decide) fun op m hm => ?_)
      fun t ht => ht.2.mp hcomma) .manyMore
    exact (h.assignment m (by omega)).bind fun right l hl => h.commas l _ (by omega)
  · exact reads_pure .many_none

/-- What `assignment?` accepts was read from an assignment. -/
theorem derives_assignment {target value expr : Expr Unit} {op : Token} {ts us : List Token}
    (htarget : TargetOf ts target) (hop : op.kind = .assign ∨ op.kind.isCompoundAssign)
    (hvalue : Derives [.asg] us) (h : assignment? target op value = some expr) :
    Derives [.asg] (ts ++ op :: us) := by
  unfold assignment? at h
  split at h
  · obtain ⟨t, ht, rfl⟩ := htarget
    have hmem : op.kind ∈ Phrase.assignOps := by
      rcases hop with hop | hop
      · rw [hop]; decide
      · revert hop; cases op.kind <;> decide
    exact .of_production .assignVar
      (.token ht ((Derives.of_production (.assignOp hmem) (.token rfl .nil)).cons hvalue))
  · obtain ⟨cs, dot, name, hcall, hdot, hname, rfl⟩ := htarget
    split at h
    · next hassign =>
      rw [List.append_assoc]
      exact .of_production .assignField
        (hcall.cons (.token hdot (.token hname (.token hassign hvalue))))
    · cases h
  · cases h

theorem assignment_succ (h : ReadsPhrases fuel) (hn : 16 * n + 7 ≤ fuel + 1) :
    ReadsRow anywhere n 0 (Parser.assignment (fuel + 1)) [.asg] := by
  unfold Parser.assignment
  refine (h.ternary n (by omega)).bind fun target m hm => reads_peek fun op _ => ?_
  split
  · next hop =>
    have hop : op.kind = .assign ∨ op.kind.isCompoundAssign := by simpa using hop
    refine reads_advance (fun t ht hend => ?_) fun t l ht hl => ?_
    · rw [← ht, hend] at hop
      exact absurd hop (by decide)
    · subst ht
      refine Reads.bind (h.assignment l (by omega)) fun value i hi => ?_
      split
      · next hassign =>
        refine reads_pure fun us hus ts hts => ?_
        rw [List.append_nil]
        exact derives_assignment hts.2 hop hus hassign
      · exact reads_record _ _ (reads_pure trivial)
  · refine reads_pure fun ts hts => ?_
    exact .of_production .noAssign (hts.1.cons .nil)

theorem ternary_succ (h : ReadsPhrases fuel) (hn : 16 * n + 6 ≤ fuel + 1) :
    Reads anywhere n 0 (Parser.ternary (fuel + 1)) fun e ts =>
      Derives [.tern] ts ∧ TargetOf ts e := by
  unfold Parser.ternary
  refine (h.binary n 0 (by omega)).bind fun condition m hm => ?_
  refine reads_accepts (by decide) (fun question l hquestion hl => ?_) (reads_pure ?_)
  · refine Reads.bind (h.expression l (by omega)) fun onTrue i hi => ?_
    refine reads_expect (by decide) fun colon j hcolon hj => ?_
    refine Reads.bind (h.ternary j (by omega)) fun onFalse k hk => reads_pure ?_
    intro vs hvs us hus ts hts
    refine ⟨.of_production .tern ((Derives.of_production .bin hts.1).cons ?_), trivial⟩
    exact .opt_some (.token hquestion (hus.cons (.token hcolon (hvs.1.cons .nil))))
  · intro ts hts
    refine ⟨.of_production .tern ((Derives.of_production .bin hts.1).cons .opt_none), ?_⟩
    rw [List.append_nil]
    exact hts.2

theorem binary_succ (h : ReadsPhrases fuel) (power : Nat) (hn : 16 * n + 5 ≤ fuel + 1) :
    Reads anywhere n 0 (Parser.binary (fuel + 1) power) fun e ts =>
      Derives [.unary, operands] ts ∧ TargetOf ts e := by
  refine (h.unary n (by omega)).bind fun left m hm => ?_
  refine (h.operators m power left (by omega)).imp fun e us hus ts hts => ?_
  exact ⟨hts.1.cons hus.1, hus.2 ts hts.2⟩

theorem mem_infixOps {k : Kind} (h : 0 < bindingPower k) : k ∈ Phrase.infixOps := by
  revert h
  cases k <;> decide

theorem targetOf_combine (ts : List Token) (left : Expr Unit) (op : Token) (right : Expr Unit) :
    TargetOf ts (combine left op right) := by
  unfold combine
  dsimp only
  split
  · trivial
  · trivial

theorem operators_succ (h : ReadsPhrases fuel) (power : Nat) (left : Expr Unit)
    (hn : 16 * n + 1 ≤ fuel + 1) :
    Reads anywhere n 0 (Parser.operators (fuel + 1) power left) fun e us =>
      Derives [operands] us ∧ ∀ ts, TargetOf ts left → TargetOf (ts ++ us) e := by
  unfold Parser.operators
  refine reads_peek fun op _ => ?_
  dsimp only
  split
  · refine reads_pure ⟨.many_none, fun ts hts => ?_⟩
    rwa [List.append_nil]
  · next hpower =>
    have hop : op.kind ∈ Phrase.infixOps := mem_infixOps (by omega)
    refine reads_advance (fun t ht hend => ?_) fun t m ht hm => ?_
    · rw [← ht, hend] at hop
      exact absurd hop (by decide)
    · subst ht
      refine Reads.bind (h.binary m _ (by omega)) fun right l hl => ?_
      refine (h.operators l power _ (by omega)).imp fun e vs hvs us hus => ⟨?_, fun ts _ => ?_⟩
      · have hmore : Derives [operands] (t :: us) := .of_production .manyMore
          ((Derives.of_production (.infixOp hop) (.token rfl .nil)).cons hus.1)
        exact hmore.many_append hvs.1
      · have := hvs.2 (ts ++ t :: us) (targetOf_combine _ left t right)
        rwa [List.append_assoc] at this

theorem unary_succ (h : ReadsPhrases fuel) (hn : 16 * n + 4 ≤ fuel + 1) :
    Reads anywhere n 0 (Parser.unary (fuel + 1)) fun e ts =>
      Derives [.unary] ts ∧ TargetOf ts e := by
  have hprefix : ∀ op : Token, op.kind ∈ Phrase.prefixOps →
      Reads (· = op) n 0 (do
        let op ← advance
        let operand ← Parser.unary fuel
        return .unary ⟨op.span.start, operand.span.stop⟩ op operand false : Parser (Expr Unit))
        fun e ts => Derives [.unary] ts ∧ TargetOf ts e := by
    intro op hop
    refine reads_advance (fun t ht hend => ?_) fun t m ht hm => ?_
    · rw [← ht, hend] at hop
      exact absurd hop (by decide)
    · subst ht
      refine (h.unary m (by omega)).bind fun operand _ _ => reads_pure fun ts hts => ⟨?_, trivial⟩
      exact .of_production .prefixed
        ((Derives.of_production (.prefixOp hop) (.token rfl .nil)).cons (hts.1.cons .nil))
  unfold Parser.unary
  refine reads_peek fun op _ => ?_
  split
  all_goals first
    | next hk => exact hprefix op (by rw [hk]; decide)
    | exact (h.trailing n (by omega)).here

theorem trailing_succ (h : ReadsPhrases fuel) (hn : 16 * n + 3 ≤ fuel + 1) :
    Reads anywhere n 0 (Parser.trailing (fuel + 1)) fun e ts =>
      Derives [.unary] ts ∧ TargetOf ts e := by
  unfold Parser.trailing
  refine (h.call n (by omega)).bind fun operand m hm => reads_peek fun op _ => ?_
  split
  · next hop =>
    have hop : op.kind ∈ Phrase.stepOps := by
      simpa [Phrase.stepOps] using hop
    refine reads_advance (fun t ht hend => ?_) fun t l ht hl => ?_
    · rw [← ht, hend] at hop
      exact absurd hop (by decide)
    · subst ht
      refine reads_pure fun ts hts => ⟨.of_production .unprefixed (hts.1.cons ?_), trivial⟩
      exact .opt_some (.of_production (.stepOp hop) (.token rfl .nil))
  · refine reads_pure fun ts hts => ⟨.of_production .unprefixed (hts.1.cons .opt_none), ?_⟩
    rw [List.append_nil]
    exact hts.2

theorem call_succ (h : ReadsPhrases fuel) (hn : 16 * n + 2 ≤ fuel + 1) :
    Reads anywhere n 0 (Parser.call (fuel + 1)) fun e ts => Derives [.call] ts ∧ TargetOf ts e := by
  refine (h.primary n (by omega)).bind fun first m hm => ?_
  refine (h.callRest m first (by omega)).imp fun e us hus ts hts => ?_
  refine hus ts (.of_production .call ?_) hts.2
  rw [← List.append_nil ts]
  exact hts.1.cons .many_none

theorem callRest_succ (h : ReadsPhrases fuel) (callee : Expr Unit) (hn : 16 * n + 1 ≤ fuel + 1) :
    Reads anywhere n 0 (Parser.callRest (fuel + 1) callee) fun e us =>
      ∀ ts, Derives [.call] ts → TargetOf ts callee →
        Derives [.call] (ts ++ us) ∧ TargetOf (ts ++ us) e := by
  -- A suffix is added to the call before the rest is read.
  have hsuffix : ∀ {us vs : List Token} {e e' : Expr Unit}, Derives [.suffix] us →
      (∀ ts, Derives [.call] ts → TargetOf (ts ++ us) e') →
      (∀ ts, Derives [.call] ts → TargetOf ts e' →
        Derives [.call] (ts ++ vs) ∧ TargetOf (ts ++ vs) e) →
      ∀ ts, Derives [.call] ts →
        Derives [.call] (ts ++ (us ++ vs)) ∧ TargetOf (ts ++ (us ++ vs)) e := by
    intro us vs e e' hus htarget hvs ts hts
    rw [← List.append_assoc]
    exact hvs (ts ++ us) (hts.call_append hus) (htarget ts hts)
  unfold Parser.callRest
  refine reads_accepts (by decide) (fun left m hleft hm => reads_sees fun b => ?_) ?_
  · extract_lets rest
    have hrest : ∀ args l, l ≤ m → Reads anywhere l 0 (rest args) fun e vs =>
        ∀ us k, k ≤ maxArguments → Derives [.listed k .asg] us →
          ∀ ts, Derives [.call] ts → Derives [.call] (ts ++ left :: (us ++ vs)) ∧
            TargetOf (ts ++ left :: (us ++ vs)) e := by
      intro args l hl
      refine reads_expect (by decide) fun right i hright hi => ?_
      refine (h.callRest i _ (by omega)).imp fun e ws hws us k hk hus ts hts => ?_
      have hargs : Derives [.suffix] (left :: (us ++ [right])) :=
        .of_production (.arguments hk) (.token hleft (hus.cons (.token hright .nil)))
      have hcall := hsuffix hargs (fun _ _ => by trivial) hws ts hts
      simpa using hcall
    split
    · refine (hrest [] m (Nat.le_refl m)).here.imp fun e vs hvs ts hts _ => ?_
      exact hvs [] 0 (Nat.zero_le _) (.of_production .listedNone .nil) ts hts
    · refine (h.arguments m 0 (by omega)).here.bind fun args l hl => ?_
      refine (hrest args l (by omega)).imp fun e vs hvs us hus ts hts _ => ?_
      obtain ⟨k, hk, hus⟩ := hus
      exact hvs us (k + 1) (by omega) hus ts hts
  · refine reads_accepts (by decide) (fun dot m hdot hm => ?_) (reads_pure fun ts hts htarget => ?_)
    · refine reads_expect (by decide) fun name l hname hl => ?_
      refine (h.callRest l _ (by omega)).imp fun e vs hvs ts hts _ => ?_
      have hproperty : Derives [.suffix] [dot, name] :=
        .of_production .property (.token hdot (.token hname .nil))
      refine hsuffix hproperty (fun ts hts => ?_) hvs ts hts
      exact ⟨ts, dot, name, hts, hdot, hname, rfl⟩
    · rw [List.append_nil]
      exact ⟨hts, htarget⟩

theorem arguments_succ (h : ReadsPhrases fuel) (count : Nat) (hn : 16 * n + 8 ≤ fuel + 1) :
    Reads anywhere n 0 (Parser.arguments (fuel + 1) count) fun _ ts =>
      ∃ k, count + (k + 1) ≤ maxArguments ∧ Derives [.listed (k + 1) .asg] ts := by
  unfold Parser.arguments
  extract_lets rest
  have hrest : Reads anywhere n 0 (rest ()) fun _ ts =>
      count < maxArguments → ∃ k, count + (k + 1) ≤ maxArguments ∧
        Derives [.listed (k + 1) .asg] ts := by
    refine Reads.bind (h.assignment n (by omega)) fun arg m hm => ?_
    refine reads_accepts (by decide) (fun comma l hcomma hl => ?_) (reads_pure ?_)
    · refine (h.arguments l _ (by omega)).bind fun args _ _ => reads_pure ?_
      rintro us ⟨k, hk, hus⟩ ts hts _
      exact ⟨k + 1, by omega,
        .of_production .listedMore (hts.cons (.token hcomma (hus.cons .nil)))⟩
    · intro ts hts hcount
      exact ⟨0, hcount, .of_production .listedOne (hts.cons .nil)⟩
  split
  · exact reads_peek fun t _ => reads_record _ _ (hrest.imp fun _ _ _ => trivial)
  · next hcount => exact hrest.imp fun _ ts hts => hts (Nat.lt_of_not_le hcount)

theorem primary_succ (h : ReadsPhrases fuel) (hn : 16 * n + 1 ≤ fuel + 1) :
    Reads anywhere n 0 (Parser.primary (fuel + 1)) fun e ts =>
      Derives [.primary] ts ∧ TargetOf ts e := by
  have hone : ∀ {t : Token} {k : Kind} {e : Expr Unit}, t.kind = k → k ≠ .endOfInput →
      Derives [.primary] [t] → TargetOf [t] e →
      Reads (· = t) n 0 (do
        let _ ← advance
        return e) fun e ts => Derives [.primary] ts ∧ TargetOf ts e := by
    intro t k e hk hend hts htarget
    refine reads_advance (fun u hu => by rw [hu, hk]; exact hend) fun u m hu _ => reads_pure ?_
    rw [hu]
    exact ⟨hts, htarget⟩
  have hliteral : ∀ {t : Token} {k : Kind}, t.kind = k → k ∈ Phrase.literals →
      Derives [.primary] [t] :=
    fun hk hmem => .of_production .constant (.of_production (.literal hmem) (.token hk .nil))
  unfold Parser.primary
  refine reads_peek fun t _ => ?_
  split
  · next hk => exact hone hk (by decide) (hliteral hk (by decide)) trivial
  · next hk => exact hone hk (by decide) (hliteral hk (by decide)) trivial
  · next hk => exact hone hk (by decide) (hliteral hk (by decide)) trivial
  · next hk => exact hone hk (by decide) (hliteral hk (by decide)) trivial
  · next hk => exact hone hk (by decide) (hliteral hk (by decide)) trivial
  · next hk =>
    exact hone hk (by decide) (.of_production .name (.token hk .nil)) ⟨t, hk, rfl⟩
  · next hk => exact hone hk (by decide) (.of_production .receiver (.token hk .nil)) trivial
  · next hk =>
    refine reads_advance (fun u hu => by rw [hu, hk]; decide) fun u m hu hm => ?_
    refine reads_expect (by decide) fun dot l hdot _ => ?_
    refine reads_expect (by decide) fun method _ hmethod _ => reads_pure ⟨?_, trivial⟩
    exact .of_production .inherited (.token (hu ▸ hk) (.token hdot (.token hmethod .nil)))
  · next hk =>
    refine reads_advance (fun u hu => by rw [hu, hk]; decide) fun u m hu hm => ?_
    refine Reads.bind (h.expression m (by omega)) fun inner l _ => ?_
    refine reads_expect (by decide) fun close _ hclose _ => reads_pure fun ts hts => ⟨?_, trivial⟩
    exact .of_production .group (.token (hu ▸ hk) (hts.cons (.token hclose .nil)))
  · next hk =>
    refine reads_advance (fun u hu => by rw [hu, hk]; decide) fun u m hu hm => ?_
    refine Reads.bind (reads_parameters (by omega)) fun params l hl => ?_
    refine Reads.bind (h.block l (by omega)) fun body _ _ => reads_lastStop fun _ => reads_pure ?_
    intro us hus ts hts
    exact ⟨.of_production .lambda (.token (hu ▸ hk) (hts.cons (hus.cons .nil))), trivial⟩
  · exact reads_fail _ _

end ReadsPhrases

/-- The reader reads the phrases of the grammar, at every fuel. -/
theorem readsPhrases (fuel : Nat) : ReadsPhrases fuel := by
  induction fuel with
  | zero => exact readsPhrases_zero
  | succ fuel ih =>
    exact {
      declaration := fun _ => ih.declaration_succ
      classDeclaration := fun _ => ih.classDeclaration_succ
      members := fun _ => ih.members_succ
      method := fun _ => ih.method_succ
      functionDeclaration := fun _ => ih.functionDeclaration_succ
      varDeclarations := fun _ => ih.varDeclarations_succ
      furtherVariables := fun _ => ih.furtherVariables_succ
      statement := fun _ => ih.statement_succ
      block := fun _ => ih.block_succ
      blockItems := fun _ => ih.blockItems_succ
      expressionStatement := fun _ => ih.expressionStatement_succ
      ifStatement := fun _ => ih.ifStatement_succ
      whileStatement := fun _ => ih.whileStatement_succ
      doStatement := fun _ => ih.doStatement_succ
      forStatement := fun _ => ih.forStatement_succ
      expression := fun _ => ih.expression_succ
      commas := fun _ left => ih.commas_succ left
      assignment := fun _ => ih.assignment_succ
      ternary := fun _ => ih.ternary_succ
      binary := fun _ power => ih.binary_succ power
      operators := fun _ power left => ih.operators_succ power left
      unary := fun _ => ih.unary_succ
      trailing := fun _ => ih.trailing_succ
      call := fun _ => ih.call_succ
      callRest := fun _ callee => ih.callRest_succ callee
      arguments := fun _ count => ih.arguments_succ count
      primary := fun _ => ih.primary_succ }

/-- The declarations up to the end of the input, which is then the current token. -/
theorem reads_declarations {fuel n : Nat} (hn : 16 * n + 12 ≤ fuel) :
    ReadsRow anywhere n 0 (declarations fuel) [.many [.decl]] := by
  induction fuel generalizing n with
  | zero => omega
  | succ fuel ih =>
    unfold declarations
    refine reads_atEnd fun b => ?_
    split
    · exact reads_pure .many_none
    · next hmore =>
      refine Reads.produce (Reads.weaken (ReadsRow.bind
        ((readsPhrases fuel).declaration n (by omega)) fun stmts m hm => ?_) fun t ht hend =>
          hmore (ht.2.mpr hend)) .manyMore
      exact ReadsRow.bind (ih (by omega)) fun _ _ _ => reads_pure .nil

end Parser

end Scriptlet

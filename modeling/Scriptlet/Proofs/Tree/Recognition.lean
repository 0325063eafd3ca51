import Scriptlet.Proofs.Tree.Meaning
import Scriptlet.Proofs.Tree.Movement

/-!
# Programs are read without a fault

What derives from the grammar is recognized: the function of the reader for a phrase takes its
tokens, finds no fault in them and yields one tree, whatever stands before them, and whatever comes
after them that the phrase could not go on with. Nor does it matter where the tokens are: moved
tokens yield the moved tree (`Recognizes`). Nothing is said about fuel here, since it never runs out
where a whole list of tokens is read.

The grammar is ambiguous where an `else` has two conditions before it. A statement is either closed,
so that an `else` may follow it, or open, so that with an `else` and another statement it is a
statement again (`StmtReadable`). An `else` after an open statement belongs to that statement, which
is why the induction also is on the number of tokens.
-/

namespace Scriptlet

namespace Cursor

/-- A place before some tokens. -/
def place (previous : Option Token) (faults : List Diagnostic) : List Token → Cursor
  | [] => ⟨previous, .missingEnd, [], faults⟩
  | t :: ts => ⟨previous, t, ts, faults⟩

/-- The last token before a place that lies behind some tokens. -/
def last (previous : Option Token) : List Token → Option Token
  | [] => previous
  | t :: ts => last (some t) ts

@[simp] theorem last_nil (previous : Option Token) : last previous [] = previous := rfl

@[simp] theorem last_cons (previous : Option Token) (t : Token) (ts : List Token) :
    last previous (t :: ts) = last (some t) ts :=
  rfl

@[simp] theorem last_append (previous : Option Token) (ts us : List Token) :
    last previous (ts ++ us) = last (last previous ts) us := by
  induction ts generalizing previous with
  | nil => rfl
  | cons t ts ih => exact ih (some t)

variable {previous : Option Token} {faults : List Diagnostic} {t : Token} {ts : List Token}

@[simp] theorem place_current : (place previous faults (t :: ts)).current = t := rfl

@[simp] theorem place_sees (kind : Kind) :
    (place previous faults (t :: ts)).sees kind = decide (t.kind = kind) :=
  rfl

@[simp] theorem place_atEnd :
    (place previous faults (t :: ts)).atEnd = decide (t.kind = .endOfInput) :=
  rfl

theorem place_advance (ht : t.kind ≠ .endOfInput) (hts : ts ≠ []) :
    (place previous faults (t :: ts)).advance = place (some t) faults ts := by
  obtain ⟨u, us, rfl⟩ := List.exists_cons_of_ne_nil hts
  unfold advance
  rw [place_atEnd, if_neg (by simpa using ht)]
  rfl

/-- Where the token `t`, or the last one of some tokens after it, ends. -/
def stopAfter (t : Token) : List Token → Position
  | [] => t.span.stop
  | u :: us => stopAfter u us

theorem lastStop_place (g : Position → Position) (t : Token) (ts : List Token)
    (rest : List Token) :
    (place (last (some (t.move g)) (ts.map (·.move g))) faults rest).lastStop =
      g (stopAfter t ts) := by
  induction ts generalizing t with
  | nil => cases rest <;> rfl
  | cons u us ih => exact ih u

theorem lastStop_token (g : Position → Position) (t : Token) (rest : List Token) :
    (place (some (t.move g)) faults rest).lastStop = g t.span.stop :=
  lastStop_place g t [] rest

end Cursor

/-- An attempt that ends like another one, unless it lacks fuel. -/
def Parsed.Becomes {α : Type} (r r' : Parsed α) : Prop := r = .starved ∨ r = r'

namespace Parser

variable {α β : Type}

theorem becomes_refl (r : Parsed α) : r.Becomes r := .inr rfl

theorem Becomes.trans {r r' r'' : Parsed α} (h : r.Becomes r') (h' : r'.Becomes r'') :
    r.Becomes r'' := by
  rcases h with rfl | rfl
  · exact .inl rfl
  · exact h'

theorem Becomes.bind {p : Parser α} {f : α → Parser β} {c c' : Cursor} {a : α} {r : Parsed β}
    (h : (p c).Becomes (.ok a c')) (hf : (f a c').Becomes r) : ((p >>= f) c).Becomes r := by
  change (Parser.bind p f c).Becomes r
  unfold Parser.bind
  rcases h with h | h
  · rw [h]; exact .inl rfl
  · rw [h]; exact hf

theorem Becomes.recovering {p : Parser (List α)} {c c' : Cursor} {as : List α}
    (h : (p c).Becomes (.ok as c')) : (recovering p c).Becomes (.ok as c') := by
  unfold Parser.recovering
  rcases h with h | h
  · rw [h]; exact .inl rfl
  · rw [h]; exact .inr rfl

/-! ## Taking tokens -/

section

variable {f : Token → Parser β} {previous : Option Token} {faults : List Diagnostic} {t : Token}
  {ts : List Token} {g : Position → Position}

theorem advance_bind (ht : t.kind ≠ .endOfInput) (hts : ts ≠ []) :
    (advance >>= f) (.place previous faults (t.move g :: ts)) =
      f (t.move g) (.place (some (t.move g)) faults ts) := by
  have hmove : (t.move g).kind ≠ .endOfInput := ht
  rw [← Cursor.place_advance hmove hts]
  rfl

theorem expect_bind {kind : Kind} {what : Expected} (ht : t.kind = kind)
    (hk : kind ≠ .endOfInput) (hts : ts ≠ []) :
    (expect kind what >>= f) (.place previous faults (t.move g :: ts)) =
      f (t.move g) (.place (some (t.move g)) faults ts) := by
  have hmove : (t.move g).kind ≠ .endOfInput := ht ▸ hk
  rw [← Cursor.place_advance hmove hts]
  change Parser.bind (expect kind what) f _ = _
  unfold Parser.bind expect
  rw [Cursor.place_sees, Token.relocate_kind, if_pos (decide_eq_true ht)]
  rfl

theorem accepts_bind {kind : Kind} {f : Bool → Parser β} (ht : t.kind = kind)
    (hk : kind ≠ .endOfInput) (hts : ts ≠ []) :
    (accepts kind >>= f) (.place previous faults (t.move g :: ts)) =
      f true (.place (some (t.move g)) faults ts) := by
  have hmove : (t.move g).kind ≠ .endOfInput := ht ▸ hk
  rw [← Cursor.place_advance hmove hts]
  change Parser.bind (accepts kind) f _ = _
  unfold Parser.bind accepts
  rw [Cursor.place_sees, Token.relocate_kind, if_pos (decide_eq_true ht)]

theorem not_accepts_bind (kind : Kind) {f : Bool → Parser β} (ht : t.kind ≠ kind) :
    (accepts kind >>= f) (.place previous faults (t :: ts)) =
      f false (.place previous faults (t :: ts)) := by
  change Parser.bind (accepts kind) f _ = _
  unfold Parser.bind accepts
  rw [Cursor.place_sees, if_neg (by simpa using ht)]

theorem lastStop_bind {f : Position → Parser β} (c : Cursor) :
    (lastStop >>= f) c = f c.lastStop c :=
  rfl

theorem atEnd_bind {f : Bool → Parser β} (c : Cursor) : (atEnd >>= f) c = f c.atEnd c := rfl

theorem pure_bind (a : α) (f : α → Parser β) (c : Cursor) : (pure a >>= f) c = f a c := rfl

end

/-! ## What may follow -/

/-- The first of some tokens is of a kind that may come next. -/
def Follows (F : Kind → Bool) : List Token → Prop
  | [] => False
  | t :: _ => F t.kind

/-- Anything. -/
def any : Kind → Bool := fun _ => true

/-- Anything that does not go on with a choice. -/
def notElse : Kind → Bool := fun k => k != .kwElse

/-- How loosely a kind of token goes on with the expression before it; zero if it never does. -/
def tier : Kind → Nat
  | .leftParen | .dot => 1
  | .plusPlus | .minusMinus => 2
  | .kwOr | .kwAnd | .equal | .notEqual | .less | .lessEqual | .greater | .greaterEqual | .plus
  | .minus | .star | .slash | .starStar => 3
  | .question => 4
  | .assign | .plusAssign | .minusAssign | .starAssign | .slashAssign | .starStarAssign => 5
  | .comma => 6
  | _ => 0

/-- What ends an expression of some tier. -/
def stops (n : Nat) : Kind → Bool := fun k => tier k == 0 || n < tier k

namespace Follows

variable {F G : Kind → Bool} {ts us : List Token}

theorem ne_nil (h : Follows F ts) : ts ≠ [] := by
  rintro rfl
  exact h

theorem mono (h : Follows F ts) (hFG : ∀ k, F k → G k) : Follows G ts := by
  cases ts with
  | nil => exact h
  | cons t ts => exact hFG _ h

theorem ne {t : Token} {k : Kind} (h : Follows F (t :: ts)) (hk : F k = false) : t.kind ≠ k := by
  rintro rfl
  exact absurd (h.symm.trans hk) (by decide)

theorem of_ne_nil (h : ts ≠ []) : Follows any ts := by
  obtain ⟨t, ts, rfl⟩ := List.exists_cons_of_ne_nil h
  rfl

theorem cons {t : Token} {k : Kind} (ht : t.kind = k) (hk : F k) : Follows F (t :: ts) := by
  change F t.kind = true
  rwa [ht]

/-- The first token of a phrase comes next. -/
theorem phrase {p : Phrase} (g : Position → Position) (h : p.Begins ts)
    (hp : ∀ k ∈ p.starts, F k) : Follows F (ts.map (·.move g) ++ us) := by
  cases ts with
  | nil => exact h.elim
  | cons t ts => exact hp _ h.1

/-- The first token of a repetition comes next, or what comes after it. -/
theorem repeated {C : List Token → Prop} (g : Position → Position) (h : Repeated C ts)
    (hC : ∀ ts, C ts → Follows F ts) (hus : Follows F us) :
    Follows F (ts.map (·.move g) ++ us) := by
  induction h with
  | nil => exact hus
  | @cons ts ts' hts _ _ =>
    have hF := hC ts hts
    obtain ⟨t, ts, rfl⟩ := List.exists_cons_of_ne_nil hF.ne_nil
    exact hF

end Follows

theorem begins_current {p : Phrase} {previous : Option Token} {faults : List Diagnostic}
    {ts rest : List Token} (g : Position → Position) (h : p.Begins ts) :
    (Cursor.place previous faults (ts.map (·.move g) ++ rest)).current.kind ∈ p.starts := by
  cases ts with
  | nil => exact h.elim
  | cons t ts => exact h.1

/-- A phrase does not begin with other kinds of tokens. -/
theorem not_sees_bind {p : Phrase} {f : Bool → Parser β} {previous : Option Token}
    {faults : List Diagnostic} {ts rest : List Token} (kind : Kind) (g : Position → Position)
    (h : p.Begins ts) (hk : kind ∉ p.starts) :
    (sees kind >>= f) (.place previous faults (ts.map (·.move g) ++ rest)) =
      f false (.place previous faults (ts.map (·.move g) ++ rest)) := by
  rw [sees_bind]
  cases ts with
  | nil => exact h.elim
  | cons t ts =>
    have hsees : decide (t.kind = kind) = false := decide_eq_false fun ht => hk (ht ▸ h.1)
    exact congrArg (f · _) hsees

theorem not_atEnd_bind {p : Phrase} {f : Bool → Parser β} {previous : Option Token}
    {faults : List Diagnostic} {ts rest : List Token} (g : Position → Position)
    (h : p.Begins ts) (hk : Kind.endOfInput ∉ p.starts) :
    (atEnd >>= f) (.place previous faults (ts.map (·.move g) ++ rest)) =
      f false (.place previous faults (ts.map (·.move g) ++ rest)) :=
  not_sees_bind .endOfInput g h hk

theorem not_accepts_phrase {p : Phrase} {f : Bool → Parser β} {previous : Option Token}
    {faults : List Diagnostic} {ts rest : List Token} (kind : Kind) (g : Position → Position)
    (h : p.Begins ts) (hk : kind ∉ p.starts) :
    (accepts kind >>= f) (.place previous faults (ts.map (·.move g) ++ rest)) =
      f false (.place previous faults (ts.map (·.move g) ++ rest)) := by
  cases ts with
  | nil => exact h.elim
  | cons t ts => exact not_accepts_bind kind fun ht => hk (ht ▸ h.1)

theorem stops_mono {m n : Nat} (h : m ≤ n) (k : Kind) (hk : stops n k) : stops m k := by
  simp only [stops, Bool.or_eq_true, beq_iff_eq, decide_eq_true_eq] at hk ⊢
  omega

/-! ## Recognition -/

/-- The reader `p` takes the tokens `ts`, wherever they are moved to, and yields `a`, if what comes
next is one of `F`. -/
def Recognizes (p : Nat → Parser α) (F : Kind → Bool) (ts : List Token)
    (a : (Position → Position) → α) : Prop :=
  ∀ g fuel previous faults rest, Follows F rest →
    (p fuel (.place previous faults (ts.map (·.move g) ++ rest))).Becomes
      (.ok (a g) (.place (Cursor.last previous (ts.map (·.move g))) faults rest))

theorem Recognizes.bind {p : Nat → Parser α} {F : Kind → Bool} {ts : List Token}
    {a : (Position → Position) → α} {f : α → Parser β} {r : Parsed β} {g : Position → Position}
    {fuel : Nat} {previous : Option Token} {faults : List Diagnostic} {rest : List Token}
    (h : Recognizes p F ts a) (hrest : Follows F rest)
    (hf : (f (a g) (.place (Cursor.last previous (ts.map (·.move g))) faults rest)).Becomes r) :
    ((p fuel >>= f) (.place previous faults (ts.map (·.move g) ++ rest))).Becomes r :=
  Becomes.bind (h g fuel previous faults rest hrest) hf

theorem Recognizes.mono {p : Nat → Parser α} {F G : Kind → Bool} {ts : List Token}
    {a : (Position → Position) → α} (h : Recognizes p F ts a) (hGF : ∀ k, G k → F k) :
    Recognizes p G ts a :=
  fun g fuel previous faults rest hrest => h g fuel previous faults rest (hrest.mono hGF)

/-! ## Primary expressions -/

section

variable {t : Token} {ts us : List Token} {e : Expr Unit}

/-- A primary expression that is one token. -/
theorem recognizes_single (ht : t.kind ≠ .endOfInput)
    (h : ∀ g fuel c, c.current = t.move g →
      primary (fuel + 1) c = (advance >>= fun _ => pure (e.move g)) c) :
    Recognizes primary any [t] (e.move ·) := by
  intro g fuel previous faults rest hrest
  cases fuel with
  | zero => exact .inl rfl
  | succ fuel =>
    refine .inr ?_
    simp only [List.map_cons, List.map_nil, List.cons_append, List.nil_append]
    rw [h g fuel _ rfl, advance_bind ht hrest.ne_nil]
    rfl

theorem recognizes_literal (ht : t.kind ∈ Phrase.literals) :
    ∃ e : Expr Unit, Recognizes primary any [t] (e.move ·) := by
  simp only [Phrase.literals, List.mem_cons, List.not_mem_nil, or_false] at ht
  rcases ht with ht | ht | ht | ht | ht
  · refine ⟨.literal t.span (t.literal.getD .none), recognizes_single (by simp [ht]) ?_⟩
    intro g fuel c hc
    simp only [primary, peek_bind, hc, Token.relocate_kind, ht]
    rfl
  · refine ⟨.literal t.span (t.literal.getD .none), recognizes_single (by simp [ht]) ?_⟩
    intro g fuel c hc
    simp only [primary, peek_bind, hc, Token.relocate_kind, ht]
    rfl
  · refine ⟨.literal t.span (.bool true), recognizes_single (by simp [ht]) ?_⟩
    intro g fuel c hc
    simp only [primary, peek_bind, hc, Token.relocate_kind, ht]
    rfl
  · refine ⟨.literal t.span (.bool false), recognizes_single (by simp [ht]) ?_⟩
    intro g fuel c hc
    simp only [primary, peek_bind, hc, Token.relocate_kind, ht]
    rfl
  · refine ⟨.literal t.span .none, recognizes_single (by simp [ht]) ?_⟩
    intro g fuel c hc
    simp only [primary, peek_bind, hc, Token.relocate_kind, ht]
    rfl

theorem recognizes_name (ht : t.kind = .identifier) :
    Recognizes primary any [t] ((Expr.name t.span t ()).move ·) := by
  refine recognizes_single (by simp [ht]) fun g fuel c hc => ?_
  simp only [primary, peek_bind, hc, Token.relocate_kind, ht]
  rfl

theorem recognizes_receiver (ht : t.kind = .kwThis) :
    Recognizes primary any [t] ((Expr.receiver t.span t ()).move ·) := by
  refine recognizes_single (by simp [ht]) fun g fuel c hc => ?_
  simp only [primary, peek_bind, hc, Token.relocate_kind, ht]
  rfl

theorem recognizes_inherited {dot method : Token} (ht : t.kind = .kwSuper)
    (hdot : dot.kind = .dot) (hmethod : method.kind = .identifier) :
    Recognizes primary any [t, dot, method]
      ((Expr.inherited ⟨t.span.start, method.span.stop⟩ t method ()).move ·) := by
  intro g fuel previous faults rest hrest
  cases fuel with
  | zero => exact .inl rfl
  | succ fuel =>
    refine .inr ?_
    simp only [List.map_cons, List.map_nil, List.cons_append, List.nil_append]
    simp only [primary, peek_bind, Cursor.place_current, Token.relocate_kind, ht]
    rw [advance_bind (by simp [ht]) (by simp), expect_bind hdot (by decide) (by simp),
      expect_bind hmethod (by decide) hrest.ne_nil]
    rfl

theorem recognizes_group {close : Token} (ht : t.kind = .leftParen)
    (h : Recognizes expression (stops 6) ts (e.move ·)) (hclose : close.kind = .rightParen) :
    Recognizes primary any (t :: (ts ++ [close]))
      ((Expr.group ⟨t.span.start, close.span.stop⟩ e).move ·) := by
  intro g fuel previous faults rest hrest
  cases fuel with
  | zero => exact .inl rfl
  | succ fuel =>
    simp only [List.map_cons, List.map_append, List.map_nil, List.cons_append, List.append_assoc,
      List.nil_append]
    simp only [primary, peek_bind, Cursor.place_current, Token.relocate_kind, ht]
    rw [advance_bind (by simp [ht]) (by simp)]
    refine h.bind (.cons hclose (by decide)) ?_
    rw [expect_bind hclose (by decide) hrest.ne_nil]
    simp only [Cursor.last_cons, Cursor.last_append, Cursor.last_nil]
    exact becomes_refl _

theorem recognizes_lambda {params : List Token} {body : List (Stmt Unit)} (ht : t.kind = .kwFun)
    (hparams : Recognizes parameters any ts (fun g => params.map (·.move g)))
    (hbegins : Phrase.block.Begins us)
    (hbody : Recognizes block any us (Stmt.moveList · body)) :
    Recognizes primary any (t :: (ts ++ us))
      ((Expr.lambda (.mk ⟨t.span.start, Cursor.stopAfter t (ts ++ us)⟩ t params body
        false)).move ·) := by
  intro g fuel previous faults rest hrest
  cases fuel with
  | zero => exact .inl rfl
  | succ fuel =>
    simp only [List.map_cons, List.map_append, List.cons_append, List.append_assoc]
    simp only [primary, peek_bind, Cursor.place_current, Token.relocate_kind, ht]
    rw [advance_bind (by simp [ht]) (by simp [hrest.ne_nil])]
    refine hparams.bind (.phrase g hbegins (by decide)) (hbody.bind hrest ?_)
    rw [lastStop_bind, ← Cursor.last_append, ← List.map_append, Cursor.lastStop_place]
    exact becomes_refl _

/-! ## Calls -/

/-- The tokens of an expression to which calls and properties may still be added. -/
def CallsTo (ts : List Token) (e : Expr Unit) : Prop :=
  ∀ g fuel previous faults rest, rest ≠ [] → ∃ fuel',
    (call fuel (.place previous faults (ts.map (·.move g) ++ rest))).Becomes
      (callRest fuel' (e.move g) (.place (Cursor.last previous (ts.map (·.move g))) faults rest))

/-- The tokens of a call or a property, which make another expression of one. -/
def Suffixes (ts : List Token) (add : Expr Unit → Expr Unit) : Prop :=
  ∀ e g fuel previous faults rest, rest ≠ [] → ∃ fuel',
    (callRest fuel (Expr.move g e) (.place previous faults (ts.map (·.move g) ++ rest))).Becomes
      (callRest fuel' ((add e).move g)
        (.place (Cursor.last previous (ts.map (·.move g))) faults rest))

theorem Recognizes.callsTo (h : Recognizes primary any ts (e.move ·)) : CallsTo ts e := by
  intro g fuel previous faults rest hrest
  cases fuel with
  | zero => exact ⟨0, .inl rfl⟩
  | succ fuel => exact ⟨fuel, h.bind (.of_ne_nil hrest) (becomes_refl _)⟩

theorem CallsTo.suffix {add : Expr Unit → Expr Unit} (h : CallsTo ts e) (h' : Suffixes us add) :
    CallsTo (ts ++ us) (add e) := by
  intro g fuel previous faults rest hrest
  simp only [List.map_append, List.append_assoc, Cursor.last_append]
  obtain ⟨fuel₁, h₁⟩ := h g fuel previous faults (us.map (·.move g) ++ rest) (by simp [hrest])
  obtain ⟨fuel₂, h₂⟩ := h' e g fuel₁ _ faults rest hrest
  exact ⟨fuel₂, Becomes.trans h₁ h₂⟩

theorem suffixes_property {dot name : Token} (hdot : dot.kind = .dot)
    (hname : name.kind = .identifier) :
    Suffixes [dot, name] fun e => .get ⟨e.span.start, name.span.stop⟩ e name := by
  intro e g fuel previous faults rest hrest
  cases fuel with
  | zero => exact ⟨0, .inl rfl⟩
  | succ fuel =>
    refine ⟨fuel, .inr ?_⟩
    simp only [List.map_cons, List.map_nil, List.cons_append, List.nil_append, callRest]
    rw [not_accepts_bind .leftParen (by simp [hdot])]
    simp only [Bool.false_eq_true, ↓reduceIte]
    rw [accepts_bind hdot (by decide) (by simp)]
    simp only [↓reduceIte]
    rw [expect_bind hname (by decide) hrest, Expr.relocate_span]
    rfl

theorem arguments_eq {count : Nat} (fuel : Nat) (h : count < maxArguments) :
    arguments (fuel + 1) count = (do
      let arg ← assignment fuel
      if ← accepts .comma then
        let args ← arguments fuel (count + 1)
        return arg :: args
      else return [arg]) := by
  rw [arguments, if_neg (by omega)]

theorem recognizes_arguments {n count : Nat}
    (h : Enumerated (fun ts => ∃ e : Expr Unit, Recognizes assignment (stops 5) ts (e.move ·))
      (n + 1) ts) (hn : count + (n + 1) ≤ maxArguments) :
    ∃ es : List (Expr Unit), Recognizes (arguments · count) (stops 6) ts (Expr.moveList · es) := by
  induction n generalizing count ts with
  | zero =>
    cases h with
    | one h =>
      obtain ⟨e, he⟩ := h
      refine ⟨[e], fun g fuel previous faults rest hrest => ?_⟩
      cases fuel with
      | zero => exact .inl rfl
      | succ fuel =>
        dsimp only
        rw [arguments_eq fuel (by omega)]
        refine he.bind (hrest.mono (stops_mono (by decide))) ?_
        obtain ⟨u, rest, rfl⟩ := List.exists_cons_of_ne_nil hrest.ne_nil
        rw [not_accepts_bind .comma (hrest.ne (by decide))]
        exact becomes_refl _
  | succ n ih =>
    cases h with
    | more h hcomma hmore =>
      obtain ⟨e, he⟩ := h
      obtain ⟨es, hes⟩ := @ih _ (count + 1) hmore (by omega)
      refine ⟨e :: es, fun g fuel previous faults rest hrest => ?_⟩
      cases fuel with
      | zero => exact .inl rfl
      | succ fuel =>
        simp only [List.map_append, List.map_cons, List.append_assoc, List.cons_append,
          Cursor.last_append, Cursor.last_cons]
        rw [arguments_eq fuel (by omega)]
        refine he.bind (.cons hcomma (by decide)) ?_
        rw [accepts_bind hcomma (by decide) (by simp [hrest.ne_nil])]
        exact hes.bind hrest (becomes_refl _)

theorem suffixes_arguments {left right : Token} {n : Nat} (hleft : left.kind = .leftParen)
    (h : Enumerated (fun ts => ∃ e : Expr Unit, Recognizes assignment (stops 5) ts (e.move ·)) n ts)
    (hn : n ≤ maxArguments) (hbegins : n = 0 ∨ Phrase.asg.Begins ts)
    (hright : right.kind = .rightParen) :
    ∃ add, Suffixes (left :: (ts ++ [right])) add := by
  cases n with
  | zero =>
    cases h
    refine ⟨fun e => .call ⟨e.span.start, right.span.stop⟩ e right [], ?_⟩
    intro e g fuel previous faults rest hrest
    cases fuel with
    | zero => exact ⟨0, .inl rfl⟩
    | succ fuel =>
      refine ⟨fuel, .inr ?_⟩
      simp only [List.nil_append, List.map_cons, List.map_nil, List.cons_append, callRest]
      rw [accepts_bind hleft (by decide) (by simp)]
      simp only [↓reduceIte, sees_bind, Cursor.place_sees, Token.relocate_kind, hright, decide_true]
      rw [pure_bind, expect_bind hright (by decide) hrest, Expr.relocate_span]
      rfl
  | succ n =>
    obtain ⟨es, hes⟩ := @recognizes_arguments _ _ 0 h (by omega)
    refine ⟨fun e => .call ⟨e.span.start, right.span.stop⟩ e right es, ?_⟩
    intro e g fuel previous faults rest hrest
    cases fuel with
    | zero => exact ⟨0, .inl rfl⟩
    | succ fuel =>
      refine ⟨fuel, ?_⟩
      simp only [List.map_cons, List.map_append, List.map_nil, List.cons_append, List.append_assoc,
        List.nil_append, callRest]
      rw [accepts_bind hleft (by decide) (by simp)]
      have hbegins : Phrase.asg.Begins ts := hbegins.resolve_left (Nat.succ_ne_zero n)
      simp only [↓reduceIte]
      rw [not_sees_bind .rightParen g hbegins (by decide)]
      refine hes.bind (.cons hright (by decide)) ?_
      rw [expect_bind hright (by decide) hrest, Expr.relocate_span]
      simp only [Cursor.last_cons, Cursor.last_append, Cursor.last_nil]
      exact becomes_refl _

/-! ## Operators -/

theorem callRest_stop {fuel : Nat} {previous : Option Token} {faults : List Diagnostic}
    {rest : List Token} (hrest : Follows (stops 1) rest) :
    (callRest fuel e (.place previous faults rest)).Becomes
      (.ok e (.place previous faults rest)) := by
  cases fuel with
  | zero => exact .inl rfl
  | succ fuel =>
    obtain ⟨u, rest, rfl⟩ := List.exists_cons_of_ne_nil hrest.ne_nil
    rw [callRest, not_accepts_bind .leftParen (hrest.ne (by decide)), if_neg Bool.false_ne_true,
      not_accepts_bind .dot (hrest.ne (by decide))]
    exact becomes_refl _

theorem unary_eq_trailing {c : Cursor} (fuel : Nat) (h : c.current.kind ∈ Phrase.call.starts) :
    unary (fuel + 1) c = trailing fuel c := by
  rw [unary, peek_bind]
  cases hk : c.current.kind
  case bang | minus | plusPlus | minusMinus => rw [hk] at h; exact absurd h (by decide)
  all_goals rfl

theorem unary_eq_prefixed {c : Cursor} (fuel : Nat) (h : c.current.kind ∈ Phrase.prefixOps) :
    unary (fuel + 1) c = (advance >>= fun op => unary fuel >>= fun operand =>
      pure (.unary ⟨op.span.start, operand.span.stop⟩ op operand false)) c := by
  rw [unary, peek_bind]
  cases hk : c.current.kind
  case bang | minus | plusPlus | minusMinus => rfl
  all_goals rw [hk] at h; exact absurd h (by decide)

theorem trailing_calls (h : CallsTo ts e) {g : Position → Position} {fuel : Nat}
    {previous : Option Token} {faults : List Diagnostic} {rest : List Token} {r : Parsed (Expr Unit)}
    (hrest : Follows (stops 1) rest)
    (hr : ((do
      let op ← peek
      if op.kind = .plusPlus || op.kind = .minusMinus then
        let _ ← advance
        return .unary ⟨(e.move g).span.start, op.span.stop⟩ op (e.move g) true
      else return e.move g : Parser (Expr Unit))
        (.place (Cursor.last previous (ts.map (·.move g))) faults rest)).Becomes r) :
    (trailing fuel (.place previous faults (ts.map (·.move g) ++ rest))).Becomes r := by
  cases fuel with
  | zero => exact .inl rfl
  | succ fuel =>
    obtain ⟨fuel', h'⟩ := h g fuel previous faults rest hrest.ne_nil
    rw [trailing]
    exact Becomes.bind (Becomes.trans h' (callRest_stop hrest)) hr

theorem CallsTo.recognizes (h : CallsTo ts e) (hbegins : Phrase.call.Begins ts) :
    Recognizes unary (stops 2) ts (e.move ·) := by
  intro g fuel previous faults rest hrest
  cases fuel with
  | zero => exact .inl rfl
  | succ fuel =>
    rw [unary_eq_trailing fuel (begins_current g hbegins)]
    refine trailing_calls h (hrest.mono (stops_mono (by decide))) ?_
    obtain ⟨u, rest, rfl⟩ := List.exists_cons_of_ne_nil hrest.ne_nil
    have hplus : u.kind ≠ .plusPlus := hrest.ne (by decide)
    have hminus : u.kind ≠ .minusMinus := hrest.ne (by decide)
    rw [peek_bind, Cursor.place_current, if_neg (by simp [hplus, hminus])]
    exact becomes_refl _

theorem CallsTo.recognizes_step {op : Token} (h : CallsTo ts e) (hbegins : Phrase.call.Begins ts)
    (hop : op.kind ∈ Phrase.stepOps) :
    Recognizes unary any (ts ++ [op])
      ((Expr.unary ⟨e.span.start, op.span.stop⟩ op e true).move ·) := by
  intro g fuel previous faults rest hrest
  have hend : op.kind ≠ .endOfInput := fun hk => absurd (hk ▸ hop) (by decide)
  have hstops : stops 1 op.kind := by
    revert hop
    cases op.kind <;> decide
  have hkind : (op.move g).kind = .plusPlus ∨ (op.move g).kind = .minusMinus := by
    simpa [Phrase.stepOps] using hop
  cases fuel with
  | zero => exact .inl rfl
  | succ fuel =>
    simp only [List.map_append, List.map_cons, List.map_nil, List.append_assoc, List.cons_append,
      List.nil_append]
    rw [unary_eq_trailing fuel (begins_current g hbegins)]
    refine trailing_calls h (.cons rfl hstops) ?_
    rw [peek_bind, Cursor.place_current,
      if_pos (Bool.or_eq_true_iff.mpr (hkind.imp decide_eq_true decide_eq_true)),
      advance_bind hend hrest.ne_nil]
    simp only [Cursor.last_append, Cursor.last_cons, Cursor.last_nil, Expr.relocate_span]
    exact becomes_refl _

theorem Recognizes.prefixed {op : Token} (hop : op.kind ∈ Phrase.prefixOps)
    (h : Recognizes unary (stops 2) ts (e.move ·)) :
    Recognizes unary (stops 2) (op :: ts)
      ((Expr.unary ⟨op.span.start, e.span.stop⟩ op e false).move ·) := by
  intro g fuel previous faults rest hrest
  cases fuel with
  | zero => exact .inl rfl
  | succ fuel =>
    simp only [List.map_cons, List.cons_append]
    have hend : op.kind ≠ .endOfInput := fun hk => absurd (hk ▸ hop) (by decide)
    rw [unary_eq_prefixed fuel hop, advance_bind hend (by simp [hrest.ne_nil])]
    refine h.bind hrest ?_
    rw [Expr.relocate_span]
    exact becomes_refl _

/-- A reader of what follows an expression takes the tokens `ts` and makes `e` of `left`. -/
def Extends (p : Nat → Expr Unit → Parser (Expr Unit)) (F : Kind → Bool) (ts : List Token)
    (left e : Expr Unit) : Prop :=
  ∀ g fuel previous faults rest, Follows F rest →
    (p fuel (left.move g) (.place previous faults (ts.map (·.move g) ++ rest))).Becomes
      (.ok (e.move g) (.place (Cursor.last previous (ts.map (·.move g))) faults rest))

/-- An operator with the operand after it. -/
structure Operand where
  op : Token
  tokens : List Token
  expr : Expr Unit
  operator : op.kind ∈ Phrase.infixOps
  recognized : Recognizes unary (stops 2) tokens (expr.move ·)

namespace Operand

/-- The tokens of operators and operands. -/
def flat (os : List Operand) : List Token := os.flatMap fun o => o.op :: o.tokens

@[simp] theorem flat_nil : flat [] = [] := rfl

@[simp] theorem flat_cons (o : Operand) (os : List Operand) :
    flat (o :: os) = o.op :: (o.tokens ++ flat os) :=
  rfl

@[simp] theorem flat_append (os os' : List Operand) : flat (os ++ os') = flat os ++ flat os' :=
  List.flatMap_append

end Operand

/-- What ends the operators that bind more tightly than `power`. -/
def binds (power : Nat) : Kind → Bool := fun k => stops 2 k && bindingPower k ≤ power

theorem move_combine (g : Position → Position) (left : Expr Unit) (op : Token)
    (right : Expr Unit) :
    (combine left op right).move g = combine (left.move g) (op.move g) (right.move g) := by
  unfold combine
  simp only [Token.relocate_kind, Expr.relocate_span]
  split
  · rfl
  · rfl

theorem operators_stop {power fuel : Nat} {previous : Option Token} {faults : List Diagnostic}
    {rest : List Token} (hrest : Follows (binds power) rest) :
    (operators fuel power e (.place previous faults rest)).Becomes
      (.ok e (.place previous faults rest)) := by
  cases fuel with
  | zero => exact .inl rfl
  | succ fuel =>
    obtain ⟨u, rest, rfl⟩ := List.exists_cons_of_ne_nil hrest.ne_nil
    have hpower : bindingPower u.kind ≤ power :=
      of_decide_eq_true (Bool.and_eq_true_iff.mp hrest).2
    rw [operators, peek_bind]
    exact .inr (congrFun (if_pos hpower) _)

theorem Operand.follows {F : Kind → Bool} {os : List Operand} {rest : List Token}
    (g : Position → Position) (hos : ∀ o ∈ os.head?, F o.op.kind) (hrest : Follows F rest) :
    Follows F ((flat os).map (·.move g) ++ rest) := by
  cases os with
  | nil => exact hrest
  | cons o os => exact .cons rfl (hos o rfl)

theorem stops_of_infixOps : ∀ k ∈ Phrase.infixOps, stops 2 k := by decide

theorem extends_nil (power : Nat) (left : Expr Unit) :
    Extends (operators · power) (binds power) [] left left := by
  intro g fuel previous faults rest hrest
  exact operators_stop hrest

theorem recognizes_binary {power : Nat} {left : Expr Unit}
    (h : Recognizes unary (stops 2) ts (left.move ·))
    (h' : Extends (operators · power) (binds power) us left e)
    (hus : ∀ g rest, Follows (binds power) rest → Follows (stops 2) (us.map (·.move g) ++ rest)) :
    Recognizes (binary · power) (binds power) (ts ++ us) (e.move ·) := by
  intro g fuel previous faults rest hrest
  cases fuel with
  | zero => exact .inl rfl
  | succ fuel =>
    simp only [List.map_append, List.append_assoc, Cursor.last_append]
    rw [Parser.binary]
    exact h.bind (hus g rest hrest) (h' g fuel _ faults rest hrest)

/-- An operator that binds more tightly than `power`, with its right side. -/
theorem extends_operator {power : Nat} {op : Token} {left right : Expr Unit}
    (hpower : power < bindingPower op.kind)
    (h : Recognizes (binary · (bindingPower op.kind)) (binds (bindingPower op.kind)) ts
      (right.move ·))
    (h' : Extends (operators · power) (binds power) us (combine left op right) e)
    (hus : ∀ g rest, Follows (binds power) rest →
      Follows (binds (bindingPower op.kind)) (us.map (·.move g) ++ rest)) :
    Extends (operators · power) (binds power) (op :: (ts ++ us)) left e := by
  intro g fuel previous faults rest hrest
  have hend : op.kind ≠ .endOfInput := fun hk => by rw [hk] at hpower; cases hpower
  cases fuel with
  | zero => exact .inl rfl
  | succ fuel =>
    simp only [List.map_cons, List.map_append, List.cons_append, List.append_assoc,
      Cursor.last_cons, Cursor.last_append]
    rw [operators, peek_bind]
    simp only [Cursor.place_current, Token.relocate_kind, Nat.not_le.mpr hpower, ↓reduceIte]
    rw [advance_bind hend (by simp [hrest.ne_nil])]
    refine h.bind (hus g rest hrest) ?_
    rw [← move_combine]
    exact h' g fuel _ faults rest hrest

/-- Of some operators and operands, `operators` takes those up to the first operator that binds no
more tightly than `power`. -/
theorem extends_operators (os : List Operand) (power : Nat) (left : Expr Unit) :
    ∃ taken rest e, os = taken ++ rest ∧ (∀ o ∈ rest.head?, bindingPower o.op.kind ≤ power) ∧
      Extends (operators · power) (binds power) (Operand.flat taken) left e := by
  -- The operand to the right of an operator takes some of them, and this goes on with the others.
  generalize hn : os.length = n
  induction n using Nat.strongRecOn generalizing os power left with
  | ind n ih =>
    subst hn
    cases os with
    | nil => exact ⟨[], [], left, rfl, by simp, extends_nil power left⟩
    | cons o os =>
      by_cases hpower : bindingPower o.op.kind ≤ power
      · refine ⟨[], o :: os, left, rfl, fun o' ho' => ?_, extends_nil power left⟩
        cases ho'
        exact hpower
      · obtain ⟨inner, rest, right, rfl, hhead, hinner⟩ :=
          ih os.length (Nat.lt_succ_self _) os (bindingPower o.op.kind) o.expr rfl
        have hless : rest.length < (o :: (inner ++ rest)).length := by
          simp only [List.length_cons, List.length_append]
          omega
        obtain ⟨outer, rest, e, rfl, hhead', houter⟩ :=
          ih rest.length hless rest power (combine left o.op right) rfl
        refine ⟨o :: (inner ++ outer), rest, e, by simp, hhead', ?_⟩
        rw [Operand.flat_cons, Operand.flat_append, ← List.append_assoc]
        refine extends_operator (Nat.lt_of_not_le hpower)
          (recognizes_binary o.recognized hinner ?_) houter ?_
        · intro g more hmore
          refine Operand.follows g (fun o' _ => stops_of_infixOps _ o'.operator) (hmore.mono ?_)
          exact fun k hk => (Bool.and_eq_true_iff.mp hk).1
        · intro g more hmore
          refine Operand.follows g (fun o' ho' => ?_) (hmore.mono fun k hk => ?_)
          · refine Bool.and_eq_true_iff.mpr ⟨stops_of_infixOps _ o'.operator, decide_eq_true (hhead o' ?_)⟩
            rw [List.head?_append, Option.mem_def.mp ho']
            rfl
          · simp only [binds, Bool.and_eq_true, decide_eq_true_eq] at hk ⊢
            exact ⟨hk.1, by omega⟩

theorem binds_of_stops {power : Nat} (k : Kind) (hk : stops 3 k) : binds power k := by
  have : bindingPower k = 0 ∧ stops 2 k := by
    revert hk
    cases k <;> decide
  rw [binds, this.1, this.2]
  simp

/-- An operand with operators and operands after it. -/
theorem recognizes_operands (h : Recognizes unary (stops 2) ts (e.move ·)) (os : List Operand) :
    ∃ e' : Expr Unit, Recognizes (binary · 0) (stops 3) (ts ++ Operand.flat os) (e'.move ·) := by
  obtain ⟨taken, rest, e', rfl, hhead, hext⟩ := extends_operators os 0 e
  have hnil : rest = [] := by
    cases rest with
    | nil => rfl
    | cons o rest =>
      have hzero := hhead o rfl
      have hpos : ∀ k ∈ Phrase.infixOps, 0 < bindingPower k := by decide
      exact absurd (hpos _ o.operator) (by omega)
  subst hnil
  rw [List.append_nil]
  refine ⟨e', fun g fuel previous faults rest hrest => ?_⟩
  refine recognizes_binary h hext ?_ g fuel previous faults rest (hrest.mono binds_of_stops)
  intro g more hmore
  refine Operand.follows g (fun o _ => stops_of_infixOps _ o.operator) (hmore.mono fun k hk => ?_)
  exact (Bool.and_eq_true_iff.mp hk).1

theorem recognizes_operand (h : Recognizes unary (stops 2) ts (e.move ·)) :
    Recognizes (binary · 0) (stops 3) ts (e.move ·) := by
  intro g fuel previous faults rest hrest
  have hbinary := recognizes_binary h (extends_nil 0 e) (fun g more hmore =>
    hmore.mono fun k hk => (Bool.and_eq_true_iff.mp hk).1)
  rw [List.append_nil] at hbinary
  exact hbinary g fuel previous faults rest (hrest.mono binds_of_stops)

/-! ## Ternaries, assignments and lists of them -/

theorem recognizes_condition (h : Recognizes (binary · 0) (stops 3) ts (e.move ·)) :
    Recognizes ternary (stops 4) ts (e.move ·) := by
  intro g fuel previous faults rest hrest
  cases fuel with
  | zero => exact .inl rfl
  | succ fuel =>
    rw [ternary]
    refine h.bind (hrest.mono (stops_mono (by decide))) ?_
    obtain ⟨u, rest, rfl⟩ := List.exists_cons_of_ne_nil hrest.ne_nil
    rw [not_accepts_bind .question (hrest.ne (by decide))]
    exact becomes_refl _

theorem recognizes_ternary {question colon : Token} {vs : List Token} {onTrue onFalse : Expr Unit}
    (h : Recognizes (binary · 0) (stops 3) ts (e.move ·)) (hquestion : question.kind = .question)
    (hTrue : Recognizes expression (stops 6) us (onTrue.move ·)) (hcolon : colon.kind = .colon)
    (hFalse : Recognizes ternary (stops 4) vs (onFalse.move ·)) :
    Recognizes ternary (stops 4) (ts ++ question :: (us ++ colon :: vs))
      ((Expr.ternary ⟨e.span.start, onFalse.span.stop⟩ e onTrue onFalse).move ·) := by
  intro g fuel previous faults rest hrest
  cases fuel with
  | zero => exact .inl rfl
  | succ fuel =>
    simp only [List.map_append, List.map_cons, List.append_assoc, List.cons_append,
      Cursor.last_append, Cursor.last_cons]
    rw [ternary]
    refine h.bind (.cons hquestion (by decide)) ?_
    rw [accepts_bind hquestion (by decide) (by simp), if_pos rfl]
    refine hTrue.bind (.cons hcolon (by decide)) ?_
    rw [expect_bind hcolon (by decide) (by simp [hrest.ne_nil])]
    refine hFalse.bind hrest ?_
    rw [Expr.relocate_span, Expr.relocate_span]
    exact becomes_refl _

theorem recognizes_noAssign (h : Recognizes ternary (stops 4) ts (e.move ·)) :
    Recognizes assignment (stops 5) ts (e.move ·) := by
  intro g fuel previous faults rest hrest
  cases fuel with
  | zero => exact .inl rfl
  | succ fuel =>
    rw [assignment]
    refine h.bind (hrest.mono (stops_mono (by decide))) ?_
    obtain ⟨u, rest, rfl⟩ := List.exists_cons_of_ne_nil hrest.ne_nil
    have hkind : ∀ k, stops 5 k → (decide (k = .assign) || k.isCompoundAssign) = false := by
      intro k
      cases k <;> decide
    rw [peek_bind, Cursor.place_current, hkind _ hrest, if_neg Bool.false_ne_true]
    exact becomes_refl _

theorem move_assignment? (g : Position → Position) (target : Expr Unit) (op : Token)
    (value : Expr Unit) :
    assignment? (target.move g) (op.move g) (value.move g) =
      (assignment? target op value).map (·.move g) := by
  cases target with
  | get span object name =>
    simp only [Expr.relocate, assignment?, Token.relocate_kind, Expr.relocate_span]
    split
    · rfl
    · rfl
  | name span name link => simp only [assignment?, Expr.relocate, Expr.relocate_span]; rfl
  | _ => rfl

theorem recognizes_assign {op : Token} {target value : Expr Unit} {a : Expr Unit}
    (h : Recognizes ternary (stops 4) ts (target.move ·)) (hop : op.kind ∈ Phrase.assignOps)
    (hvalue : Recognizes assignment (stops 5) us (value.move ·))
    (ha : assignment? target op value = some a) :
    Recognizes assignment (stops 5) (ts ++ op :: us) (a.move ·) := by
  have hkind : ∀ k ∈ Phrase.assignOps, stops 4 k ∧ k ≠ .endOfInput ∧
      (decide (k = .assign) || k.isCompoundAssign) = true := by decide
  obtain ⟨hstops, hend, hassign⟩ := hkind _ hop
  intro g fuel previous faults rest hrest
  cases fuel with
  | zero => exact .inl rfl
  | succ fuel =>
    simp only [List.map_append, List.map_cons, List.append_assoc, List.cons_append,
      Cursor.last_append, Cursor.last_cons]
    rw [assignment]
    refine h.bind (.cons rfl hstops) ?_
    rw [peek_bind, Cursor.place_current, Token.relocate_kind, hassign, if_pos rfl,
      advance_bind hend (by simp [hrest.ne_nil])]
    refine hvalue.bind hrest ?_
    rw [move_assignment?, ha]
    exact becomes_refl _

theorem commas_stop {fuel : Nat} {previous : Option Token} {faults : List Diagnostic}
    {rest : List Token} (hrest : Follows (stops 6) rest) :
    (commas fuel e (.place previous faults rest)).Becomes
      (.ok e (.place previous faults rest)) := by
  cases fuel with
  | zero => exact .inl rfl
  | succ fuel =>
    obtain ⟨u, rest, rfl⟩ := List.exists_cons_of_ne_nil hrest.ne_nil
    have hcomma : u.kind ≠ .comma := hrest.ne (by decide)
    rw [commas, sees_bind, Cursor.place_sees, decide_eq_false hcomma, if_neg Bool.false_ne_true]
    exact becomes_refl _

theorem extends_commas {C : List Token → Prop}
    (hC : ∀ ts, C ts → ∃ (t : Token) (us : List Token) (e : Expr Unit), t.kind = .comma ∧
      ts = t :: us ∧ Recognizes assignment (stops 5) us (e.move ·))
    (h : Repeated C ts) (left : Expr Unit) : ∃ e, Extends commas (stops 6) ts left e := by
  induction h generalizing left with
  | nil => exact ⟨left, fun _ _ _ _ _ hrest => commas_stop hrest⟩
  | @cons ts us hts hus ih =>
    obtain ⟨comma, vs, right, hcomma, rfl, hright⟩ := hC ts hts
    obtain ⟨e, he⟩ := ih (.binary ⟨left.span.start, right.span.stop⟩ left comma right)
    refine ⟨e, fun g fuel previous faults rest hrest => ?_⟩
    cases fuel with
    | zero => exact .inl rfl
    | succ fuel =>
      simp only [List.map_append, List.map_cons, List.append_assoc, List.cons_append,
        Cursor.last_append, Cursor.last_cons]
      rw [commas, sees_bind, Cursor.place_sees, Token.relocate_kind, decide_eq_true hcomma, if_pos rfl,
        advance_bind (by rw [hcomma]; decide) (by simp [hrest.ne_nil])]
      refine hright.bind (.repeated g hus (fun ts hts => ?_) (hrest.mono (stops_mono (by decide)))) ?_
      · obtain ⟨t, us, e, ht, rfl, -⟩ := hC ts hts
        exact .cons ht (by decide)
      · have := he g fuel (Cursor.last (some (comma.move g)) (vs.map (·.move g))) faults rest hrest
        simpa only [Expr.relocate, Span.move, Expr.relocate_span] using this

theorem recognizes_expression (h : Recognizes assignment (stops 5) ts (e.move ·)) {left : Expr Unit}
    (h' : Extends commas (stops 6) us e left)
    (hus : ∀ g rest, Follows (stops 6) rest → Follows (stops 5) (us.map (·.move g) ++ rest)) :
    Recognizes expression (stops 6) (ts ++ us) (left.move ·) := by
  intro g fuel previous faults rest hrest
  cases fuel with
  | zero => exact .inl rfl
  | succ fuel =>
    simp only [List.map_append, List.append_assoc, Cursor.last_append]
    rw [expression]
    exact h.bind (hus g rest hrest) (h' g fuel _ faults rest hrest)

end

end Parser

end Scriptlet

import Scriptlet.Proofs.Tree.Completeness

/-!
# What an expression is spelled like

An expression holds the tokens of its names, operators and function literals, and its constants have
the values of theirs; parentheses, dots and the like are known from its form. Read from left to
right it gives back tokens (`Expr.Spells`). An expression that is read without a fault gives back
the tokens it was read from, each of them once and in their order (`parseExpression_spells`).
-/

namespace Scriptlet

/-- The value of a constant that a token stands for. -/
def Token.constant? (t : Token) : Option Literal :=
  match t.kind with
  | .kwFalse => some (.bool false)
  | .kwTrue => some (.bool true)
  | .kwNone => some .none
  | .number | .string => some (t.literal.getD .none)
  | _ => none

mutual

/-- The tokens that an expression gives back when it is read from left to right. The tokens of a
function literal are those from its keyword to the last one of its body, where it ends. -/
inductive Expr.Spells : Expr Unit → List Token → Prop where
  | literal {t : Token} {value : Literal} :
    t.constant? = some value → Spells (.literal t.span value) [t]
  | name {t : Token} : t.kind = .identifier → Spells (.name t.span t ()) [t]
  | assign {span : Span} {name op : Token} {value : Expr Unit} {ts : List Token} :
    Spells value ts → Spells (.assign span name op value ()) (name :: op :: ts)
  | binary {span : Span} {left right : Expr Unit} {op : Token} {ts us : List Token} :
    Spells left ts → Spells right us → Spells (.binary span left op right) (ts ++ op :: us)
  | logical {span : Span} {left right : Expr Unit} {op : Token} {ts us : List Token} :
    Spells left ts → Spells right us → Spells (.logical span left op right) (ts ++ op :: us)
  | prefixed {span : Span} {op : Token} {operand : Expr Unit} {ts : List Token} :
    Spells operand ts → Spells (.unary span op operand false) (op :: ts)
  | trailed {span : Span} {op : Token} {operand : Expr Unit} {ts : List Token} :
    Spells operand ts → Spells (.unary span op operand true) (ts ++ [op])
  | ternary {span : Span} {condition onTrue onFalse : Expr Unit} {question colon : Token}
      {ts us vs : List Token} :
    question.kind = .question → colon.kind = .colon →
    Spells condition ts → Spells onTrue us → Spells onFalse vs →
    Spells (.ternary span condition onTrue onFalse) (ts ++ question :: (us ++ colon :: vs))
  | group {span : Span} {inner : Expr Unit} {opening closing : Token} {ts : List Token} :
    opening.kind = .leftParen → closing.kind = .rightParen → Spells inner ts →
    Spells (.group span inner) (opening :: (ts ++ [closing]))
  | call {span : Span} {callee : Expr Unit} {args : List (Expr Unit)} {opening closing : Token}
      {ts us : List Token} :
    opening.kind = .leftParen → closing.kind = .rightParen →
    Spells callee ts → Expr.SpellsList args us →
    Spells (.call span callee closing args) (ts ++ opening :: (us ++ [closing]))
  | lambda {keyword last : Token} {params : List Token} {body : List (Stmt Unit)}
      {ts : List Token} :
    keyword.kind = .kwFun → Derives [.params, .block] ts → ts.getLast? = some last →
    Spells (.lambda (.mk ⟨keyword.span.start, last.span.stop⟩ keyword params body false))
      (keyword :: ts)
  | get {span : Span} {object : Expr Unit} {dot name : Token} {ts : List Token} :
    dot.kind = .dot → Spells object ts → Spells (.get span object name) (ts ++ [dot, name])
  | set {span : Span} {object value : Expr Unit} {dot name op : Token} {ts us : List Token} :
    dot.kind = .dot → op.kind = .assign → Spells object ts → Spells value us →
    Spells (.set span object name value) (ts ++ dot :: name :: op :: us)
  | receiver {t : Token} : t.kind = .kwThis → Spells (.receiver t.span t ()) [t]
  | inherited {span : Span} {keyword dot method : Token} :
    dot.kind = .dot → Spells (.inherited span keyword method ()) [keyword, dot, method]

/-- The tokens of expressions with commas between them. -/
inductive Expr.SpellsList : List (Expr Unit) → List Token → Prop where
  | nil : SpellsList [] []
  | single {e : Expr Unit} {ts : List Token} : Spells e ts → SpellsList [e] ts
  | cons {e : Expr Unit} {es : List (Expr Unit)} {comma : Token} {ts us : List Token} :
    comma.kind = .comma → Spells e ts → es ≠ [] → SpellsList es us →
    SpellsList (e :: es) (ts ++ comma :: us)

end

namespace Expr.Spells

variable {left right : Expr Unit} {op : Token} {ts us : List Token}

theorem combine (hleft : left.Spells ts) (hright : right.Spells us) :
    (Parser.combine left op right).Spells (ts ++ op :: us) := by
  unfold Parser.combine
  dsimp only
  split
  · exact .logical hleft hright
  · exact .binary hleft hright

/-- An assignment gives back its target, its operator and its value. -/
theorem assignment? {target value e : Expr Unit} (htarget : target.Spells ts)
    (hvalue : value.Spells us) (h : Parser.assignment? target op value = some e) :
    e.Spells (ts ++ op :: us) := by
  unfold Parser.assignment? at h
  cases htarget with
  | name ht =>
    cases h
    exact .assign hvalue
  | get hdot hobject =>
    dsimp only at h
    split at h
    · next hop =>
      cases h
      rw [List.append_assoc]
      exact .set hdot hop hobject hvalue
    · cases h
  | _ => cases h

end Expr.Spells

namespace Parser

/-! ## Readers -/

/-- With some fuel, the readers of expressions read what the expressions give back; those that go on
with an expression add to its tokens. -/
structure ReadsSpelled (fuel : Nat) : Prop where
  expression : ∀ n, 16 * n + 8 ≤ fuel → Reads anywhere n 0 (expression fuel) Expr.Spells
  commas : ∀ n (left : Expr Unit), 16 * n + 1 ≤ fuel →
    Reads anywhere n 0 (commas fuel left) fun e us => ∀ ts, left.Spells ts → e.Spells (ts ++ us)
  assignment : ∀ n, 16 * n + 7 ≤ fuel → Reads anywhere n 0 (assignment fuel) Expr.Spells
  ternary : ∀ n, 16 * n + 6 ≤ fuel → Reads anywhere n 0 (ternary fuel) Expr.Spells
  binary : ∀ n power, 16 * n + 5 ≤ fuel → Reads anywhere n 0 (binary fuel power) Expr.Spells
  operators : ∀ n power (left : Expr Unit), 16 * n + 1 ≤ fuel →
    Reads anywhere n 0 (operators fuel power left) fun e us =>
      ∀ ts, left.Spells ts → e.Spells (ts ++ us)
  unary : ∀ n, 16 * n + 4 ≤ fuel → Reads anywhere n 0 (unary fuel) Expr.Spells
  trailing : ∀ n, 16 * n + 3 ≤ fuel → Reads anywhere n 0 (trailing fuel) Expr.Spells
  call : ∀ n, 16 * n + 2 ≤ fuel → Reads anywhere n 0 (call fuel) Expr.Spells
  callRest : ∀ n (callee : Expr Unit), 16 * n + 1 ≤ fuel →
    Reads anywhere n 0 (callRest fuel callee) fun e us =>
      ∀ ts, callee.Spells ts → e.Spells (ts ++ us)
  arguments : ∀ n count, 16 * n + 8 ≤ fuel →
    Reads anywhere n 0 (arguments fuel count) fun es ts => es ≠ [] ∧ Expr.SpellsList es ts
  primary : ∀ n, 16 * n + 1 ≤ fuel → Reads anywhere n 0 (primary fuel) Expr.Spells

theorem readsSpelled_zero : ReadsSpelled 0 := by
  constructor
  all_goals intros; omega

section

variable {α β : Type} {pre : Token → Prop} {n : Nat} {P : α → List Token → Prop}

/-- A reader that takes a token, and where the last one that it took ends. -/
theorem Reads.bind_lastStop {p : Parser α} {f : α → Position → β} (h : Reads pre n 1 p P) :
    Reads pre n 1 (p >>= fun a => lastStop >>= fun q => pure (f a q)) fun b ts =>
      ∃ a last, P a ts ∧ ts.getLast? = some last ∧ b = f a last.span.stop := by
  intro c hc hn ht
  have hs := h c hc hn ht
  change (Parser.bind p _ c).Sound c 1 _
  unfold Parser.bind
  cases hp : p c with
  | starved => rw [hp] at hs; exact hs
  | failed c' => rw [hp] at hs; exact hs
  | ok a c' =>
    rw [hp] at hs
    obtain ⟨ts, fs, hreach, hlen, hpost⟩ := hs
    obtain ⟨us, last, rfl⟩ := (List.eq_nil_or_concat ts).resolve_left (List.ne_nil_of_length_pos hlen)
    rw [List.concat_eq_append] at hreach hlen hpost
    have hprevious : c'.previous = some last := by
      rw [hreach.previous, List.getLast?_concat, Option.some_or]
    have hstop : c'.lastStop = last.span.stop := by
      unfold Cursor.lastStop
      rw [hprevious]
    refine ⟨us ++ [last], fs, hreach, hlen, fun hfs => ?_⟩
    exact ⟨a, last, hpost hfs, List.getLast?_concat .., by rw [← hstop]⟩

end

namespace ReadsSpelled

variable {fuel n : Nat}

theorem expression_succ (h : ReadsSpelled fuel) (hn : 16 * n + 8 ≤ fuel + 1) :
    Reads anywhere n 0 (Parser.expression (fuel + 1)) Expr.Spells :=
  Reads.bind (h.assignment n (by omega)) fun left m hm => h.commas m left (by omega)

theorem commas_succ (h : ReadsSpelled fuel) (left : Expr Unit) (hn : 16 * n + 1 ≤ fuel + 1) :
    Reads anywhere n 0 (Parser.commas (fuel + 1) left) fun e us =>
      ∀ ts, left.Spells ts → e.Spells (ts ++ us) := by
  unfold Parser.commas
  refine reads_sees fun b => ?_
  split
  · next hcomma =>
    refine reads_advance (fun t ht hend => ?_) fun op m _ hm => ?_
    · rw [ht.2.mp hcomma] at hend
      cases hend
    · refine Reads.bind (h.assignment m (by omega)) fun right l hl => ?_
      refine (h.commas l _ (by omega)).imp fun e vs hvs us hus ts hts => ?_
      have hmore := hvs _ (.binary hts hus)
      rwa [List.append_assoc] at hmore
  · refine reads_pure fun ts hts => ?_
    rwa [List.append_nil]

theorem assignment_succ (h : ReadsSpelled fuel) (hn : 16 * n + 7 ≤ fuel + 1) :
    Reads anywhere n 0 (Parser.assignment (fuel + 1)) Expr.Spells := by
  unfold Parser.assignment
  refine Reads.bind (h.ternary n (by omega)) fun target m hm => reads_peek fun op _ => ?_
  split
  · next hop =>
    refine reads_advance (fun t ht hend => ?_) fun t l ht hl => ?_
    · rw [← ht, hend] at hop
      cases hop
    · subst ht
      refine Reads.bind (h.assignment l (by omega)) fun value i hi => ?_
      split
      · next hassign =>
        refine reads_pure fun us hus ts hts => ?_
        rw [List.append_nil]
        exact hts.assignment? hus hassign
      · exact reads_record _ _ (reads_pure trivial)
  · refine reads_pure fun ts hts => ?_
    rwa [List.append_nil]

theorem ternary_succ (h : ReadsSpelled fuel) (hn : 16 * n + 6 ≤ fuel + 1) :
    Reads anywhere n 0 (Parser.ternary (fuel + 1)) Expr.Spells := by
  unfold Parser.ternary
  refine Reads.bind (h.binary n 0 (by omega)) fun condition m hm => ?_
  refine reads_accepts (by decide) (fun question l hquestion hl => ?_) (reads_pure ?_)
  · refine Reads.bind (h.expression l (by omega)) fun onTrue i hi => ?_
    refine reads_expect (by decide) fun colon j hcolon hj => ?_
    refine Reads.bind (h.ternary j (by omega)) fun onFalse k hk => reads_pure ?_
    intro vs hvs us hus ts hts
    rw [List.append_nil]
    exact .ternary hquestion hcolon hts hus hvs
  · intro ts hts
    rwa [List.append_nil]

theorem binary_succ (h : ReadsSpelled fuel) (power : Nat) (hn : 16 * n + 5 ≤ fuel + 1) :
    Reads anywhere n 0 (Parser.binary (fuel + 1) power) Expr.Spells :=
  Reads.bind (h.unary n (by omega)) fun left m hm => h.operators m power left (by omega)

theorem operators_succ (h : ReadsSpelled fuel) (power : Nat) (left : Expr Unit)
    (hn : 16 * n + 1 ≤ fuel + 1) :
    Reads anywhere n 0 (Parser.operators (fuel + 1) power left) fun e us =>
      ∀ ts, left.Spells ts → e.Spells (ts ++ us) := by
  unfold Parser.operators
  refine reads_peek fun op _ => ?_
  dsimp only
  split
  · refine reads_pure fun ts hts => ?_
    rwa [List.append_nil]
  · next hpower =>
    refine reads_advance (fun t ht hend => ?_) fun t m ht hm => ?_
    · rw [← ht, hend] at hpower
      exact hpower (Nat.zero_le power)
    · subst ht
      refine Reads.bind (h.binary m _ (by omega)) fun right l hl => ?_
      refine (h.operators l power _ (by omega)).imp fun e vs hvs us hus ts hts => ?_
      have hmore := hvs _ (hts.combine hus)
      rwa [List.append_assoc] at hmore

theorem unary_succ (h : ReadsSpelled fuel) (hn : 16 * n + 4 ≤ fuel + 1) :
    Reads anywhere n 0 (Parser.unary (fuel + 1)) Expr.Spells := by
  have hprefix : ∀ op : Token, op.kind ≠ .endOfInput →
      Reads (· = op) n 0 (do
        let op ← advance
        let operand ← Parser.unary fuel
        return .unary ⟨op.span.start, operand.span.stop⟩ op operand false : Parser (Expr Unit))
        Expr.Spells := by
    intro op hop
    refine reads_advance (fun t ht => ht ▸ hop) fun t m ht hm => ?_
    refine Reads.bind (h.unary m (by omega)) fun operand _ _ => reads_pure fun ts hts => ?_
    rw [List.append_nil]
    exact .prefixed hts
  unfold Parser.unary
  refine reads_peek fun op _ => ?_
  split
  all_goals first
    | next hk => exact hprefix op (by rw [hk]; decide)
    | exact (h.trailing n (by omega)).here

theorem trailing_succ (h : ReadsSpelled fuel) (hn : 16 * n + 3 ≤ fuel + 1) :
    Reads anywhere n 0 (Parser.trailing (fuel + 1)) Expr.Spells := by
  unfold Parser.trailing
  refine Reads.bind (h.call n (by omega)) fun operand m hm => reads_peek fun op _ => ?_
  split
  · next hop =>
    refine reads_advance (fun t ht hend => ?_) fun t l ht hl => reads_pure fun ts hts => ?_
    · rw [← ht, hend] at hop
      cases hop
    · rw [ht]
      exact .trailed hts
  · refine reads_pure fun ts hts => ?_
    rwa [List.append_nil]

theorem call_succ (h : ReadsSpelled fuel) (hn : 16 * n + 2 ≤ fuel + 1) :
    Reads anywhere n 0 (Parser.call (fuel + 1)) Expr.Spells :=
  Reads.bind (h.primary n (by omega)) fun first m hm => h.callRest m first (by omega)

theorem callRest_succ (h : ReadsSpelled fuel) (callee : Expr Unit) (hn : 16 * n + 1 ≤ fuel + 1) :
    Reads anywhere n 0 (Parser.callRest (fuel + 1) callee) fun e us =>
      ∀ ts, callee.Spells ts → e.Spells (ts ++ us) := by
  unfold Parser.callRest
  refine reads_accepts (by decide) (fun opening m hopening hm => reads_sees fun b => ?_) ?_
  · extract_lets rest
    have hrest : ∀ args l, l ≤ m → Reads anywhere l 0 (rest args) fun e vs =>
        ∀ us, Expr.SpellsList args us →
          ∀ ts, callee.Spells ts → e.Spells (ts ++ opening :: (us ++ vs)) := by
      intro args l hl
      refine reads_expect (by decide) fun closing i hclosing hi => ?_
      refine (h.callRest i _ (by omega)).imp fun e ws hws us hus ts hts => ?_
      have hmore := hws _ (.call hopening hclosing hts hus)
      simpa using hmore
    split
    · exact (hrest [] m (Nat.le_refl m)).here.imp fun e vs hvs => hvs [] .nil
    · refine Reads.bind (h.arguments m 0 (by omega)).here fun args l hl => ?_
      exact (hrest args l (by omega)).imp fun e vs hvs us hus => hvs us hus.2
  · refine reads_accepts (by decide) (fun dot m hdot hm => ?_) (reads_pure fun ts hts => ?_)
    · refine reads_expect (by decide) fun name l hname hl => ?_
      refine (h.callRest l _ (by omega)).imp fun e vs hvs ts hts => ?_
      have hmore := hvs _ (.get hdot hts)
      rwa [List.append_assoc] at hmore
    · rwa [List.append_nil]

theorem arguments_succ (h : ReadsSpelled fuel) (count : Nat) (hn : 16 * n + 8 ≤ fuel + 1) :
    Reads anywhere n 0 (Parser.arguments (fuel + 1) count) fun es ts =>
      es ≠ [] ∧ Expr.SpellsList es ts := by
  unfold Parser.arguments
  extract_lets rest
  have hrest : Reads anywhere n 0 (rest ()) fun es ts => es ≠ [] ∧ Expr.SpellsList es ts := by
    refine Reads.bind (h.assignment n (by omega)) fun arg m hm => ?_
    refine reads_accepts (by decide) (fun comma l hcomma hl => ?_) (reads_pure ?_)
    · refine Reads.bind (h.arguments l _ (by omega)) fun args _ _ => reads_pure ?_
      intro us hus ts hts
      rw [List.append_nil]
      exact ⟨List.cons_ne_nil _ _, .cons hcomma hts hus.1 hus.2⟩
    · intro ts hts
      rw [List.append_nil]
      exact ⟨List.cons_ne_nil _ _, .single hts⟩
  split
  · exact reads_peek fun t _ => reads_record _ _ (hrest.imp fun _ _ _ => trivial)
  · exact hrest

theorem primary_succ (h : ReadsSpelled fuel) (hn : 16 * n + 1 ≤ fuel + 1) :
    Reads anywhere n 0 (Parser.primary (fuel + 1)) Expr.Spells := by
  have hone : ∀ {t : Token} {k : Kind} {e : Expr Unit}, t.kind = k → k ≠ .endOfInput →
      e.Spells [t] → Reads (· = t) n 0 (advance >>= fun _ => pure e) Expr.Spells := by
    intro t k e hk hend hts
    refine reads_advance (fun u hu => by rw [hu, hk]; exact hend) fun u m hu _ => reads_pure ?_
    rwa [hu]
  have hconstant : ∀ {t : Token} {k : Kind} {value : Literal}, t.kind = k → k ≠ .endOfInput →
      t.constant? = some value →
      Reads (· = t) n 0 (advance >>= fun _ => pure (.literal t.span value)) Expr.Spells :=
    fun hk hend hvalue => hone hk hend (.literal hvalue)
  unfold Parser.primary
  refine reads_peek fun t _ => ?_
  split
  · next hk => exact hconstant hk (by decide) (by unfold Token.constant?; rw [hk])
  · next hk => exact hconstant hk (by decide) (by unfold Token.constant?; rw [hk])
  · next hk => exact hconstant hk (by decide) (by unfold Token.constant?; rw [hk])
  · next hk => exact hconstant hk (by decide) (by unfold Token.constant?; rw [hk])
  · next hk => exact hconstant hk (by decide) (by unfold Token.constant?; rw [hk])
  · next hk => exact hone hk (by decide) (.name hk)
  · next hk => exact hone hk (by decide) (.receiver hk)
  · next hk =>
    refine reads_advance (fun u hu => by rw [hu, hk]; decide) fun u m hu hm => ?_
    refine reads_expect (by decide) fun dot l hdot _ => ?_
    refine reads_expect (by decide) fun method _ hmethod _ => reads_pure ?_
    rw [hu]
    exact .inherited hdot
  · next hk =>
    refine reads_advance (fun u hu => by rw [hu, hk]; decide) fun u m hu hm => ?_
    refine Reads.bind (h.expression m (by omega)) fun inner l _ => ?_
    refine reads_expect (by decide) fun closing _ hclosing _ => reads_pure fun ts hts => ?_
    exact .group (hu ▸ hk) hclosing hts
  · next hk =>
    refine reads_advance (fun u hu => by rw [hu, hk]; decide) fun u m hu hm => ?_
    refine Reads.bind (reads_parameters (by omega)) fun params l hl => ?_
    have hblock := (readsPhrases fuel).block l (by omega)
    refine (hblock.bind_lastStop.mono (Nat.zero_le 1) ?_)
    rintro e us ⟨body, last, hus, hlast, rfl⟩ ts hts
    rw [hu]
    refine .lambda hk (hts.cons hus) ?_
    rw [List.getLast?_append, hlast, Option.some_or]
  · exact reads_fail _ _

end ReadsSpelled

/-- The readers of expressions read what the expressions give back, whatever the fuel. -/
theorem readsSpelled (fuel : Nat) : ReadsSpelled fuel := by
  induction fuel with
  | zero => exact readsSpelled_zero
  | succ fuel ih =>
    exact {
      expression := fun _ => ih.expression_succ
      commas := fun _ left => ih.commas_succ left
      assignment := fun _ => ih.assignment_succ
      ternary := fun _ => ih.ternary_succ
      binary := fun _ power => ih.binary_succ power
      operators := fun _ power left => ih.operators_succ power left
      unary := fun _ => ih.unary_succ
      trailing := fun _ => ih.trailing_succ
      call := fun _ => ih.call_succ
      callRest := fun _ callee => ih.callRest_succ callee
      arguments := fun _ count => ih.arguments_succ count
      primary := fun _ => ih.primary_succ }

end Parser

/-- An expression that is read without a fault gives back the tokens before the end of input. -/
theorem parseExpression_spells {tokens : List Token} {e : Expr Unit}
    (h : parseExpression tokens = (some e, [])) : e.Spells (beforeEnd tokens) := by
  obtain ⟨e', c, hread, hend, hfaults⟩ := parseExpression_clean (congrArg Prod.snd h)
  have heq := parseExpression_eq hread hend
  rw [h] at heq
  obtain rfl : e = e' := Option.some.inj (congrArg Prod.fst heq)
  obtain ⟨hended, hlen⟩ := Cursor.ofTokens_ended tokens
  have hsound := (Parser.readsSpelled (Parser.fuelFor tokens)).expression (tokens.length + 1)
    (by unfold Parser.fuelFor; omega) _ hended hlen trivial
  exact Parser.sound_at_end hsound hread hend hfaults

end Scriptlet

import Scriptlet.Proofs.Tree.Soundness

/-!
# Induction over derivations

What holds of the tokens of a row can be read off the row if it is known for every kind of phrase:
`RowMeans C row` takes the row apart, the optional and repeated parts included, and asks `C` of the
phrases in it. `Derives.fold` is the induction over a derivation: if every production carries `C`
from its parts to its phrase, `C` holds of everything that derives. Its first use is the choice of
tokens with which a phrase can begin (`Derives.begins`).
-/

namespace Scriptlet

/-- Any number of stretches of tokens, one after the other. -/
inductive Repeated (P : List Token → Prop) : List Token → Prop where
  | nil : Repeated P []
  | cons {ts us : List Token} : P ts → Repeated P us → Repeated P (ts ++ us)

/-- A number of stretches of tokens with commas between them. -/
inductive Enumerated (P : List Token → Prop) : Nat → List Token → Prop where
  | none : Enumerated P 0 []
  | one {ts : List Token} : P ts → Enumerated P 1 ts
  | more {n : Nat} {ts us : List Token} {t : Token} : P ts → t.kind = .comma →
    Enumerated P (n + 1) us → Enumerated P (n + 2) (ts ++ t :: us)

theorem Repeated.imp {P Q : List Token → Prop} {ts : List Token} (h : Repeated P ts)
    (hPQ : ∀ us, P us → Q us) : Repeated Q ts := by
  induction h with
  | nil => exact .nil
  | cons hts _ ih => exact .cons (hPQ _ hts) ih

theorem Enumerated.imp {P Q : List Token → Prop} {n : Nat} {ts : List Token}
    (h : Enumerated P n ts) (hPQ : ∀ us, P us → Q us) : Enumerated Q n ts := by
  induction h with
  | none => exact .none
  | one hts => exact .one (hPQ _ hts)
  | more hts ht _ ih => exact .more (hPQ _ hts) ht ih

mutual

/-- What a phrase says about its tokens, where `C` says it for phrases with productions of their
own. -/
def Phrase.Means (C : Phrase → List Token → Prop) : Phrase → List Token → Prop
  | .token k, ts => ∃ t, t.kind = k ∧ ts = [t]
  | .opt row, ts => ts = [] ∨ RowMeans C row ts
  | .many row, ts => Repeated (RowMeans C row) ts
  | .listed n item, ts => Enumerated (item.Means C) n ts
  | p, ts => C p ts

/-- What a row of phrases says about its tokens. -/
def RowMeans (C : Phrase → List Token → Prop) : List Phrase → List Token → Prop
  | [], ts => ts = []
  | p :: row, ts => ∃ us vs, ts = us ++ vs ∧ p.Means C us ∧ RowMeans C row vs

end

/-- A phrase that is named by the grammar, and is not a token or a form of repetition. -/
def Phrase.Named : Phrase → Prop
  | .token _ | .opt _ | .many _ | .listed _ _ => False
  | _ => True

theorem Phrase.means_named {C : Phrase → List Token → Prop} {p : Phrase} (h : p.Named)
    (ts : List Token) : p.Means C ts = C p ts := by
  cases p with
  | token | opt | many | listed => exact h.elim
  | _ => rfl

theorem RowMeans.split_append {C : Phrase → List Token → Prop} {row row' : List Phrase}
    {ts : List Token} (h : RowMeans C (row ++ row') ts) :
    ∃ us vs, ts = us ++ vs ∧ RowMeans C row us ∧ RowMeans C row' vs := by
  induction row generalizing ts with
  | nil => exact ⟨[], ts, rfl, rfl, h⟩
  | cons p row ih =>
    obtain ⟨us, rest, rfl, hp, hrest⟩ := h
    obtain ⟨vs, ws, rfl, hrow, hrow'⟩ := ih hrest
    exact ⟨us ++ vs, ws, (List.append_assoc ..).symm, ⟨us, vs, rfl, hp, hrow⟩, hrow'⟩

theorem RowMeans.single {C : Phrase → List Token → Prop} {p : Phrase} {ts : List Token}
    (h : RowMeans C [p] ts) : p.Means C ts := by
  obtain ⟨us, vs, rfl, hp, rfl⟩ := h
  rwa [List.append_nil]

/-- Repetitions and options mean what their productions mean. -/
theorem Phrase.means_of_production {C : Phrase → List Token → Prop} {p : Phrase}
    {body : List Phrase} {ts : List Token} (hp : Production p body) (hname : ¬ p.Named)
    (h : RowMeans C body ts) : p.Means C ts := by
  cases hp with
  | optNone => exact .inl h
  | optSome => exact .inr h
  | manyNone => cases h; exact .nil
  | manyMore =>
    obtain ⟨us, vs, rfl, hrow, hmany⟩ := h.split_append
    exact .cons hrow hmany.single
  | listedNone => cases h; exact .none
  | listedOne => exact .one h.single
  | listedMore =>
    obtain ⟨us, _, rfl, hus, _, _, rfl, ⟨t, ht, rfl⟩, hmore⟩ := h
    exact .more hus ht hmore.single
  | _ => exact absurd trivial hname

/-- Induction over derivations of at most `n` tokens. -/
theorem Derives.fold {C : Phrase → List Token → Prop} {n : Nat}
    (hC : ∀ {p body ts}, p.Named → Production p body → ts.length ≤ n → Derives body ts →
      RowMeans C body ts → C p ts)
    {row : List Phrase} {ts : List Token} (h : Derives row ts) (hn : ts.length ≤ n) :
    RowMeans C row ts := by
  induction h with
  | nil => rfl
  | @token k t row ts hk _ ih =>
    rw [List.length_cons] at hn
    exact ⟨[t], ts, rfl, ⟨t, hk, rfl⟩, ih (by omega)⟩
  | @phrase p body row ts us hp hbody _ ihbody ihrow =>
    rw [List.length_append] at hn
    have hts : RowMeans C body ts := ihbody (by omega)
    refine ⟨ts, us, rfl, ?_, ihrow (by omega)⟩
    by_cases hname : p.Named
    · rw [Phrase.means_named hname]
      exact hC hname hp (by omega) hbody hts
    · exact Phrase.means_of_production hp hname hts

/-! ## First tokens -/

namespace Phrase

/-- The kinds of tokens that a phrase can begin with. -/
def starts : Phrase → List Kind
  | .token k => [k]
  | .literal => literals
  | .assignOp => assignOps
  | .infixOp => infixOps
  | .prefixOp => prefixOps
  | .stepOp => stepOps
  | .primary | .call => literals ++ [.identifier, .kwThis, .kwSuper, .leftParen, .kwFun]
  | .suffix => [.leftParen, .dot]
  | .unary | .bin | .tern | .asg | .expr =>
    prefixOps ++ literals ++ [.identifier, .kwThis, .kwSuper, .leftParen, .kwFun]
  | .block => [.leftBrace]
  | .forInit => [.semicolon, .kwVar] ++ prefixOps ++ literals ++
    [.identifier, .kwThis, .kwSuper, .leftParen, .kwFun]
  | .stmt => [.kwFor, .kwIf, .kwWhile, .kwDo, .kwPrint, .kwReturn, .kwBreak, .kwContinue,
    .leftBrace] ++ prefixOps ++ literals ++ [.identifier, .kwThis, .kwSuper, .leftParen, .kwFun]
  | .decl => [.kwClass, .kwVar, .kwFor, .kwIf, .kwWhile, .kwDo, .kwPrint, .kwReturn, .kwBreak,
    .kwContinue, .leftBrace] ++ prefixOps ++ literals ++
    [.identifier, .kwThis, .kwSuper, .leftParen, .kwFun]
  | .vars => [.kwVar]
  | .params => [.leftParen]
  | .member => [.kwClass, .identifier]
  | .opt _ | .many _ | .listed _ _ | .file => []

/-- How the tokens of a phrase begin. A function that does not declare a name has its parameters
next to its keyword. -/
def Begins (p : Phrase) : List Token → Prop
  | [] => False
  | t :: ts => t.kind ∈ p.starts ∧
    (t.kind = .kwFun → p ≠ .decl → ∃ u us, ts = u :: us ∧ u.kind = .leftParen)

theorem begins_token {p : Phrase} {k : Kind} {t : Token} (ht : t.kind = k) (hk : k ∈ p.starts)
    (hfun : k ≠ .kwFun) (ts : List Token) : p.Begins (t :: ts) :=
  ⟨ht ▸ hk, fun h => absurd (ht.symm.trans h) hfun⟩

theorem Begins.of_first {p q : Phrase} {ts : List Token} (h : q.Begins ts) (hq : q ≠ .decl)
    (hstarts : ∀ k ∈ q.starts, k ∈ p.starts) (us : List Token) : p.Begins (ts ++ us) := by
  cases ts with
  | nil => exact h.elim
  | cons t ts =>
    refine ⟨hstarts _ h.1, fun hk _ => ?_⟩
    obtain ⟨u, vs, rfl, hu⟩ := h.2 hk hq
    exact ⟨u, vs ++ us, rfl, hu⟩

end Phrase

/-- A phrase begins as `Phrase.starts` says. -/
theorem Derives.begins {p : Phrase} {ts : List Token} (h : Derives [p] ts) (hname : p.Named)
    (hfile : p ≠ .file) : p.Begins ts := by
  have hmeans : RowMeans (fun p ts => p ≠ .file → p.Begins ts) [p] ts := by
    refine h.fold (n := ts.length) ?_ (Nat.le_refl _)
    intro p body ts hname hp _ _ hbody hfile
    cases hp with
    | optNone | optSome | manyNone | manyMore | listedNone | listedOne | listedMore =>
      exact hname.elim
    | file => exact absurd rfl hfile
    | funDecl =>
      obtain ⟨_, _, rfl, ⟨t, ht, rfl⟩, _⟩ := hbody
      exact ⟨ht ▸ by decide, fun _ h => absurd rfl h⟩
    | lambda =>
      obtain ⟨_, _, rfl, ⟨t, ht, rfl⟩, us, vs, rfl, hparams, _⟩ := hbody
      refine ⟨ht ▸ by decide, fun _ _ => ?_⟩
      cases us with
      | nil => exact (hparams nofun).elim
      | cons u us => exact ⟨u, us ++ vs, rfl, List.mem_singleton.mp (hparams nofun).1⟩
    | member =>
      obtain ⟨_, _, rfl, hcls, _, _, rfl, ⟨t, ht, rfl⟩, _⟩ := hbody
      rcases hcls with rfl | ⟨_, _, rfl, ⟨c, hc, rfl⟩, rfl⟩
      · exact Phrase.begins_token ht (by decide) (by decide) _
      · exact Phrase.begins_token hc (by decide) (by decide) _
    | literal hk | assignOp hk | infixOp hk | prefixOp hk | stepOp hk =>
      obtain ⟨_, _, rfl, ⟨t, ht, rfl⟩, rfl⟩ := hbody
      refine Phrase.begins_token ht ?_ (fun h => absurd (h ▸ hk) (by decide)) _
      exact hk
    | classDecl | params | vars | forStmt | ifStmt | whileStmt | doStmt | printStmt | returnStmt
    | breakStmt | continueStmt | noInit | block | assignVar | arguments | property | name | receiver
    | inherited | group =>
      obtain ⟨_, _, rfl, ⟨t, ht, rfl⟩, _⟩ := hbody
      exact Phrase.begins_token ht (by decide) (by decide) _
    | varDecl | stmtDecl | blockStmt | exprStmt | varsInit | exprInit | expr | assignField | noAssign
    | tern | bin | prefixed | unprefixed | call | constant =>
      obtain ⟨us, vs, rfl, hus, _⟩ := hbody
      exact (hus nofun).of_first nofun (by decide) vs
  have := hmeans.single
  rw [Phrase.means_named hname] at this
  exact this hfile

end Scriptlet

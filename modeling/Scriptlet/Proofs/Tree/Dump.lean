import Scriptlet.Proofs.Tree.Nodes
import Scriptlet.Proofs.Tree.Tokens

/-!
# Trees that are written as data

The data of a tree show everything in it but the places of single tokens. What a node shows of a
token is its letters or its kind, and these determine the tokens of a source up to their places
(`Token.Regular`). So trees of sources are equal up to the places of their tokens if and only if
their data are equal, and every object in these data that has a kind has one of the kinds of nodes
(`dump_eq_iff_unplaced_eq`).
-/

namespace Scriptlet

section

variable {β : Type}

/-! ## Places of tokens -/

/-- A token without its place. -/
def Token.unplaced (t : Token) : Token := { t with span := .nowhere }

mutual

/-- An expression without the places of its tokens. -/
def Expr.unplaced : Expr β → Expr β
  | .literal span value => .literal span value
  | .name span name link => .name span name.unplaced link
  | .assign span name op value link => .assign span name.unplaced op.unplaced value.unplaced link
  | .binary span left op right => .binary span left.unplaced op.unplaced right.unplaced
  | .logical span left op right => .logical span left.unplaced op.unplaced right.unplaced
  | .unary span op operand trailing => .unary span op.unplaced operand.unplaced trailing
  | .ternary span condition onTrue onFalse =>
    .ternary span condition.unplaced onTrue.unplaced onFalse.unplaced
  | .group span inner => .group span inner.unplaced
  | .call span callee paren args =>
    .call span callee.unplaced paren.unplaced (Expr.unplacedList args)
  | .lambda function => .lambda function.unplaced
  | .get span object name => .get span object.unplaced name.unplaced
  | .set span object name value => .set span object.unplaced name.unplaced value.unplaced
  | .receiver span keyword link => .receiver span keyword.unplaced link
  | .inherited span keyword method link => .inherited span keyword.unplaced method.unplaced link

def Expr.unplacedList : List (Expr β) → List (Expr β)
  | [] => []
  | e :: es => e.unplaced :: Expr.unplacedList es

/-- A function without the places of its tokens. -/
def Function.unplaced : Function β → Function β
  | .mk span keyword params body getter =>
    .mk span keyword.unplaced (params.map Token.unplaced) (Stmt.unplacedList body) getter

/-- A named function without the places of its tokens. -/
def Declaration.unplaced : Declaration β → Declaration β
  | .mk span name function => .mk span name.unplaced function.unplaced

def Declaration.unplacedList : List (Declaration β) → List (Declaration β)
  | [] => []
  | d :: ds => d.unplaced :: Declaration.unplacedList ds

/-- A statement without the places of its tokens. -/
def Stmt.unplaced : Stmt β → Stmt β
  | .evaluate span expr => .evaluate span expr.unplaced
  | .print span keyword value => .print span keyword.unplaced value.unplaced
  | .declareVar span name none => .declareVar span name.unplaced none
  | .declareVar span name (some init) => .declareVar span name.unplaced (some init.unplaced)
  | .block span stmts => .block span (Stmt.unplacedList stmts)
  | .branch span condition onTrue none => .branch span condition.unplaced onTrue.unplaced none
  | .branch span condition onTrue (some onFalse) =>
    .branch span condition.unplaced onTrue.unplaced (some onFalse.unplaced)
  | .loop span condition body none bodyFirst =>
    .loop span condition.unplaced body.unplaced none bodyFirst
  | .loop span condition body (some update) bodyFirst =>
    .loop span condition.unplaced body.unplaced (some update.unplaced) bodyFirst
  | .leave span keyword none => .leave span keyword.unplaced none
  | .leave span keyword (some value) => .leave span keyword.unplaced (some value.unplaced)
  | .breakLoop span keyword => .breakLoop span keyword.unplaced
  | .continueLoop span keyword => .continueLoop span keyword.unplaced
  | .declareFunction declaration => .declareFunction declaration.unplaced
  | .declareClass span name superclass methods classMethods =>
    .declareClass span name.unplaced (superclass.map fun (token, link) => (token.unplaced, link))
      (Declaration.unplacedList methods) (Declaration.unplacedList classMethods)

def Stmt.unplacedList : List (Stmt β) → List (Stmt β)
  | [] => []
  | s :: ss => s.unplaced :: Stmt.unplacedList ss

end

/-- A program without the places of its tokens. -/
def Program.unplaced (p : Program β) : Program β := { p with stmts := Stmt.unplacedList p.stmts }

@[simp] theorem Token.kind_unplaced (t : Token) : t.unplaced.kind = t.kind := rfl

@[simp] theorem Token.lexeme_unplaced (t : Token) : t.unplaced.lexeme = t.lexeme := rfl

mutual

theorem Expr.dump_unplaced : ∀ e : Expr β, e.unplaced.dump = e.dump
  | .literal .. | .name .. | .receiver .. | .inherited .. => by
    simp only [Expr.unplaced, Expr.dump, Token.lexeme_unplaced]
  | .assign _ _ _ value _ => by
    simp only [Expr.unplaced, Expr.dump, value.dump_unplaced, Token.lexeme_unplaced,
      Token.kind_unplaced]
  | .binary _ left _ right | .logical _ left _ right => by
    simp only [Expr.unplaced, Expr.dump, left.dump_unplaced, right.dump_unplaced,
      Token.kind_unplaced]
  | .unary _ _ operand _ => by
    simp only [Expr.unplaced, Expr.dump, operand.dump_unplaced, Token.kind_unplaced]
  | .ternary _ condition onTrue onFalse => by
    simp only [Expr.unplaced, Expr.dump, condition.dump_unplaced, onTrue.dump_unplaced,
      onFalse.dump_unplaced]
  | .group _ inner => by simp only [Expr.unplaced, Expr.dump, inner.dump_unplaced]
  | .call _ callee _ args => by
    simp only [Expr.unplaced, Expr.dump, callee.dump_unplaced, Expr.dumpList_unplaced args]
  | .lambda function => by simp only [Expr.unplaced, Expr.dump, function.dump_unplaced]
  | .get _ object _ => by
    simp only [Expr.unplaced, Expr.dump, object.dump_unplaced, Token.lexeme_unplaced]
  | .set _ object _ value => by
    simp only [Expr.unplaced, Expr.dump, object.dump_unplaced, value.dump_unplaced,
      Token.lexeme_unplaced]

theorem Expr.dumpList_unplaced : ∀ es : List (Expr β),
    Expr.dumpList (Expr.unplacedList es) = Expr.dumpList es
  | [] => rfl
  | e :: es => by
    simp only [Expr.unplacedList, Expr.dumpList, e.dump_unplaced, Expr.dumpList_unplaced es]

theorem Function.dump_unplaced : ∀ f : Function β, f.unplaced.dump = f.dump
  | .mk _ _ _ body _ => by
    simp only [Function.unplaced, Function.dump, Stmt.dumpList_unplaced body, List.map_map,
      Function.comp_def, Token.lexeme_unplaced]

theorem Declaration.dump_unplaced : ∀ d : Declaration β, d.unplaced.dump = d.dump
  | .mk _ _ function => by
    simp only [Declaration.unplaced, Declaration.dump, function.dump_unplaced,
      Token.lexeme_unplaced]

theorem Declaration.dumpList_unplaced : ∀ ds : List (Declaration β),
    Declaration.dumpList (Declaration.unplacedList ds) = Declaration.dumpList ds
  | [] => rfl
  | d :: ds => by
    simp only [Declaration.unplacedList, Declaration.dumpList, d.dump_unplaced,
      Declaration.dumpList_unplaced ds]

theorem Stmt.dump_unplaced : ∀ s : Stmt β, s.unplaced.dump = s.dump
  | .evaluate _ expr => by simp only [Stmt.unplaced, Stmt.dump, expr.dump_unplaced]
  | .print _ _ value => by simp only [Stmt.unplaced, Stmt.dump, value.dump_unplaced]
  | .declareVar _ _ none => by simp only [Stmt.unplaced, Stmt.dump, Token.lexeme_unplaced]
  | .declareVar _ _ (some init) => by
    simp only [Stmt.unplaced, Stmt.dump, init.dump_unplaced, Token.lexeme_unplaced]
  | .block _ stmts => by simp only [Stmt.unplaced, Stmt.dump, Stmt.dumpList_unplaced stmts]
  | .branch _ condition onTrue none => by
    simp only [Stmt.unplaced, Stmt.dump, condition.dump_unplaced, onTrue.dump_unplaced]
  | .branch _ condition onTrue (some onFalse) => by
    simp only [Stmt.unplaced, Stmt.dump, condition.dump_unplaced, onTrue.dump_unplaced,
      onFalse.dump_unplaced]
  | .loop _ condition body none _ => by
    simp only [Stmt.unplaced, Stmt.dump, condition.dump_unplaced, body.dump_unplaced]
  | .loop _ condition body (some update) _ => by
    simp only [Stmt.unplaced, Stmt.dump, condition.dump_unplaced, body.dump_unplaced,
      update.dump_unplaced]
  | .leave _ _ none | .breakLoop .. | .continueLoop .. => by
    simp only [Stmt.unplaced, Stmt.dump]
  | .leave _ _ (some value) => by simp only [Stmt.unplaced, Stmt.dump, value.dump_unplaced]
  | .declareFunction declaration => by
    simp only [Stmt.unplaced, Stmt.dump, declaration.dump_unplaced]
  | .declareClass _ _ superclass methods classMethods => by
    rw [Stmt.unplaced, Stmt.dump_declareClass, Stmt.dump_declareClass,
      Declaration.dumpList_unplaced methods, Declaration.dumpList_unplaced classMethods,
      Option.map_map]
    rfl

theorem Stmt.dumpList_unplaced : ∀ ss : List (Stmt β),
    Stmt.dumpList (Stmt.unplacedList ss) = Stmt.dumpList ss
  | [] => rfl
  | s :: ss => by
    simp only [Stmt.unplacedList, Stmt.dumpList, s.dump_unplaced, Stmt.dumpList_unplaced ss]

end

end

/-! ## Kinds of tokens -/

theorem Kind.mem_all (k : Kind) : k ∈ all := by
  cases k <;> decide

/-- Kinds are told apart by their names. -/
theorem Kind.eq_of_text {k k' : Kind} (h : k.text = k'.text) : k = k' := by
  have hfound : ∀ k ∈ all, (all.find? fun k' => k'.text == k.text) = some k := by decide +kernel
  have hk := hfound k (mem_all k)
  rw [h, hfound k' (mem_all k')] at hk
  exact (Option.some.inj hk).symm

/-! ## Tokens of sources -/

/-- A token of a kind that has its one spelling if there is only one, and a value only if it is a
number or a string. -/
structure Token.Regular (k : Kind) (t : Token) : Prop where
  kind : t.kind = k
  lexeme : k ∈ Kind.fixed → t.lexeme = k.text
  literal : k ∈ .identifier :: Kind.fixed → t.literal = none

namespace Token.Regular

variable {k : Kind} {t t' : Token}

theorem unplaced_eq (h : t.Regular k) (h' : t'.Regular k) (hk : k ∈ .identifier :: Kind.fixed)
    (hlexeme : t.lexeme = t'.lexeme) : t.unplaced = t'.unplaced := by
  unfold Token.unplaced
  rw [h.kind, h'.kind, hlexeme, h.literal hk, h'.literal hk]

/-- Names are determined by their letters. -/
theorem name (h : t.Regular .identifier) (h' : t'.Regular .identifier)
    (hlexeme : t.lexeme = t'.lexeme) : t.unplaced = t'.unplaced :=
  h.unplaced_eq h' List.mem_cons_self hlexeme

/-- Keywords and delimiters are determined by their kinds. -/
theorem fixed (h : t.Regular k) (h' : t'.Regular k) (hk : k ∈ Kind.fixed) :
    t.unplaced = t'.unplaced :=
  h.unplaced_eq h' (List.mem_cons_of_mem _ hk) ((h.lexeme hk).trans (h'.lexeme hk).symm)

end Token.Regular

/-- Operators are determined by their spelling. -/
theorem Token.Operates.unplaced_eq {op op' : Token} (h : op.Operates Token.Regular)
    (h' : op'.Operates Token.Regular) (htext : op.kind.text = op'.kind.text) :
    op.unplaced = op'.unplaced := by
  have hkind := Kind.eq_of_text htext
  have hregular := h'.2
  rw [← hkind] at hregular
  exact h.2.fixed hregular h.1

/-- Every token of a source is told by its kind and its letters. -/
theorem tokenize_regular (source : Text) :
    ∀ t ∈ (tokenize source).tokens, t.Regular t.kind := by
  intro t ht
  rcases tokenize_begins ht with ⟨hkind, -⟩ | ⟨b, rest, -, hbegins⟩
  · rw [hkind]
    exact ⟨hkind, fun h => absurd h (by decide), fun h => absurd h (by decide)⟩
  · refine ⟨rfl, hbegins.lexeme_eq_text, fun hk => ?_⟩
    have hmakes := hbegins.makes
    generalize (Lexer.cut b rest).piece = piece, t.kind = kind, t.literal = literal at hk hmakes
    cases hmakes with
    | operator | keyword | name | illegal => rfl
    | number | string => exact absurd hk (by decide)

theorem Token.unplaced_of_names {ps ps' : List Token} (h : ∀ p ∈ ps, p.Regular .identifier)
    (h' : ∀ p ∈ ps', p.Regular .identifier)
    (heq : ps.map (fun p => Json.text p.lexeme) = ps'.map fun p => Json.text p.lexeme) :
    ps.map unplaced = ps'.map unplaced := by
  induction ps generalizing ps' with
  | nil =>
    cases ps' with
    | nil => rfl
    | cons => cases heq
  | cons p ps ih =>
    cases ps' with
    | nil => cases heq
    | cons p' ps' =>
      obtain ⟨hp, hps⟩ := List.forall_mem_cons.mp h
      obtain ⟨hp', hps'⟩ := List.forall_mem_cons.mp h'
      obtain ⟨hname, hnames⟩ := List.cons.inj heq
      rw [List.map_cons, List.map_cons, hp.name hp' (Json.text.inj hname), ih hps hps' hnames]

theorem Token.unplaced_of_superclass {c c' : Option (Token × Unit)}
    (h : ∀ p ∈ c, p.1.Regular .identifier) (h' : ∀ p ∈ c', p.1.Regular .identifier)
    (heq : c.map (fun s => Json.text s.1.lexeme) = c'.map fun s => Json.text s.1.lexeme) :
    (c.map fun (token, link) => (token.unplaced, link)) =
      c'.map fun (token, link) => (token.unplaced, link) := by
  cases c with
  | none =>
    cases c' with
    | none => rfl
    | some => cases heq
  | some p =>
    cases c' with
    | none => cases heq
    | some p' =>
      have hname := (h p rfl).name (h' p' rfl) (Json.text.inj (Option.some.inj heq))
      exact congrArg (fun t => some (t, ())) hname

/-! ## Trees with equal data -/

/-- Expressions with equal data are nodes of one kind. -/
theorem Expr.kind_eq_of_dump {β : Type} {e e' : Expr β} (h : e.dump = e'.dump) :
    e.kind = e'.kind :=
  e.writes_dump.eq (h ▸ e'.writes_dump)

/-- Statements with equal data are nodes of one kind. -/
theorem Stmt.kind_eq_of_dump {β : Type} {s s' : Stmt β} (h : s.dump = s'.dump) :
    s.kind = s'.kind :=
  s.writes_dump.eq (h ▸ s'.writes_dump)

mutual

/-- Expressions with equal data are equal up to the places of their tokens. The recursion is on the
first of them; the kind of the node leaves one form for the second. -/
theorem Expr.unplaced_of_dump : ∀ (e e' : Expr Unit), e.Tokens Token.Regular →
    e'.Tokens Token.Regular → e.dump = e'.dump → e.unplaced = e'.unplaced
  | .literal span value, e', _, _, heq => by
    have hkind := Expr.kind_eq_of_dump heq
    cases e' with
    | literal span' value' =>
      obtain ⟨rfl, hfields⟩ := Json.fields_of_node ["value"] (by decide +kernel) rfl rfl heq
      simp only [List.cons.injEq, Prod.mk.injEq, true_and, and_true] at hfields
      rw [Literal.eq_of_dump hfields]
    | _ => cases hkind
  | .name span x _, e', h, h', heq => by
    have hkind := Expr.kind_eq_of_dump heq
    cases e' with
    | name span' x' =>
      obtain ⟨rfl, hfields⟩ := Json.fields_of_node ["name"] (by decide +kernel) rfl rfl heq
      simp only [List.cons.injEq, Prod.mk.injEq, Json.text.injEq, true_and, and_true] at hfields
      rw [Expr.unplaced, Expr.unplaced, Token.Regular.name h h' hfields]
    | _ => cases hkind
  | .assign span x op value _, e', h, h', heq => by
    have hkind := Expr.kind_eq_of_dump heq
    cases e' with
    | assign span' x' op' value' =>
      obtain ⟨rfl, hfields⟩ :=
        Json.fields_of_node ["name", "op", "value"] (by decide +kernel) rfl rfl heq
      simp only [List.cons.injEq, Prod.mk.injEq, Json.text.injEq, true_and, and_true] at hfields
      obtain ⟨hx, hop, hvalue⟩ := hfields
      obtain ⟨hx₁, hop₁, hvalue₁⟩ := h
      obtain ⟨hx₂, hop₂, hvalue₂⟩ := h'
      rw [Expr.unplaced, Expr.unplaced, hx₁.name hx₂ hx, hop₁.unplaced_eq hop₂ hop,
        value.unplaced_of_dump value' hvalue₁ hvalue₂ hvalue]
    | _ => cases hkind
  | .binary span left op right, e', h, h', heq => by
    have hkind := Expr.kind_eq_of_dump heq
    cases e' with
    | binary span' left' op' right' =>
      obtain ⟨rfl, hfields⟩ :=
        Json.fields_of_node ["op", "left", "right"] (by decide +kernel) rfl rfl heq
      simp only [List.cons.injEq, Prod.mk.injEq, Json.text.injEq, true_and, and_true] at hfields
      obtain ⟨hop, hleft, hright⟩ := hfields
      obtain ⟨hleft₁, hop₁, hright₁⟩ := h
      obtain ⟨hleft₂, hop₂, hright₂⟩ := h'
      rw [Expr.unplaced, Expr.unplaced, hop₁.unplaced_eq hop₂ hop,
        left.unplaced_of_dump left' hleft₁ hleft₂ hleft,
        right.unplaced_of_dump right' hright₁ hright₂ hright]
    | _ => cases hkind
  | .logical span left op right, e', h, h', heq => by
    have hkind := Expr.kind_eq_of_dump heq
    cases e' with
    | logical span' left' op' right' =>
      obtain ⟨rfl, hfields⟩ :=
        Json.fields_of_node ["op", "left", "right"] (by decide +kernel) rfl rfl heq
      simp only [List.cons.injEq, Prod.mk.injEq, Json.text.injEq, true_and, and_true] at hfields
      obtain ⟨hop, hleft, hright⟩ := hfields
      obtain ⟨hleft₁, hop₁, hright₁⟩ := h
      obtain ⟨hleft₂, hop₂, hright₂⟩ := h'
      rw [Expr.unplaced, Expr.unplaced, hop₁.unplaced_eq hop₂ hop,
        left.unplaced_of_dump left' hleft₁ hleft₂ hleft,
        right.unplaced_of_dump right' hright₁ hright₂ hright]
    | _ => cases hkind
  | .unary span op operand trailing, e', h, h', heq => by
    have hkind := Expr.kind_eq_of_dump heq
    cases e' with
    | unary span' op' operand' trailing' =>
      obtain ⟨rfl, hfields⟩ :=
        Json.fields_of_node ["op", "postfix", "operand"] (by decide +kernel) rfl rfl heq
      simp only [List.cons.injEq, Prod.mk.injEq, Json.text.injEq, Json.bool.injEq,
        true_and, and_true] at hfields
      obtain ⟨hop, rfl, hoperand⟩ := hfields
      rw [Expr.unplaced, Expr.unplaced, h.1.unplaced_eq h'.1 hop,
        operand.unplaced_of_dump operand' h.2 h'.2 hoperand]
    | _ => cases hkind
  | .ternary span condition onTrue onFalse, e', h, h', heq => by
    have hkind := Expr.kind_eq_of_dump heq
    cases e' with
    | ternary span' condition' onTrue' onFalse' =>
      obtain ⟨rfl, hfields⟩ :=
        Json.fields_of_node ["condition", "then", "else"] (by decide +kernel) rfl rfl heq
      simp only [List.cons.injEq, Prod.mk.injEq, true_and, and_true] at hfields
      obtain ⟨hcondition, hTrue, hFalse⟩ := hfields
      rw [Expr.unplaced, Expr.unplaced,
        condition.unplaced_of_dump condition' h.1 h'.1 hcondition,
        onTrue.unplaced_of_dump onTrue' h.2.1 h'.2.1 hTrue,
        onFalse.unplaced_of_dump onFalse' h.2.2 h'.2.2 hFalse]
    | _ => cases hkind
  | .group span inner, e', h, h', heq => by
    have hkind := Expr.kind_eq_of_dump heq
    cases e' with
    | group span' inner' =>
      obtain ⟨rfl, hfields⟩ := Json.fields_of_node ["inner"] (by decide +kernel) rfl rfl heq
      simp only [List.cons.injEq, Prod.mk.injEq, true_and, and_true] at hfields
      rw [Expr.unplaced, Expr.unplaced, inner.unplaced_of_dump inner' h h' hfields]
    | _ => cases hkind
  | .call span callee paren args, e', h, h', heq => by
    have hkind := Expr.kind_eq_of_dump heq
    cases e' with
    | call span' callee' paren' args' =>
      obtain ⟨rfl, hfields⟩ :=
        Json.fields_of_node ["callee", "args"] (by decide +kernel) rfl rfl heq
      simp only [List.cons.injEq, Prod.mk.injEq, Json.list.injEq, true_and, and_true] at hfields
      obtain ⟨hcallee, hargs⟩ := hfields
      rw [Expr.unplaced, Expr.unplaced, callee.unplaced_of_dump callee' h.1 h'.1 hcallee,
        h.2.1.fixed h'.2.1 (by decide),
        Expr.unplacedList_of_dump args args' h.2.2 h'.2.2 hargs]
    | _ => cases hkind
  | .lambda function, e', h, h', heq => by
    have hkind := Expr.kind_eq_of_dump heq
    cases e' with
    | lambda function' =>
      rw [Expr.unplaced, Expr.unplaced,
        function.unplaced_of_dump function' h.2 h'.2 (h.1.fixed h'.1 (by decide)) heq]
    | _ => cases hkind
  | .get span object x, e', h, h', heq => by
    have hkind := Expr.kind_eq_of_dump heq
    cases e' with
    | get span' object' x' =>
      obtain ⟨rfl, hfields⟩ :=
        Json.fields_of_node ["object", "name"] (by decide +kernel) rfl rfl heq
      simp only [List.cons.injEq, Prod.mk.injEq, Json.text.injEq, true_and, and_true] at hfields
      rw [Expr.unplaced, Expr.unplaced, object.unplaced_of_dump object' h.1 h'.1 hfields.1,
        h.2.name h'.2 hfields.2]
    | _ => cases hkind
  | .set span object x value, e', h, h', heq => by
    have hkind := Expr.kind_eq_of_dump heq
    cases e' with
    | set span' object' x' value' =>
      obtain ⟨rfl, hfields⟩ :=
        Json.fields_of_node ["object", "name", "value"] (by decide +kernel) rfl rfl heq
      simp only [List.cons.injEq, Prod.mk.injEq, Json.text.injEq, true_and, and_true] at hfields
      obtain ⟨hobject, hx, hvalue⟩ := hfields
      rw [Expr.unplaced, Expr.unplaced, object.unplaced_of_dump object' h.1 h'.1 hobject,
        h.2.1.name h'.2.1 hx, value.unplaced_of_dump value' h.2.2 h'.2.2 hvalue]
    | _ => cases hkind
  | .receiver span keyword _, e', h, h', heq => by
    have hkind := Expr.kind_eq_of_dump heq
    cases e' with
    | receiver span' keyword' =>
      obtain ⟨rfl, hfields⟩ := Json.fields_of_node [] (by decide +kernel) rfl rfl heq
      rw [Expr.unplaced, Expr.unplaced, Token.Regular.fixed h h' (by decide)]
    | _ => cases hkind
  | .inherited span keyword method _, e', h, h', heq => by
    have hkind := Expr.kind_eq_of_dump heq
    cases e' with
    | inherited span' keyword' method' =>
      obtain ⟨rfl, hfields⟩ := Json.fields_of_node ["method"] (by decide +kernel) rfl rfl heq
      simp only [List.cons.injEq, Prod.mk.injEq, Json.text.injEq, true_and, and_true] at hfields
      rw [Expr.unplaced, Expr.unplaced, h.1.fixed h'.1 (by decide), h.2.name h'.2 hfields]
    | _ => cases hkind
termination_by structural e => e

theorem Expr.unplacedList_of_dump : ∀ (es es' : List (Expr Unit)),
    Expr.TokensList Token.Regular es → Expr.TokensList Token.Regular es' →
    Expr.dumpList es = Expr.dumpList es' → Expr.unplacedList es = Expr.unplacedList es'
  | [], [], _, _, _ => rfl
  | [], _ :: _, _, _, heq | _ :: _, [], _, _, heq => nomatch heq
  | e :: es, e' :: es', h, h', heq => by
    obtain ⟨hfirst, hrest⟩ := List.cons.inj heq
    rw [Expr.unplacedList, Expr.unplacedList, e.unplaced_of_dump e' h.1 h'.1 hfirst,
      Expr.unplacedList_of_dump es es' h.2 h'.2 hrest]
termination_by structural es => es

/-- A function is determined by its data and the token that it begins with. -/
theorem Function.unplaced_of_dump : ∀ (f f' : Function Unit), f.Tokens Token.Regular →
    f'.Tokens Token.Regular → f.keyword.unplaced = f'.keyword.unplaced → f.dump = f'.dump →
    f.unplaced = f'.unplaced
  | .mk span keyword params body getter, .mk span' keyword' params' body' getter', h, h', hkeyword,
    heq => by
    obtain ⟨rfl, hfields⟩ :=
      Json.fields_of_node ["params", "getter", "body"] (by decide +kernel) rfl rfl heq
    simp only [List.cons.injEq, Prod.mk.injEq, Json.list.injEq, Json.bool.injEq, true_and,
      and_true] at hfields
    obtain ⟨hparams, rfl, hbody⟩ := hfields
    change keyword.unplaced = keyword'.unplaced at hkeyword
    rw [Function.unplaced, Function.unplaced, hkeyword, Token.unplaced_of_names h.1 h'.1 hparams,
      Stmt.unplacedList_of_dump body body' h.2 h'.2 hbody]
termination_by structural f => f

/-- The functions of methods begin with their names, which their data show. -/
theorem Declaration.unplacedList_of_dump : ∀ (ds ds' : List (Declaration Unit)),
    Declaration.TokensList Token.Regular ds → Declaration.TokensList Token.Regular ds' →
    Declaration.dumpList ds = Declaration.dumpList ds' →
    Declaration.unplacedList ds = Declaration.unplacedList ds'
  | [], [], _, _, _ => rfl
  | [], _ :: _, _, _, heq | _ :: _, [], _, _, heq => nomatch heq
  | .mk span x function :: ds, .mk span' x' function' :: ds', h, h', heq => by
    obtain ⟨hfirst, hrest⟩ := List.cons.inj heq
    obtain ⟨rfl, hfields⟩ := Json.fields_of_node ["name", "func"] (by decide +kernel) rfl rfl hfirst
    simp only [List.cons.injEq, Prod.mk.injEq, Json.text.injEq, true_and, and_true] at hfields
    obtain ⟨⟨hx, hkeyword, hfunction⟩, hds⟩ := h
    obtain ⟨⟨hx', hkeyword', hfunction'⟩, hds'⟩ := h'
    have hname := hx.name hx' hfields.1
    have hbegins : function.keyword.unplaced = function'.keyword.unplaced := by
      rw [hkeyword, hkeyword', hname]
    rw [Declaration.unplacedList, Declaration.unplacedList, Declaration.unplaced,
      Declaration.unplaced, hname,
      function.unplaced_of_dump function' hfunction hfunction' hbegins hfields.2,
      Declaration.unplacedList_of_dump ds ds' hds hds' hrest]
termination_by structural ds => ds

/-- Statements with equal data are equal up to the places of their tokens. What is absent in one of
them has no field, so it is absent in the other. -/
theorem Stmt.unplaced_of_dump : ∀ (s s' : Stmt Unit), s.Tokens Token.Regular →
    s'.Tokens Token.Regular → s.dump = s'.dump → s.unplaced = s'.unplaced
  | .evaluate span expr, s', h, h', heq => by
    have hkind := Stmt.kind_eq_of_dump heq
    cases s' with
    | evaluate span' expr' =>
      obtain ⟨rfl, hfields⟩ := Json.fields_of_node ["expr"] (by decide +kernel) rfl rfl heq
      simp only [List.cons.injEq, Prod.mk.injEq, true_and, and_true] at hfields
      rw [Stmt.unplaced, Stmt.unplaced, expr.unplaced_of_dump expr' h h' hfields]
    | _ => cases hkind
  | .print span keyword value, s', h, h', heq => by
    have hkind := Stmt.kind_eq_of_dump heq
    cases s' with
    | print span' keyword' value' =>
      obtain ⟨rfl, hfields⟩ := Json.fields_of_node ["value"] (by decide +kernel) rfl rfl heq
      simp only [List.cons.injEq, Prod.mk.injEq, true_and, and_true] at hfields
      rw [Stmt.unplaced, Stmt.unplaced, h.1.fixed h'.1 (by decide),
        value.unplaced_of_dump value' h.2 h'.2 hfields]
    | _ => cases hkind
  | .declareVar span x none, s', h, h', heq => by
    have hkind := Stmt.kind_eq_of_dump heq
    cases s' with
    | declareVar span' x' init' =>
      cases init' with
      | none =>
        obtain ⟨rfl, hfields⟩ :=
          Json.fields_of_node ["name"] (by decide +kernel) rfl rfl heq
        simp only [List.cons.injEq, Prod.mk.injEq, Json.text.injEq, true_and, and_true]
          at hfields
        rw [Stmt.unplaced, Stmt.unplaced, Token.Regular.name h h' hfields]
      | some init' => exact absurd (show 1 = 2 from Json.length_of_node heq) (by decide)
    | _ => cases hkind
  | .declareVar span x (some init), s', h, h', heq => by
    have hkind := Stmt.kind_eq_of_dump heq
    cases s' with
    | declareVar span' x' init' =>
      cases init' with
      | none => exact absurd (show 2 = 1 from Json.length_of_node heq) (by decide)
      | some init' =>
        obtain ⟨rfl, hfields⟩ :=
          Json.fields_of_node ["name", "init"] (by decide +kernel) rfl rfl heq
        simp only [List.cons.injEq, Prod.mk.injEq, Json.text.injEq, true_and, and_true]
          at hfields
        rw [Stmt.unplaced, Stmt.unplaced, h.1.name h'.1 hfields.1,
          init.unplaced_of_dump init' h.2 h'.2 hfields.2]
    | _ => cases hkind
  | .block span stmts, s', h, h', heq => by
    have hkind := Stmt.kind_eq_of_dump heq
    cases s' with
    | block span' stmts' =>
      obtain ⟨rfl, hfields⟩ := Json.fields_of_node ["stmts"] (by decide +kernel) rfl rfl heq
      simp only [List.cons.injEq, Prod.mk.injEq, Json.list.injEq, true_and, and_true] at hfields
      rw [Stmt.unplaced, Stmt.unplaced, Stmt.unplacedList_of_dump stmts stmts' h h' hfields]
    | _ => cases hkind
  | .branch span condition onTrue none, s', h, h', heq => by
    have hkind := Stmt.kind_eq_of_dump heq
    cases s' with
    | branch span' condition' onTrue' onFalse' =>
      cases onFalse' with
      | none =>
        obtain ⟨rfl, hfields⟩ :=
          Json.fields_of_node ["condition", "then"] (by decide +kernel) rfl rfl heq
        simp only [List.cons.injEq, Prod.mk.injEq, true_and, and_true]
          at hfields
        rw [Stmt.unplaced, Stmt.unplaced,
          condition.unplaced_of_dump condition' h.1 h'.1 hfields.1,
          onTrue.unplaced_of_dump onTrue' h.2 h'.2 hfields.2]
      | some onFalse' => exact absurd (show 2 = 3 from Json.length_of_node heq) (by decide)
    | _ => cases hkind
  | .branch span condition onTrue (some onFalse), s', h, h', heq => by
    have hkind := Stmt.kind_eq_of_dump heq
    cases s' with
    | branch span' condition' onTrue' onFalse' =>
      cases onFalse' with
      | none => exact absurd (show 3 = 2 from Json.length_of_node heq) (by decide)
      | some onFalse' =>
        obtain ⟨rfl, hfields⟩ :=
          Json.fields_of_node ["condition", "then", "else"] (by decide +kernel) rfl rfl heq
        simp only [List.cons.injEq, Prod.mk.injEq, true_and, and_true]
          at hfields
        obtain ⟨hcondition, hTrue, hFalse⟩ := hfields
        rw [Stmt.unplaced, Stmt.unplaced,
          condition.unplaced_of_dump condition' h.1 h'.1 hcondition,
          onTrue.unplaced_of_dump onTrue' h.2.1 h'.2.1 hTrue,
          onFalse.unplaced_of_dump onFalse' h.2.2 h'.2.2 hFalse]
    | _ => cases hkind
  | .loop span condition body none bodyFirst, s', h, h', heq => by
    have hkind := Stmt.kind_eq_of_dump heq
    cases s' with
    | loop span' condition' body' update' bodyFirst' =>
      cases update' with
      | none =>
        obtain ⟨rfl, hfields⟩ :=
          Json.fields_of_node ["condition", "body", "doWhile"] (by decide +kernel) rfl rfl heq
        simp only [List.cons.injEq, Prod.mk.injEq, Json.bool.injEq, true_and, and_true]
          at hfields
        obtain ⟨hcondition, hbody, rfl⟩ := hfields
        rw [Stmt.unplaced, Stmt.unplaced,
          condition.unplaced_of_dump condition' h.1 h'.1 hcondition,
          body.unplaced_of_dump body' h.2 h'.2 hbody]
      | some update' => exact absurd (show 3 = 4 from Json.length_of_node heq) (by decide)
    | _ => cases hkind
  | .loop span condition body (some update) bodyFirst, s', h, h', heq => by
    have hkind := Stmt.kind_eq_of_dump heq
    cases s' with
    | loop span' condition' body' update' bodyFirst' =>
      cases update' with
      | none => exact absurd (show 4 = 3 from Json.length_of_node heq) (by decide)
      | some update' =>
        obtain ⟨rfl, hfields⟩ :=
          Json.fields_of_node ["condition", "body", "doWhile", "increment"]
            (by decide +kernel) rfl rfl heq
        simp only [List.cons.injEq, Prod.mk.injEq, Json.bool.injEq, true_and, and_true]
          at hfields
        obtain ⟨hcondition, hbody, rfl, hupdate⟩ := hfields
        rw [Stmt.unplaced, Stmt.unplaced,
          condition.unplaced_of_dump condition' h.1 h'.1 hcondition,
          body.unplaced_of_dump body' h.2.1 h'.2.1 hbody,
          update.unplaced_of_dump update' h.2.2 h'.2.2 hupdate]
    | _ => cases hkind
  | .leave span keyword none, s', h, h', heq => by
    have hkind := Stmt.kind_eq_of_dump heq
    cases s' with
    | leave span' keyword' value' =>
      cases value' with
      | none =>
        obtain ⟨rfl, hfields⟩ :=
          Json.fields_of_node [] (by decide +kernel) rfl rfl heq
        rw [Stmt.unplaced, Stmt.unplaced, Token.Regular.fixed h h' (by decide)]
      | some value' => exact absurd (show 0 = 1 from Json.length_of_node heq) (by decide)
    | _ => cases hkind
  | .leave span keyword (some value), s', h, h', heq => by
    have hkind := Stmt.kind_eq_of_dump heq
    cases s' with
    | leave span' keyword' value' =>
      cases value' with
      | none => exact absurd (show 1 = 0 from Json.length_of_node heq) (by decide)
      | some value' =>
        obtain ⟨rfl, hfields⟩ :=
          Json.fields_of_node ["value"] (by decide +kernel) rfl rfl heq
        simp only [List.cons.injEq, Prod.mk.injEq, true_and, and_true]
          at hfields
        rw [Stmt.unplaced, Stmt.unplaced, h.1.fixed h'.1 (by decide),
          value.unplaced_of_dump value' h.2 h'.2 hfields]
    | _ => cases hkind
  | .breakLoop span keyword, s', h, h', heq => by
    have hkind := Stmt.kind_eq_of_dump heq
    cases s' with
    | breakLoop span' keyword' =>
      obtain ⟨rfl, hfields⟩ := Json.fields_of_node [] (by decide +kernel) rfl rfl heq
      rw [Stmt.unplaced, Stmt.unplaced, Token.Regular.fixed h h' (by decide)]
    | _ => cases hkind
  | .continueLoop span keyword, s', h, h', heq => by
    have hkind := Stmt.kind_eq_of_dump heq
    cases s' with
    | continueLoop span' keyword' =>
      obtain ⟨rfl, hfields⟩ := Json.fields_of_node [] (by decide +kernel) rfl rfl heq
      rw [Stmt.unplaced, Stmt.unplaced, Token.Regular.fixed h h' (by decide)]
    | _ => cases hkind
  | .declareFunction (.mk span x function), s', h, h', heq => by
    have hkind := Stmt.kind_eq_of_dump heq
    cases s' with
    | declareFunction declaration' =>
      obtain ⟨span', x', function'⟩ := declaration'
      obtain ⟨rfl, hfields⟩ := Json.fields_of_node ["name", "func"] (by decide +kernel) rfl rfl heq
      simp only [List.cons.injEq, Prod.mk.injEq, Json.text.injEq, true_and, and_true] at hfields
      rw [Stmt.unplaced, Stmt.unplaced, Declaration.unplaced, Declaration.unplaced,
        h.1.name h'.1 hfields.1, function.unplaced_of_dump function' h.2.2 h'.2.2
          (h.2.1.fixed h'.2.1 (by decide)) hfields.2]
    | _ => cases hkind
  | .declareClass span x superclass methods classMethods, s', h, h', heq => by
    have hkind := Stmt.kind_eq_of_dump heq
    cases s' with
    | declareClass span' x' superclass' methods' classMethods' =>
      rw [Stmt.dump_declareClass, Stmt.dump_declareClass] at heq
      obtain ⟨-, rfl, hfields⟩ := Json.node_inj _ _ (Json.names_classFields ..)
        (Json.names_classFields ..) rfl rfl heq
      obtain ⟨hx, hsuperclass, hmethods, hclassMethods⟩ := Json.classFields_inj hfields
      obtain ⟨hx₁, hsuperclass₁, hmethods₁, hclassMethods₁⟩ := h
      obtain ⟨hx₂, hsuperclass₂, hmethods₂, hclassMethods₂⟩ := h'
      rw [Stmt.unplaced, Stmt.unplaced, hx₁.name hx₂ hx,
        Token.unplaced_of_superclass hsuperclass₁ hsuperclass₂ hsuperclass,
        Declaration.unplacedList_of_dump methods methods' hmethods₁ hmethods₂
          (Json.nonEmpty_inj hmethods),
        Declaration.unplacedList_of_dump classMethods classMethods' hclassMethods₁ hclassMethods₂
          (Json.nonEmpty_inj hclassMethods)]
    | _ => cases hkind
termination_by structural s => s

theorem Stmt.unplacedList_of_dump : ∀ (ss ss' : List (Stmt Unit)),
    Stmt.TokensList Token.Regular ss → Stmt.TokensList Token.Regular ss' →
    Stmt.dumpList ss = Stmt.dumpList ss' → Stmt.unplacedList ss = Stmt.unplacedList ss'
  | [], [], _, _, _ => rfl
  | [], _ :: _, _, _, heq | _ :: _, [], _, _, heq => nomatch heq
  | s :: ss, s' :: ss', h, h', heq => by
    obtain ⟨hfirst, hrest⟩ := List.cons.inj heq
    rw [Stmt.unplacedList, Stmt.unplacedList, s.unplaced_of_dump s' h.1 h'.1 hfirst,
      Stmt.unplacedList_of_dump ss ss' h.2 h'.2 hrest]
termination_by structural ss => ss

end

/-! ## Kinds in data -/

section

variable {β : Type}

mutual

theorem Expr.tagged_dump : ∀ e : Expr β, e.dump.Tagged
  | .literal _ value => Json.tagged_node .literal (by simp [Json.tagged_literal])
  | .name .. => Json.tagged_node .variable (by simp [Json.tagged_text])
  | .assign _ _ _ value _ =>
    Json.tagged_node .assign (by simp [Json.tagged_text, value.tagged_dump])
  | .binary _ left _ right =>
    Json.tagged_node .binary (by simp [Json.tagged_text, left.tagged_dump, right.tagged_dump])
  | .logical _ left _ right =>
    Json.tagged_node .logical (by simp [Json.tagged_text, left.tagged_dump, right.tagged_dump])
  | .unary _ _ operand _ =>
    Json.tagged_node .unary
      (by simp [Json.tagged_text, Json.tagged_bool, operand.tagged_dump])
  | .ternary _ condition onTrue onFalse =>
    Json.tagged_node .ternary
      (by simp [condition.tagged_dump, onTrue.tagged_dump, onFalse.tagged_dump])
  | .group _ inner => Json.tagged_node .grouping (by simp [inner.tagged_dump])
  | .call _ callee _ args =>
    Json.tagged_node .call
      (by simp [callee.tagged_dump, Json.tagged_list (Expr.tagged_dumpList args)])
  | .lambda function => function.tagged_dump
  | .get _ object _ => Json.tagged_node .get (by simp [object.tagged_dump, Json.tagged_text])
  | .set _ object _ value =>
    Json.tagged_node .set (by simp [object.tagged_dump, Json.tagged_text, value.tagged_dump])
  | .receiver .. => Json.tagged_node .receiver nofun
  | .inherited .. => Json.tagged_node .inherited (by simp [Json.tagged_text])

theorem Expr.tagged_dumpList : ∀ es : List (Expr β), ∀ item ∈ Expr.dumpList es, item.Tagged
  | [] => nofun
  | e :: es => List.forall_mem_cons.mpr ⟨e.tagged_dump, Expr.tagged_dumpList es⟩

theorem Function.tagged_dump : ∀ f : Function β, f.dump.Tagged
  | .mk _ _ params body _ => by
    have hparams : (Json.list (params.map fun p => .text p.lexeme)).Tagged :=
      Json.tagged_list (List.forall_mem_map.mpr fun p _ => Json.tagged_text p.lexeme)
    exact Json.tagged_node .function
      (by simp [hparams, Json.tagged_bool, Json.tagged_list (Stmt.tagged_dumpList body)])

theorem Declaration.tagged_dump : ∀ d : Declaration β, d.dump.Tagged
  | .mk _ _ function =>
    Json.tagged_node .funcDecl (by simp [Json.tagged_text, function.tagged_dump])

theorem Declaration.tagged_dumpList : ∀ ds : List (Declaration β),
    ∀ item ∈ Declaration.dumpList ds, item.Tagged
  | [] => nofun
  | d :: ds => List.forall_mem_cons.mpr ⟨d.tagged_dump, Declaration.tagged_dumpList ds⟩

theorem Stmt.tagged_dump : ∀ s : Stmt β, s.dump.Tagged
  | .evaluate _ expr => Json.tagged_node .exprStmt (by simp [expr.tagged_dump])
  | .print _ _ value => Json.tagged_node .printStmt (by simp [value.tagged_dump])
  | .declareVar _ _ none => Json.tagged_node .varStmt (by simp [Json.tagged_text])
  | .declareVar _ _ (some init) =>
    Json.tagged_node .varStmt (by simp [Json.tagged_text, init.tagged_dump])
  | .block _ stmts =>
    Json.tagged_node .blockStmt (by simp [Json.tagged_list (Stmt.tagged_dumpList stmts)])
  | .branch _ condition onTrue none =>
    Json.tagged_node .ifStmt (by simp [condition.tagged_dump, onTrue.tagged_dump])
  | .branch _ condition onTrue (some onFalse) =>
    Json.tagged_node .ifStmt
      (by simp [condition.tagged_dump, onTrue.tagged_dump, onFalse.tagged_dump])
  | .loop _ condition body none _ =>
    Json.tagged_node .whileStmt
      (by simp [condition.tagged_dump, body.tagged_dump, Json.tagged_bool])
  | .loop _ condition body (some update) _ =>
    Json.tagged_node .whileStmt
      (by simp [condition.tagged_dump, body.tagged_dump, Json.tagged_bool, update.tagged_dump])
  | .leave _ _ none => Json.tagged_node .returnStmt nofun
  | .leave _ _ (some value) => Json.tagged_node .returnStmt (by simp [value.tagged_dump])
  | .breakLoop .. => Json.tagged_node .breakStmt nofun
  | .continueLoop .. => Json.tagged_node .continueStmt nofun
  | .declareFunction declaration => declaration.tagged_dump
  | .declareClass _ _ superclass methods classMethods => by
    rw [Stmt.dump_declareClass]
    have hname : "name" ≠ "kind" := by decide
    refine Json.tagged_node .classDecl
      (List.forall_mem_cons.mpr ⟨⟨hname, Json.tagged_text _⟩, ?_⟩)
    have hsuperclass : ∀ v ∈ superclass.map (fun s => Json.text s.1.lexeme), v.Tagged := by
      intro v hv
      obtain ⟨s, -, rfl⟩ := Option.map_eq_some_iff.mp hv
      exact Json.tagged_text _
    have hmethods := Json.tagged_nonEmpty (Declaration.tagged_dumpList methods)
    have hclassMethods := Json.tagged_nonEmpty (Declaration.tagged_dumpList classMethods)
    exact List.forall_mem_append.mpr ⟨Json.tagged_optional (by decide) hsuperclass,
      List.forall_mem_append.mpr ⟨Json.tagged_optional (by decide) hmethods,
        Json.tagged_optional (by decide) hclassMethods⟩⟩

theorem Stmt.tagged_dumpList : ∀ ss : List (Stmt β), ∀ item ∈ Stmt.dumpList ss, item.Tagged
  | [] => nofun
  | s :: ss => List.forall_mem_cons.mpr ⟨s.tagged_dump, Stmt.tagged_dumpList ss⟩

end

theorem Program.tagged_dump (p : Program β) : p.dump.Tagged :=
  Json.tagged_node .file (by simp [Json.tagged_list (Stmt.tagged_dumpList p.stmts)])

end

/-! ## Programs -/

theorem Program.dump_unplaced {β : Type} (p : Program β) : p.unplaced.dump = p.dump := by
  unfold Program.unplaced Program.dump
  rw [Stmt.dumpList_unplaced]

theorem Program.unplaced_of_dump {p p' : Program Unit} (h : Stmt.TokensList Token.Regular p.stmts)
    (h' : Stmt.TokensList Token.Regular p'.stmts) (heq : p.dump = p'.dump) :
    p.unplaced = p'.unplaced := by
  obtain ⟨hspan, hfields⟩ := Json.fields_of_node ["stmts"] (by decide +kernel) rfl rfl heq
  simp only [List.cons.injEq, Prod.mk.injEq, Json.list.injEq, true_and, and_true] at hfields
  unfold Program.unplaced
  rw [hspan, Stmt.unplacedList_of_dump p.stmts p'.stmts h h' hfields]

theorem parseProgram_regular (source : Text) :
    Stmt.TokensList Token.Regular (parseProgram (tokenize source).tokens).1.stmts :=
  parseProgram_tokens (tokenize_regular source)
    ⟨rfl, fun h => absurd h (by decide), fun h => absurd h (by decide)⟩

/-- The trees of two sources, with whatever faults, have equal data if and only if they are equal up
to the places of their tokens. All kinds in these data are kinds of nodes. -/
theorem dump_eq_iff_unplaced_eq (source source' : Text) :
    let tree := (parseProgram (tokenize source).tokens).1
    let tree' := (parseProgram (tokenize source').tokens).1
    (tree.dump = tree'.dump ↔ tree.unplaced = tree'.unplaced) ∧
      ∀ fields, tree.dump.Part (.object fields) → ("kind", .text "Unknown") ∉ fields := by
  intro tree tree'
  refine ⟨⟨Program.unplaced_of_dump (parseProgram_regular source) (parseProgram_regular source'),
    fun h => ?_⟩, fun fields hpart hunknown => ?_⟩
  · rw [← tree.dump_unplaced, ← tree'.dump_unplaced, h]
  · obtain ⟨kind, hkind⟩ := tree.tagged_dump fields hpart _ hunknown
    exact kind.name_ne_unknown (Json.text.inj hkind).symm

end Scriptlet

import Scriptlet.Proofs.Tree.Tokens

/-!
# The words in a tree

Names of variables, `this` and `super` are the words in a tree on which it depends what a program
refers to. They are tokens of the tree, so each of them is of the kind that its place asks for
(`parseProgram_words`, `parseExpression_words`). As keywords have kinds of their own, no variable
has the name of one (`tokenize_reads`).
-/

namespace Scriptlet

section

variable {β : Type} (P : Kind → Token → Prop)

mutual

/-- What is asked of a kind holds of the words of that kind in an expression. -/
def Expr.Words : Expr β → Prop
  | .literal .. => True
  | .name _ name _ => P .identifier name
  | .assign _ name _ value _ => P .identifier name ∧ value.Words
  | .binary _ left _ right => left.Words ∧ right.Words
  | .logical _ left _ right => left.Words ∧ right.Words
  | .unary _ _ operand _ => operand.Words
  | .ternary _ condition onTrue onFalse => condition.Words ∧ onTrue.Words ∧ onFalse.Words
  | .group _ inner => inner.Words
  | .call _ callee _ args => callee.Words ∧ Expr.WordsList args
  | .lambda function => function.Words
  | .get _ object _ => object.Words
  | .set _ object _ value => object.Words ∧ value.Words
  | .receiver _ keyword _ => P .kwThis keyword
  | .inherited _ keyword _ _ => P .kwSuper keyword

def Expr.WordsList : List (Expr β) → Prop
  | [] => True
  | e :: es => e.Words ∧ Expr.WordsList es

def Function.Words : Function β → Prop
  | .mk _ _ params body _ => (∀ p ∈ params, P .identifier p) ∧ Stmt.WordsList body

def Declaration.WordsList : List (Declaration β) → Prop
  | [] => True
  | .mk _ _ function :: ds => function.Words ∧ Declaration.WordsList ds

/-- What is asked of a kind holds of the words of that kind in a statement. -/
def Stmt.Words : Stmt β → Prop
  | .evaluate _ expr => expr.Words
  | .print _ _ value => value.Words
  | .declareVar _ name none => P .identifier name
  | .declareVar _ name (some init) => P .identifier name ∧ init.Words
  | .block _ stmts => Stmt.WordsList stmts
  | .branch _ condition onTrue none => condition.Words ∧ onTrue.Words
  | .branch _ condition onTrue (some onFalse) =>
    condition.Words ∧ onTrue.Words ∧ onFalse.Words
  | .loop _ condition body none _ => condition.Words ∧ body.Words
  | .loop _ condition body (some update) _ => condition.Words ∧ body.Words ∧ update.Words
  | .leave _ _ none => True
  | .leave _ _ (some value) => value.Words
  | .breakLoop .. => True
  | .continueLoop .. => True
  | .declareFunction (.mk _ name function) => P .identifier name ∧ function.Words
  | .declareClass _ name superclass methods classMethods =>
    P .identifier name ∧ (∀ p ∈ superclass, P .identifier p.1) ∧
      Declaration.WordsList methods ∧ Declaration.WordsList classMethods

def Stmt.WordsList : List (Stmt β) → Prop
  | [] => True
  | s :: ss => s.Words ∧ Stmt.WordsList ss

end

end

/-! ## Links do not matter -/

section

variable {β γ : Type} (f : β → γ) (P : Kind → Token → Prop)

mutual

theorem Expr.words_mapLinks : ∀ e : Expr β, (e.mapLinks f).Words P ↔ e.Words P
  | .literal .. | .name .. | .receiver .. | .inherited .. => by
    simp only [Expr.mapLinks, Expr.Words]
  | .assign _ _ _ value _ => by simp only [Expr.mapLinks, Expr.Words, value.words_mapLinks]
  | .binary _ left _ right | .logical _ left _ right => by
    simp only [Expr.mapLinks, Expr.Words, left.words_mapLinks, right.words_mapLinks]
  | .unary _ _ operand _ => by simp only [Expr.mapLinks, Expr.Words, operand.words_mapLinks]
  | .ternary _ condition onTrue onFalse => by
    simp only [Expr.mapLinks, Expr.Words, condition.words_mapLinks, onTrue.words_mapLinks,
      onFalse.words_mapLinks]
  | .group _ inner => by simp only [Expr.mapLinks, Expr.Words, inner.words_mapLinks]
  | .call _ callee _ args => by
    simp only [Expr.mapLinks, Expr.Words, callee.words_mapLinks, Expr.wordsList_mapLinks args]
  | .lambda function => by simp only [Expr.mapLinks, Expr.Words, function.words_mapLinks]
  | .get _ object _ => by simp only [Expr.mapLinks, Expr.Words, object.words_mapLinks]
  | .set _ object _ value => by
    simp only [Expr.mapLinks, Expr.Words, object.words_mapLinks, value.words_mapLinks]

theorem Expr.wordsList_mapLinks : ∀ es : List (Expr β),
    Expr.WordsList P (Expr.mapLinksList f es) ↔ Expr.WordsList P es
  | [] => by simp only [Expr.mapLinksList, Expr.WordsList]
  | e :: es => by
    simp only [Expr.mapLinksList, Expr.WordsList, e.words_mapLinks, Expr.wordsList_mapLinks es]

theorem Function.words_mapLinks : ∀ g : Function β, (g.mapLinks f).Words P ↔ g.Words P
  | .mk _ _ _ body _ => by
    simp only [Function.mapLinks, Function.Words, Stmt.wordsList_mapLinks body]

theorem Declaration.wordsList_mapLinks : ∀ ds : List (Declaration β),
    Declaration.WordsList P (Declaration.mapLinksList f ds) ↔ Declaration.WordsList P ds
  | [] => by simp only [Declaration.mapLinksList, Declaration.WordsList]
  | .mk _ _ function :: ds => by
    simp only [Declaration.mapLinksList, Declaration.mapLinks, Declaration.WordsList,
      function.words_mapLinks, Declaration.wordsList_mapLinks ds]

theorem Stmt.words_mapLinks : ∀ s : Stmt β, (s.mapLinks f).Words P ↔ s.Words P
  | .evaluate _ expr => by simp only [Stmt.mapLinks, Stmt.Words, expr.words_mapLinks]
  | .print _ _ value => by simp only [Stmt.mapLinks, Stmt.Words, value.words_mapLinks]
  | .declareVar _ _ none => by simp only [Stmt.mapLinks, Stmt.Words]
  | .declareVar _ _ (some init) => by simp only [Stmt.mapLinks, Stmt.Words, init.words_mapLinks]
  | .block _ stmts => by simp only [Stmt.mapLinks, Stmt.Words, Stmt.wordsList_mapLinks stmts]
  | .branch _ condition onTrue none => by
    simp only [Stmt.mapLinks, Stmt.Words, condition.words_mapLinks, onTrue.words_mapLinks]
  | .branch _ condition onTrue (some onFalse) => by
    simp only [Stmt.mapLinks, Stmt.Words, condition.words_mapLinks, onTrue.words_mapLinks,
      onFalse.words_mapLinks]
  | .loop _ condition body none _ => by
    simp only [Stmt.mapLinks, Stmt.Words, condition.words_mapLinks, body.words_mapLinks]
  | .loop _ condition body (some update) _ => by
    simp only [Stmt.mapLinks, Stmt.Words, condition.words_mapLinks, body.words_mapLinks,
      update.words_mapLinks]
  | .leave _ _ none | .breakLoop .. | .continueLoop .. => by
    simp only [Stmt.mapLinks, Stmt.Words]
  | .leave _ _ (some value) => by simp only [Stmt.mapLinks, Stmt.Words, value.words_mapLinks]
  | .declareFunction (.mk _ _ function) => by
    simp only [Stmt.mapLinks, Declaration.mapLinks, Stmt.Words, function.words_mapLinks]
  | .declareClass _ _ superclass methods classMethods => by
    cases superclass <;>
      simp [Stmt.mapLinks, Stmt.Words, Declaration.wordsList_mapLinks methods,
        Declaration.wordsList_mapLinks classMethods]

theorem Stmt.wordsList_mapLinks : ∀ ss : List (Stmt β),
    Stmt.WordsList P (Stmt.mapLinksList f ss) ↔ Stmt.WordsList P ss
  | [] => by simp only [Stmt.mapLinksList, Stmt.WordsList]
  | s :: ss => by
    simp only [Stmt.mapLinksList, Stmt.WordsList, s.words_mapLinks, Stmt.wordsList_mapLinks ss]

end

end

/-! ## Words are tokens -/

section

variable {β : Type} {P : Kind → Token → Prop}

mutual

theorem Expr.Tokens.words : ∀ {e : Expr β}, e.Tokens P → e.Words P
  | .literal .., _ => trivial
  | .name .., h => h
  | .assign .., h => ⟨h.1, h.2.2.words⟩
  | .binary .., h => ⟨h.1.words, h.2.2.words⟩
  | .logical .., h => ⟨h.1.words, h.2.2.words⟩
  | .unary .., h => h.2.words
  | .ternary .., h => ⟨h.1.words, h.2.1.words, h.2.2.words⟩
  | .group _ inner, h => Expr.Tokens.words (e := inner) h
  | .call .., h => ⟨h.1.words, Expr.TokensList.words h.2.2⟩
  | .lambda _, h => h.2.words
  | .get .., h => h.1.words
  | .set .., h => ⟨h.1.words, h.2.2.words⟩
  | .receiver .., h => h
  | .inherited .., h => h.1

theorem Expr.TokensList.words : ∀ {es : List (Expr β)}, Expr.TokensList P es → Expr.WordsList P es
  | [], _ => trivial
  | _ :: _, h => ⟨h.1.words, Expr.TokensList.words h.2⟩

theorem Function.Tokens.words : ∀ {f : Function β}, f.Tokens P → f.Words P
  | .mk .., h => ⟨h.1, Stmt.TokensList.words h.2⟩

theorem Declaration.TokensList.words : ∀ {ds : List (Declaration β)},
    Declaration.TokensList P ds → Declaration.WordsList P ds
  | [], _ => trivial
  | .mk .. :: _, h => ⟨h.1.2.2.words, Declaration.TokensList.words h.2⟩

theorem Stmt.Tokens.words : ∀ {s : Stmt β}, s.Tokens P → s.Words P
  | .evaluate _ expr, h => Expr.Tokens.words (e := expr) h
  | .print .., h => h.2.words
  | .declareVar _ _ none, h => h
  | .declareVar _ _ (some _), h => ⟨h.1, h.2.words⟩
  | .block .., h => Stmt.TokensList.words h
  | .branch _ _ _ none, h => ⟨h.1.words, h.2.words⟩
  | .branch _ _ _ (some _), h => ⟨h.1.words, h.2.1.words, h.2.2.words⟩
  | .loop _ _ _ none _, h => ⟨h.1.words, h.2.words⟩
  | .loop _ _ _ (some _) _, h => ⟨h.1.words, h.2.1.words, h.2.2.words⟩
  | .leave _ _ none, _ => trivial
  | .leave _ _ (some _), h => h.2.words
  | .breakLoop .., _ => trivial
  | .continueLoop .., _ => trivial
  | .declareFunction (.mk ..), h => ⟨h.1, h.2.2.words⟩
  | .declareClass .., h =>
    ⟨h.1, h.2.1, Declaration.TokensList.words h.2.2.1, Declaration.TokensList.words h.2.2.2⟩

theorem Stmt.TokensList.words : ∀ {ss : List (Stmt β)}, Stmt.TokensList P ss → Stmt.WordsList P ss
  | [], _ => trivial
  | _ :: _, h => ⟨h.1.words, Stmt.TokensList.words h.2⟩

end

end

/-! ## Sources -/

section

variable {P : Kind → Token → Prop} {tokens : List Token}

/-- What is asked of the tokens of a program holds of its words. -/
theorem parseProgram_words (h : ∀ t ∈ tokens, P t.kind t) (hend : P .endOfInput .missingEnd) :
    Stmt.WordsList P (parseProgram tokens).1.stmts :=
  (parseProgram_tokens h hend).words

/-- What is asked of the tokens of an expression holds of its words. -/
theorem parseExpression_words (h : ∀ t ∈ tokens, P t.kind t) (hend : P .endOfInput .missingEnd)
    {expr : Expr Unit} (hexpr : (parseExpression tokens).1 = some expr) : expr.Words P :=
  (parseExpression_tokens h hend hexpr).words

end

/-- A token that has a kind as a word: if it is a name or a keyword, this is what its letters
say. -/
def Token.ReadsAs (k : Kind) (t : Token) : Prop :=
  k = .identifier ∨ k.isKeyword → Kind.ofWord t.lexeme = k

namespace Token.ReadsAs

variable {k : Kind} {t : Token}

theorem of_not_word (hname : k ≠ .identifier) (hkeyword : k.isKeyword = false) : t.ReadsAs k := by
  intro h
  rcases h with h | h
  · exact absurd h hname
  · rw [hkeyword] at h
    cases h

/-- A name is no keyword. -/
theorem ne_text (h : t.ReadsAs .identifier) (hk : k ∈ Kind.keywords) : t.lexeme ≠ k.text := by
  intro htext
  have hword := h (.inl rfl)
  have hnone : ∀ k ∈ Kind.keywords, Kind.ofWord k.text ≠ .identifier := by decide +kernel
  rw [htext] at hword
  exact hnone k hk hword

/-- A keyword is spelled as its kind. -/
theorem eq_text (h : t.ReadsAs k) (hk : k.isKeyword) (hname : k ≠ .identifier) :
    t.lexeme = k.text :=
  Kind.text_of_ofWord (h (.inr hk)) hname

end Token.ReadsAs

/-- Every name and every keyword of a source is what its letters say. -/
theorem tokenize_reads (source : Text) : ∀ t ∈ (tokenize source).tokens, t.ReadsAs t.kind := by
  intro t ht
  rcases tokenize_begins ht with ⟨hkind, -⟩ | ⟨b, rest, -, hbegins⟩
  · rw [hkind]
    exact .of_not_word Kind.noConfusion rfl
  · have htoken := hbegins.token
    rw [hbegins.lexeme] at htoken
    rcases Lexer.kind_of_cut htoken with hword | ⟨hname, hkeyword⟩
    · exact fun _ => (hbegins.lexeme ▸ hword).symm
    · exact .of_not_word hname hkeyword

end Scriptlet

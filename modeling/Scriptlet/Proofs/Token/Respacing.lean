import Scriptlet.Proofs.Token.Lexemes

/-!
# Sources with other spacing

Between two tokens a source may have any trivia, or none. If all comments and strings of a source
are closed, its lexemes with single spaces between them have the same tokens: each lexeme is read as
it was before (`Lexer.cutAll_respaced`), and the spaces are trivia. That is so because a lexeme
depends on what comes after it only in how far it goes, and it goes as far as its form allows
(`tokens_respaced_and_longest`).
-/

namespace Scriptlet

/-- A token without its place. -/
def Token.content (t : Token) : Kind × Text × Option Literal := (t.kind, t.lexeme, t.literal)

/-- The lexemes of a source with single spaces between them. -/
def Text.respaced (source : Text) : Text := .join " " ((tokenize source).tokens.map Token.lexeme)

namespace Lexer

/-! ## Contents and codes of placed pieces -/

/-- The pieces that make tokens. -/
def tokenPieces (xs : List (Piece × Text)) : List (Piece × Text) :=
  xs.filter fun x => (x.1.token? x.2).isSome

/-- The content of the token that a piece makes. -/
def content? (x : Piece × Text) : Option (Kind × Text × Option Literal) :=
  (x.1.token? x.2).map fun (kind, literal) => (kind, x.2, literal)

theorem content_place (p : Position) (xs : List (Piece × Text)) :
    (place p xs).tokens.map Token.content = xs.filterMap content? ++ [(.endOfInput, [], none)] := by
  induction xs generalizing p with
  | nil => rfl
  | cons x xs ih =>
    simp only [place, List.map_append, ih, List.filterMap_cons, content?]
    cases x.1.token? x.2 with
    | none => rfl
    | some token => rfl

theorem codes_place (p : Position) (xs : List (Piece × Text)) :
    (place p xs).report.map Diagnostic.code = (faults xs).map LexicalFault.code := by
  have h := congrArg (List.map Diagnostic.code) (report_place p xs)
  rw [List.map_map, List.map_map] at h
  exact h

/-- What is made of the pieces that make tokens is made of all, if the others have no part in it. -/
theorem filterMap_tokenPieces {α : Type} {f : Piece × Text → Option α} {xs : List (Piece × Text)}
    (h : ∀ x ∈ xs, x.1.token? x.2 = none → f x = none) :
    (tokenPieces xs).filterMap f = xs.filterMap f := by
  induction xs with
  | nil => rfl
  | cons x xs ih =>
    obtain ⟨hx, hxs⟩ := List.forall_mem_cons.mp h
    specialize ih hxs
    unfold tokenPieces at ih ⊢
    cases htoken : x.1.token? x.2 with
    | none => simp [htoken, hx htoken, ih]
    | some token => simp [htoken, List.filterMap_cons, ih]

theorem lexeme_content? (xs : List (Piece × Text)) :
    (xs.filterMap content?).map (fun x => x.2.1) = (tokenPieces xs).map Prod.snd := by
  induction xs with
  | nil => rfl
  | cons x xs ih =>
    unfold tokenPieces at ih ⊢
    cases htoken : x.1.token? x.2 with
    | none => simp [content?, htoken, ih]
    | some token => simp [content?, htoken, ih]

theorem content?_eq_none {x : Piece × Text} (h : x.1.token? x.2 = none) : content? x = none := by
  rw [content?, h]
  rfl

/-- Closed trivia have no faults. -/
theorem fault?_eq_none {x : Piece × Text} (hclosed : x.1.isClosed) (h : x.1.token? x.2 = none) :
    x.1.fault? x.2 = none := by
  obtain ⟨piece, bytes⟩ := x
  cases piece with
  | blank | lineComment => rfl
  | blockComment closed =>
    cases hclosed
    rfl
  | _ => cases h

/-- A piece is closed exactly if it is not reported as one without an end. -/
theorem isClosed_iff_code (piece : Piece) (bytes : Text) : piece.isClosed ↔
    ∀ fault, piece.fault? bytes = some fault → fault.code ≠ "E1001" ∧ fault.code ≠ "E1004" := by
  cases piece with
  | blank | lineComment | word | operator => exact ⟨fun _ => nofun, fun _ => rfl⟩
  | blockComment closed | string value closed =>
    cases closed with
    | true => exact ⟨fun _ => nofun, fun _ => rfl⟩
    | false => exact ⟨nofun, fun h => absurd (h _ rfl) (by decide)⟩
  | number x =>
    refine ⟨fun _ fault h => ?_, fun _ => rfl⟩
    cases hfinite : x.isFinite <;> rw [Piece.fault?, hfinite] at h <;> cases h
    change ("E1005" : Text) ≠ "E1001" ∧ ("E1005" : Text) ≠ "E1004"
    decide
  | illegal b =>
    refine ⟨fun _ fault h => ?_, fun _ => rfl⟩
    cases h
    change ("E1003" : Text) ≠ "E1001" ∧ ("E1003" : Text) ≠ "E1004"
    decide

theorem closed_iff_codes (xs : List (Piece × Text)) : (∀ x ∈ xs, x.1.isClosed) ↔
    ∀ code ∈ (faults xs).map LexicalFault.code, code ≠ "E1001" ∧ code ≠ "E1004" := by
  unfold faults
  rw [List.forall_mem_map]
  constructor
  · intro h fault hfault
    obtain ⟨x, hx, hfault⟩ := List.mem_filterMap.mp hfault
    exact (isClosed_iff_code x.1 x.2).mp (h x hx) fault hfault
  · intro h x hx
    exact (isClosed_iff_code x.1 x.2).mpr fun fault hfault =>
      h fault (List.mem_filterMap.mpr ⟨x, hx, hfault⟩)

/-! ## Reading lexemes again -/

/-- A piece that is read from its bytes wherever they stand before a blank. -/
structure Stable (x : Piece × Text) : Prop where
  forms : Forms x.2 x.1
  token : (x.1.token? x.2).isSome
  closed : x.1.isClosed
  ne_nil : x.2 ≠ []

theorem stable_tokenPieces {source : Text} (h : ∀ x ∈ cutAll source, x.1.isClosed) :
    ∀ x ∈ tokenPieces (cutAll source), Stable x := by
  induction source using cut_induction with
  | nil => nofun
  | cons b rest ih =>
    rw [cutAll_cons] at h ⊢
    obtain ⟨hfirst, hlater⟩ := List.forall_mem_cons.mp h
    intro x hx
    obtain ⟨hmem, htoken⟩ := List.mem_filter.mp hx
    rcases List.mem_cons.mp hmem with rfl | hmem
    · exact ⟨forms_cut b rest, htoken, hfirst, (cut_spec b rest).2.1⟩
    · exact ih hlater x (List.mem_filter.mpr ⟨hmem, htoken⟩)

theorem cutAll_space (rest : Text) : cutAll (0x20 :: rest) = (.blank, [0x20]) :: cutAll rest :=
  cutAll_cons 0x20 rest

/-- Lexemes with a space after each are cut into the pieces they come from, and the spaces. -/
theorem cutAll_respaced {xs : List (Piece × Text)} (h : ∀ x ∈ xs, Stable x) :
    cutAll (xs.flatMap fun x => x.2 ++ [0x20]) = xs.flatMap fun x => [x, (.blank, [0x20])] := by
  induction xs with
  | nil => rfl
  | cons x xs ih =>
    obtain ⟨hx, hxs⟩ := List.forall_mem_cons.mp h
    obtain ⟨piece, bytes⟩ := x
    obtain ⟨b, t, rfl⟩ := List.exists_cons_of_ne_nil hx.ne_nil
    have hblank : ∀ c ∈ (0x20 :: xs.flatMap fun x => x.2 ++ [0x20] : Text).head?, c = 0x20 :=
      fun c hc => (Option.some.inj hc).symm
    have hcut := cut_of_forms hx.forms hx.token hx.closed hblank
    have hbytes : (b :: t) ++ [0x20] ++ (xs.flatMap fun x => x.2 ++ [0x20]) =
        b :: (t ++ 0x20 :: xs.flatMap fun x => x.2 ++ [0x20]) := by
      simp
    rw [List.flatMap_cons, List.flatMap_cons, hbytes, cutAll_cons, hcut, cutAll_space, ih hxs]
    rfl

/-- Blanks in between do not show in what is made of the pieces. -/
theorem filterMap_respaced {α : Type} {f : Piece × Text → Option α}
    (h : f (.blank, [0x20]) = none) (xs : List (Piece × Text)) :
    (xs.flatMap fun x => [x, (.blank, [0x20])]).filterMap f = xs.filterMap f := by
  induction xs with
  | nil => rfl
  | cons x xs ih =>
    rw [List.flatMap_cons, List.filterMap_append, ih]
    cases hx : f x with
    | none => simp [h, hx]
    | some y => simp [h, hx]

end Lexer

/-! ## Longest tokens -/

/-- A token is the longest one of its form where it begins. -/
structure Token.Longest (source : Text) (t : Token) : Prop where
  here : t.lexeme <+: source.onward t
  operator : t.kind ∈ Kind.operators → ∀ p, p <+: source.onward t →
    t.lexeme.length < p.length → ∀ k ∈ Kind.operators, p ≠ k.text
  word : t.kind ∈ .identifier :: Kind.keywords → ∀ p, p <+: source.onward t →
    t.lexeme.length < p.length → ¬ Identifier p
  number : t.kind = .number → ∀ p, p <+: source.onward t →
    t.lexeme.length < p.length → ∀ w f, ¬ Numeral w f p

theorem Kind.not_word_of_operator : ∀ k ∈ operators, k ∉ identifier :: keywords := by decide

theorem Lexer.Begins.longest {source : Text} {b : UInt8} {rest : Text} {t : Token}
    (h : Begins b rest t) (honward : source.onward t = b :: rest) : t.Longest source := by
  have hlongest := longest_cut b rest
  have hmakes := h.makes
  unfold Lexer.Longest at hlongest
  rw [← h.lexeme] at hlongest
  generalize (cut b rest).piece = piece, t.literal = literal at hlongest hmakes
  refine ⟨honward ▸ h.lexeme_prefix, ?_, ?_, ?_⟩ <;> rw [honward] <;> intro hk p hp hlonger
  · generalize t.kind = kind at hk hmakes
    cases hmakes with
    | operator =>
      rintro k hk' rfl
      exact absurd (hlongest k hk' hp) (by omega)
    | keyword hword =>
      exact absurd (List.mem_cons_of_mem _ hword) (Kind.not_word_of_operator _ hk)
    | name | number | string | illegal => exact absurd hk (by decide)
  · generalize t.kind = kind at hk hmakes
    cases hmakes with
    | keyword | name => exact fun hword => absurd (hlongest p hword hp) (by omega)
    | operator hop => exact absurd hk (Kind.not_word_of_operator _ hop)
    | number | string | illegal => exact absurd hk (by decide)
  · generalize t.kind = kind at hk hmakes
    cases hmakes with
    | number => exact fun w f hnumeral => absurd (hlongest w f p hnumeral hp) (by omega)
    | operator hop | keyword hop => rw [hk] at hop; exact absurd hop (by decide)
    | name | string | illegal => cases hk

/-! ## Sources -/

theorem Text.join_space_end (ts : List Text) :
    Text.join " " (ts ++ [[]]) = ts.flatMap (· ++ [0x20]) := by
  induction ts with
  | nil => rfl
  | cons t ts ih =>
    obtain ⟨u, us, hrest⟩ := List.exists_cons_of_ne_nil (l := ts ++ [[]]) (by simp)
    rw [List.cons_append, hrest, Text.join, ← hrest, ih]
    · rfl
    · nofun

theorem content_tokenize (source : Text) : (tokenize source).tokens.map Token.content =
    (Lexer.cutAll source).filterMap Lexer.content? ++ [(.endOfInput, [], none)] :=
  Lexer.content_place .start (Lexer.cutAll source)

theorem codes_tokenize (source : Text) : (tokenize source).report.map Diagnostic.code =
    (Lexer.faults (Lexer.cutAll source)).map LexicalFault.code :=
  Lexer.codes_place .start (Lexer.cutAll source)

theorem closed_iff_report (source : Text) : (∀ x ∈ Lexer.cutAll source, x.1.isClosed) ↔
    ∀ d ∈ (tokenize source).report, d.code ≠ "E1001" ∧ d.code ≠ "E1004" := by
  rw [Lexer.closed_iff_codes, ← codes_tokenize, List.forall_mem_map]

theorem respaced_eq (source : Text) : source.respaced =
    (Lexer.tokenPieces (Lexer.cutAll source)).flatMap fun x => x.2 ++ [0x20] := by
  have hlexemes : (tokenize source).tokens.map Token.lexeme =
      (Lexer.tokenPieces (Lexer.cutAll source)).map Prod.snd ++ [[]] := by
    have h := congrArg (List.map fun x => x.2.1) (content_tokenize source)
    rw [List.map_map, List.map_append, Lexer.lexeme_content?] at h
    exact h
  rw [Text.respaced, hlexemes, Text.join_space_end, List.flatMap_map]

/-- A source without open comments and strings has the same tokens after other blanks, and the same
is wrong with it. -/
theorem tokenize_respaced {source : Text} (h : ∀ x ∈ Lexer.cutAll source, x.1.isClosed) :
    (tokenize source.respaced).tokens.map Token.content =
        (tokenize source).tokens.map Token.content ∧
      (tokenize source.respaced).report.map Diagnostic.code =
        (tokenize source).report.map Diagnostic.code := by
  have hcut := Lexer.cutAll_respaced (Lexer.stable_tokenPieces h)
  rw [← respaced_eq] at hcut
  constructor
  · rw [content_tokenize, content_tokenize, hcut, Lexer.filterMap_respaced rfl,
      Lexer.filterMap_tokenPieces fun x _ => Lexer.content?_eq_none]
  · rw [codes_tokenize, codes_tokenize, hcut, Lexer.faults, Lexer.filterMap_respaced rfl,
      Lexer.filterMap_tokenPieces fun x hx => Lexer.fault?_eq_none (h x hx)]
    rfl

/-- If all comments and strings of a source end, its lexemes with single spaces between them have
the same tokens, and the same is wrong with them. The tokens of any source are the longest of their
forms, and its operators and keywords are spelled as their kinds. -/
theorem tokens_respaced_and_longest (source : Text) :
    ((∀ d ∈ (tokenize source).report, d.code ≠ "E1001" ∧ d.code ≠ "E1004") →
      (tokenize source.respaced).tokens.map Token.content =
          (tokenize source).tokens.map Token.content ∧
        (tokenize source.respaced).report.map Diagnostic.code =
          (tokenize source).report.map Diagnostic.code) ∧
    ∀ t ∈ (tokenize source).tokens,
      (t.kind ∈ Kind.fixed → t.lexeme = t.kind.text) ∧ t.Longest source := by
  refine ⟨fun h => tokenize_respaced ((closed_iff_report source).mpr h), fun t ht => ?_⟩
  rcases tokenize_begins ht with ⟨hkind, hlexeme⟩ | ⟨b, rest, honward, hbegins⟩
  · rw [hkind]
    refine ⟨fun hk => absurd hk (by decide), hlexeme ▸ List.nil_prefix, ?_, ?_, ?_⟩ <;>
      rw [hkind] <;> intro hk <;> exact absurd hk (by decide)
  · exact ⟨hbegins.lexeme_eq_text, hbegins.longest honward⟩

/-- Two numbers, one of them with a point after it, an operator of three bytes before one of two, a
nested comment that ends, a string with a comment in it and a byte that begins nothing. -/
theorem tokens_respaced_and_longest_adjacent :
    let source : Text := "7.x**=7.5**/*a/**/*/-\"/*\";@classy"
    (∀ d ∈ (tokenize source).report, d.code ≠ "E1001" ∧ d.code ≠ "E1004") ∧
      source.respaced = "7 . x **= 7.5 ** - \"/*\" ; @ classy " ∧
      (tokenize source.respaced).report.map Diagnostic.code =
        (tokenize source).report.map Diagnostic.code := by
  intro source
  have h : ∀ d ∈ (tokenize source).report, d.code ≠ "E1001" ∧ d.code ≠ "E1004" :=
    (closed_iff_report source).mp (by decide +kernel)
  exact ⟨h, by decide +kernel, ((tokens_respaced_and_longest source).1 h).2⟩

end Scriptlet

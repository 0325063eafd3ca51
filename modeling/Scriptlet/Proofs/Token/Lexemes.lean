import Scriptlet.Proofs.Token.Concatenation
import Scriptlet.Proofs.Tree.Reading

/-!
# Lexemes

The bytes of a piece tell what it is. An operator is spelled as its kind, a word is an identifier, a
number is a numeral, and what is illegal is a byte that begins nothing (`Lexer.Forms`,
`Lexer.forms_cut`); its token is of the kind of these bytes (`Lexer.makes_token?`). The other way
round, bytes of such a form are read as this piece wherever they stand before a blank
(`Lexer.cut_of_forms`). And the piece that is cut off a source is the longest one of its form
(`Lexer.longest_cut`). Every token of a source is such a piece where it begins (`tokenize_begins`).
-/

namespace Scriptlet

/-- The kinds of operators and delimiters. -/
def Kind.operators : List Kind :=
  [.leftParen, .rightParen, .leftBrace, .rightBrace, .comma, .dot, .semicolon, .colon, .question,
    .minus, .plus, .slash, .star, .bang, .assign, .less, .greater, .notEqual, .equal, .lessEqual,
    .greaterEqual, .plusPlus, .minusMinus, .starStar, .plusAssign, .minusAssign, .starAssign,
    .slashAssign, .starStarAssign]

/-- The kinds whose tokens all have the same spelling. -/
def Kind.fixed : List Kind := operators ++ keywords

/-- One digit at least, and nothing else. -/
def IsDigits (t : Text) : Prop := t ≠ [] ∧ ∀ d ∈ t, Lexer.isDigit d

/-- Digits, and a fraction after a point if there is one. -/
inductive Numeral : (whole fraction : Text) → Text → Prop where
  | whole {w : Text} : IsDigits w → Numeral w [] w
  | fraction {w f : Text} : IsDigits w → IsDigits f → Numeral w f (w ++ 0x2E :: f)

/-- A letter or underscore, and any letters, digits and underscores after it. -/
inductive Identifier : Text → Prop where
  | mk {b : UInt8} {t : Text} : Lexer.isWordStart b → (∀ c ∈ t, Lexer.isWordPart c) →
    Identifier (b :: t)

/-- A source from where a token begins. -/
def Text.onward (source : Text) (t : Token) : Text := source.drop t.span.start.offset.toNat

namespace Lexer

/-! ## Bytes that begin a piece -/

theorem not_begin_of_wordStart {b : UInt8} (h : isWordStart b) :
    isBlank b = false ∧ b ≠ 0x22 ∧ b ≠ 0x2F ∧ isDigit b = false := by
  simp only [isWordStart, isBlank, isDigit] at *
  grind

theorem not_begin_of_digit {b : UInt8} (h : isDigit b) :
    isBlank b = false ∧ b ≠ 0x22 ∧ b ≠ 0x2F ∧ b ≠ 0x2E := by
  simp only [isBlank, isDigit] at *
  grind

/-! ## Texts that go on after a prefix -/

section

variable {p : UInt8 → Bool} {s t : Text}

theorem takeWhile_stop (hs : ∀ b ∈ s, p b) (ht : ∀ b ∈ t.head?, p b = false) :
    (s ++ t).takeWhile p = s ∧ (s ++ t).dropWhile p = t := by
  rw [List.takeWhile_append_of_pos hs, List.dropWhile_append_of_pos hs]
  cases t with
  | nil => simp
  | cons b t => simp [ht b rfl]

/-- No longer prefix has only such bytes. -/
theorem length_le_takeWhile (hs : ∀ b ∈ s, p b) (h : s <+: t) :
    s.length ≤ (t.takeWhile p).length := by
  obtain ⟨u, rfl⟩ := h
  rw [List.takeWhile_append_of_pos hs, List.length_append]
  omega

end

/-! ## Operators -/

theorem operator?_spec {b : UInt8} {rest : Text} {k : Kind} {n : Nat}
    (h : operator? b rest = some (k, n)) :
    k ∈ Kind.operators ∧ k.text = b :: rest.take n ∧ n ≤ rest.length := by
  refine ⟨?_, ?_, le_length_of_operator? h⟩
  · unfold operator? at h
    split at h
    all_goals
      cases h
      try decide
  · unfold operator? at h
    split at h
    all_goals
      cases h
      try rfl

/-- What begins like an operator begins no other piece. -/
theorem begin_of_operator {k : Kind} (hk : k ∈ Kind.operators) {b : UInt8} {t : Text}
    (ht : k.text = b :: t) :
    isBlank b = false ∧ b ≠ 0x22 ∧ isDigit b = false ∧ isWordStart b = false ∧
      (b = 0x2F → t = [] ∨ t = [0x3D]) := by
  cases k <;> first | exact absurd hk (by decide) | (cases ht; decide)

/-- Before a blank or the end, an operator is read as it is spelled. -/
theorem operator?_text {k : Kind} (hk : k ∈ Kind.operators) {b : UInt8} {t more : Text}
    (ht : k.text = b :: t) (hmore : ∀ x ∈ more.head?, x = 0x20) :
    operator? b (t ++ more) = some (k, t.length) := by
  cases more with
  | nil => cases k <;> first | exact absurd hk (by decide) | (cases ht; rfl)
  | cons x more =>
    obtain rfl : x = 0x20 := hmore x rfl
    cases k <;> first | exact absurd hk (by decide) | (cases ht; rfl)

theorem operator?_stars (more : Text) :
    ∃ k n, operator? 0x2A (0x2A :: more) = some (k, n) ∧ 1 ≤ n := by
  cases more with
  | nil => exact ⟨_, _, rfl, Nat.le_refl 1⟩
  | cons b more =>
    by_cases hb : b = 0x3D
    · exact ⟨.starStarAssign, 2, by rw [hb]; rfl, by decide⟩
    · exact ⟨.starStar, 1, by simp [operator?, hb], Nat.le_refl 1⟩

/-- No operator that begins a source is longer than the one that is read. -/
theorem operator?_longest {b : UInt8} {rest : Text} {k k' : Kind} {n : Nat}
    (h : operator? b rest = some (k, n)) (hk : k' ∈ Kind.operators) (hk' : k'.text <+: b :: rest) :
    k'.text.length ≤ n + 1 := by
  by_cases hlength : k'.text.length = 1
  · omega
  -- of an operator of two bytes or three, the source has at least the second one as well
  have htakes : ∃ k n, operator? b rest = some (k, n) ∧ k'.text.length ≤ n + 1 := by
    obtain ⟨more, hmore⟩ := hk'
    cases k' <;> first | exact absurd hk (by decide) | exact absurd rfl hlength | cases hmore
    case starStar =>
      obtain ⟨k, n, hread, hn⟩ := operator?_stars more
      exact ⟨k, n, hread, Nat.succ_le_succ hn⟩
    all_goals exact ⟨_, _, rfl, by decide⟩
  obtain ⟨k₁, n₁, hread, hn⟩ := htakes
  rw [h] at hread
  cases hread
  exact hn

/-- Whether a byte begins an operator does not depend on the bytes after it. -/
theorem operator?_eq_none {b : UInt8} {rest : Text} (h : operator? b rest = none) (rest' : Text) :
    operator? b rest' = none := by
  revert h
  fun_cases operator? b rest with
  | case30 =>
    intro _
    rw [operator?]
    all_goals first | assumption | (intros; contradiction)
  | _ =>
    intro h
    cases h

/-! ## Numbers -/

theorem cutNumber_of_numeral {w f : Text} {b : UInt8} {t more : Text} (h : Numeral w f (b :: t))
    (hmore : ∀ x ∈ more.head?, isDigit x = false ∧ x ≠ 0x2E) :
    cutNumber b (t ++ more) = ⟨.number (readDecimal w f), b :: t, more⟩ := by
  have hstop : ∀ x ∈ more.head?, isDigit x = false := fun x hx => (hmore x hx).1
  generalize hbytes : b :: t = bytes at h
  cases h with
  | whole hw =>
    subst hbytes
    have hsplit := takeWhile_stop (fun d hd => hw.2 d (List.mem_cons_of_mem _ hd)) hstop
    unfold cutNumber
    rw [hsplit.1, hsplit.2]
    cases more with
    | nil => rfl
    | cons x more =>
      dsimp only
      split
      · next heq => exact absurd (List.cons.inj heq).1 (hmore x rfl).2
      · rfl
  | fraction hw hf =>
    obtain ⟨w₀, w, rfl⟩ := List.exists_cons_of_ne_nil hw.1
    obtain ⟨d, f, rfl⟩ := List.exists_cons_of_ne_nil hf.1
    rw [List.cons_append] at hbytes
    obtain ⟨rfl, rfl⟩ := List.cons.inj hbytes
    have hpoint : ∀ x ∈ (0x2E :: (d :: f ++ more) : Text).head?, isDigit x = false := by
      intro x hx
      cases hx
      rfl
    have hsplit := takeWhile_stop (fun d hd => hw.2 d (List.mem_cons_of_mem _ hd)) hpoint
    have hfraction := takeWhile_stop (fun d hd => hf.2 d (List.mem_cons_of_mem _ hd)) hstop
    unfold cutNumber
    rw [List.append_assoc, List.cons_append, hsplit.1, hsplit.2]
    simp only [List.cons_append, hf.2 d List.mem_cons_self, if_true, hfraction.1, hfraction.2]

/-- The digits of a number make a numeral, and its value is the one of this numeral. -/
theorem numeral_cutNumber {b : UInt8} (hb : isDigit b) (rest : Text) : ∃ w f,
    Numeral w f (cutNumber b rest).bytes ∧
      (cutNumber b rest).piece = .number (readDecimal w f) := by
  have hdigits (t : Text) : ∀ d ∈ t.takeWhile isDigit, isDigit d = true :=
    fun d hd => List.all_eq_true.mp List.all_takeWhile d hd
  have hcons {d : UInt8} (hd : isDigit d) (t : Text) : IsDigits (d :: t.takeWhile isDigit) :=
    ⟨List.cons_ne_nil _ _, List.forall_mem_cons.mpr ⟨hd, hdigits t⟩⟩
  unfold cutNumber
  dsimp only
  split
  · next d after _ =>
    split
    · next hd => exact ⟨_, _, .fraction (hcons hb rest) (hcons hd after), rfl⟩
    · exact ⟨_, _, .whole (hcons hb rest), rfl⟩
  · exact ⟨_, _, .whole (hcons hb rest), rfl⟩

theorem length_bytes_cutNumber (b : UInt8) (rest : Text) :
    (rest.takeWhile isDigit).length + 1 ≤ (cutNumber b rest).bytes.length := by
  unfold cutNumber
  dsimp only
  split
  · split
    · simp only [List.length_append, List.length_cons]
      omega
    · exact Nat.le_refl _
  · exact Nat.le_refl _

/-- No numeral that begins a source is longer than the number that is read. -/
theorem cutNumber_longest {w f p : Text} (h : Numeral w f p) {b : UInt8} {rest : Text}
    (hp : p <+: b :: rest) : p.length ≤ (cutNumber b rest).bytes.length := by
  cases h with
  | whole hw =>
    obtain ⟨w₀, w, rfl⟩ := List.exists_cons_of_ne_nil hw.1
    have htail : w <+: rest := (List.cons_prefix_cons.mp hp).2
    have hlonger :=
      length_le_takeWhile (fun d hd => hw.2 d (List.mem_cons_of_mem _ hd)) htail
    have hbytes := length_bytes_cutNumber b rest
    rw [List.length_cons]
    omega
  | fraction hw hf =>
    obtain ⟨w₀, w, rfl⟩ := List.exists_cons_of_ne_nil hw.1
    obtain ⟨d, f, rfl⟩ := List.exists_cons_of_ne_nil hf.1
    obtain ⟨more, hmore⟩ := hp
    rw [List.cons_append, List.cons_append] at hmore
    obtain ⟨rfl, rfl⟩ := List.cons.inj hmore
    have hpoint : ∀ x ∈ (0x2E :: (d :: f ++ more) : Text).head?, isDigit x = false := by
      intro x hx
      cases hx
      rfl
    have hsplit := takeWhile_stop (fun d hd => hw.2 d (List.mem_cons_of_mem _ hd)) hpoint
    have hlonger := length_le_takeWhile (fun d hd => hf.2 d (List.mem_cons_of_mem _ hd))
      (List.prefix_append f more)
    have hrest : w ++ 0x2E :: d :: f ++ more = w ++ 0x2E :: (d :: f ++ more) :=
      List.append_assoc ..
    unfold cutNumber
    rw [hrest, hsplit.1, hsplit.2]
    simp only [List.cons_append, hf.2 d List.mem_cons_self, if_true, List.length_cons,
      List.length_append]
    omega

/-! ## Strings -/

/-- A closed string is read in the same way whatever comes after its quote. -/
theorem stringBody_bytes {t : Text} (h : (stringBody t).2.2.2 = true) (more : Text) :
    stringBody ((stringBody t).2.1 ++ more) =
      ((stringBody t).1, (stringBody t).2.1, more, true) := by
  fun_induction stringBody t with
  | case1 => cases h
  | case2 rest => simp [stringBody]
  | case3 => cases h
  | case4 b rest value bytes after closed heq ih =>
    rw [heq] at ih
    simp [stringBody, ih h]
  | case5 b rest hquote hend hescape value bytes after closed heq ih =>
    rw [heq] at ih
    have hslash := ne_backslash hend hescape
    rw [List.cons_append, stringBody_plain hquote hslash, ih h]

/-! ## The forms of pieces -/

/-- A byte that begins no piece but one of its own. -/
structure BeginsNothing (b : UInt8) : Prop where
  blank : isBlank b = false
  quote : b ≠ 0x22
  digit : isDigit b = false
  word : isWordStart b = false
  operator : operator? b [] = none

/-- What the bytes of a piece are, if it makes a token and is closed. -/
def Forms (bytes : Text) : Piece → Prop
  | .operator kind => kind ∈ Kind.operators ∧ bytes = kind.text
  | .word => Identifier bytes
  | .number value => ∃ w f, Numeral w f bytes ∧ value = readDecimal w f
  | .string value true =>
    ∃ body, bytes = 0x22 :: body ∧ ∀ more, stringBody (body ++ more) = (value, body, more, true)
  | .illegal b => bytes = [b] ∧ BeginsNothing b
  | _ => True

theorem forms_cutToken {b : UInt8} (hblank : isBlank b = false) (hquote : b ≠ 0x22) (rest : Text) :
    Forms (cutToken b rest).bytes (cutToken b rest).piece := by
  unfold cutToken
  by_cases hdigit : isDigit b
  · rw [if_pos hdigit]
    obtain ⟨w, f, hnumeral, hpiece⟩ := numeral_cutNumber hdigit rest
    rw [hpiece]
    exact ⟨w, f, hnumeral, rfl⟩
  rw [if_neg hdigit]
  by_cases hword : isWordStart b
  · rw [if_pos hword]
    exact Identifier.mk hword fun c hc => List.all_eq_true.mp List.all_takeWhile c hc
  rw [if_neg hword]
  cases hop : operator? b rest with
  | some found =>
    obtain ⟨hmem, htext, -⟩ := operator?_spec hop
    exact ⟨hmem, htext.symm⟩
  | none =>
    exact ⟨rfl, hblank, hquote, Bool.eq_false_iff.mpr hdigit, Bool.eq_false_iff.mpr hword,
      operator?_eq_none hop []⟩

/-- What begins a source is trivia, a string or something else. -/
theorem cut_sorts (b : UInt8) (rest : Text) :
    (cut b rest).piece.token? (cut b rest).bytes = none ∨ b = 0x22 ∨
      isBlank b = false ∧ b ≠ 0x22 ∧ cut b rest = cutToken b rest := by
  by_cases hblank : isBlank b
  · exact .inl (by simp [cut, hblank, Piece.token?])
  by_cases hquote : b = 0x22
  · exact .inr (.inl hquote)
  by_cases hline : ∃ tail, b = 0x2F ∧ rest = 0x2F :: tail
  · obtain ⟨tail, rfl, rfl⟩ := hline
    exact .inl rfl
  by_cases hblock : ∃ tail, b = 0x2F ∧ rest = 0x2A :: tail
  · obtain ⟨tail, rfl, rfl⟩ := hblock
    exact .inl rfl
  · refine .inr (.inr ⟨Bool.eq_false_iff.mpr hblank, hquote, ?_⟩)
    exact cut_eq_cutToken hblank hquote (fun tail hb hr => hline ⟨tail, hb, hr⟩)
      fun tail hb hr => hblock ⟨tail, hb, hr⟩

/-- The first piece of a source has the form that its piece says. -/
theorem forms_cut (b : UInt8) (rest : Text) : Forms (cut b rest).bytes (cut b rest).piece := by
  rcases cut_sorts b rest with htrivia | rfl | ⟨hblank, hquote, hcut⟩
  · generalize (cut b rest).piece = piece at htrivia
    cases piece with
    | blank | lineComment | blockComment => trivial
    | _ => cases htrivia
  · rw [cut_quote]
    cases hclosed : (stringBody rest).2.2.2 with
    | true => exact ⟨_, rfl, stringBody_bytes hclosed⟩
    | false => trivial
  · rw [hcut]
    exact forms_cutToken hblank hquote rest

/-- Bytes that have the form of a piece are read as this piece before a blank and at the end. -/
theorem cut_of_forms {piece : Piece} {b : UInt8} {t more : Text} (h : Forms (b :: t) piece)
    (htoken : (piece.token? (b :: t)).isSome) (hclosed : piece.isClosed)
    (hmore : ∀ x ∈ more.head?, x = 0x20) : cut b (t ++ more) = ⟨piece, b :: t, more⟩ := by
  cases piece with
  | blank | lineComment | blockComment closed => cases htoken
  | string value closed =>
    cases closed with
    | false => cases hclosed
    | true =>
      obtain ⟨body, hbytes, hread⟩ := h
      obtain ⟨rfl, rfl⟩ := List.cons.inj hbytes
      rw [cut_quote, hread more]
  | number value =>
    obtain ⟨w, f, hnumeral, rfl⟩ := h
    have hb : isDigit b := by
      generalize hbytes : b :: t = bytes at hnumeral
      cases hnumeral with
      | whole hw => exact hw.2 b (hbytes ▸ List.mem_cons_self)
      | fraction hw hf =>
        obtain ⟨w₀, w, rfl⟩ := List.exists_cons_of_ne_nil hw.1
        rw [(List.cons.inj hbytes).1]
        exact hw.2 w₀ List.mem_cons_self
    obtain ⟨hblank, hquote, hslash, -⟩ := not_begin_of_digit hb
    have hstop : ∀ x ∈ more.head?, isDigit x = false ∧ x ≠ 0x2E := by
      intro x hx
      rw [hmore x hx]
      decide
    rw [cut_eq_cutToken (by simp [hblank]) hquote (fun _ hb => absurd hb hslash)
      fun _ hb => absurd hb hslash, cutToken, if_pos hb, cutNumber_of_numeral hnumeral hstop]
  | word =>
    obtain ⟨hb, hpart⟩ := h
    obtain ⟨hblank, hquote, hslash, hdigit⟩ := not_begin_of_wordStart hb
    have hstop : ∀ x ∈ more.head?, isWordPart x = false := by
      intro x hx
      rw [hmore x hx]
      decide
    have hsplit := takeWhile_stop hpart hstop
    rw [cut_eq_cutToken (by simp [hblank]) hquote (fun _ hb => absurd hb hslash)
      fun _ hb => absurd hb hslash, cutToken, if_neg (by simp [hdigit]), if_pos hb, hsplit.1,
      hsplit.2]
  | operator kind =>
    obtain ⟨hk, htext⟩ := h
    obtain ⟨hblank, hquote, hdigit, hword, hslash⟩ := begin_of_operator hk htext.symm
    -- neither the operator nor the blank after it goes on with a comment
    have hcomment : ∀ x tail, b = 0x2F → t ++ more = x :: tail → x = 0x3D ∨ x = 0x20 := by
      intro x tail hb heq
      rcases hslash hb with rfl | rfl
      · rw [List.nil_append] at heq
        exact .inr (hmore x (by rw [heq]; rfl))
      · exact .inl (List.cons.inj heq).1.symm
    rw [cut_eq_cutToken (by simp [hblank]) hquote
      (fun tail hb heq => absurd (hcomment _ tail hb heq) (by decide))
      fun tail hb heq => absurd (hcomment _ tail hb heq) (by decide),
      cutToken, if_neg (by simp [hdigit]), if_neg (by simp [hword]),
      operator?_text hk htext.symm hmore]
    simp
  | illegal c =>
    obtain ⟨hbytes, hnothing⟩ := h
    obtain ⟨rfl, rfl⟩ := List.cons.inj hbytes
    have hslash : b ≠ 0x2F := by
      rintro rfl
      exact absurd hnothing.operator (by decide)
    rw [cut_eq_cutToken (by simp [hnothing.blank]) hnothing.quote (fun _ hb => absurd hb hslash)
      fun _ hb => absurd hb hslash, cutToken, if_neg (by simp [hnothing.digit]),
      if_neg (by simp [hnothing.word]), operator?_eq_none hnothing.operator]
    rfl

/-! ## The tokens of pieces -/

/-- The kind and the literal of a token that a piece makes. -/
inductive Makes (bytes : Text) : Piece → Kind → Option Literal → Prop where
  | operator {k : Kind} : k ∈ Kind.operators → bytes = k.text → Makes bytes (.operator k) k none
  | keyword {k : Kind} : k ∈ Kind.keywords → bytes = k.text → Makes bytes .word k none
  | name : Makes bytes .word .identifier none
  | number (x : Float) : Makes bytes (.number x) .number (some (.number x))
  | string (value : Text) (closed : Bool) :
    Makes bytes (.string value closed) .string (some (.text value))
  | illegal (b : UInt8) : Makes bytes (.illegal b) .illegal none

theorem makes_token? {piece : Piece} {bytes : Text} (hforms : Forms bytes piece) {kind : Kind}
    {literal : Option Literal} (h : piece.token? bytes = some (kind, literal)) :
    Makes bytes piece kind literal := by
  cases piece with
  | blank | lineComment | blockComment => cases h
  | operator k =>
    cases h
    exact .operator hforms.1 hforms.2
  | word =>
    cases h
    by_cases hname : Kind.ofWord bytes = .identifier
    · rw [hname]
      exact .name
    · refine .keyword ?_ (Kind.text_of_ofWord rfl hname)
      unfold Kind.ofWord at hname ⊢
      cases hfound : Kind.keywords.find? fun k => k.text == bytes with
      | none => rw [hfound] at hname; exact absurd rfl hname
      | some k => exact List.mem_of_find?_eq_some hfound
  | number x => cases h; exact .number x
  | string value closed => cases h; exact .string value closed
  | illegal b => cases h; exact .illegal b

/-! ## Longest pieces -/

/-- A prefix of a source that has the form of its first piece is no longer than this piece. -/
def Longest (b : UInt8) (rest : Text) (c : Cut) : Prop :=
  match c.piece with
  | .operator _ => ∀ k ∈ Kind.operators, k.text <+: b :: rest → k.text.length ≤ c.bytes.length
  | .word => ∀ p, Identifier p → p <+: b :: rest → p.length ≤ c.bytes.length
  | .number _ => ∀ w f p, Numeral w f p → p <+: b :: rest → p.length ≤ c.bytes.length
  | _ => True

theorem longest_cutToken (b : UInt8) (rest : Text) : Longest b rest (cutToken b rest) := by
  unfold cutToken
  by_cases hdigit : isDigit b
  · rw [if_pos hdigit]
    obtain ⟨value, hpiece⟩ := piece_cutNumber b rest
    unfold Longest
    rw [hpiece]
    exact fun w f p h hp => cutNumber_longest h hp
  rw [if_neg hdigit]
  by_cases hword : isWordStart b
  · rw [if_pos hword]
    rintro p ⟨-, hpart⟩ hp
    have hlonger := length_le_takeWhile hpart (List.cons_prefix_cons.mp hp).2
    exact Nat.succ_le_succ hlonger
  rw [if_neg hword]
  cases hop : operator? b rest with
  | some found =>
    obtain ⟨k, n⟩ := found
    obtain ⟨-, -, hn⟩ := operator?_spec hop
    intro k' hk' hp
    have hlonger := operator?_longest hop hk' hp
    simp only [List.length_cons, List.length_take]
    omega
  | none => trivial

/-- The first piece of a source is the longest of its form. -/
theorem longest_cut (b : UInt8) (rest : Text) : Longest b rest (cut b rest) := by
  rcases cut_sorts b rest with htrivia | rfl | ⟨-, -, hcut⟩
  · generalize cut b rest = c at htrivia
    obtain ⟨piece, bytes, after⟩ := c
    cases piece with
    | blank | lineComment | blockComment => trivial
    | _ => cases htrivia
  · trivial
  · rw [hcut]
    exact longest_cutToken b rest

/-! ## Where tokens begin -/

/-- A token that is made of the first piece of a source that begins with a byte. -/
structure Begins (b : UInt8) (rest : Text) (t : Token) : Prop where
  lexeme : t.lexeme = (cut b rest).bytes
  token : (cut b rest).piece.token? t.lexeme = some (t.kind, t.literal)

/-- Every token but the end is cut off where it begins. -/
theorem begins_place (pre source : Text) :
    ∀ t ∈ (place (.after .start pre) (cutAll source)).tokens,
      t.kind = .endOfInput ∧ t.lexeme = [] ∨
      ∃ b rest, (pre ++ source).onward t = b :: rest ∧ Begins b rest t := by
  induction source using cut_induction generalizing pre with
  | nil =>
    intro t ht
    rw [List.mem_singleton.mp ht]
    exact .inl ⟨rfl, rfl⟩
  | cons b rest ih =>
    intro t ht
    rw [cutAll_cons] at ht
    rcases List.mem_append.mp ht with ht | ht
    · rw [Option.mem_toList, Option.map_eq_some_iff] at ht
      obtain ⟨⟨kind, literal⟩, htoken, rfl⟩ := ht
      refine .inr ⟨b, rest, ?_, rfl, htoken⟩
      have hoffset : (Position.start.after pre).offset.toNat = pre.length := by
        rw [Position.start_after]
        rfl
      unfold Text.onward
      dsimp only
      rw [hoffset, List.drop_left]
    · have hlater := ih (pre ++ (cut b rest).bytes) t
      rw [Position.after_append, List.append_assoc, (cut_spec b rest).1] at hlater
      exact hlater ht

end Lexer

theorem tokenize_begins {source : Text} {t : Token} (ht : t ∈ (tokenize source).tokens) :
    t.kind = .endOfInput ∧ t.lexeme = [] ∨
      ∃ b rest, source.onward t = b :: rest ∧ Lexer.Begins b rest t :=
  Lexer.begins_place [] source t ht

namespace Lexer.Begins

variable {b : UInt8} {rest : Text} {t : Token}

theorem lexeme_prefix (h : Begins b rest t) : t.lexeme <+: b :: rest :=
  ⟨(cut b rest).rest, h.lexeme ▸ (cut_spec b rest).1⟩

theorem makes (h : Begins b rest t) : Makes t.lexeme (cut b rest).piece t.kind t.literal :=
  makes_token? (h.lexeme ▸ forms_cut b rest) h.token

/-- Operators and keywords are spelled as their kinds. -/
theorem lexeme_eq_text (h : Begins b rest t) (hk : t.kind ∈ Kind.fixed) :
    t.lexeme = t.kind.text := by
  have hmakes := h.makes
  generalize (cut b rest).piece = piece, t.kind = kind, t.literal = literal at hk hmakes
  cases hmakes with
  | operator _ htext | keyword _ htext => exact htext
  | name | number | string | illegal => exact absurd hk (by decide)

end Lexer.Begins

end Scriptlet

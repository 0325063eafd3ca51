import Scriptlet.Proofs.Token.Lexemes

/-!
# String literals

Between its quotes a string literal is a row of units: a backslash makes one with the byte after it,
and every other byte is one of its own (`Text.units`). The literal ends at the first unit that is a
quote, and its value is put together from the values of the units before it (`Text.decoded`). So a
text without such a unit, and without a backslash that has nothing after it, is read as written
whatever follows its closing quote (`Lexer.stringBody_of_quotable`), and a literal is reported as
one without an end exactly if no unit after its opening quote is a quote (`Lexer.open_place`).
-/

namespace Scriptlet

namespace Text

/-- The bytes of a text, each backslash together with the byte after it if there is one. -/
def units : Text → List Text
  | [] => []
  | 0x5C :: b :: rest => [0x5C, b] :: units rest
  | b :: rest => [b] :: units rest

/-- The bytes that stand for another one after a backslash: `n`, `t`, `r`, `b`, the backslash and
the quote. -/
def escapes : List (UInt8 × UInt8) :=
  [(0x6E, 0x0A), (0x74, 0x09), (0x72, 0x0D), (0x62, 0x08), (0x5C, 0x5C), (0x22, 0x22)]

/-- What a unit of a string literal stands for. All but the known escapes stand for themselves. -/
def unitValue : Text → Text
  | [0x5C, b] =>
    match escapes.lookup b with
    | some c => [c]
    | none => [0x5C, b]
  | unit => unit

/-- What the text between the quotes of a string literal stands for. -/
def decoded (w : Text) : Text := w.units.flatMap unitValue

/-- A text that can stand between the quotes of a string literal: none of its quotes ends the
literal, and no backslash at its end takes the closing quote. -/
structure Quotable (w : Text) : Prop where
  quote : [0x22] ∉ w.units
  backslash : [0x5C] ∉ w.units

/-- A text between quotes. -/
def enclosed (w : Text) : Text := 0x22 :: (w ++ [0x22])

/-- The units of a source after the first byte of a token. -/
def unitsAfter (source : Text) (t : Token) : List Text := units (source.onward t).tail

/-- A text with a backslash before each of its quotes and backslashes. -/
def escaped (v : Text) : Text := v.flatMap fun b => if b = 0x22 ∨ b = 0x5C then [0x5C, b] else [b]

/-! ## Units -/

theorem units_plain {b : UInt8} (hb : b ≠ 0x5C) (rest : Text) :
    units (b :: rest) = [b] :: units rest := by
  rw [units]
  exact fun _ _ h => absurd h hb

theorem unitValue_plain (b : UInt8) : unitValue [b] = [b] := by
  rw [unitValue]
  exact fun _ h => nomatch h

theorem unitValue_escape (b : UInt8) : unitValue [0x5C, b] = Lexer.unescape b := by
  unfold Lexer.unescape
  split
  case h_7 hn ht hr hb hslash hquote =>
    have hnone : escapes.lookup b = none := by
      simp only [escapes, List.lookup_cons, List.lookup_nil, beq_eq_false_iff_ne.mpr hn,
        beq_eq_false_iff_ne.mpr ht, beq_eq_false_iff_ne.mpr hr, beq_eq_false_iff_ne.mpr hb,
        beq_eq_false_iff_ne.mpr hslash, beq_eq_false_iff_ne.mpr hquote]
    simp only [unitValue, hnone]
  all_goals rfl

/-! ## Escaped texts -/

theorem units_escaped (v : Text) :
    v.escaped.units = v.map fun b => if b = 0x22 ∨ b = 0x5C then [0x5C, b] else [b] := by
  induction v with
  | nil => rfl
  | cons b v ih =>
    rw [escaped, List.flatMap_cons, List.map_cons, ← ih]
    by_cases hb : b = 0x22 ∨ b = 0x5C
    · rw [if_pos hb]
      rfl
    · rw [if_neg hb]
      exact units_plain (fun h => hb (.inr h)) _

theorem quotable_escaped (v : Text) : v.escaped.Quotable := by
  have hunit {b c : UInt8} (hc : c = 0x22 ∨ c = 0x5C) :
      (if b = 0x22 ∨ b = 0x5C then [0x5C, b] else [b]) ≠ [c] := by
    split
    · simp
    · next hb =>
      intro h
      rw [List.singleton_inj.mp h] at hb
      exact hb hc
  constructor <;> rw [units_escaped, List.mem_map] <;> rintro ⟨b, -, h⟩
  · exact hunit (.inl rfl) h
  · exact hunit (.inr rfl) h

theorem decoded_escaped (v : Text) : v.escaped.decoded = v := by
  have hunit (b : UInt8) : unitValue (if b = 0x22 ∨ b = 0x5C then [0x5C, b] else [b]) = [b] := by
    split
    · next hb => rcases hb with rfl | rfl <;> rfl
    · exact unitValue_plain b
  rw [decoded, units_escaped, List.flatMap_map]
  simp only [hunit, List.flatMap_singleton']

end Text

namespace Lexer

/-! ## Between the quotes -/

/-- A text that can stand between quotes is read up to its closing quote. -/
theorem stringBody_of_quotable {w : Text} (h : w.Quotable) (after : Text) :
    stringBody (w ++ 0x22 :: after) = (w.decoded, w ++ [0x22], after, true) := by
  obtain ⟨hquote, hslash⟩ := h
  unfold Text.decoded
  fun_induction Text.units w with
  | case1 => rfl
  | case2 b rest ih =>
    rw [List.mem_cons, not_or] at hquote hslash
    have hrest := ih hquote.2 hslash.2
    rw [List.cons_append, List.cons_append, stringBody, hrest, List.flatMap_cons,
      Text.unitValue_escape]
    rfl
  | case3 b rest hpair ih =>
    rw [List.mem_cons, not_or] at hquote hslash
    have hb : b ≠ 0x22 := fun hb => hquote.1 (by rw [hb])
    have hb' : b ≠ 0x5C := fun hb => hslash.1 (by rw [hb])
    rw [List.cons_append, stringBody_plain hb hb', ih hquote.2 hslash.2, List.flatMap_cons,
      Text.unitValue_plain]
    rfl

/-- A literal ends exactly if there is a quote that no backslash takes. -/
theorem closed_stringBody_iff (t : Text) :
    (stringBody t).2.2.2 = true ↔ [0x22] ∈ t.units := by
  fun_induction stringBody t with
  | case1 => simp [Text.units]
  | case2 rest => simp [Text.units]
  | case3 => simp [Text.units]
  | case4 b rest value bytes after closed heq ih =>
    rw [heq] at ih
    rw [Text.units, List.mem_cons, ← ih]
    simp
  | case5 b rest hquote hend hescape value bytes after closed heq ih =>
    rw [heq] at ih
    have hunit : [0x22] ≠ [b] := fun h => hquote (List.singleton_inj.mp h).symm
    rw [Text.units_plain (ne_backslash hend hescape), List.mem_cons, ← ih]
    simp [hunit]

/-! ## Strings among the pieces of a source -/

theorem not_string_cutToken (b : UInt8) (rest : Text) (value : Text) (closed : Bool) :
    (cutToken b rest).piece ≠ .string value closed := by
  unfold cutToken cutNumber
  dsimp only
  repeat' split
  all_goals nofun

/-- Only a quote begins a string. -/
theorem eq_quote_of_string {b : UInt8} {rest value : Text} {closed : Bool}
    (h : (cut b rest).piece = .string value closed) : b = 0x22 := by
  rcases cut_sorts b rest with htrivia | hquote | ⟨-, -, hcut⟩
  · rw [h] at htrivia
    cases htrivia
  · exact hquote
  · rw [hcut] at h
    exact absurd h (not_string_cutToken b rest value closed)

/-- A token is a string exactly if it begins with a quote. -/
theorem string_iff_quote {b : UInt8} {rest : Text} {kind : Kind} {literal : Option Literal}
    (h : (cut b rest).piece.token? (cut b rest).bytes = some (kind, literal)) :
    kind = .string ↔ b = 0x22 := by
  constructor
  · rintro rfl
    have hmakes := makes_token? (forms_cut b rest) h
    generalize hpiece : (cut b rest).piece = piece, hkind : Kind.string = kind at hmakes
    cases hmakes with
    | string => exact eq_quote_of_string hpiece
    | operator hk | keyword hk => rw [← hkind] at hk; exact absurd hk (by decide)
    | name | number | illegal => cases hkind
  · rintro rfl
    rw [cut_quote] at h
    cases h
    rfl

theorem code_eq_unterminatedString_iff (fault : LexicalFault) :
    fault.code = "E1001" ↔ fault = .unterminatedString := by
  cases fault with
  | unterminatedString => exact ⟨fun _ => rfl, fun _ => rfl⟩
  | unexpectedByte => exact ⟨fun h => absurd (a := ("E1003" : Text) = "E1001") h (by decide), nofun⟩
  | unterminatedComment => exact ⟨fun h => absurd h (by decide), nofun⟩
  | numberTooLarge => exact ⟨fun h => absurd (a := ("E1005" : Text) = "E1001") h (by decide), nofun⟩

/-- Only a string can be one without an end. -/
theorem eq_quote_of_unterminated {b : UInt8} {rest : Text}
    (h : (cut b rest).piece.fault? (cut b rest).bytes = some .unterminatedString) : b = 0x22 := by
  generalize hpiece : (cut b rest).piece = piece at h
  cases piece with
  | string => exact eq_quote_of_string hpiece
  | blank | lineComment | word | operator | illegal => cases h
  | blockComment closed => cases closed <;> cases h
  | number x => cases hfinite : x.isFinite <;> rw [Piece.fault?, hfinite] at h <;> cases h

/-- Whether a token is a string after whose opening quote no unit is a quote. -/
def isOpen (source : Text) (t : Token) : Bool :=
  t.kind == .string && !(source.unitsAfter t).contains [0x22]

theorem isOpen_iff {source : Text} {t : Token} :
    isOpen source t ↔ t.kind = .string ∧ [0x22] ∉ source.unitsAfter t := by
  simp [isOpen]

/-- The places of the open strings that a report is about. -/
def openPlaces (report : Report) : List Span :=
  (report.filter fun d : Diagnostic => d.code = "E1001").map Diagnostic.span

/-- A finding about an open string is made of the piece that makes the token of one. -/
theorem open_cut {source : Text} {b : UInt8} {rest : Text} (span : Span)
    (hsource : source.drop span.start.offset.toNat = b :: rest) :
    openPlaces (((cut b rest).piece.fault? (cut b rest).bytes).map (·.report span)).toList =
      ((((cut b rest).piece.token? (cut b rest).bytes).map fun (kind, literal) =>
        (⟨kind, (cut b rest).bytes, literal, span⟩ : Token)).toList.filter (isOpen source)).map
          Token.span := by
  by_cases hb : b = 0x22
  · subst hb
    have hunits (kind : Kind) (lexeme : Text) (literal : Option Literal) :
        source.unitsAfter ⟨kind, lexeme, literal, span⟩ = Text.units rest := by
      rw [Text.unitsAfter, Text.onward, hsource]
      rfl
    have hclosed := closed_stringBody_iff rest
    rw [cut_quote]
    cases h : (stringBody rest).2.2.2 with
    | true => simp [openPlaces, isOpen, Piece.fault?, Piece.token?, hunits, ← hclosed, h]
    | false =>
      simp [openPlaces, isOpen, Piece.fault?, Piece.token?, hunits, ← hclosed, h,
        LexicalFault.report, LexicalFault.code]
  · have hnoFinding :
        openPlaces (((cut b rest).piece.fault? (cut b rest).bytes).map (·.report span)).toList =
          [] := by
      cases hfault : (cut b rest).piece.fault? (cut b rest).bytes with
      | none => rfl
      | some fault =>
        have hcode : fault.code ≠ "E1001" := by
          intro hcode
          rw [(code_eq_unterminatedString_iff fault).mp hcode] at hfault
          exact hb (eq_quote_of_unterminated hfault)
        simp [openPlaces, LexicalFault.report, hcode]
    rw [hnoFinding]
    cases htoken : (cut b rest).piece.token? (cut b rest).bytes with
    | none => rfl
    | some token =>
      have hkind : token.1 ≠ .string := fun hkind => hb ((string_iff_quote htoken).mp hkind)
      simp [isOpen, hkind]

/-- The findings about open strings are, in their order, those about the strings after whose opening
quote no unit is a quote. -/
theorem open_place (pre source : Text) :
    openPlaces (place (.after .start pre) (cutAll source)).report =
      ((place (.after .start pre) (cutAll source)).tokens.filter (isOpen (pre ++ source))).map
        Token.span := by
  induction source using cut_induction generalizing pre with
  | nil => rfl
  | cons b rest ih =>
    have hlater := ih (pre ++ (cut b rest).bytes)
    rw [Position.after_append, List.append_assoc, (cut_spec b rest).1] at hlater
    have hhere : (pre ++ b :: rest).drop (Position.start.after pre).offset.toNat = b :: rest := by
      rw [Position.start_after]
      exact List.drop_left
    have hfirst := open_cut ⟨.after .start pre, (Position.after .start pre).after
      (cut b rest).bytes⟩ hhere
    unfold openPlaces at hlater hfirst ⊢
    rw [cutAll_cons]
    simp only [place, List.filter_append, List.map_append]
    rw [hfirst, hlater]

end Lexer

/-! ## Sources -/

theorem open_tokenize (source : Text) : Lexer.openPlaces (tokenize source).report =
    ((tokenize source).tokens.filter (Lexer.isOpen source)).map Token.span :=
  Lexer.open_place [] source

/-- A string that is reported as one without an end has no quote after its opening quote. -/
theorem reported_open_iff {source : Text} {t : Token} (ht : t ∈ (tokenize source).tokens)
    (hkind : t.kind = .string) :
    (∃ d ∈ (tokenize source).report, d.code = "E1001" ∧ d.span = t.span) ↔
      [0x22] ∉ source.unitsAfter t := by
  have hplaces : (∃ d ∈ (tokenize source).report, d.code = "E1001" ∧ d.span = t.span) ↔
      t.span ∈ Lexer.openPlaces (tokenize source).report := by
    simp [Lexer.openPlaces, and_assoc]
  rw [hplaces, open_tokenize, List.mem_map]
  constructor
  · -- a token at the same place has the same bytes after it
    rintro ⟨u, hu, hspan⟩
    obtain ⟨-, hopen⟩ := List.mem_filter.mp hu
    have hunits : source.unitsAfter u = source.unitsAfter t := by
      unfold Text.unitsAfter Text.onward
      rw [hspan]
    rw [← hunits]
    exact (Lexer.isOpen_iff.mp hopen).2
  · exact fun hopen => ⟨t, List.mem_filter.mpr ⟨ht, Lexer.isOpen_iff.mpr ⟨hkind, hopen⟩⟩, rfl⟩

/-- The first token of a source that begins with a text between quotes. -/
theorem tokenize_enclosed {w : Text} (h : w.Quotable) (after : Text) :
    (tokenize (w.enclosed ++ after)).tokens.head? =
      some ⟨.string, w.enclosed, some (.text w.decoded),
        ⟨.start, .ofOffset (w.enclosed ++ after) w.enclosed.length⟩⟩ := by
  have hsource : w.enclosed ++ after = 0x22 :: (w ++ 0x22 :: after) := by
    simp [Text.enclosed]
  have hcut : Lexer.cut 0x22 (w ++ 0x22 :: after) =
      ⟨.string w.decoded true, w.enclosed, after⟩ := by
    rw [Lexer.cut_quote, Lexer.stringBody_of_quotable h]
    rfl
  have hall : Lexer.cutAll (w.enclosed ++ after) =
      (.string w.decoded true, w.enclosed) :: Lexer.cutAll after := by
    rw [hsource, Lexer.cutAll_cons, hcut]
  change (Lexer.place .start (Lexer.cutAll (w.enclosed ++ after))).tokens.head? = _
  rw [hall, ← Position.start_after_eq_ofOffset]
  rfl

/-- A text without a quote that ends it and without a backslash that takes its closing quote is read
as written between quotes, whatever follows. Every text is the value of such a literal. Exactly
those strings are reported as open after whose opening quote there is no quote that no backslash
takes. -/
theorem strings_read_as_written :
    (∀ w after : Text, w.Quotable → (tokenize (w.enclosed ++ after)).tokens.head? =
      some ⟨.string, w.enclosed, some (.text w.decoded),
        ⟨.start, .ofOffset (w.enclosed ++ after) w.enclosed.length⟩⟩) ∧
    (∀ v after : Text, (tokenize (v.escaped.enclosed ++ after)).tokens.head? =
      some ⟨.string, v.escaped.enclosed, some (.text v),
        ⟨.start, .ofOffset (v.escaped.enclosed ++ after) v.escaped.enclosed.length⟩⟩) ∧
    ∀ source : Text,
      (∀ t ∈ (tokenize source).tokens, t.kind = .string →
        ((∃ d ∈ (tokenize source).report, d.code = "E1001" ∧ d.span = t.span) ↔
          [0x22] ∉ source.unitsAfter t)) ∧
      ∀ d ∈ (tokenize source).report, d.code = "E1001" →
        ∃ t ∈ (tokenize source).tokens, t.kind = .string ∧ t.span = d.span := by
  refine ⟨fun w after h => tokenize_enclosed h after, fun v after => ?_,
    fun source => ⟨fun t ht hkind => reported_open_iff ht hkind, fun d hd hcode => ?_⟩⟩
  · rw [tokenize_enclosed v.quotable_escaped, v.decoded_escaped]
  · have hplace : d.span ∈ Lexer.openPlaces (tokenize source).report :=
      List.mem_map_of_mem (List.mem_filter.mpr ⟨hd, decide_eq_true hcode⟩)
    rw [open_tokenize] at hplace
    obtain ⟨t, ht, hspan⟩ := List.mem_map.mp hplace
    obtain ⟨ht, hopen⟩ := List.mem_filter.mp ht
    exact ⟨t, ht, (Lexer.isOpen_iff.mp hopen).1, hspan⟩

/-- Three backslashes before a quote, an unknown escape, and then a literal that ends with a
backslash. -/
theorem strings_read_as_written_backslashes :
    let w : Text := "a\\\\\\\"\\q"
    let source : Text := w.enclosed ++ " \"\\"
    w.Quotable ∧
      (tokenize source).tokens.head? = some ⟨.string, w.enclosed, some (.text "a\\\"\\q"),
        ⟨.start, .ofOffset source w.enclosed.length⟩⟩ ∧
      (∃ t ∈ (tokenize source).tokens, t.kind = .string ∧ t.lexeme = "\"\\" ∧
        ∃ d ∈ (tokenize source).report, d.code = "E1001" ∧ d.span = t.span) ∧
      ∃ d ∈ (tokenize source).report, d.code = "E1001" ∧
        ∃ t ∈ (tokenize source).tokens, t.kind = .string ∧ t.span = d.span := by
  intro w source
  have hw : w.Quotable := ⟨by decide +kernel, by decide +kernel⟩
  let t := (tokenize source).tokens.get ⟨1, by decide +kernel⟩
  let d := (tokenize source).report.get ⟨0, by decide +kernel⟩
  have ht : t ∈ (tokenize source).tokens := List.get_mem _ _
  have hd : d ∈ (tokenize source).report := List.get_mem _ _
  have hkind : t.kind = .string := by decide +kernel
  have hcode : d.code = "E1001" := by decide +kernel
  have hopen : [0x22] ∉ source.unitsAfter t := by decide +kernel
  obtain ⟨hreported, hstring⟩ := strings_read_as_written.2.2 source
  exact ⟨hw, strings_read_as_written.1 w _ hw,
    ⟨t, ht, hkind, by decide +kernel, (hreported t ht hkind).mpr hopen⟩,
    d, hd, hcode, hstring d hd hcode⟩

end Scriptlet

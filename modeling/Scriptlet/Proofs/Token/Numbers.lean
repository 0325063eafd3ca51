import Scriptlet.Proofs.Number.Layout

/-!
# Printed numbers are read back

From `0.000001` to below `10 ^ 21` numbers are printed in plain notation, which is the notation of
numbers in programs. Since the shortest decimal rounds back, what is printed there is read as one
number, and as the very number that was printed; a negative number is read as a minus and the
number without its sign (`printed_numbers_read_back`).
-/

namespace Scriptlet

/-- A numeral whose value rounds to a double is read as this double. -/
theorem readDecimal_of_holds {x : Float} {m : Magnitude}
    (h : Binary.ofBits x.toBits = .finite false m) (hpos : 0 < m.significand) {w f : Text}
    (hvalue : m.Holds (digitsValue (w ++ f) / 10 ^ f.length)) : readDecimal w f = x := by
  obtain ⟨hcanonical, hpattern⟩ := Binary.toNat_of_finite h
  have hbits : Binary.nearestBits (digitsValue (w ++ f)) (Nat.pow 10 f.length) =
      x.toBits.toNat := by
    rw [hpattern, if_neg Bool.false_ne_true, zero_add]
    refine Binary.nearestBits_of_holds hcanonical hpos (Nat.pow_pos (by norm_num)) ?_
    rw [Nat.pow_eq]
    push_cast
    exact hvalue
  unfold readDecimal
  rw [hbits]
  have htoBits : x.toBits.toNat.toUInt64 = x.toBits := UInt64.ofNat_toNat
  rw [htoBits, Float.ofBits_toBits]

/-! ## The range of plain notation -/

/-- The magnitude of `0.000001`. -/
def leastPlain : Magnitude := ⟨4722366482869645, -72⟩

/-- The magnitude of `10 ^ 21`. -/
def firstBeyond : Magnitude := ⟨7629394531250000, 17⟩

theorem ofBits_leastPlain : Binary.ofBits (1e-6 : Float).toBits = .finite false leastPlain := by
  decide +kernel

theorem ofBits_firstBeyond : Binary.ofBits (1e21 : Float).toBits = .finite false firstBeyond := by
  decide +kernel

theorem shortest_leastPlain : leastPlain.shortest = ⟨1, -6⟩ := by
  decide +kernel

/-- The shortest decimal of a double in the range is itself in the range. -/
theorem exists_plain {x : Float} (hlow : 1e-6 ≤ x) (hhigh : x < 1e21) :
    ∃ m, Binary.ofBits x.toBits = .finite false m ∧ 0 < m.significand ∧
      (10 : ℚ) ^ (-6 : Int) ≤ m.shortest.value ∧ m.shortest.value < 10 ^ (21 : Int) := by
  obtain ⟨m, hm, hleast, hbelow⟩ := Binary.between ofBits_leastPlain ofBits_firstBeyond
    (by norm_num [leastPlain]) (by norm_num [firstBeyond]) hlow hhigh
  have hcanonical := (Binary.toNat_of_finite hm).1
  have hleast_canonical := (Binary.toNat_of_finite ofBits_leastPlain).1
  have hbeyond_canonical := (Binary.toNat_of_finite ofBits_firstBeyond).1
  have hpos : 0 < m.significand := by
    by_contra hzero
    have hexponent := hcanonical.full.resolve_left (by omega)
    exact hleast (.inl (by rw [hexponent]; norm_num [leastPlain]))
  have hholds := Magnitude.shortest_holds hcanonical hpos
  refine ⟨m, hm, hpos, ?_, ?_⟩
  · rcases m.below_total leastPlain with hless | rfl | habove
    · exact absurd hless hleast
    · rw [shortest_leastPlain]
      norm_num [Decimal.value]
    · calc (10 : ℚ) ^ (-6 : Int) ≤ leastPlain.high := by norm_num [Magnitude.high, leastPlain]
        _ ≤ m.low := Magnitude.high_le_low hleast_canonical hcanonical habove
        _ ≤ m.shortest.value := hholds.low_le
  · calc m.shortest.value ≤ m.high := hholds.le_high
      _ ≤ firstBeyond.low := Magnitude.high_le_low hcanonical hbeyond_canonical hbelow
      _ < firstBeyond.value := firstBeyond.low_lt_value
      _ = 10 ^ (21 : Int) := by norm_num [Magnitude.value, firstBeyond]

theorem formatNumber_of_finite {x : Float} {negative : Bool} {m : Magnitude}
    (h : Binary.ofBits x.toBits = .finite negative m) :
    formatNumber x = if negative then 0x2D :: NumberLayout.printed.decimal m.shortest
      else NumberLayout.printed.decimal m.shortest := by
  unfold formatNumber NumberLayout.format
  rw [h]
  rfl

/-- A number in the range is printed as a numeral that is read as this number. -/
theorem exists_numeral_formatNumber {x : Float} (hx : x = 0 ∨ 1e-6 ≤ x ∧ x < 1e21) :
    ∃ m w f, Binary.ofBits x.toBits = .finite false m ∧ Numeral w f (formatNumber x) ∧
      readDecimal w f = x := by
  rcases hx with rfl | ⟨hlow, hhigh⟩
  · have hzero : formatNumber 0 = [0x30] := by decide +kernel
    have hbits : Binary.ofBits (0 : Float).toBits = .finite false ⟨0, -1074⟩ := by decide +kernel
    rw [hzero]
    exact ⟨_, [0x30], [], hbits,
      .whole ⟨List.cons_ne_nil _ _, NumberLayout.isDigit_zeros 1⟩, rfl⟩
  · obtain ⟨m, hm, hpos, hleast, hbeyond⟩ := exists_plain hlow hhigh
    have hholds := Magnitude.shortest_holds (Binary.toNat_of_finite hm).1 hpos
    have hdigits : m.shortest.digits ≠ 0 := by
      intro hzero
      have hvalue := (Magnitude.low_pos hpos).trans_le hholds.low_le
      rw [Decimal.value, hzero, Nat.cast_zero, zero_mul] at hvalue
      exact lt_irrefl _ hvalue
    obtain ⟨w, f, hnumeral, hvalue⟩ :=
      NumberLayout.exists_numeral_decimal .printed hdigits hleast hbeyond
    refine ⟨m, w, f, hm, ?_, readDecimal_of_holds hm hpos (by rwa [hvalue])⟩
    rw [formatNumber_of_finite hm]
    exact hnumeral

/-- A number is printed with a minus before what its opposite is printed as. -/
theorem formatNumber_of_neg {x : Float} {m : Magnitude}
    (h : Binary.ofBits (-x).toBits = .finite false m) :
    formatNumber x = 0x2D :: formatNumber (-x) := by
  rw [formatNumber_of_finite h, formatNumber_of_finite (Binary.ofBits_neg.mp h)]
  rfl

/-! ## Sources that are a number -/

/-- A numeral begins with a digit. -/
theorem Numeral.exists_cons {w f t : Text} (h : Numeral w f t) :
    ∃ d tail, t = d :: tail ∧ Lexer.isDigit d := by
  cases h with
  | whole hw =>
    obtain ⟨d, tail, rfl⟩ := List.exists_cons_of_ne_nil hw.1
    exact ⟨d, tail, rfl, hw.2 d List.mem_cons_self⟩
  | fraction hw hf =>
    obtain ⟨d, tail, rfl⟩ := List.exists_cons_of_ne_nil hw.1
    exact ⟨d, _, rfl, hw.2 d List.mem_cons_self⟩

theorem Lexer.cutAll_numeral {w f t : Text} (h : Numeral w f t) :
    Lexer.cutAll t = [(.number (readDecimal w f), t)] := by
  obtain ⟨d, tail, rfl, -⟩ := h.exists_cons
  have hforms : Lexer.Forms (d :: tail) (.number (readDecimal w f)) := ⟨w, f, h, rfl⟩
  have hcut : Lexer.cut d (tail ++ []) = ⟨.number (readDecimal w f), d :: tail, []⟩ :=
    Lexer.cut_of_forms hforms rfl rfl nofun
  rw [List.append_nil] at hcut
  rw [Lexer.cutAll_cons, hcut]
  rfl

theorem Lexer.cutAll_minus_numeral {w f t : Text} (h : Numeral w f t) :
    Lexer.cutAll (0x2D :: t) =
      [(.operator .minus, [0x2D]), (.number (readDecimal w f), t)] := by
  have hcut : Lexer.cut 0x2D t = ⟨.operator .minus, [0x2D], t⟩ := by
    obtain ⟨d, tail, rfl, hd⟩ := h.exists_cons
    -- the minus does not go on with the digit
    have hminus : d ≠ 0x2D := by
      rintro rfl
      cases hd
    have hassign : d ≠ 0x3D := by
      rintro rfl
      cases hd
    simp [Lexer.cut, Lexer.isBlank, Lexer.isDigit, Lexer.isWordStart, Lexer.operator?, hminus,
      hassign]
  rw [Lexer.cutAll_cons, hcut, Lexer.cutAll_numeral h]

theorem tokenize_numeral {w f t : Text} (h : Numeral w f t) (hfinite : (readDecimal w f).isFinite) :
    tokenize t =
      ⟨[⟨.number, t, some (.number (readDecimal w f)), ⟨.start, .ofOffset t t.length⟩⟩,
        ⟨.endOfInput, [], none, ⟨.ofOffset t t.length, .ofOffset t t.length⟩⟩], []⟩ := by
  have hend := Position.start_after_eq_ofOffset t []
  rw [List.append_nil] at hend
  change Lexer.place .start (Lexer.cutAll t) = _
  rw [Lexer.cutAll_numeral h]
  simp [Lexer.place, Piece.fault?, Piece.token?, hfinite, hend]

theorem tokenize_minus_numeral {w f t : Text} (h : Numeral w f t)
    (hfinite : (readDecimal w f).isFinite) :
    tokenize (0x2D :: t) =
      ⟨[⟨.minus, [0x2D], none, ⟨.start, .ofOffset (0x2D :: t) 1⟩⟩,
        ⟨.number, t, some (.number (readDecimal w f)),
          ⟨.ofOffset (0x2D :: t) 1, .ofOffset (0x2D :: t) (t.length + 1)⟩⟩,
        ⟨.endOfInput, [], none,
          ⟨.ofOffset (0x2D :: t) (t.length + 1), .ofOffset (0x2D :: t) (t.length + 1)⟩⟩], []⟩ := by
  have hminus : Position.start.after [0x2D] = .ofOffset (0x2D :: t) 1 :=
    Position.start_after_eq_ofOffset [0x2D] t
  have hend : (Position.start.after [0x2D]).after t = .ofOffset (0x2D :: t) (t.length + 1) := by
    have hwhole := Position.start_after_eq_ofOffset (0x2D :: t) []
    rwa [List.append_nil, ← List.singleton_append, Position.after_append] at hwhole
  change Lexer.place .start (Lexer.cutAll (0x2D :: t)) = _
  rw [Lexer.cutAll_minus_numeral h]
  rw [hminus] at hend
  simp [Lexer.place, Piece.fault?, Piece.token?, hfinite, hminus, hend]

/-- Zero and the numbers from `0.000001` to below `10 ^ 21` are read as they are printed: as one
number, with nothing around it and nothing to find wrong with it, and as the very number that was
printed. A number whose opposite is one of these is read as a minus and then its opposite. -/
theorem printed_numbers_read_back :
    (∀ x : Float, x = 0 ∨ 1e-6 ≤ x ∧ x < 1e21 →
      let text := formatNumber x
      let last := Position.ofOffset text text.length
      tokenize text =
        ⟨[⟨.number, text, some (.number x), ⟨.start, last⟩⟩,
          ⟨.endOfInput, [], none, ⟨last, last⟩⟩], []⟩) ∧
    ∀ x : Float, -x = 0 ∨ 1e-6 ≤ -x ∧ -x < 1e21 →
      let text := formatNumber x
      let second := Position.ofOffset text 1
      let last := Position.ofOffset text text.length
      text = "-" ++ formatNumber (-x) ∧ tokenize text =
        ⟨[⟨.minus, "-", none, ⟨.start, second⟩⟩,
          ⟨.number, formatNumber (-x), some (.number (-x)), ⟨second, last⟩⟩,
          ⟨.endOfInput, [], none, ⟨last, last⟩⟩], []⟩ := by
  have hfinite {x : Float} {m : Magnitude} (h : Binary.ofBits x.toBits = .finite false m) :
      x.isFinite :=
    (Binary.isFinite_iff x).mpr ⟨false, m, h⟩
  constructor
  · intro x hx
    obtain ⟨m, w, f, hm, hnumeral, hread⟩ := exists_numeral_formatNumber hx
    have htokens := tokenize_numeral hnumeral (hread ▸ hfinite hm)
    rwa [hread] at htokens
  · intro x hx
    obtain ⟨m, w, f, hm, hnumeral, hread⟩ := exists_numeral_formatNumber hx
    have htokens := tokenize_minus_numeral hnumeral (hread ▸ hfinite hm)
    rw [hread] at htokens
    rw [formatNumber_of_neg hm]
    exact ⟨rfl, htokens⟩

/-- The least number of the range, and the opposite of the greatest. -/
theorem printed_numbers_read_back_extremes :
    let least : Float := 1e-6
    let greatest : Float := .ofBits 0x444B1AE4D6E2EF4F
    (formatNumber least = "0.000001" ∧ tokenize "0.000001" =
      ⟨[⟨.number, "0.000001", some (.number least), ⟨⟨0, 1, 1⟩, ⟨8, 1, 9⟩⟩⟩,
        ⟨.endOfInput, [], none, ⟨⟨8, 1, 9⟩, ⟨8, 1, 9⟩⟩⟩], []⟩) ∧
    formatNumber (-greatest) = "-999999999999999900000" ∧ tokenize "-999999999999999900000" =
      ⟨[⟨.minus, "-", none, ⟨⟨0, 1, 1⟩, ⟨1, 1, 2⟩⟩⟩,
        ⟨.number, "999999999999999900000", some (.number greatest), ⟨⟨1, 1, 2⟩, ⟨22, 1, 23⟩⟩⟩,
        ⟨.endOfInput, [], none, ⟨⟨22, 1, 23⟩, ⟨22, 1, 23⟩⟩⟩], []⟩ := by
  intro least greatest
  have hleast : least = 0 ∨ 1e-6 ≤ least ∧ least < 1e21 := by decide +kernel
  have hgreatest : - -greatest = 0 ∨ 1e-6 ≤ - -greatest ∧ - -greatest < 1e21 := by decide +kernel
  have hopposite : - -greatest = greatest := by decide +kernel
  have hleastText : formatNumber least = "0.000001" := by decide +kernel
  have hgreatestText : formatNumber greatest = "999999999999999900000" := by decide +kernel
  have hread := printed_numbers_read_back.1 least hleast
  obtain ⟨htext, hread'⟩ := printed_numbers_read_back.2 (-greatest) hgreatest
  rw [hopposite, hgreatestText] at htext
  rw [hleastText] at hread
  rw [hopposite, htext, hgreatestText] at hread'
  exact ⟨⟨hleastText, hread⟩, htext, hread'⟩

end Scriptlet

import Scriptlet.Token.Lexer

/-!
# Tokens cover the source

What stands between two tokens is trivia: blanks, line comments and block comments, which nest. The
text of a block comment after its opener is described by `CommentEnd`, without a counter of open
comments, and `Trivia` puts blanks and comments in a row. `Covers` says that tokens lie one after
the other on a source, each a slice of it, with trivia in all gaps.

`tokenize_covers` is the result: the tokens of every source cover it, and their positions are those
that one counts from the line ends before them (`Position.ofOffset`).
-/

namespace Scriptlet

/-! ## Positions -/

/-- The position of an offset: lines count the line ends before it, columns the bytes since the last
of them. -/
def Position.ofOffset (source : Text) (n : Nat) : Position :=
  ⟨n, 1 + (source.take n).count 0x0A, 1 + ((source.take n).reverse.takeWhile (· ≠ 0x0A)).length⟩

theorem Position.after_append (p : Position) (s t : Text) : p.after (s ++ t) = (p.after s).after t :=
  List.foldl_append

theorem Position.start_after (t : Text) :
    start.after t = ⟨t.length, 1 + t.count 0x0A, 1 + (t.reverse.takeWhile (· ≠ 0x0A)).length⟩ := by
  obtain ⟨r, rfl⟩ : ∃ r : Text, t = r.reverse := ⟨t.reverse, t.reverse_reverse.symm⟩
  -- from the back, since the last byte decides about line and column
  induction r with
  | nil => rfl
  | cons b r ih =>
    have hbyte : Text.byte '\n' = 0x0A := rfl
    rw [List.reverse_cons, after_append, ih]
    change next _ b = _
    unfold next
    rw [hbyte]
    by_cases hb : b = 0x0A
    · simp [hb]
      omega
    · have hcount : List.count 0x0A [b] = 0 := by simp [hb]
      simp [hb, hcount]
      omega

/-- After an initial part of a source comes the position of its length. -/
theorem Position.start_after_eq_ofOffset (pre rest : Text) :
    start.after pre = ofOffset (pre ++ rest) pre.length := by
  rw [start_after, ofOffset, List.take_left]

/-! ## Trivia -/

/-- The bytes of a text from one offset up to another. -/
def Text.slice (t : Text) (i j : Nat) : Text := (t.drop i).take (j - i)

/-- A block comment after its opener, up to its closer. Where neither an opener nor a closer begins,
a byte stands for itself. -/
inductive CommentEnd : Text → Prop where
  | close : CommentEnd [0x2A, 0x2F]
  | inner {t u : Text} : CommentEnd t → CommentEnd u → CommentEnd (0x2F :: 0x2A :: (t ++ u))
  | byte {b : UInt8} {t : Text} : ¬ (b = 0x2F ∧ t.head? = some 0x2A) →
    ¬ (b = 0x2A ∧ t.head? = some 0x2F) → CommentEnd t → CommentEnd (b :: t)

theorem CommentEnd.ne_nil {t : Text} (h : CommentEnd t) : t ≠ [] := by
  cases h <;> simp

/-- Blanks and comments in a row, before the rest of a source. A line comment goes on up to the end
of its line. -/
inductive Trivia (rest : Text) : Text → Prop where
  | nil : Trivia rest []
  | blank {b : UInt8} {t : Text} : b ∈ [0x20, 0x09, 0x0D, 0x0A] → Trivia rest t →
    Trivia rest (b :: t)
  | lineComment {line t : Text} : 0x0A ∉ line → (∀ b ∈ (t ++ rest).head?, b = 0x0A) →
    Trivia rest t → Trivia rest (0x2F :: 0x2F :: (line ++ t))
  | blockComment {comment t : Text} : CommentEnd comment → Trivia rest t →
    Trivia rest (0x2F :: 0x2A :: (comment ++ t))

/-- Trivia that end in a block comment without an end. -/
def Unclosed (gap : Text) : Prop :=
  ∃ t body, gap = t ++ 0x2F :: 0x2A :: body ∧ Trivia (0x2F :: 0x2A :: body) t ∧
    ∀ c, c <+: body → ¬ CommentEnd c

namespace Lexer

/-! ## Block comments -/

/-- A text that closes one comment after the other. -/
def ClosesAll : Nat → Text → Prop
  | 0, t => CommentEnd t
  | n + 1, t => ∃ u v, t = u ++ v ∧ CommentEnd u ∧ ClosesAll n v

theorem ClosesAll.byte {n : Nat} {b : UInt8} {t : Text} (ho : ¬ (b = 0x2F ∧ t.head? = some 0x2A))
    (hc : ¬ (b = 0x2A ∧ t.head? = some 0x2F)) (h : ClosesAll n t) : ClosesAll n (b :: t) := by
  cases n with
  | zero => exact CommentEnd.byte ho hc h
  | succ n =>
    obtain ⟨u, v, rfl, hu, hv⟩ := h
    obtain ⟨a, u, rfl⟩ := List.exists_cons_of_ne_nil hu.ne_nil
    exact ⟨b :: a :: u, v, rfl, .byte ho hc hu, hv⟩

theorem ClosesAll.inner {n : Nat} {t : Text} (h : ClosesAll (n + 1) t) :
    ClosesAll n (0x2F :: 0x2A :: t) := by
  obtain ⟨u, v, rfl, hu, hv⟩ := h
  cases n with
  | zero => exact CommentEnd.inner hu hv
  | succ n =>
    obtain ⟨v, w, rfl, hv, hw⟩ := hv
    exact ⟨0x2F :: 0x2A :: (u ++ v), w, by simp, .inner hu hv, hw⟩

/-- A block comment is cut off where it and the comments around it end, or takes all there is. -/
theorem blockBody_spec (depth : Nat) (t : Text) :
    match blockBody depth t with
    | (bytes, rest, true) => t = bytes ++ rest ∧ ClosesAll depth bytes
    | (bytes, rest, false) => t = bytes ∧ rest = [] := by
  fun_induction blockBody depth t with
  | case1 => exact ⟨rfl, rfl⟩
  | case2 depth rest bytes rest' closed heq ih =>
    rw [heq] at ih
    cases closed with
    | true => exact ⟨by rw [ih.1]; rfl, ih.2.inner⟩
    | false => exact ⟨by rw [ih.1], ih.2⟩
  | case3 rest => exact ⟨rfl, .close⟩
  | case4 depth rest bytes rest' closed heq ih =>
    rw [heq] at ih
    cases closed with
    | true => exact ⟨by rw [ih.1]; rfl, [0x2A, 0x2F], bytes, rfl, .close, ih.2⟩
    | false => exact ⟨by rw [ih.1], ih.2⟩
  | case5 depth b rest ho hc bytes rest' closed heq ih =>
    rw [heq] at ih
    cases closed with
    | true =>
      refine ⟨by rw [ih.1]; rfl, ClosesAll.byte ?_ ?_ ih.2⟩
      · rintro ⟨rfl, hhead⟩
        obtain ⟨tail, rfl⟩ := List.head?_eq_some_iff.mp hhead
        exact ho _ rfl ih.1
      · rintro ⟨rfl, hhead⟩
        obtain ⟨tail, rfl⟩ := List.head?_eq_some_iff.mp hhead
        exact hc _ rfl ih.1
    | false => exact ⟨by rw [ih.1], ih.2⟩

/-- The end of a block comment is found where it is. -/
theorem blockBody_of_commentEnd {c : Text} (h : CommentEnd c) (rest : Text) :
    blockBody 0 (c ++ rest) = (c, rest, true) ∧
      ∀ n, blockBody (n + 1) (c ++ rest) =
        (c ++ (blockBody n rest).1, (blockBody n rest).2.1, (blockBody n rest).2.2) := by
  induction h generalizing rest with
  | close => exact ⟨by simp [blockBody], fun n => by simp [blockBody]⟩
  | @inner t u _ _ iht ihu =>
    have hskip : ∀ n, blockBody n (0x2F :: 0x2A :: (t ++ u) ++ rest) =
        (0x2F :: 0x2A :: (t ++ (blockBody n (u ++ rest)).1), (blockBody n (u ++ rest)).2.1,
          (blockBody n (u ++ rest)).2.2) := by
      intro n
      simp [blockBody, (iht (u ++ rest)).2]
    exact ⟨by rw [hskip, (ihu rest).1], fun n => by rw [hskip, (ihu rest).2]; simp⟩
  | @byte b t ho hc h ih =>
    have hskip : ∀ n, blockBody n (b :: t ++ rest) =
        (b :: (blockBody n (t ++ rest)).1, (blockBody n (t ++ rest)).2.1,
          (blockBody n (t ++ rest)).2.2) := by
      intro n
      obtain ⟨a, t, rfl⟩ := List.exists_cons_of_ne_nil h.ne_nil
      rw [List.cons_append, blockBody]
      · rintro _ rfl hr; cases hr; exact ho ⟨rfl, rfl⟩
      · rintro _ rfl hr; cases hr; exact hc ⟨rfl, rfl⟩
    exact ⟨by rw [hskip, (ih rest).1], fun n => by rw [hskip, (ih rest).2]; rfl⟩

end Lexer

/-! ## Comments with and without an end -/

/-- What begins with a comment that ends is no comment without an end. -/
theorem CommentEnd.append_inj {c c' r r' : Text} (h : CommentEnd c) (h' : CommentEnd c')
    (heq : c ++ r = c' ++ r') : c = c' ∧ r = r' := by
  have hc := (Lexer.blockBody_of_commentEnd h r).1
  have hc' := (Lexer.blockBody_of_commentEnd h' r').1
  rw [heq, hc'] at hc
  simp only [Prod.mk.injEq] at hc
  exact ⟨hc.1.symm, hc.2.1.symm⟩

theorem takeWhile_line {line t : Text} (hline : 0x0A ∉ line) (hend : ∀ b ∈ t.head?, b = 0x0A) :
    (line ++ t).takeWhile (· ≠ 0x0A) = line := by
  have hall : ∀ b ∈ line, decide (b ≠ (0x0A : UInt8)) = true := by
    intro b hb
    rw [decide_eq_true_iff]
    rintro rfl
    exact hline hb
  rw [List.takeWhile_append_of_pos hall]
  cases t with
  | nil => simp
  | cons b t => simp [hend b rfl]

/-- Trivia that end are none that lack an end. -/
theorem Trivia.not_unclosed {gap : Text} (h : Trivia [] gap) : ¬ Unclosed gap := by
  rintro ⟨t, body, hgap, ht, hbody⟩
  -- the first two bytes tell the forms of trivia apart, on both sides
  induction h generalizing t with
  | nil => simp at hgap
  | blank hb h ih =>
    cases ht with
    | blank _ ht => exact ih _ (List.cons.inj hgap).2 ht
    | nil | lineComment | blockComment =>
      rw [(List.cons.inj hgap).1] at hb
      exact absurd hb (by decide)
  | @lineComment line t' hline hend h ih =>
    cases ht with
    | nil | blockComment => exact absurd (List.cons.inj (List.cons.inj hgap).2).1 (by decide)
    | blank hb =>
      rw [← (List.cons.inj hgap).1] at hb
      exact absurd hb (by decide)
    | @lineComment line' u hline' hend' ht =>
      simp only [List.cons_append, List.cons.injEq, true_and, List.append_assoc] at hgap
      have hsame : line = line' := by
        rw [← takeWhile_line hline (t := t') (by simpa using hend), hgap, takeWhile_line hline' hend']
      subst hsame
      exact ih _ (List.append_cancel_left hgap) ht
  | @blockComment comment t' hcomment h ih =>
    cases ht with
    | nil => exact hbody comment ⟨_, (List.cons.inj (List.cons.inj hgap).2).2⟩ hcomment
    | lineComment => exact absurd (List.cons.inj (List.cons.inj hgap).2).1 (by decide)
    | blank hb =>
      rw [← (List.cons.inj hgap).1] at hb
      exact absurd hb (by decide)
    | @blockComment comment' u hcomment' ht =>
      simp only [List.cons_append, List.cons.injEq, true_and, List.append_assoc] at hgap
      exact ih _ (hcomment.append_inj hcomment' hgap).2 ht

/-! ## Sources that tokens lie on -/

/-- Tokens that lie on a source from an offset on, with trivia in the gaps. The end of input is the
last of them and no other; it is at the end of the source. The last gap, and only this, may end in a
comment without an end, which it does exactly if `unclosed` says so. -/
def Covers (source : Text) (unclosed : Prop) : Nat → List Token → Prop
  | _, [] => False
  | i, [t] =>
    t.kind = .endOfInput ∧ t.lexeme = [] ∧
      t.span = ⟨.ofOffset source source.length, .ofOffset source source.length⟩ ∧
      (unclosed ↔ Unclosed (source.drop i)) ∧ (¬ unclosed → Trivia [] (source.drop i))
  | i, t :: u :: ts =>
    t.kind ≠ .endOfInput ∧ ∃ j k, i ≤ j ∧ j < k ∧ k ≤ source.length ∧
      t.span = ⟨.ofOffset source j, .ofOffset source k⟩ ∧ t.lexeme = source.slice j k ∧
      Trivia (source.drop j) (source.slice i j) ∧ Covers source unclosed k (u :: ts)

theorem Text.slice_append (s t u : Text) : (s ++ t ++ u).slice s.length (s ++ t).length = t := by
  simp [slice]

/-- Trivia may be added in front of the first gap. -/
theorem Covers.prepend {source : Text} {unclosed : Prop} {pre bytes rest : Text}
    (hsource : source = pre ++ bytes ++ rest)
    (htrivia : ∀ t after, rest = t ++ after → Trivia after t → Trivia after (bytes ++ t))
    {ts : List Token} (h : Covers source unclosed (pre ++ bytes).length ts) :
    Covers source unclosed pre.length ts := by
  subst hsource
  match ts, h with
  | [t], ⟨hkind, hlexeme, hspan, hopen, hclosed⟩ =>
    rw [List.drop_left] at hopen hclosed
    have hdrop : (pre ++ bytes ++ rest).drop pre.length = bytes ++ rest := by simp
    have hends : ¬ unclosed → Trivia [] (bytes ++ rest) :=
      fun hu => htrivia rest [] (by simp) (hclosed hu)
    rw [Covers, hdrop]
    refine ⟨hkind, hlexeme, hspan, ⟨fun hu => ?_, fun hgap => ?_⟩, hends⟩
    · obtain ⟨t, body, hgap, ht, hbody⟩ := hopen.mp hu
      exact ⟨bytes ++ t, body, by rw [hgap]; simp, htrivia _ _ hgap ht, hbody⟩
    · exact Classical.byContradiction fun hu => (hends hu).not_unclosed hgap
  | t :: u :: ts, ⟨hkind, j, k, hij, hjk, hk, hspan, hlexeme, hgap, hrest⟩ =>
    refine ⟨hkind, j, k, ?_, hjk, hk, hspan, hlexeme, ?_, hrest⟩
    · simp only [List.length_append] at hij; omega
    · obtain ⟨n, rfl⟩ : ∃ n, j = (pre ++ bytes).length + n := ⟨j - (pre ++ bytes).length, by omega⟩
      have hfirst : (pre ++ bytes ++ rest).slice (pre ++ bytes).length ((pre ++ bytes).length + n) =
          rest.take n := by
        simp [Text.slice]
      have hboth : (pre ++ bytes ++ rest).slice pre.length ((pre ++ bytes).length + n) =
          bytes ++ rest.take n := by
        simp [Text.slice, List.take_append, Nat.add_assoc, List.take_of_length_le]
      have hdrop : (pre ++ bytes ++ rest).drop ((pre ++ bytes).length + n) = rest.drop n := by
        rw [← List.drop_drop, List.drop_left]
      rw [hfirst, hdrop] at hgap
      rw [hboth, hdrop]
      exact htrivia _ _ (List.take_append_drop n rest).symm hgap

/-- A token may be added at an offset where trivia begin. -/
theorem Covers.cons {source : Text} {unclosed : Prop} {pre bytes rest : Text}
    (hsource : source = pre ++ bytes ++ rest) (hbytes : bytes ≠ []) {t : Token}
    (hkind : t.kind ≠ .endOfInput) (hlexeme : t.lexeme = bytes)
    (hspan : t.span = ⟨Position.start.after pre, Position.start.after (pre ++ bytes)⟩)
    {ts : List Token} (h : Covers source unclosed (pre ++ bytes).length ts) :
    Covers source unclosed pre.length (t :: ts) := by
  subst hsource
  have hlength := List.length_pos_iff.mpr hbytes
  match ts, h with
  | u :: ts, h =>
    refine ⟨hkind, pre.length, (pre ++ bytes).length, Nat.le_refl _, ?_, ?_, ?_, ?_, ?_, h⟩
    · simp only [List.length_append]; omega
    · simp only [List.length_append]; omega
    · rw [hspan, Position.start_after_eq_ofOffset (pre ++ bytes) rest,
        Position.start_after_eq_ofOffset pre (bytes ++ rest), List.append_assoc]
    · rw [hlexeme, Text.slice_append]
    · have hempty : (pre ++ bytes ++ rest).slice pre.length pre.length = [] := by simp [Text.slice]
      rw [hempty]
      exact .nil

namespace Lexer

/-! ## Pieces -/

/-- What the bytes of a piece are, before the rest of the source. -/
def Fits (bytes rest : Text) : Piece → Prop
  | .blank => ∃ b, bytes = [b] ∧ isBlank b
  | .lineComment => ∃ line, bytes = 0x2F :: 0x2F :: line ∧ 0x0A ∉ line ∧ ∀ b ∈ rest.head?, b = 0x0A
  | .blockComment true => ∃ comment, bytes = 0x2F :: 0x2A :: comment ∧ CommentEnd comment
  | .blockComment false =>
    ∃ body, bytes = 0x2F :: 0x2A :: body ∧ rest = [] ∧ ∀ c, c <+: body → ¬ CommentEnd c
  | .operator kind => kind ≠ .endOfInput
  | _ => True

theorem kind_ne_endOfInput_of_operator? {b : UInt8} {rest : Text} {kind : Kind} {n : Nat}
    (h : operator? b rest = some (kind, n)) : kind ≠ .endOfInput := by
  unfold operator? at h
  split at h
  all_goals
    cases h
    try decide

theorem append_cutNumber (b : UInt8) (rest : Text) :
    (cutNumber b rest).bytes ++ (cutNumber b rest).rest = b :: rest := by
  have hsplit := List.takeWhile_append_dropWhile (p := isDigit) (l := rest)
  unfold cutNumber
  dsimp only
  split
  · next d after heq =>
    split
    · have hafter := List.takeWhile_append_dropWhile (p := isDigit) (l := after)
      rw [heq] at hsplit
      simp only [List.cons_append, List.append_assoc, hafter, hsplit]
    · simp [hsplit]
  · simp [hsplit]

theorem bytes_cutNumber_ne_nil (b : UInt8) (rest : Text) : (cutNumber b rest).bytes ≠ [] := by
  unfold cutNumber
  dsimp only
  split
  · split <;> simp
  · simp

theorem fits_cutNumber (b : UInt8) (rest : Text) :
    Fits (cutNumber b rest).bytes (cutNumber b rest).rest (cutNumber b rest).piece := by
  unfold cutNumber
  dsimp only
  split
  · split <;> trivial
  · trivial

/-- The first piece of a source is a non-empty beginning of it, which fits. -/
theorem cut_spec (b : UInt8) (rest : Text) :
    (cut b rest).bytes ++ (cut b rest).rest = b :: rest ∧ (cut b rest).bytes ≠ [] ∧
      Fits (cut b rest).bytes (cut b rest).rest (cut b rest).piece := by
  unfold cut
  split
  · next hb => exact ⟨rfl, by simp, b, rfl, hb⟩
  · split
    · next tail _ =>
      refine ⟨by simp, by simp, tail.takeWhile (· ≠ 0x0A), by simp, ?_, ?_⟩
      · intro hmem
        have hall := List.all_takeWhile (p := fun a : UInt8 => decide (a ≠ 0x0A)) (l := tail)
        simpa using List.all_eq_true.mp hall _ hmem
      · intro a ha
        have hstop := List.head?_dropWhile_not (fun a : UInt8 => decide (a ≠ 0x0A)) (0x2F :: tail)
        rw [ha] at hstop
        simpa using hstop
    · next tail _ =>
      have hbody := blockBody_spec 0 tail
      have hclosed : ∀ c, c <+: tail → CommentEnd c → (blockBody 0 tail).2.2 = true := by
        rintro c ⟨more, rfl⟩ hc
        rw [(blockBody_of_commentEnd hc more).1]
      dsimp only
      generalize blockBody 0 tail = body at hbody hclosed
      obtain ⟨bytes, after, closed⟩ := body
      cases closed with
      | true => exact ⟨by simp [hbody.1], by simp, bytes, rfl, hbody.2⟩
      | false =>
        obtain ⟨rfl, rfl⟩ := hbody
        exact ⟨by simp, by simp, tail, rfl, rfl, fun c hc hend => nomatch hclosed c hc hend⟩
    · have hbody : (stringBody rest).2.1 ++ (stringBody rest).2.2.1 = rest := by
        fun_induction stringBody rest <;> simp_all
      exact ⟨by simp [hbody], by simp, trivial⟩
    · split
      · exact ⟨append_cutNumber _ _, bytes_cutNumber_ne_nil _ _, fits_cutNumber _ _⟩
      · split
        · exact ⟨by simp, by simp, trivial⟩
        · split
          · next kind n hop =>
            exact ⟨by simp, by simp, kind_ne_endOfInput_of_operator? hop⟩
          · exact ⟨rfl, by simp, trivial⟩

/-! ## Placing pieces -/

theorem kind_ne_endOfInput_of_token? {piece : Piece} {bytes rest : Text} {kind : Kind}
    {literal : Option Literal} (hfits : Fits bytes rest piece)
    (h : piece.token? bytes = some (kind, literal)) : kind ≠ .endOfInput := by
  cases piece with
  | word =>
    simp only [Piece.token?, Option.some.injEq, Prod.mk.injEq] at h
    rw [← h.1]
    unfold Kind.ofWord
    cases hf : Kind.keywords.find? fun k => k.text == bytes with
    | none => simp
    | some k =>
      have hmem := List.mem_of_find?_eq_some hf
      intro hk
      rw [Option.getD_some] at hk
      rw [hk] at hmem
      revert hmem
      decide
  | operator kind => cases h; exact hfits
  | blank => cases h
  | lineComment => cases h
  | blockComment => cases h
  | string => cases h; simp
  | number => cases h; simp
  | illegal => cases h; simp

/-- A finding about a comment without an end. -/
def ReportsUnclosed (report : Report) : Prop := ∃ d ∈ report, d.code = ("E1004" : Text)

theorem reportsUnclosed_append_iff {r r' : Report} :
    ReportsUnclosed (r ++ r') ↔ ReportsUnclosed r ∨ ReportsUnclosed r' := by
  simp [ReportsUnclosed, or_and_right, exists_or]

/-- A piece is reported as a comment without an end exactly if it is one. -/
theorem reportsUnclosed_fault?_iff (piece : Piece) (bytes : Text) (span : Span) :
    ReportsUnclosed ((piece.fault? bytes).map (·.report span)).toList ↔
      piece = .blockComment false := by
  have hcode : ∀ f : LexicalFault, (f.report span).code = ("E1004" : Text) ↔
      f = .unterminatedComment := by
    have hstring : ¬ ("E1001" : Text) = "E1004" := by decide
    have hbyte : ¬ ("E1003" : Text) = "E1004" := by decide
    have hnumber : ¬ ("E1005" : Text) = "E1004" := by decide
    intro f
    cases f <;> simp [LexicalFault.report, LexicalFault.code, hstring, hbyte, hnumber]
  have hfault : (piece.fault? bytes = some .unterminatedComment) ↔ piece = .blockComment false := by
    cases piece with
    | blockComment closed => cases closed <;> simp [Piece.fault?]
    | string value closed => cases closed <;> simp [Piece.fault?]
    | number x => simp only [Piece.fault?]; split <;> simp
    | _ => simp [Piece.fault?]
  rw [← hfault]
  simp only [ReportsUnclosed, Option.mem_toList, Option.map_eq_some_iff]
  constructor
  · rintro ⟨d, ⟨f, hf, rfl⟩, hd⟩
    rw [hf, (hcode f).mp hd]
  · intro hf
    exact ⟨_, ⟨_, hf, rfl⟩, (hcode _).mpr rfl⟩

/-- Trivia that begin with a piece which makes no token. -/
theorem trivia_of_fits {piece : Piece} {bytes rest : Text} (hfits : Fits bytes rest piece)
    (htoken : piece.token? bytes = none) (hclosed : piece ≠ .blockComment false) {t after : Text}
    (hrest : rest = t ++ after) (ht : Trivia after t) : Trivia after (bytes ++ t) := by
  cases piece with
  | blank =>
    obtain ⟨b, rfl, hb⟩ := hfits
    refine .blank ?_ ht
    simpa [isBlank, or_assoc] using hb
  | lineComment =>
    obtain ⟨line, rfl, hline, hend⟩ := hfits
    exact .lineComment hline (hrest ▸ hend) ht
  | blockComment closed =>
    cases closed with
    | true =>
      obtain ⟨comment, rfl, hcomment⟩ := hfits
      exact .blockComment hcomment ht
    | false => exact absurd rfl hclosed
  | _ => simp [Piece.token?] at htoken

/-- From every place on, the pieces of the rest of a source cover it. -/
theorem covers_place (fuel : Nat) (pre rest : Text) (hfuel : rest.length < fuel) :
    Covers (pre ++ rest) (ReportsUnclosed (place (.after .start pre) (pieces fuel rest)).report)
      pre.length (place (.after .start pre) (pieces fuel rest)).tokens := by
  induction fuel generalizing pre rest with
  | zero => omega
  | succ fuel ih =>
    cases rest with
    | nil =>
      have hgap : Trivia [] ((pre ++ []).drop pre.length) := by
        rw [List.append_nil, List.drop_length]
        exact .nil
      refine ⟨rfl, rfl, ?_, ⟨?_, fun hopen => absurd hopen hgap.not_unclosed⟩, fun _ => hgap⟩
      · rw [Position.start_after_eq_ofOffset pre [], List.append_nil]
      · simp [pieces, place, ReportsUnclosed]
    | cons b rest =>
      obtain ⟨happend, hne, hfits⟩ := cut_spec b rest
      have hlength := congrArg List.length happend
      have hpos := List.length_pos_iff.mpr hne
      simp only [pieces, place]
      generalize cut b rest = c at happend hne hfits hlength hpos
      obtain ⟨piece, bytes, after⟩ := c
      simp only [List.length_append, List.length_cons] at happend hne hfits hlength hpos hfuel ⊢
      have hlater := ih (pre ++ bytes) after (by omega)
      have hsource : pre ++ b :: rest = pre ++ bytes ++ after := by rw [← happend]; simp
      rw [Position.after_append] at hlater
      rw [reportsUnclosed_append_iff, reportsUnclosed_fault?_iff, hsource]
      by_cases hopen : piece = .blockComment false
      · -- a comment without an end takes all there is
        subst hopen
        obtain ⟨body, rfl, rfl, hbody⟩ := hfits
        cases fuel with
        | zero => omega
        | succ fuel =>
          have hgap : Unclosed ((pre ++ 0x2F :: 0x2A :: body ++ []).drop pre.length) :=
            ⟨[], body, by simp, .nil, hbody⟩
          refine ⟨rfl, rfl, ?_, ⟨fun _ => hgap, fun _ => .inl rfl⟩, fun hno => ?_⟩
          · rw [← Position.after_append, Position.start_after_eq_ofOffset _ [], List.append_nil]
          · exact absurd (Or.inl rfl) hno
      · simp only [hopen, false_or]
        cases htoken : piece.token? bytes with
        | none => exact hlater.prepend rfl fun t after' => trivia_of_fits hfits htoken hopen
        | some token =>
          obtain ⟨kind, literal⟩ := token
          refine hlater.cons rfl hne (kind_ne_endOfInput_of_token? hfits htoken) rfl ?_
          rw [Position.after_append]

end Lexer

/-- The tokens of every source lie on it one after the other, each a slice of it, and end with the
end of input. All gaps are trivia, the last of which is a comment without an end exactly if that is
reported, and every position is the one that line ends and bytes before it make. -/
theorem tokenize_covers (source : Text) :
    Covers source (Lexer.ReportsUnclosed (tokenize source).report) 0 (tokenize source).tokens :=
  Lexer.covers_place (source.length + 1) [] source (Nat.lt_succ_self _)

end Scriptlet

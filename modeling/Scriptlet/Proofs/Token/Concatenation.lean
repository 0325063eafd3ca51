import Scriptlet.Proofs.Token.Partition
import Scriptlet.Proofs.Tree.Movement

/-!
# Tokens of two sources

A source of whole lines in which nothing is wrong can be put before another one: the tokens of both
together are its tokens, and then those of the other one, moved past its lines (`tokenize_append`).
A piece of source that was closed is cut off in the same way whatever follows on the next line
(`Lexer.cut_line`); one that was not closed would swallow it.
-/

namespace Scriptlet

/-! ## Pieces at the end of a line -/

/-- Whether a piece ends where its form says, not just where the source does. -/
def Piece.isClosed : Piece → Bool
  | .blockComment closed => closed
  | .string _ closed => closed
  | _ => true

namespace Lexer

theorem takeWhile_line_append {p : UInt8 → Bool} (hp : p 0x0A = false) (t more : Text) :
    (t ++ 0x0A :: more).takeWhile p = t.takeWhile p := by
  induction t with
  | nil => simp [hp]
  | cons b t ih => simp only [List.cons_append, List.takeWhile_cons, ih]

theorem dropWhile_line_append {p : UInt8 → Bool} (hp : p 0x0A = false) (t more : Text) :
    (t ++ 0x0A :: more).dropWhile p = t.dropWhile p ++ 0x0A :: more := by
  induction t with
  | nil => simp [hp]
  | cons b t ih =>
    simp only [List.cons_append, List.dropWhile_cons, ih]
    split <;> rfl

theorem exists_cons_of_line_eq {rest more tail : Text} {x : UInt8}
    (h : rest ++ 0x0A :: more = x :: tail) (hx : x ≠ 0x0A) : ∃ tail', rest = x :: tail' := by
  cases rest with
  | nil => exact absurd (List.cons.inj h).1.symm hx
  | cons b rest => exact ⟨rest, by rw [(List.cons.inj h).1]⟩

theorem operator?_line (b : UInt8) (rest more : Text) :
    operator? b (rest ++ 0x0A :: more) = operator? b rest := by
  have hline (x : UInt8) (hx : x ≠ 0x0A) (rest : Text) (h : ∀ tail, rest = x :: tail → False)
      (tail : Text) (heq : rest ++ 0x0A :: more = x :: tail) : False := by
    obtain ⟨tail', hrest⟩ := exists_cons_of_line_eq heq hx
    exact h tail' hrest
  fun_cases operator? b rest with
  | case17 tail h =>
    rw [List.cons_append, operator?]
    exact fun tail' heq => hline _ (by decide) _ h tail' heq
  | case19 _ _ hstar hassign =>
    rw [operator?]
    · exact fun tail heq => hline _ (by decide) _ hstar _ heq
    · exact hline _ (by decide) _ hstar
    · exact hline _ (by decide) _ hassign
  | case30 =>
    rw [operator?]
    all_goals first | assumption | (intros; contradiction)
  | _ =>
    first
    | rfl
    | rw [operator?]
    all_goals apply hline _ (by decide)
    all_goals assumption

theorem le_length_of_operator? {b : UInt8} {rest : Text} {kind : Kind} {n : Nat}
    (h : operator? b rest = some (kind, n)) : n ≤ rest.length := by
  unfold operator? at h
  split at h
  all_goals cases h
  all_goals simp

theorem blockBody_append {t : Text} (h : (blockBody 0 t).2.2 = true) (more : Text) :
    blockBody 0 (t ++ more) = ((blockBody 0 t).1, (blockBody 0 t).2.1 ++ more, true) := by
  have hspec := blockBody_spec 0 t
  generalize blockBody 0 t = body at h hspec
  obtain ⟨bytes, rest, closed⟩ := body
  cases h
  obtain ⟨rfl, hend⟩ := hspec
  rw [List.append_assoc]
  exact (blockBody_of_commentEnd hend (rest ++ more)).1

theorem stringBody_plain {b : UInt8} (hquote : b ≠ 0x22) (hslash : b ≠ 0x5C) (rest : Text) :
    stringBody (b :: rest) = (b :: (stringBody rest).1, b :: (stringBody rest).2.1,
      (stringBody rest).2.2.1, (stringBody rest).2.2.2) := by
  rw [stringBody]
  · exact hquote
  · exact fun hb _ => hslash hb
  · exact fun _ _ hb _ => hslash hb

theorem ne_backslash {b : UInt8} {rest : Text} (hend : b = 0x5C → rest = [] → False)
    (hescape : ∀ b' rest', b = 0x5C → rest = b' :: rest' → False) : b ≠ 0x5C := by
  intro hb
  cases rest with
  | nil => exact hend hb rfl
  | cons b' rest => exact hescape b' rest hb rfl

theorem stringBody_append {t : Text} (h : (stringBody t).2.2.2 = true) (more : Text) :
    stringBody (t ++ more) =
      ((stringBody t).1, (stringBody t).2.1, (stringBody t).2.2.1 ++ more, true) := by
  fun_induction stringBody t with
  | case1 => cases h
  | case2 rest => simp [stringBody]
  | case3 => cases h
  | case4 b rest value bytes after closed heq ih =>
    rw [heq] at ih
    simp [stringBody, ih h]
  | case5 b rest hquote hend hescape value bytes after closed heq ih =>
    rw [heq] at ih
    rw [List.cons_append, stringBody_plain hquote (ne_backslash hend hescape), ih h]

theorem cutNumber_line (b : UInt8) (rest more : Text) :
    cutNumber b (rest ++ 0x0A :: more) =
      { cutNumber b rest with rest := (cutNumber b rest).rest ++ 0x0A :: more } := by
  have hdigit : isDigit 0x0A = false := by decide
  unfold cutNumber
  simp only [takeWhile_line_append hdigit, dropWhile_line_append hdigit]
  rcases rest.dropWhile isDigit with _ | ⟨point, tail⟩
  · rfl
  · by_cases hpoint : point = 0x2E
    · subst hpoint
      cases tail with
      | nil => rfl
      | cons d after =>
        simp only [List.cons_append, takeWhile_line_append hdigit, dropWhile_line_append hdigit]
        split <;> rfl
    · simp only [List.cons_append]
      split
      · next heq => exact absurd (List.cons.inj heq).1 hpoint
      · split
        · next heq => exact absurd (List.cons.inj heq).1 hpoint
        · rfl

/-- The first piece of a source that begins with no blank, comment or string. -/
def cutToken (b : UInt8) (rest : Text) : Cut :=
  if isDigit b then cutNumber b rest
  else if isWordStart b then ⟨.word, b :: rest.takeWhile isWordPart, rest.dropWhile isWordPart⟩
  else
    match operator? b rest with
    | some (kind, n) => ⟨.operator kind, b :: rest.take n, rest.drop n⟩
    | none => ⟨.illegal b, [b], rest⟩

theorem cut_eq_cutToken {b : UInt8} {rest : Text} (hblank : ¬ isBlank b) (hquote : b ≠ 0x22)
    (hline : ∀ tail, b = 0x2F → rest = 0x2F :: tail → False)
    (hblock : ∀ tail, b = 0x2F → rest = 0x2A :: tail → False) :
    cut b rest = cutToken b rest := by
  unfold cut
  rw [if_neg hblank]
  split
  · exact absurd rfl (hline _ rfl)
  · exact absurd rfl (hblock _ rfl)
  · exact absurd rfl hquote
  · rfl

theorem cutToken_line (b : UInt8) (rest more : Text) :
    cutToken b (rest ++ 0x0A :: more) =
      { cutToken b rest with rest := (cutToken b rest).rest ++ 0x0A :: more } := by
  have hpart : isWordPart 0x0A = false := by decide
  unfold cutToken
  rw [operator?_line, cutNumber_line, takeWhile_line_append hpart, dropWhile_line_append hpart]
  split
  · rfl
  · split
    · rfl
    · split
      · next kind n hop =>
        have hn := le_length_of_operator? hop
        rw [List.take_append_of_le_length hn, List.drop_append_of_le_length hn]
      · rfl

theorem cut_quote (rest : Text) :
    cut 0x22 rest = ⟨.string (stringBody rest).1 (stringBody rest).2.2.2,
      0x22 :: (stringBody rest).2.1, (stringBody rest).2.2.1⟩ :=
  rfl

theorem cut_blockComment (rest : Text) :
    cut 0x2F (0x2A :: rest) = ⟨.blockComment (blockBody 0 rest).2.2,
      0x2F :: 0x2A :: (blockBody 0 rest).1, (blockBody 0 rest).2.1⟩ :=
  rfl

theorem cut_lineComment (rest : Text) :
    cut 0x2F (0x2F :: rest) = ⟨.lineComment, 0x2F :: 0x2F :: rest.takeWhile (· ≠ 0x0A),
      rest.dropWhile (· ≠ 0x0A)⟩ :=
  rfl

theorem isClosed_cutToken (b : UInt8) (rest : Text) : (cutToken b rest).piece.isClosed := by
  unfold cutToken cutNumber
  dsimp only
  repeat' split
  all_goals rfl

/-- Strings and block comments apart, a piece does not look past the end of its line. -/
theorem cut_cases (b : UInt8) (rest : Text) :
    b = 0x22 ∨ b = 0x2F ∧ (∃ tail, rest = 0x2A :: tail) ∨
      (cut b rest).piece.isClosed ∧ ∀ more, cut b (rest ++ 0x0A :: more) =
        { cut b rest with rest := (cut b rest).rest ++ 0x0A :: more } := by
  by_cases hquote : b = 0x22
  · exact .inl hquote
  refine .inr ?_
  by_cases hblock : b = 0x2F ∧ ∃ tail, rest = 0x2A :: tail
  · exact .inl hblock
  refine .inr ?_
  by_cases hblank : isBlank b
  · have hcut (rest : Text) : cut b rest = ⟨.blank, [b], rest⟩ := by simp only [cut, if_pos hblank]
    rw [hcut]
    exact ⟨rfl, fun more => hcut (rest ++ 0x0A :: more)⟩
  by_cases hline : b = 0x2F ∧ ∃ tail, rest = 0x2F :: tail
  · obtain ⟨rfl, tail, rfl⟩ := hline
    refine ⟨rfl, fun more => ?_⟩
    rw [List.cons_append, cut_lineComment, cut_lineComment,
      takeWhile_line_append (by decide), dropWhile_line_append (by decide)]
  · have hcut : cut b rest = cutToken b rest :=
      cut_eq_cutToken hblank hquote (fun tail hb hr => hline ⟨hb, tail, hr⟩)
        fun tail hb hr => hblock ⟨hb, tail, hr⟩
    rw [hcut]
    refine ⟨isClosed_cutToken b rest, fun more => ?_⟩
    rw [← cutToken_line]
    refine cut_eq_cutToken hblank hquote (fun tail hb hr => ?_) fun tail hb hr => ?_
    · exact hline ⟨hb, exists_cons_of_line_eq hr (by decide)⟩
    · exact hblock ⟨hb, exists_cons_of_line_eq hr (by decide)⟩

/-- A closed piece is cut off in the same way whatever follows on the next line. -/
theorem cut_line {b : UInt8} {rest : Text} (h : (cut b rest).piece.isClosed) (more : Text) :
    cut b (rest ++ 0x0A :: more) =
      { cut b rest with rest := (cut b rest).rest ++ 0x0A :: more } := by
  obtain rfl | ⟨rfl, tail, rfl⟩ | ⟨-, hcut⟩ := cut_cases b rest
  · rw [cut_quote] at h ⊢
    rw [cut_quote, stringBody_append h]
    exact congrArg (Cut.mk · _ _) (congrArg _ h.symm)
  · rw [cut_blockComment] at h ⊢
    rw [List.cons_append, cut_blockComment, blockBody_append h]
    exact congrArg (Cut.mk · _ _) (congrArg _ h.symm)
  · exact hcut more

/-! ## Pieces without an end -/

theorem quote_mem_of_stringBody {t : Text} (h : (stringBody t).2.2.2 = true) : 0x22 ∈ t := by
  fun_induction stringBody t with
  | case1 => cases h
  | case2 rest => exact List.mem_cons_self
  | case3 => cases h
  | case4 b rest value bytes after closed heq ih =>
    rw [heq] at ih
    exact List.mem_cons_of_mem _ (List.mem_cons_of_mem _ (ih h))
  | case5 b rest hquote hend hescape value bytes after closed heq ih =>
    rw [heq] at ih
    exact List.mem_cons_of_mem _ (ih h)

/-- A string without an end is not ended by bytes without a quote. -/
theorem stringBody_unclosed {t more : Text} (h : (stringBody t).2.2.2 = false)
    (hmore : 0x22 ∉ more) : (stringBody (t ++ more)).2.2.2 = false := by
  fun_induction stringBody t with
  | case1 => exact Bool.eq_false_iff.mpr fun hc => hmore (quote_mem_of_stringBody hc)
  | case2 rest => cases h
  | case3 =>
    refine Bool.eq_false_iff.mpr fun hc => ?_
    exact hmore (by simpa using quote_mem_of_stringBody hc)
  | case4 b rest value bytes after closed heq ih =>
    rw [heq] at ih
    simpa [stringBody] using ih h
  | case5 b rest hquote hend hescape value bytes after closed heq ih =>
    rw [heq] at ih
    rw [List.cons_append, stringBody_plain hquote (ne_backslash hend hescape)]
    exact ih h

/-- A string without an end takes all there is. -/
theorem rest_of_unclosed {t : Text} (h : (stringBody t).2.2.2 = false) :
    (stringBody t).2.2.1 = [] := by
  fun_induction stringBody t with
  | case1 => rfl
  | case2 rest => cases h
  | case3 => rfl
  | case4 b rest value bytes after closed heq ih =>
    rw [heq] at ih
    exact ih h
  | case5 b rest hquote hend hescape value bytes after closed heq ih =>
    rw [heq] at ih
    exact ih h

theorem getLast?_of_commentEnd {t : Text} (h : CommentEnd t) : t.getLast? = some 0x2F := by
  induction h with
  | close => rfl
  | inner _ _ _ ihu => simp [List.getLast?_cons, List.getLast?_append, ihu]
  | byte _ _ _ ih => simp [List.getLast?_cons, ih]

/-- A comment without an end is not ended by bytes without a slash. -/
theorem blockBody_unclosed {t more : Text} (h : (blockBody 0 t).2.2 = false)
    (hmore : 0x2F ∉ more) : (blockBody 0 (t ++ more)).2.2 = false := by
  have hopen : ∀ c, c <+: t → ¬ CommentEnd c := by
    rintro c ⟨rest, rfl⟩ hc
    rw [(blockBody_of_commentEnd hc rest).1] at h
    cases h
  refine Bool.eq_false_iff.mpr fun hclosed => ?_
  have hspec := blockBody_spec 0 (t ++ more)
  generalize blockBody 0 (t ++ more) = body at hclosed hspec
  obtain ⟨bytes, rest, closed⟩ := body
  cases hclosed
  obtain ⟨happend, hend⟩ := hspec
  rcases List.append_eq_append_iff.mp happend with ⟨mid, rfl, rfl⟩ | ⟨mid, rfl, -⟩
  · cases hmid : mid.getLast? with
    | none =>
      rw [List.getLast?_eq_none_iff.mp hmid, List.append_nil] at hend
      exact hopen t (List.prefix_refl t) hend
    | some b =>
      have hlast := getLast?_of_commentEnd hend
      rw [List.getLast?_append, hmid, Option.some_or] at hlast
      cases hlast
      exact hmore (List.mem_append_left _ (List.mem_of_getLast? hmid))
  · exact hopen bytes (List.prefix_append _ _) hend

/-- The bytes of the next line that close neither a string nor a comment. -/
theorem cut_unclosed {b : UInt8} {rest more : Text} (h : (cut b rest).piece.isClosed = false)
    (hquote : 0x22 ∉ more) (hslash : 0x2F ∉ more) :
    (cut b (rest ++ 0x0A :: more)).piece.isClosed = false := by
  obtain rfl | ⟨rfl, tail, rfl⟩ | ⟨hclosed, -⟩ := cut_cases b rest
  · exact stringBody_unclosed h (by simpa using hquote)
  · exact blockBody_unclosed h (by simpa using hslash)
  · rw [hclosed] at h
    cases h

/-- A piece without an end is the last one, and this is what is wrong with it. -/
theorem cut_open {b : UInt8} {rest : Text} (h : (cut b rest).piece.isClosed = false) :
    (cut b rest).rest = [] ∧ (cut b rest).piece.fault? (cut b rest).bytes =
      some (if b = 0x22 then .unterminatedString else .unterminatedComment) := by
  obtain rfl | ⟨rfl, tail, rfl⟩ | ⟨hclosed, -⟩ := cut_cases b rest
  · rw [cut_quote] at h ⊢
    have hopen : (stringBody rest).2.2.2 = false := h
    refine ⟨rest_of_unclosed hopen, ?_⟩
    simp [Piece.fault?, hopen]
  · rw [cut_blockComment] at h ⊢
    have hopen : (blockBody 0 tail).2.2 = false := h
    have hspec := blockBody_spec 0 tail
    generalize blockBody 0 tail = body at hopen hspec
    obtain ⟨bytes, rest, closed⟩ := body
    cases hopen
    exact ⟨hspec.2, rfl⟩
  · rw [hclosed] at h
    cases h

/-! ## All pieces of a source -/

theorem length_cut (b : UInt8) (rest : Text) : (cut b rest).rest.length < (b :: rest).length := by
  obtain ⟨happend, hne, -⟩ := cut_spec b rest
  have hlength := congrArg List.length happend
  have hpos := List.length_pos_iff.mpr hne
  simp only [List.length_append] at hlength
  omega

/-- More fuel than there are bytes changes nothing. -/
theorem pieces_fuel {fuel fuel' : Nat} {t : Text} (h : t.length < fuel) (h' : t.length < fuel') :
    pieces fuel t = pieces fuel' t := by
  induction fuel generalizing fuel' t with
  | zero => omega
  | succ fuel ih =>
    obtain ⟨fuel', rfl⟩ : ∃ n, fuel' = n + 1 := ⟨fuel' - 1, by omega⟩
    cases t with
    | nil => rfl
    | cons b rest =>
      have hlength := length_cut b rest
      rw [pieces, pieces, @ih fuel' _ (by omega) (by omega)]

/-- The pieces of a source. -/
def cutAll (t : Text) : List (Piece × Text) := pieces (t.length + 1) t

theorem cutAll_cons (b : UInt8) (rest : Text) :
    cutAll (b :: rest) =
      ((cut b rest).piece, (cut b rest).bytes) :: cutAll (cut b rest).rest := by
  have hlength := length_cut b rest
  rw [cutAll, pieces, cutAll, pieces_fuel hlength (Nat.lt_succ_self _)]

/-- Sources are read piece by piece. -/
theorem cut_induction {motive : Text → Prop} (nil : motive [])
    (cons : ∀ b rest, motive (cut b rest).rest → motive (b :: rest)) (t : Text) : motive t := by
  have hall : ∀ n (t : Text), t.length ≤ n → motive t := by
    intro n
    induction n with
    | zero => exact fun t ht => List.eq_nil_of_length_eq_zero (Nat.le_zero.mp ht) ▸ nil
    | succ n ih =>
      intro t ht
      cases t with
      | nil => exact nil
      | cons b rest =>
        have hlength := length_cut b rest
        exact cons b rest (ih _ (by omega))
  exact hall t.length t (Nat.le_refl _)

theorem bytes_cutAll (t : Text) : (cutAll t).flatMap Prod.snd = t := by
  induction t using cut_induction with
  | nil => rfl
  | cons b rest ih =>
    rw [cutAll_cons, List.flatMap_cons, ih]
    exact (cut_spec b rest).1

/-- If all pieces of a source are closed, it does not matter to them what follows. -/
theorem cutAll_line {t : Text} (h : ∀ p ∈ cutAll t, p.1.isClosed) (more : Text) :
    cutAll (t ++ 0x0A :: more) = cutAll t ++ (.blank, [0x0A]) :: cutAll more := by
  induction t using cut_induction with
  | nil => exact cutAll_cons 0x0A more
  | cons b rest ih =>
    rw [cutAll_cons, List.forall_mem_cons] at h
    rw [List.cons_append, cutAll_cons, cut_line h.1, cutAll_cons, List.cons_append, ih h.2]

/-- What is wrong with pieces. -/
def faults (xs : List (Piece × Text)) : List LexicalFault := xs.filterMap fun x => x.1.fault? x.2

theorem faults_cutAll_open {b : UInt8} {rest : Text} (h : (cut b rest).piece.isClosed = false) :
    faults (cutAll (b :: rest)) =
      [if b = 0x22 then .unterminatedString else .unterminatedComment] := by
  obtain ⟨hrest, hfault⟩ := cut_open h
  rw [cutAll_cons, hrest, faults, List.filterMap_cons, hfault]
  rfl

/-- The same is wrong with a source if a line follows that has no faults and closes nothing. -/
theorem faults_cutAll_line {t more : Text} (hmore : faults (cutAll more) = [])
    (hquote : 0x22 ∉ more) (hslash : 0x2F ∉ more) :
    faults (cutAll (t ++ 0x0A :: more)) = faults (cutAll t) := by
  induction t using cut_induction with
  | nil =>
    rw [List.nil_append, cutAll_cons]
    exact hmore
  | cons b rest ih =>
    rw [List.cons_append]
    by_cases hclosed : (cut b rest).piece.isClosed
    · rw [cutAll_cons, cut_line hclosed, cutAll_cons]
      unfold faults at ih ⊢
      rw [List.filterMap_cons, List.filterMap_cons, ih]
    · have hopen := Bool.eq_false_iff.mpr hclosed
      rw [faults_cutAll_open (cut_unclosed hopen hquote hslash), faults_cutAll_open hopen]

/-! ## Placed pieces -/

theorem tokens_place_ne_nil (p : Position) (xs : List (Piece × Text)) :
    (place p xs).tokens ≠ [] := by
  induction xs generalizing p with
  | nil => simp [place]
  | cons x xs ih => simp [place, ih]

theorem place_append (p : Position) (xs ys : List (Piece × Text)) :
    place p (xs ++ ys) =
      ⟨(place p xs).tokens.dropLast ++ (place (p.after (xs.flatMap Prod.snd)) ys).tokens,
        (place p xs).report ++ (place (p.after (xs.flatMap Prod.snd)) ys).report⟩ := by
  induction xs generalizing p with
  | nil => rfl
  | cons x xs ih =>
    simp only [List.cons_append, place, ih, List.flatMap_cons, Position.after_append,
      List.dropLast_append_of_ne_nil (tokens_place_ne_nil _ _), List.append_assoc]

/-- Something was found exactly if something is wrong with a piece. -/
theorem report_place_eq_nil_iff (p : Position) (xs : List (Piece × Text)) :
    (place p xs).report = [] ↔ ∀ x ∈ xs, x.1.fault? x.2 = none := by
  induction xs generalizing p with
  | nil => simp [place]
  | cons x xs ih => simp [place, ih]

/-- What is found are the faults of the pieces, each at its place. -/
theorem report_place (p : Position) (xs : List (Piece × Text)) :
    (place p xs).report.map (Diagnostic.relocate fun _ => .nowhere) =
      (faults xs).map (·.report .nowhere) := by
  induction xs generalizing p with
  | nil => rfl
  | cons x xs ih =>
    simp only [place, List.map_append, ih, faults, List.filterMap_cons]
    cases x.1.fault? x.2 with
    | none => rfl
    | some fault => rfl

theorem errors_place (p : Position) (xs : List (Piece × Text)) :
    ∀ d ∈ (place p xs).report, d.isError := by
  induction xs generalizing p with
  | nil => simp [place]
  | cons x xs ih =>
    simp only [place, List.forall_mem_append]
    refine ⟨fun d hd => ?_, ih _⟩
    obtain ⟨fault, -, rfl⟩ := Option.map_eq_some_iff.mp (Option.mem_toList.mp hd)
    rfl

end Lexer

/-! ## Positions past some lines -/

namespace Position

/-- A position of a source that is put after some whole lines. -/
def past (lines : Text) (p : Position) : Position :=
  if p = .nowhere then p else ⟨p.offset + lines.length, p.line + lines.count 0x0A, p.column⟩

variable (lines : Text) {p : Position}

theorem past_nowhere : past lines .nowhere = .nowhere := if_pos rfl

theorem past_eq (hp : 0 < p.line) :
    p.past lines = ⟨p.offset + lines.length, p.line + lines.count 0x0A, p.column⟩ := by
  refine if_neg fun h => ?_
  rw [h] at hp
  exact absurd hp (by decide)

theorem line_next (hp : 0 < p.line) (b : UInt8) : 0 < (p.next b).line := by
  unfold next
  split
  · exact Int.lt_add_one_of_le (Int.le_of_lt hp)
  · exact hp

theorem line_after (hp : 0 < p.line) (t : Text) : 0 < (p.after t).line := by
  induction t generalizing p with
  | nil => exact hp
  | cons b t ih => exact ih (line_next hp b)

theorem past_next (hp : 0 < p.line) (b : UInt8) :
    (p.next b).past lines = (p.past lines).next b := by
  rw [past_eq lines (line_next hp b), past_eq lines hp, next, next]
  split
  · simp only [mk.injEq, and_true]
    omega
  · simp only [mk.injEq, and_true]
    omega

theorem past_after (hp : 0 < p.line) (t : Text) :
    (p.after t).past lines = (p.past lines).after t := by
  induction t generalizing p with
  | nil => rfl
  | cons b t ih => exact (ih (line_next hp b)).trans (congrArg (after · t) (past_next lines hp b))

/-- After a line comes the start of what follows, past it. -/
theorem start_after_line (t : Text) : start.after t.line = start.past t.line := by
  rw [start_after, past_eq _ (by decide)]
  simp [Text.line, start]

end Position

theorem Lexer.place_past (lines : Text) {p : Position} (hp : 0 < p.line)
    (xs : List (Piece × Text)) :
    place (p.past lines) xs =
      ⟨(place p xs).tokens.map (Token.move (.past lines)),
        (place p xs).report.map (Diagnostic.move (.past lines))⟩ := by
  induction xs generalizing p with
  | nil => rfl
  | cons x xs ih =>
    simp only [place, ← Position.past_after lines hp, ih (Position.line_after hp x.2),
      List.map_append]
    cases x.1.fault? x.2 <;> cases x.1.token? x.2 <;> rfl

theorem Lexer.tokens_place (p : Position) (xs : List (Piece × Text)) : ∃ last : Token,
    last.kind = .endOfInput ∧ (place p xs).tokens = (place p xs).tokens.dropLast ++ [last] := by
  induction xs generalizing p with
  | nil => exact ⟨_, rfl, rfl⟩
  | cons x xs ih =>
    obtain ⟨last, hlast, htokens⟩ := ih (p.after x.2)
    refine ⟨last, hlast, ?_⟩
    simp only [place, List.dropLast_append_of_ne_nil (tokens_place_ne_nil _ _), List.append_assoc,
      ← htokens]

/-! ## Sources -/

/-- The last token of a source is its end. -/
theorem tokenize_eq (source : Text) : ∃ last : Token, last.kind = .endOfInput ∧
    (tokenize source).tokens = (tokenize source).tokens.dropLast ++ [last] :=
  Lexer.tokens_place _ _

/-- Whatever is found wrong with a source is an error. -/
theorem tokenize_errors (source : Text) : ∀ d ∈ (tokenize source).report, d.isError :=
  Lexer.errors_place _ _

theorem Text.line_append (a b : Text) : a.line ++ b = a ++ 0x0A :: b := by
  rw [line, List.append_assoc]
  rfl

theorem Piece.isClosed_of_fault? {piece : Piece} {bytes : Text} (h : piece.fault? bytes = none) :
    piece.isClosed := by
  cases piece with
  | blockComment closed | string _ closed =>
    cases closed with
    | true => rfl
    | false => cases h
  | _ => rfl

/-- The tokens of a source after a line in which nothing is wrong. -/
theorem tokenize_append {a : Text} (h : (tokenize a).report = []) (b : Text) :
    tokenize (a.line ++ b) =
      ⟨(tokenize a).tokens.dropLast ++ (tokenize b).tokens.map (Token.move (.past a.line)),
        (tokenize b).report.map (Diagnostic.move (.past a.line))⟩ := by
  have hfaults := (Lexer.report_place_eq_nil_iff _ _).mp h
  have hall : Lexer.cutAll (a.line ++ b) =
      (Lexer.cutAll a ++ [(.blank, [0x0A])]) ++ Lexer.cutAll b := by
    rw [Text.line_append, List.append_assoc]
    exact Lexer.cutAll_line (fun p hp => Piece.isClosed_of_fault? (hfaults p hp)) b
  have hbytes : (Lexer.cutAll a ++ [(Piece.blank, [0x0A])]).flatMap Prod.snd = a.line := by
    rw [List.flatMap_append, Lexer.bytes_cutAll]
    rfl
  have hfirst := Lexer.place_append .start (Lexer.cutAll a) [(.blank, [0x0A])]
  have htokens : (Lexer.place .start (Lexer.cutAll a ++ [(.blank, [0x0A])])).tokens.dropLast =
      (tokenize a).tokens.dropLast := by
    rw [hfirst]
    exact List.dropLast_concat
  have hreport : (Lexer.place .start (Lexer.cutAll a ++ [(.blank, [0x0A])])).report = [] := by
    rw [hfirst]
    exact (List.append_nil _).trans h
  change Lexer.place .start (Lexer.cutAll (a.line ++ b)) = _
  rw [hall, Lexer.place_append, hbytes, Position.start_after_line,
    Lexer.place_past _ (by decide), htokens, hreport, List.nil_append]
  rfl

/-- What is found in a source does not depend on a line that follows, if nothing is wrong with this
line and it closes nothing. Only the place where the source ends is another one. -/
theorem tokenize_report_line {a more : Text} (hmore : (tokenize more).report = [])
    (hquote : 0x22 ∉ more) (hslash : 0x2F ∉ more) :
    (tokenize (a.line ++ more)).report.map (Diagnostic.relocate fun _ => .nowhere) =
      (tokenize a).report.map (Diagnostic.relocate fun _ => .nowhere) := by
  have hfaults : Lexer.faults (Lexer.cutAll more) = [] :=
    List.filterMap_eq_nil_iff.mpr ((Lexer.report_place_eq_nil_iff _ _).mp hmore)
  have hline := Lexer.faults_cutAll_line (t := a) hfaults hquote hslash
  rw [← Text.line_append] at hline
  have hwhole := Lexer.report_place .start (Lexer.cutAll (a.line ++ more))
  rw [hline, ← Lexer.report_place .start] at hwhole
  exact hwhole

theorem Covers.dropLast {source : Text} {unclosed : Prop} {i : Nat} {ts : List Token}
    (h : Covers source unclosed i ts) :
    ts.dropLast = ts.takeWhile fun t => t.kind ≠ .endOfInput := by
  match ts, h with
  | [t], ⟨hkind, _⟩ => simp [hkind]
  | t :: u :: ts, ⟨hkind, _, k, _, _, _, _, _, _, hrest⟩ =>
    rw [List.dropLast_cons_cons, List.takeWhile_cons_of_pos (by simpa using hkind),
      Covers.dropLast hrest]

/-- Only the last token of a source is its end. -/
theorem tokenize_dropLast (source : Text) : (tokenize source).tokens.dropLast =
    (tokenize source).tokens.takeWhile fun t => t.kind ≠ .endOfInput :=
  (Lexer.covers_place (source.length + 1) [] source (Nat.lt_succ_self _)).dropLast

end Scriptlet

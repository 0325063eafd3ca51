import Scriptlet.Console.Draft
import Scriptlet.Proofs.Token.Concatenation
import Scriptlet.Proofs.Tree.Reading

/-!
# Joining lines by their braces

The console joins lines without reading their tokens: a draft counts the bytes that open and close
braces. What these bytes are in the language is told by the pieces of the source: each is a brace
token, or it stands in a string or a comment, where it is text (`count_brace`). So the depth of a
draft is that of its tokens, off by the braces of its strings and comments, and only these can make
the console wait for a brace that the program does not need, or stop before one that it does.

Lines are neither lost nor changed on the way: the inputs that were handed out and the draft that is
left are together the lines that were added.
-/

namespace Scriptlet

/-- The byte of a brace. -/
def Kind.brace? : Kind → Option UInt8
  | .leftBrace => some 0x7B
  | .rightBrace => some 0x7D
  | _ => none

/-- Strings and comments, whose bytes are no tokens of their own. -/
def Piece.isInert : Piece → Bool
  | .lineComment | .blockComment _ | .string .. => true
  | _ => false

/-- The bytes of the strings and comments of a source. -/
def Text.inert (source : Text) : Text :=
  (Lexer.cutAll source).flatMap fun p => if p.1.isInert then p.2 else []

/-- How many tokens of a kind a source has. -/
def Text.tokensOf (source : Text) (kind : Kind) : Nat :=
  (tokenize source).tokens.countP fun t => t.kind = kind

/-! ## Braces of a source -/

namespace Lexer

variable {k : Kind} {x : UInt8}

/-- Whether a piece makes a token of a kind. -/
def makes (k : Kind) (p : Piece × Text) : Bool := (p.1.token? p.2).map Prod.fst = some k

theorem count_eq_zero_of_forall {p : UInt8 → Bool} {t : Text} (hx : p x = false)
    (ht : ∀ b ∈ t, p b = true) : t.count x = 0 := by
  rw [List.count_eq_zero]
  intro hmem
  rw [ht x hmem] at hx
  contradiction

theorem mem_bytes_cutNumber {b : UInt8} (hb : isDigit b) (rest : Text) :
    ∀ a ∈ (cutNumber b rest).bytes, (isDigit a || a = 0x2E) = true := by
  have hdigits (t : Text) : ∀ a ∈ t.takeWhile isDigit, isDigit a = true :=
    fun a ha => List.all_eq_true.mp List.all_takeWhile a ha
  unfold cutNumber
  dsimp only
  intro a ha
  split at ha
  · next d after _ =>
    split at ha
    · next hd =>
      simp only [List.cons_append, List.mem_cons, List.mem_append] at ha
      rcases ha with rfl | ha | rfl | rfl | ha
      · simp [hb]
      · simp [hdigits _ a ha]
      · simp
      · simp [hd]
      · simp [hdigits _ a ha]
    · rcases List.mem_cons.mp ha with rfl | ha
      · simp [hb]
      · simp [hdigits _ a ha]
  · rcases List.mem_cons.mp ha with rfl | ha
    · simp [hb]
    · simp [hdigits _ a ha]

theorem count_operator (hk : k.brace? = some x) {b : UInt8} {rest : Text} {kind : Kind} {n : Nat}
    (h : operator? b rest = some (kind, n)) :
    (b :: rest.take n).count x = if kind = k then 1 else 0 := by
  unfold operator? at h
  split at h
  all_goals
    cases h
    try cases k <;> cases hk <;> rfl

theorem ne_brace_of_operator?_eq_none (hk : k.brace? = some x) {b : UInt8} {rest : Text}
    (h : operator? b rest = none) : b ≠ x := by
  rintro rfl
  cases k <;> cases hk <;> cases h

theorem ofWord_ne_brace (hk : k.brace? = some x) (word : Text) : Kind.ofWord word ≠ k := by
  unfold Kind.ofWord
  cases hfind : Kind.keywords.find? fun k => k.text == word with
  | none => cases k <;> cases hk <;> decide
  | some found =>
    have hmem := List.mem_of_find?_eq_some hfind
    rintro rfl
    revert hmem
    cases found <;> cases hk <;> decide

theorem count_cutToken (hk : k.brace? = some x) (b : UInt8) (rest : Text) :
    (cutToken b rest).bytes.count x =
      if makes k ((cutToken b rest).piece, (cutToken b rest).bytes) then 1 else 0 := by
  unfold cutToken
  by_cases hdigit : isDigit b
  · obtain ⟨value, hpiece⟩ := piece_cutNumber b rest
    have hcount : (cutNumber b rest).bytes.count x = 0 := by
      apply count_eq_zero_of_forall _ (mem_bytes_cutNumber hdigit rest)
      cases k <;> cases hk <;> rfl
    rw [if_pos hdigit, hcount, hpiece]
    cases k <;> cases hk <;> rfl
  rw [if_neg hdigit]
  by_cases hword : isWordStart b
  · have hcount : (b :: rest.takeWhile isWordPart).count x = 0 := by
      apply count_eq_zero_of_forall (p := isWordPart)
      · cases k <;> cases hk <;> rfl
      · intro a ha
        rcases List.mem_cons.mp ha with rfl | ha
        · simp [isWordPart, hword]
        · exact List.all_eq_true.mp List.all_takeWhile a ha
    rw [if_pos hword]
    simp [makes, Piece.token?, hcount, ofWord_ne_brace hk]
  rw [if_neg hword]
  cases hop : operator? b rest with
  | some found =>
    obtain ⟨kind, n⟩ := found
    simp [makes, Piece.token?, count_operator hk hop]
  | none =>
    have hne := ne_brace_of_operator?_eq_none hk hop
    have hillegal : Kind.illegal ≠ k := by
      rintro rfl
      cases hk
    simp [makes, Piece.token?, hne, hillegal]

/-- The braces of the first piece of a source are its token, if it is no string and no comment. -/
theorem count_cut (hk : k.brace? = some x) (b : UInt8) (rest : Text)
    (hinert : (cut b rest).piece.isInert = false) :
    (cut b rest).bytes.count x =
      if makes k ((cut b rest).piece, (cut b rest).bytes) then 1 else 0 := by
  by_cases hblank : isBlank b
  · have hb : b ≠ x := by
      rintro rfl
      cases k <;> cases hk <;> contradiction
    simp [cut, hblank, makes, Piece.token?, hb]
  · rw [cut_eq_cutToken hblank]
    · exact count_cutToken hk b rest
    · rintro rfl
      contradiction
    · rintro tail rfl rfl
      contradiction
    · rintro tail rfl rfl
      contradiction

theorem makes_of_isInert (hk : k.brace? = some x) {p : Piece × Text} (hp : p.1.isInert) :
    makes k p = false := by
  obtain ⟨piece, bytes⟩ := p
  cases piece with
  | lineComment | blockComment closed => rfl
  | string value closed => cases k <;> cases hk <;> rfl
  | _ => contradiction

theorem tokens_place_count (hk : k.brace? = some x) (p : Position) (ps : List (Piece × Text)) :
    (place p ps).tokens.countP (fun t => t.kind = k) = ps.countP (makes k) := by
  induction ps generalizing p with
  | nil => cases k <;> cases hk <;> rfl
  | cons q ps ih =>
    obtain ⟨piece, bytes⟩ := q
    rw [place]
    simp only [List.countP_append, ih, List.countP_cons]
    cases htoken : piece.token? bytes with
    | none => simp [makes, htoken]
    | some token =>
      simp only [Option.map_some, Option.toList_some, List.countP_singleton, makes, htoken,
        Option.some.injEq]
      omega

end Lexer

/-- A brace of a source is a token, or stands in a string or a comment. -/
theorem Text.count_brace {k : Kind} {x : UInt8} (hk : k.brace? = some x) (source : Text) :
    source.count x = source.tokensOf k + source.inert.count x := by
  have hplaced : source.tokensOf k = (Lexer.cutAll source).countP (Lexer.makes k) :=
    Lexer.tokens_place_count hk _ _
  rw [hplaced, inert]
  clear hplaced
  induction source using Lexer.cut_induction with
  | nil => rfl
  | cons b rest ih =>
    obtain ⟨happend, -, -⟩ := Lexer.cut_spec b rest
    rw [← happend, List.count_append, ih, happend, Lexer.cutAll_cons, List.countP_cons,
      List.flatMap_cons, List.count_append]
    cases hinert : (Lexer.cut b rest).piece.isInert with
    | true =>
      have hnone := Lexer.makes_of_isInert (p := (_, (Lexer.cut b rest).bytes)) hk hinert
      simp only [hnone, Bool.false_eq_true, ↓reduceIte]
      omega
    | false =>
      have hcount := Lexer.count_cut hk b rest hinert
      simp only [hcount, Bool.false_eq_true, ↓reduceIte, List.count_nil]
      omega

/-! ## Drafts -/

/-- How many braces a source opens: its tokens, and what its strings and comments add to them. -/
def Text.opened (source : Text) : Nat :=
  source.tokensOf .leftBrace + source.inert.count (byte '\x7b')

/-- How many braces a source closes. -/
def Text.closed (source : Text) : Nat :=
  source.tokensOf .rightBrace + source.inert.count (byte '\x7d')

namespace Draft

/-- Adds lines one after the other: the inputs that are handed out, and the draft that is left. -/
def addAll (d : Draft) : List Text → List Text × Draft
  | [] => ([], d)
  | line :: lines =>
    let (source, d) := d.add line
    let (sources, last) := d.addAll lines
    (source.toList ++ sources, last)

theorem balance_eq (source : Text) : balance source = (source.opened : Int) - source.closed := by
  have hopened : source.count (Text.byte '\x7b') = source.opened :=
    Text.count_brace (k := .leftBrace) rfl source
  have hclosed : source.count (Text.byte '\x7d') = source.closed :=
    Text.count_brace (k := .rightBrace) rfl source
  rw [balance, hopened, hclosed]

theorem balance_append (s t : Text) : balance (s ++ t) = balance s + balance t := by
  simp only [balance, List.count_append]
  omega

theorem balance_line (line : Text) : balance line.line = balance line := by
  rw [Text.line, balance_append]
  have hend : balance [Text.byte '\n'] = 0 := by decide
  omega

/-- A draft that counts the braces of its own text. -/
def Counts (d : Draft) : Prop := d.depth = balance d.text

theorem counts_empty : Counts {} := rfl

variable {d : Draft}

/-- A line completes a draft exactly if it closes at least as many braces as are open. -/
theorem Counts.add_eq (hd : d.Counts) (line : Text) :
    d.add line = if (d.text ++ line.line).opened ≤ (d.text ++ line.line).closed
      then (some (d.text ++ line.line), {})
      else (none, ⟨d.text ++ line.line, balance (d.text ++ line.line)⟩) := by
  have hdepth : d.depth + balance line = balance (d.text ++ line.line) := by
    rw [balance_append, balance_line, hd]
  unfold add
  rw [hdepth]
  dsimp only
  have hbalance := balance_eq (d.text ++ line.line)
  by_cases hle : (d.text ++ line.line).opened ≤ (d.text ++ line.line).closed
  · rw [if_neg (by omega), if_pos hle]
  · rw [if_pos (by omega), if_neg hle]

theorem Counts.add (hd : d.Counts) (line : Text) : (d.add line).2.Counts := by
  rw [hd.add_eq]
  split
  · exact counts_empty
  · rfl

theorem Counts.addAll (hd : d.Counts) (lines : List Text) : (d.addAll lines).2.Counts := by
  induction lines generalizing d with
  | nil => exact hd
  | cons line lines ih => exact ih (hd.add line)

/-- What a line adds is handed out or kept. -/
theorem add_text (d : Draft) (line : Text) :
    (d.add line).1.toList.flatten ++ (d.add line).2.text = d.text ++ line.line := by
  unfold add
  dsimp only
  split
  · simp
  · simp

theorem addAll_text (d : Draft) (lines : List Text) :
    (d.addAll lines).1.flatten ++ (d.addAll lines).2.text = d.text ++ lines.flatMap Text.line := by
  induction lines generalizing d with
  | nil => simp [addAll]
  | cons line lines ih =>
    have hstep := add_text d line
    simp only [addAll, List.flatten_append, List.append_assoc, ih, List.flatMap_cons]
    rw [← List.append_assoc, hstep, List.append_assoc]

/-- The inputs that were handed out and the draft that is left are the lines that were added, each
with its end. A further line completes the draft exactly if the text so far opens at most as many
braces as it closes, where those in strings and comments count like those of the program; where
strings and comments open as many as they close, the tokens alone decide. -/
theorem lines_joined_by_braces (lines : List Text) :
    (addAll {} lines).1.flatten ++ (addAll {} lines).2.text = lines.flatMap Text.line ∧
      ∀ line source, source = (addAll {} lines).2.text ++ line.line →
        ((addAll {} lines).2.add line).1 =
            (if source.opened ≤ source.closed then some source else none) ∧
          (source.inert.count (Text.byte '\x7b') = source.inert.count (Text.byte '\x7d') →
            (((addAll {} lines).2.add line).1 = some source ↔
              source.tokensOf .leftBrace ≤ source.tokensOf .rightBrace)) := by
  refine ⟨addAll_text {} lines, ?_⟩
  rintro line source rfl
  have hadd := (counts_empty.addAll lines).add_eq line
  generalize (addAll {} lines).2 = d at hadd
  rw [hadd]
  constructor
  · split
    · rfl
    · rfl
  · intro hinert
    have hiff : (d.text ++ line.line).opened ≤ (d.text ++ line.line).closed ↔
        (d.text ++ line.line).tokensOf .leftBrace ≤ (d.text ++ line.line).tokensOf .rightBrace := by
      unfold Text.opened Text.closed
      omega
    rw [← hiff]
    split
    · next hle => simp [hle]
    · next hle => simp [hle]

/-- A line with a brace in a comment. -/
def commentLine : Text := "class A \x7b // \x7b"

/-- A line with a brace in a string, which makes up for that in the comment. -/
def stringLine : Text := "m() \x7b print \"\x7d\"; \x7d \x7d"

theorem lines_joined_by_braces_comment_string :
    (commentLine.line ++ stringLine.line = (addAll {} [commentLine]).2.text ++ stringLine.line) ∧
      (commentLine.line ++ stringLine.line).inert.count (Text.byte '\x7b') =
        (commentLine.line ++ stringLine.line).inert.count (Text.byte '\x7d') ∧
      ((addAll {} [commentLine]).2.add stringLine).1 =
        some (commentLine.line ++ stringLine.line) := by
  have hsource : commentLine.line ++ stringLine.line =
      (addAll {} [commentLine]).2.text ++ stringLine.line := by
    decide +kernel
  have hinert : (commentLine.line ++ stringLine.line).inert.count (Text.byte '\x7b') =
      (commentLine.line ++ stringLine.line).inert.count (Text.byte '\x7d') := by
    decide +kernel
  obtain ⟨-, hline⟩ := lines_joined_by_braces [commentLine]
  obtain ⟨-, hcomplete⟩ := hline stringLine _ hsource
  exact ⟨hsource, hinert, (hcomplete hinert).mpr (by decide +kernel)⟩

/-- Tokens alone do not tell when a draft is complete: a brace in a string keeps the console
waiting, though nothing is wrong with the tokens and none of them is a brace. -/
theorem tokens_do_not_complete_draft :
    ¬ ∀ (lines : List Text) (line source : Text), source = (addAll {} lines).2.text ++ line.line →
      (tokenize source).report = [] →
      (((addAll {} lines).2.add line).1 = some source ↔
        source.tokensOf .leftBrace ≤ source.tokensOf .rightBrace) := by
  intro h
  have hreport : (tokenize (Text.line "print \"\x7b\";")).report.isEmpty = true := by decide +kernel
  have htokens : (Text.line "print \"\x7b\";").tokensOf .leftBrace ≤
      (Text.line "print \"\x7b\";").tokensOf .rightBrace := by decide +kernel
  have hwaits : (add {} "print \"\x7b\";").1 = none := by decide +kernel
  have hcomplete := (h [] "print \"\x7b\";" _ rfl (List.isEmpty_iff.mp hreport)).mpr htokens
  exact absurd (hwaits.symm.trans hcomplete) nofun

end Draft

end Scriptlet

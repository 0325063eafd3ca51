import Scriptlet.Proofs.Tree.Completeness

/-!
# Reading stays inside its list of tokens

A reader stands before some token of its list (`Cursor.Stands`). Whatever it does, with faults or
without, it ends, and then stands before a token of the same list that is not further back; to read
a declaration, it leaves a token behind. So there always is a token to look at, and also one to look
back at where that is done after a fault (`Cursor.synchronize_eq`). All of this holds of any tokens
in any order (`reading_ends`).
-/

namespace Scriptlet

namespace Cursor

variable {c c' : Cursor} {ts us : List Token} {fs : List Diagnostic} {i : Nat}

/-- A place before the token with an index in a list of tokens. -/
structure Stands (ts : List Token) (i : Nat) (c : Cursor) : Prop where
  inside : i < ts.length
  tokens : c.tokens = ts.drop i
  previous : c.previous = (ts.take i).getLast?

theorem Stands.length (h : c.Stands ts i) : c.tokens.length = ts.length - i := by
  rw [h.tokens, List.length_drop]

theorem Stands.ended (h : c.Stands ts i) (hts : ∃ us t, ts = us ++ [t] ∧ t.kind = .endOfInput) :
    c.Ended := by
  obtain ⟨us, t, rfl, ht⟩ := hts
  have hi : i ≤ us.length := by
    have := h.inside
    rw [List.length_append, List.length_singleton] at this
    omega
  exact ⟨us.drop i, t, by rw [h.tokens, List.drop_append_of_le_length hi], ht⟩

/-- What lies between two places of a list is what their indices say. -/
theorem Stands.reach (h : c.Stands ts i) (hreach : c.Reach c' us fs) :
    c'.Stands ts (i + us.length) := by
  have hrest : ts.drop i = us ++ c'.tokens := by rw [← h.tokens, hreach.tokens]
  have htokens : c'.tokens = ts.drop (i + us.length) := by
    rw [← List.drop_drop, hrest, List.drop_left]
  refine ⟨?_, htokens, ?_⟩
  · have hpos : 0 < c'.tokens.length := Nat.zero_lt_succ _
    rw [htokens, List.length_drop] at hpos
    omega
  · rw [hreach.previous, h.previous, List.take_add, List.getLast?_append, hrest, List.take_left]

theorem stands_ofTokens (tokens : List Token) :
    (ofTokens tokens).Stands (ofTokens tokens).tokens 0 := by
  obtain ⟨t, rest, -, heq⟩ := ofTokens_place tokens
  refine ⟨Nat.zero_lt_succ _, rfl, ?_⟩
  rw [heq, List.take_zero]
  cases beforeEnd tokens <;> rfl

/-! ## Looking back -/

/-- Skips on like `Cursor.skip` where there is a token before the place, so that there is always one
to look back at. -/
def skipAfter (faults : List Diagnostic) (previous current : Token) : List Token → Cursor
  | [] => ⟨some previous, current, [], faults⟩
  | next :: rest =>
    if current.kind = .endOfInput ∨ previous.kind = .semicolon ∨ beginsStatement current.kind then
      ⟨some previous, current, next :: rest, faults⟩
    else skipAfter faults current next rest

theorem skip_some (faults : List Diagnostic) (previous current : Token) (following : List Token) :
    skip faults (some previous) current following = skipAfter faults previous current following := by
  induction following generalizing previous current with
  | nil => rfl
  | cons next rest ih =>
    rw [skip, skipAfter, ih]
    simp only [Option.any_some, decide_eq_true_eq]

/-- Nothing is skipped, and no token is looked back at, at the end of the input. -/
theorem skip_atEnd (faults : List Diagnostic) (previous : Option Token) {current : Token}
    (h : current.kind = .endOfInput) (following : List Token) :
    skip faults previous current following = ⟨previous, current, following, faults⟩ := by
  cases following with
  | nil => rfl
  | cons next rest => rw [skip, if_pos (.inl h)]

/-- Where tokens are skipped after a fault, there is always a token to look back at. -/
theorem synchronize_eq (hc : c.Ended) : c.synchronize =
    if c.advance.atEnd then c.advance
    else skipAfter c.faults c.current c.advance.current c.advance.following := by
  unfold synchronize
  dsimp only
  by_cases hend : c.advance.atEnd
  · rw [if_pos hend, skip_atEnd _ _ (of_decide_eq_true hend)]
  · have hmore : c.current.kind ≠ .endOfInput := by
      intro h
      have hstay : c.advance = c := if_pos (decide_eq_true h)
      rw [hstay] at hend
      exact hend (decide_eq_true h)
    have hreach := Reach.advance hc hmore
    have hprevious : c.advance.previous = some c.current := hreach.previous
    have hfaults : c.advance.faults = c.faults := hreach.faults
    rw [if_neg hend, hprevious, hfaults, skip_some]

end Cursor

/-! ## Calls -/

/-- An attempt to read that ends, at a place of the list at least `d` tokens further on; if it gave
up, it recorded a fault. -/
theorem Parsed.Sound.stands {α : Type} {r : Parsed α} {c : Cursor} {ts : List Token} {d i : Nat}
    {P : α → List Token → Prop} (h : r.Sound c d P) (hc : c.Stands ts i) :
    (∃ a c' j, r = .ok a c' ∧ i + d ≤ j ∧ c'.Stands ts j) ∨
      ∃ c' j, r = .failed c' ∧ i ≤ j ∧ c'.Stands ts j ∧ c'.faults ≠ [] := by
  cases r with
  | ok a c' =>
    obtain ⟨us, fs, hreach, hd, -⟩ := h
    exact .inl ⟨a, c', i + us.length, rfl, Nat.add_le_add_left hd i, hc.reach hreach⟩
  | failed c' =>
    obtain ⟨us, fs, hreach, hfs⟩ := h
    refine .inr ⟨c', i + us.length, rfl, Nat.le_add_right .., hc.reach hreach, fun hnone => ?_⟩
    rw [hreach.faults] at hnone
    exact hfs (List.append_eq_nil_iff.mp hnone).1
  | starved => exact h.elim

namespace Parser

theorem recovering_ne_failed {α : Type} (p : Parser (List α)) (c c' : Cursor) :
    recovering p c ≠ .failed c' := by
  intro hfailed
  unfold recovering at hfailed
  cases hread : p c with
  | _ => simp [hread] at hfailed

theorem declaration_ne_failed (fuel : Nat) (c c' : Cursor) : declaration fuel c ≠ .failed c' := by
  intro hfailed
  cases fuel with
  | zero => cases hfailed
  | succ fuel =>
    rw [declaration] at hfailed
    exact recovering_ne_failed _ c c' hfailed

theorem declarations_ne_failed (fuel : Nat) (c c' : Cursor) :
    declarations fuel c ≠ .failed c' := by
  intro hfailed
  induction fuel generalizing c with
  | zero => cases hfailed
  | succ fuel ih =>
    rw [declarations, atEnd_bind] at hfailed
    split at hfailed
    · cases hfailed
    · change Parser.bind (declaration fuel) _ c = _ at hfailed
      unfold Parser.bind at hfailed
      cases hone : declaration fuel c with
      | starved => simp [hone] at hfailed
      | failed c₁ => exact absurd hone (declaration_ne_failed fuel c c₁)
      | ok stmts c₁ =>
        rw [hone] at hfailed
        dsimp only at hfailed
        rw [bind_pure] at hfailed
        cases hmore : declarations fuel c₁ with
        | ok | starved => simp [hmore, Parsed.map] at hfailed
        | failed c₂ =>
          rw [hmore] at hfailed
          cases hfailed
          exact ih c₁ hmore

end Parser

/-- For every list of tokens, whatever it holds, the reading of a program and of an expression ends
before a token of the list, that of a program at an end of input; an expression is given up only
with a fault. From every place in the list the next one is in the list too if there is more to read;
after a fault only tokens that were read are looked back at, and reading goes on inside the list; and
to read a declaration, with a fault or without, takes a token. Every call on the way ends, at a place
that is not further back (`Parser.ReadsPhrases`). -/
theorem reading_ends (tokens : List Token) :
    let start := Cursor.ofTokens tokens
    let ts := start.tokens
    let fuel := Parser.fuelFor tokens
    (∃ stmts c i, Parser.declarations fuel start = .ok stmts c ∧ c.Stands ts i ∧ c.atEnd) ∧
    ((∃ expr c i, Parser.expression fuel start = .ok expr c ∧ c.Stands ts i) ∨
      ∃ c i, Parser.expression fuel start = .failed c ∧ c.Stands ts i ∧ c.faults ≠ []) ∧
    (∀ (c : Cursor) (i : Nat), c.Stands ts i →
      c.advance.Stands ts (if c.atEnd then i else i + 1) ∧
      (c.synchronize = if c.advance.atEnd then c.advance
        else .skipAfter c.faults c.current c.advance.current c.advance.following) ∧
      (∃ j, i ≤ j ∧ c.synchronize.Stands ts j) ∧
      ∀ fuel, 16 * (ts.length - i) + 11 ≤ fuel → ¬ c.atEnd →
        ∃ stmts c' j, Parser.declaration fuel c = .ok stmts c' ∧ i < j ∧ c'.Stands ts j) ∧
    ∀ fuel, Parser.ReadsPhrases fuel := by
  intro start ts fuel
  have hstart : start.Stands ts 0 := Cursor.stands_ofTokens tokens
  have hended : start.Ended := (Cursor.ofTokens_ended tokens).1
  refine ⟨?_, ?_, fun c i hc => ?_, Parser.readsPhrases⟩
  · rcases (Parser.sound_declarations tokens).stands hstart with
      ⟨stmts, c, i, hread, -, hc⟩ | ⟨c, -, hread, -⟩
    · exact ⟨stmts, c, i, hread, hc, Parser.declarations_atEnd hread⟩
    · exact absurd hread (Parser.declarations_ne_failed _ _ c)
  · rcases (Parser.sound_expression tokens).stands hstart with
      ⟨expr, c, i, hread, -, hc⟩ | ⟨c, i, hread, -, hc, hfaults⟩
    · exact .inl ⟨expr, c, i, hread, hc⟩
    · exact .inr ⟨c, i, hread, hc, hfaults⟩
  · have hc' : c.Ended := hc.ended hended
    refine ⟨?_, Cursor.synchronize_eq hc', ?_, fun fuel hfuel hmore => ?_⟩
    · by_cases hend : c.atEnd
      · have hstay : c.advance = c := if_pos hend
        rw [if_pos hend, hstay]
        exact hc
      · rw [if_neg hend]
        exact hc.reach (Cursor.Reach.advance hc' fun h => hend (decide_eq_true h))
    · obtain ⟨us, hreach, -⟩ := Cursor.Reach.synchronize hc'
      exact ⟨i + us.length, Nat.le_add_right .., hc.reach hreach⟩
    · have hsound := (Parser.readsPhrases fuel).declaration (ts.length - i) hfuel c hc'
        (Nat.le_of_eq hc.length) fun h => hmore (decide_eq_true h)
      rcases hsound.stands hc with ⟨stmts, c', j, hread, hj, hc'⟩ | ⟨c', -, hread, -⟩
      · exact ⟨stmts, c', j, hread, hj, hc'⟩
      · exact absurd hread (Parser.declaration_ne_failed fuel c c')

/-- A stray byte before an end of input that is not the last token. -/
theorem reading_ends_strayByte :
    let tokens : List Token := [.synthetic .illegal "#" .nowhere, .missingEnd,
      .synthetic .rightBrace "\x7d" .nowhere]
    let start := Cursor.ofTokens tokens
    start.Stands start.tokens 0 ∧ 16 * (start.tokens.length - 0) + 11 ≤ 75 ∧ ¬ start.atEnd ∧
      ∃ stmts c j, Parser.declaration 75 start = .ok stmts c ∧ 0 < j ∧ c.Stands start.tokens j := by
  intro tokens start
  have hstart : start.Stands start.tokens 0 := Cursor.stands_ofTokens tokens
  have hmore : ¬ start.atEnd := by decide +kernel
  have hfuel : 16 * (start.tokens.length - 0) + 11 ≤ 75 := by decide +kernel
  exact ⟨hstart, hfuel, hmore, ((reading_ends tokens).2.2.1 start 0 hstart).2.2.2 75 hfuel hmore⟩

end Scriptlet

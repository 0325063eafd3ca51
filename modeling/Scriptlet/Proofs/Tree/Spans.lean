import Scriptlet.Proofs.Token.Partition
import Scriptlet.Proofs.Tree.Completeness

/-!
# Trees between places of a source

A program, its statements and its expressions are trees (`Tree`), each with the trees right below it
(`Tree.children`). A tree is nested if no span in it ends before it begins and every child lies
inside its parent (`Tree.Nested`).

The tokens of a source lie one after the other (`Covers.laid`), and so a reader, which only goes
forward, never stands before a token that begins before the last one ended (`Cursor.InLine`).
`Parser.Spans` says what a reader does at such a place: where it ends, also if it gives up, and what
is known of what it read. What is read between two places lies between the token at the first and
the token before the second (`Tree.Lies`); a node that is made of parts lies there if its span
holds the parts together (`Tree.Lies.node`).
-/

namespace Scriptlet

/-- A span that does not end before it begins. -/
def Span.Proper (s : Span) : Prop := s.start.offset ≤ s.stop.offset

/-- A span that lies inside another one. -/
def Span.Inside (s around : Span) : Prop :=
  around.start.offset ≤ s.start.offset ∧ s.stop.offset ≤ around.stop.offset

/-- A program, a statement or an expression. -/
inductive Tree (β : Type) where
  | program (program : Program β)
  | stmt (stmt : Stmt β)
  | expr (expr : Expr β)

section

variable {β : Type}

/-- The trees right below an expression. -/
def Expr.children : Expr β → List (Tree β)
  | .literal .. | .name .. | .receiver .. | .inherited .. => []
  | .assign _ _ _ value _ => [.expr value]
  | .binary _ left _ right | .logical _ left _ right => [.expr left, .expr right]
  | .unary _ _ operand _ => [.expr operand]
  | .ternary _ condition onTrue onFalse => [.expr condition, .expr onTrue, .expr onFalse]
  | .group _ inner => [.expr inner]
  | .call _ callee _ args => .expr callee :: args.map .expr
  | .lambda function => function.body.map .stmt
  | .get _ object _ => [.expr object]
  | .set _ object _ value => [.expr object, .expr value]

/-- The trees right below a statement. Below the declaration of a function is the function; below
that of a class are the name of the superclass, which is read like a variable, and the declarations
of the methods. -/
def Stmt.children : Stmt β → List (Tree β)
  | .evaluate _ expr => [.expr expr]
  | .print _ _ value => [.expr value]
  | .declareVar _ _ init => init.toList.map .expr
  | .block _ stmts => stmts.map .stmt
  | .branch _ condition onTrue onFalse =>
    .expr condition :: .stmt onTrue :: onFalse.toList.map .stmt
  | .loop _ condition body update _ => .expr condition :: .stmt body :: update.toList.map .expr
  | .leave _ _ value => value.toList.map .expr
  | .breakLoop .. | .continueLoop .. => []
  | .declareFunction declaration => [.expr (.lambda declaration.function)]
  | .declareClass _ _ superclass methods classMethods =>
    (superclass.toList.map fun (token, link) => .expr (.name token.span token link)) ++
      (methods ++ classMethods).map fun d => .stmt (.declareFunction d)

namespace Tree

def span : Tree β → Span
  | .program p => p.span
  | .stmt s => s.span
  | .expr e => e.span

/-- The trees right below a tree. -/
def children : Tree β → List (Tree β)
  | .program p => p.stmts.map .stmt
  | .stmt s => s.children
  | .expr e => e.children

/-- A tree in which all spans are proper and all children lie inside their parents. -/
inductive Nested : Tree β → Prop where
  | node {t : Tree β} : t.span.Proper → (∀ u ∈ t.children, u.span.Inside t.span) →
    (∀ u ∈ t.children, Nested u) → Nested t

/-- A nested tree between two offsets of the source. -/
structure Lies (first last : Int) (t : Tree β) : Prop where
  nested : t.Nested
  starts : first ≤ t.span.start.offset
  stops : t.span.stop.offset ≤ last

namespace Lies

variable {first last first' last' : Int} {t u : Tree β} {ts us : List (Tree β)}

theorem proper (h : t.Lies first last) : t.span.start.offset ≤ t.span.stop.offset := by
  obtain ⟨hproper, -, -⟩ := h.nested
  exact hproper

theorem mono (h : t.Lies first last) (hfirst : first' ≤ first) (hlast : last ≤ last') :
    t.Lies first' last' :=
  ⟨h.nested, Int.le_trans hfirst h.starts, Int.le_trans h.stops hlast⟩

end Lies

/-- Nested trees between two offsets. -/
def LieAll (first last : Int) : List (Tree β) → Prop
  | [] => True
  | t :: ts => t.Lies first last ∧ LieAll first last ts

namespace LieAll

variable {first last first' last' : Int} {t : Tree β} {ts us : List (Tree β)}

theorem mem (h : LieAll first last ts) (ht : t ∈ ts) : t.Lies first last := by
  induction ts with
  | nil => cases ht
  | cons u us ih =>
    rcases List.mem_cons.mp ht with rfl | hmem
    · exact h.1
    · exact ih h.2 hmem

theorem of_mem (h : ∀ t ∈ ts, t.Lies first last) : LieAll first last ts := by
  induction ts with
  | nil => trivial
  | cons u us ih =>
    obtain ⟨hu, hus⟩ := List.forall_mem_cons.mp h
    exact ⟨hu, ih hus⟩

theorem mono (h : LieAll first last ts) (hfirst : first' ≤ first) (hlast : last ≤ last') :
    LieAll first' last' ts :=
  of_mem fun _ ht => (h.mem ht).mono hfirst hlast

theorem append (h : LieAll first last ts) (h' : LieAll first last us) :
    LieAll first last (ts ++ us) := by
  apply of_mem
  intro t ht
  rcases List.mem_append.mp ht with ht | ht
  · exact h.mem ht
  · exact h'.mem ht

theorem of_sublist (h : LieAll first last us) (hsub : ts.Sublist us) : LieAll first last ts :=
  of_mem fun _ ht => h.mem (hsub.subset ht)

end LieAll

/-- The children of a nested tree lie inside its span. -/
theorem Lies.children {first last : Int} {t : Tree β} (h : t.Lies first last) :
    LieAll t.span.start.offset t.span.stop.offset t.children := by
  obtain ⟨-, hinside, hnested⟩ := h.nested
  exact .of_mem fun u hu => ⟨hnested u hu, (hinside u hu).1, (hinside u hu).2⟩

/-- A node whose span holds its children together. -/
theorem Lies.node {first last : Int} {t : Tree β} {start stop : Position}
    (hspan : t.span = ⟨start, stop⟩) (h : LieAll start.offset stop.offset t.children)
    (hproper : start.offset ≤ stop.offset) (hfirst : first ≤ start.offset)
    (hlast : stop.offset ≤ last) : t.Lies first last := by
  refine ⟨.node ?_ ?_ ?_, ?_, ?_⟩
  · rw [hspan]
    exact hproper
  · intro u hu
    rw [hspan]
    exact ⟨(h.mem hu).starts, (h.mem hu).stops⟩
  · intro u hu
    exact (h.mem hu).nested
  · rw [hspan]
    exact hfirst
  · rw [hspan]
    exact hlast

section

variable {first mid mid' last : Int} {e left right : Expr β}

theorem Lies.expr (h : (Tree.expr e).Lies first last) :
    first ≤ e.span.start.offset ∧ e.span.start.offset ≤ e.span.stop.offset ∧
      e.span.stop.offset ≤ last :=
  ⟨h.starts, h.proper, h.stops⟩

/-- An expression lies in any stretch that its own span lies in. -/
theorem Lies.within (h : (Tree.expr e).Lies first last) (hfirst : mid ≤ e.span.start.offset)
    (hlast : e.span.stop.offset ≤ mid') : (Tree.expr e).Lies mid mid' :=
  ⟨h.nested, hfirst, hlast⟩

/-- A node from the beginning of one expression to the end of a later one. -/
theorem Lies.join (hleft : (Tree.expr left).Lies first mid)
    (hright : (Tree.expr right).Lies mid' last) (hmid : mid ≤ mid') {t : Tree β}
    (hspan : t.span = ⟨left.span.start, right.span.stop⟩)
    (h : LieAll left.span.start.offset right.span.stop.offset t.children) :
    t.Lies first last := by
  obtain ⟨hl₁, hl₂, hl₃⟩ := hleft.expr
  obtain ⟨hr₁, hr₂, hr₃⟩ := hright.expr
  exact .node hspan h (by omega) (by omega) (by omega)

/-- A node whose children are two expressions, one after the other. -/
theorem Lies.pair (hleft : (Tree.expr left).Lies first mid)
    (hright : (Tree.expr right).Lies mid' last) (hmid : mid ≤ mid') {t : Tree β}
    (hspan : t.span = ⟨left.span.start, right.span.stop⟩)
    (hchildren : t.children = [.expr left, .expr right]) : t.Lies first last := by
  obtain ⟨hl₁, hl₂, hl₃⟩ := hleft.expr
  obtain ⟨hr₁, hr₂, hr₃⟩ := hright.expr
  refine hleft.join hright hmid hspan ?_
  rw [hchildren]
  refine ⟨hleft.within ?_ ?_, hright.within ?_ ?_, trivial⟩
  all_goals omega

end

end Tree

end

/-! ## Places -/

/-- Tokens that lie one after the other. -/
def Laid (ts : List Token) : Prop :=
  (∀ t ∈ ts, t.span.Proper) ∧ ts.Pairwise fun t u => t.span.stop.offset ≤ u.span.start.offset

theorem Laid.of_sublist {ts us : List Token} (h : Laid us) (hsub : ts.Sublist us) : Laid ts :=
  ⟨fun t ht => h.1 t (hsub.subset ht), h.2.sublist hsub⟩

/-- Tokens that lie on a source lie one after the other. -/
theorem Covers.laid {source : Text} {unclosed : Prop} {i : Nat} {ts : List Token}
    (h : Covers source unclosed i ts) (hi : i ≤ source.length) :
    Laid ts ∧ ∀ t ∈ ts, (i : Int) ≤ t.span.start.offset := by
  induction ts generalizing i with
  | nil => exact h.elim
  | cons t ts ih =>
    cases ts with
    | nil =>
      obtain ⟨-, -, hspan, -⟩ := h
      have hstart : t.span.start.offset = source.length := congrArg (·.start.offset) hspan
      have hstop : t.span.stop.offset = source.length := congrArg (·.stop.offset) hspan
      refine ⟨⟨?_, List.pairwise_singleton ..⟩, ?_⟩
      · intro u hu
        obtain rfl := List.mem_singleton.mp hu
        exact Int.le_of_eq (hstart.trans hstop.symm)
      · intro u hu
        obtain rfl := List.mem_singleton.mp hu
        omega
    | cons u ts =>
      obtain ⟨-, j, k, hij, hjk, hk, hspan, -, -, hrest⟩ := h
      have hstart : t.span.start.offset = j := congrArg (·.start.offset) hspan
      have hstop : t.span.stop.offset = k := congrArg (·.stop.offset) hspan
      obtain ⟨⟨hproper, horder⟩, hafter⟩ := ih hrest hk
      refine ⟨⟨List.forall_mem_cons.mpr ⟨?_, hproper⟩, List.pairwise_cons.mpr ⟨?_, horder⟩⟩, ?_⟩
      · unfold Span.Proper
        omega
      · intro v hv
        rw [hstop]
        exact hafter v hv
      · refine List.forall_mem_cons.mpr ⟨by omega, fun v hv => ?_⟩
        have := hafter v hv
        omega

namespace Cursor

variable {c c' c'' : Cursor} {ts us : List Token} {fs : List Diagnostic}

/-- The tokens from the one before a place on. -/
def around (c : Cursor) : List Token := c.previous.toList ++ c.tokens

/-- A place between tokens that lie one after the other, of which the last is the end of input. -/
structure InLine (c : Cursor) : Prop where
  ended : c.Ended
  laid : Laid c.around

/-- Where the current token begins. -/
def ahead (c : Cursor) : Int := c.current.span.start.offset

/-- Where the token before this place ends. -/
def behind (c : Cursor) : Int := c.lastStop.offset

theorem InLine.proper (h : c.InLine) : c.ahead ≤ c.current.span.stop.offset :=
  h.laid.1 _ (List.mem_append_right _ List.mem_cons_self)

theorem InLine.behind_le (h : c.InLine) : c.behind ≤ c.ahead := by
  have horder := h.laid.2
  unfold around at horder
  unfold behind lastStop
  cases hprevious : c.previous with
  | none => exact Int.le_refl _
  | some t =>
    rw [hprevious] at horder
    exact List.rel_of_pairwise_cons horder List.mem_cons_self

theorem InLine.ahead_le {t : Token} (h : c.InLine) (ht : t ∈ c.tokens) :
    c.ahead ≤ t.span.start.offset := by
  have hproper := h.proper
  obtain ⟨-, horder⟩ := h.laid.of_sublist (List.sublist_append_right ..)
  rcases List.mem_cons.mp ht with rfl | hlater
  · exact Int.le_refl _
  · have := List.rel_of_pairwise_cons horder hlater
    omega

/-- A place that is not before another one. -/
structure Later (c c' : Cursor) : Prop where
  inLine : c'.InLine
  behind : c.behind ≤ c'.behind
  ahead : c.ahead ≤ c'.ahead
  order : c'.behind ≤ c'.ahead

theorem Later.refl (h : c.InLine) : c.Later c :=
  ⟨h, Int.le_refl _, Int.le_refl _, h.behind_le⟩

theorem Later.trans (h : c.Later c') (h' : c'.Later c'') : c.Later c'' :=
  ⟨h'.inLine, Int.le_trans h.behind h'.behind, Int.le_trans h.ahead h'.ahead, h'.order⟩

/-- After some tokens were taken, the last of them is the one before the place. -/
theorem Reach.around (h : c.Reach c' ts fs) : c'.around.Sublist c.around := by
  unfold Cursor.around
  rw [h.previous, h.tokens]
  cases hlast : ts.getLast? with
  | none =>
    rw [List.getLast?_eq_none_iff.mp hlast]
    exact List.Sublist.refl _
  | some t =>
    refine List.Sublist.trans ?_ (List.sublist_append_right ..)
    refine List.Sublist.append (List.singleton_sublist.mpr ?_) (List.Sublist.refl _)
    exact List.mem_of_getLast? hlast

theorem Reach.later (h : c.Reach c' ts fs) (hc : c.InLine) : c.Later c' := by
  have hline : c'.InLine := ⟨h.ended hc.ended, hc.laid.of_sublist h.around⟩
  cases hlast : ts.getLast? with
  | none =>
    obtain rfl := List.getLast?_eq_none_iff.mp hlast
    have htokens : c.tokens = c'.tokens := h.tokens
    have hcurrent : c'.current = c.current := (List.cons.inj htokens).1.symm
    have hprevious : c'.previous = c.previous := h.previous
    have hstop : c'.lastStop = c.lastStop := by unfold lastStop; rw [hprevious, hcurrent]
    refine ⟨hline, Int.le_of_eq ?_, Int.le_of_eq ?_, hline.behind_le⟩
    · exact congrArg Position.offset hstop.symm
    · exact congrArg (·.span.start.offset) hcurrent.symm
  | some t =>
    -- the token before the second place is one of those from the first place on
    have hmem : t ∈ c.tokens := by
      rw [h.tokens]
      exact List.mem_append_left _ (List.mem_of_getLast? hlast)
    have hprevious : c'.previous = some t := by rw [h.previous, hlast, Option.some_or]
    have hstop : c'.behind = t.span.stop.offset := by unfold behind lastStop; rw [hprevious]
    have hstart := hc.ahead_le hmem
    have hproper : t.span.Proper := hc.laid.1 t (List.mem_append_right _ hmem)
    unfold Span.Proper at hproper
    have hbehind := hc.behind_le
    have hbehind' := hline.behind_le
    exact ⟨hline, by omega, by omega, hbehind'⟩

theorem InLine.record (h : c.InLine) (fault : SyntaxFault) (token : Token) :
    c.Later (c.record fault token) :=
  (Reach.record c fault token).later h

theorem InLine.synchronize (h : c.InLine) : c.Later c.synchronize := by
  obtain ⟨ts, hreach, -⟩ := Reach.synchronize h.ended
  exact hreach.later h

/-- The token that was taken is the one before the next place. -/
theorem InLine.advance (h : c.InLine) (hmore : c.current.kind ≠ .endOfInput) :
    c.Later c.advance ∧ c.advance.behind = c.current.span.stop.offset := by
  have hreach := Reach.advance h.ended hmore
  refine ⟨hreach.later h, ?_⟩
  have hprevious : c.advance.previous = some c.current := hreach.previous
  unfold behind lastStop
  rw [hprevious]

end Cursor

namespace Parser

/-! ## Triples -/

variable {α β : Type} {c : Cursor} {p : Parser α} {f : α → Parser β}
  {P : α → Cursor → Prop} {Q : β → Cursor → Prop}

/-- What a reader does at a place: it goes on to a place that is not before it, whether it reads
something or gives up, and `P` holds of what it reads and of where it ends. -/
def Spans (c : Cursor) (p : Parser α) (P : α → Cursor → Prop) : Prop :=
  match p c with
  | .ok a c' => c.Later c' ∧ P a c'
  | .failed c' => c.Later c'
  | .starved => True

theorem Spans.bind (hp : Spans c p P)
    (hf : ∀ a c', c.Later c' → P a c' → Spans c' (f a) Q) : Spans c (p >>= f) Q := by
  change Spans c (Parser.bind p f) Q
  unfold Spans Parser.bind at *
  cases hpc : p c with
  | starved => trivial
  | failed c' =>
    rw [hpc] at hp
    exact hp
  | ok a c' =>
    rw [hpc] at hp
    obtain ⟨hlater, hpost⟩ := hp
    have hnext := hf a c' hlater hpost
    dsimp only
    cases hfa : f a c' with
    | starved => trivial
    | failed c'' =>
      rw [hfa] at hnext
      exact hlater.trans hnext
    | ok b c'' =>
      rw [hfa] at hnext
      exact ⟨hlater.trans hnext.1, hnext.2⟩

/-- The rule for readers in a row, with what is known of the place between them said one by one. -/
theorem Spans.seq (hp : Spans c p P)
    (hf : ∀ a c', c'.InLine → c.behind ≤ c'.behind → c.ahead ≤ c'.ahead → c'.behind ≤ c'.ahead →
      P a c' → Spans c' (f a) Q) : Spans c (p >>= f) Q :=
  hp.bind fun a c' h ha => hf a c' h.inLine h.behind h.ahead h.order ha

theorem spans_pure (hc : c.InLine) {a : α} (h : P a c) : Spans c (pure a) P := ⟨.refl hc, h⟩

theorem spans_starve : Spans c (starve : Parser α) P := trivial

theorem spans_fail (hc : c.InLine) (fault : SyntaxFault) (token : Token) :
    Spans c (fail fault token : Parser α) P :=
  hc.record fault token

theorem spans_record (hc : c.InLine) (fault : SyntaxFault) (token : Token) :
    Spans c (record fault token) fun _ _ => True :=
  ⟨hc.record fault token, trivial⟩

/-- A token that was taken between two places. -/
structure Taken (c : Cursor) (t : Token) (c' : Cursor) : Prop where
  starts : t.span.start.offset = c.ahead
  stops : t.span.stop.offset = c'.behind
  proper : c.ahead ≤ c'.behind

theorem taken_current (hc : c.InLine) (hmore : c.current.kind ≠ .endOfInput) :
    Taken c c.current c.advance := by
  have hstop := (hc.advance hmore).2
  exact ⟨rfl, hstop.symm, by rw [hstop]; exact hc.proper⟩

/-- To take a token that is not the end of input. -/
theorem spans_advance (hc : c.InLine) (hmore : c.current.kind ≠ .endOfInput) :
    Spans c advance fun _ c' => Taken c c.current c' :=
  ⟨(hc.advance hmore).1, taken_current hc hmore⟩

/-- To take the current token, which stays where it is if it is the end of input. -/
theorem spans_keyword (hc : c.InLine) :
    Spans c advance fun t _ => t.span.start.offset = c.ahead := by
  refine ⟨?_, rfl⟩
  by_cases hend : c.atEnd
  · have hstay : c.advance = c := if_pos hend
    rw [hstay]
    exact .refl hc
  · exact (hc.advance fun h => hend (decide_eq_true h)).1

theorem spans_expect (hc : c.InLine) (kind : Kind) (what : Expected)
    (hkind : kind ≠ .endOfInput) : Spans c (expect kind what) (Taken c) := by
  unfold Spans expect
  by_cases hsees : c.sees kind
  · rw [if_pos hsees]
    have hcurrent : c.current.kind = kind := of_decide_eq_true hsees
    have hmore : c.current.kind ≠ .endOfInput := hcurrent ▸ hkind
    exact ⟨(hc.advance hmore).1, taken_current hc hmore⟩
  · rw [if_neg hsees]
    exact hc.record _ _

theorem spans_accepts (hc : c.InLine) (kind : Kind) (hkind : kind ≠ .endOfInput) :
    Spans c (accepts kind) fun _ _ => True := by
  unfold Spans accepts
  by_cases hsees : c.sees kind
  · rw [if_pos hsees]
    have hcurrent : c.current.kind = kind := of_decide_eq_true hsees
    exact ⟨(hc.advance (hcurrent ▸ hkind)).1, trivial⟩
  · rw [if_neg hsees]
    exact ⟨.refl hc, trivial⟩

theorem spans_peek {f : Token → Parser β} (h : Spans c (f c.current) Q) :
    Spans c (peek >>= f) Q :=
  h

theorem spans_sees {kind : Kind} {f : Bool → Parser β} (h : Spans c (f (c.sees kind)) Q) :
    Spans c (sees kind >>= f) Q :=
  h

theorem spans_lastStop {f : Position → Parser β}
    (h : ∀ q : Position, q.offset = c.behind → Spans c (f q) Q) : Spans c (lastStop >>= f) Q :=
  h c.lastStop rfl

theorem Spans.recovering {P : List α → Cursor → Prop} {p : Parser (List α)} (h : Spans c p P)
    (hnil : ∀ c', P [] c') : Spans c (recovering p) P := by
  unfold Spans Parser.recovering at *
  cases hpc : p c with
  | starved => trivial
  | failed c' =>
    rw [hpc] at h
    exact ⟨h.trans h.inLine.synchronize, hnil _⟩
  | ok a c' =>
    rw [hpc] at h
    exact h

/-- A node from the token at one place to the token before another one. -/
theorem lies_between {c c' : Cursor} {t : Tree Unit} {start stop : Position}
    (hspan : t.span = ⟨start, stop⟩) (hstart : start.offset = c.ahead)
    (hstop : stop.offset = c'.behind) (hproper : c.ahead ≤ c'.behind)
    (h : Tree.LieAll c.ahead c'.behind t.children) : t.Lies c.ahead c'.behind := by
  refine .node hspan ?_ (by omega) (by omega) (by omega)
  rw [hstart, hstop]
  exact h

/-- A node that is one token. -/
theorem lies_token {c c' : Cursor} {t : Tree Unit} {token : Token} (htoken : Taken c token c')
    (hspan : t.span = token.span) (hchildren : t.children = []) : t.Lies c.ahead c'.behind := by
  refine lies_between hspan htoken.starts htoken.stops htoken.proper ?_
  rw [hchildren]
  trivial

end Parser

end Scriptlet

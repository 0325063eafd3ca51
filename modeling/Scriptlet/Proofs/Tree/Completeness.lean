import Scriptlet.Proofs.Tree.Statements

/-!
# The reader accepts the grammar

Every production carries what is known of the tokens of its parts to the tokens of its phrase
(`readable_production`), so everything that derives is read (`readable`). With the soundness of the
reader this decides when it finds no fault in a list of tokens: exactly if the tokens before the end
of input derive from the grammar.
-/

namespace Scriptlet

namespace Parser

/-! ## Everything that derives -/

/-- What is known of a statement. It is closed, so that an `else` may follow it, or open, so that
one belongs to it. -/
def StmtReadable (ts : List Token) : Prop :=
  (∃ s : Stmt Unit, Recognizes statement notElse ts (s.move ·)) ∧
    ((∃ s : Stmt Unit, Recognizes statement any ts (s.move ·)) ∨
      ∀ (els : Token) (us : List Token), els.kind = .kwElse → Derives [.stmt] us →
        Derives [.stmt] (ts ++ els :: us))

/-- What is known of the tokens of a phrase. -/
def Readable : Phrase → List Token → Prop
  | .file, ts => Repeated DeclReadable ts
  | .decl, ts => DeclReadable ts
  | .member, ts => MemberReadable ts
  | .params, ts => ∃ names : List Token,
    Recognizes parameters any ts (fun g => names.map (·.move g))
  | .vars, ts => ∃ ss : List (Stmt Unit), ∀ semi : Token, semi.kind = .semicolon →
    Recognizes varDeclarations any (ts ++ [semi]) (Stmt.moveList · ss)
  | .stmt, ts => StmtReadable ts
  | .forInit, ts => ∃ init, Initial ts init
  | .block, ts => ∃ ss : List (Stmt Unit), Recognizes block any ts (Stmt.moveList · ss)
  | .expr, ts => ∃ e : Expr Unit, Recognizes expression (stops 6) ts (e.move ·)
  | .asg, ts => ∃ e : Expr Unit, Recognizes assignment (stops 5) ts (e.move ·)
  | .tern, ts => ∃ e : Expr Unit, Recognizes ternary (stops 4) ts (e.move ·)
  | .bin, ts => ∃ e : Expr Unit, Recognizes (binary · 0) (stops 3) ts (e.move ·)
  | .unary, ts => ∃ e : Expr Unit, Recognizes unary (stops 2) ts (e.move ·)
  | .call, ts => ∃ e, CallsTo ts e
  | .suffix, ts => ∃ add, Suffixes ts add
  | .primary, ts => ∃ e : Expr Unit, Recognizes primary any ts (e.move ·)
  | .literal, ts => ∃ t : Token, t.kind ∈ Phrase.literals ∧ ts = [t]
  | .assignOp, ts => ∃ t : Token, t.kind ∈ Phrase.assignOps ∧ ts = [t]
  | .infixOp, ts => ∃ t : Token, t.kind ∈ Phrase.infixOps ∧ ts = [t]
  | .prefixOp, ts => ∃ t : Token, t.kind ∈ Phrase.prefixOps ∧ ts = [t]
  | .stepOp, ts => ∃ t : Token, t.kind ∈ Phrase.stepOps ∧ ts = [t]
  | .token _, _ | .opt _, _ | .many _, _ | .listed _ _, _ => True

/-- The hypothesis of the induction over derivations. -/
abbrev Known (p : Phrase) (ts : List Token) : Prop := Derives [p] ts ∧ Readable p ts

theorem Readable.decls {ts : List Token} (h : Repeated (RowMeans Known [.decl]) ts) :
    Repeated DeclReadable ts := h.imp fun _ hus => hus.single.2

theorem StmtReadable.closed {ts : List Token} {s : Stmt Unit}
    (h : Recognizes statement any ts (s.move ·)) : StmtReadable ts :=
  ⟨⟨s, h.mono fun _ _ => rfl⟩, .inl ⟨s, h⟩⟩

section

variable {ts us : List Token}

theorem readable_expr {p : Phrase} {body : List Phrase} (hp : Production p body)
    (hexpr : p = .expr ∨ p = .asg ∨ p = .tern ∨ p = .bin ∨ p = .unary ∨ p = .call ∨ p = .suffix ∨
      p = .primary) (h : RowMeans Known body ts) : Readable p ts := by
  cases hp with
  | expr =>
    obtain ⟨us, vs, rfl, ⟨-, e, he⟩, hmany⟩ := h
    have hrow : ∀ ws, RowMeans Known [Kind.comma, .asg] ws → ∃ (t : Token) (xs : List Token)
        (e : Expr Unit), t.kind = .comma ∧ ws = t :: xs ∧
          Recognizes assignment (stops 5) xs (e.move ·) := by
      rintro _ ⟨_, _, rfl, ⟨t, ht, rfl⟩, hasg⟩
      obtain ⟨-, e, he⟩ := hasg.single
      exact ⟨t, _, e, ht, rfl, he⟩
    obtain ⟨e', he'⟩ := extends_commas hrow hmany.single e
    refine ⟨e', recognizes_expression he he' fun g rest hrest => ?_⟩
    refine .repeated g hmany.single (fun ws hws => ?_) (hrest.mono (stops_mono (by decide)))
    obtain ⟨t, xs, -, ht, rfl, -⟩ := hrow ws hws
    exact .cons ht (by decide)
  | assignVar =>
    obtain ⟨_, _, rfl, ⟨t, ht, rfl⟩, _, _, rfl, ⟨-, op, hop, rfl⟩, hasg⟩ := h
    obtain ⟨-, v, hv⟩ := hasg.single
    have htarget := recognizes_condition (recognizes_operand ((recognizes_name ht).callsTo.recognizes
      (Phrase.begins_token ht (by decide) (by decide) _)))
    exact ⟨_, recognizes_assign htarget hop hv rfl⟩
  | assignField =>
    obtain ⟨us, _, rfl, ⟨hcall, e, he⟩, _, _, rfl, ⟨dot, hdot, rfl⟩, _, _, rfl, ⟨name, hname, rfl⟩,
      _, _, rfl, ⟨eq, heq, rfl⟩, hasg⟩ := h
    obtain ⟨-, v, hv⟩ := hasg.single
    have htarget := recognizes_condition (recognizes_operand
      ((he.suffix (suffixes_property hdot hname)).recognizes
        ((hcall.begins trivial nofun).of_first nofun (by decide) _)))
    have hassign := recognizes_assign htarget (heq ▸ by decide) hv (if_pos heq)
    rw [List.append_assoc] at hassign
    exact ⟨_, hassign⟩
  | noAssign =>
    obtain ⟨-, e, he⟩ := h.single
    exact ⟨e, recognizes_noAssign he⟩
  | tern =>
    obtain ⟨us, vs, rfl, ⟨-, e, he⟩, hopt⟩ := h
    rcases hopt.single with rfl | ⟨_, _, rfl, ⟨question, hquestion, rfl⟩, ws, _, rfl,
      ⟨-, onTrue, hTrue⟩, _, _, rfl, ⟨colon, hcolon, rfl⟩, htern⟩
    · rw [List.append_nil]
      exact ⟨e, recognizes_condition he⟩
    · obtain ⟨-, onFalse, hFalse⟩ := htern.single
      exact ⟨_, recognizes_ternary he hquestion hTrue hcolon hFalse⟩
  | bin =>
    obtain ⟨us, vs, rfl, ⟨-, e, he⟩, hmany⟩ := h
    have hoperands : ∀ {ws}, Repeated (RowMeans Known [.infixOp, .unary]) ws →
        ∃ os, ws = Operand.flat os := by
      intro ws hws
      induction hws with
      | nil => exact ⟨[], rfl⟩
      | cons hrow _ ih =>
        obtain ⟨_, xs, rfl, ⟨-, op, hop, rfl⟩, hunary⟩ := hrow
        obtain ⟨-, e, he⟩ := hunary.single
        obtain ⟨os, rfl⟩ := ih
        exact ⟨⟨op, xs, e, hop, he⟩ :: os, rfl⟩
    obtain ⟨os, rfl⟩ := hoperands hmany.single
    exact recognizes_operands he os
  | prefixed =>
    obtain ⟨_, _, rfl, ⟨-, op, hop, rfl⟩, hunary⟩ := h
    obtain ⟨-, e, he⟩ := hunary.single
    exact ⟨_, he.prefixed hop⟩
  | unprefixed =>
    obtain ⟨us, vs, rfl, ⟨hcall, e, he⟩, hopt⟩ := h
    have hbegins := hcall.begins trivial nofun
    rcases hopt.single with rfl | hstep
    · rw [List.append_nil]
      exact ⟨e, he.recognizes hbegins⟩
    · obtain ⟨-, op, hop, rfl⟩ := hstep.single
      exact ⟨_, (he.recognizes_step hbegins hop).mono fun _ _ => rfl⟩
  | call =>
    obtain ⟨us, vs, rfl, ⟨-, e, he⟩, hmany⟩ := h
    have hcalls : ∀ {xs ws e}, CallsTo xs e → Repeated (RowMeans Known [.suffix]) ws →
        ∃ e', CallsTo (xs ++ ws) e' := by
      intro xs ws e hxs hws
      induction hws generalizing xs e with
      | nil => exact ⟨e, by rwa [List.append_nil]⟩
      | @cons ys zs hrow _ ih =>
        obtain ⟨-, add, hadd⟩ := hrow.single
        rw [← List.append_assoc]
        exact ih (hxs.suffix hadd)
    exact hcalls he.callsTo hmany.single
  | arguments hn =>
    obtain ⟨_, _, rfl, ⟨left, hleft, rfl⟩, us, _, rfl, hlist, _, _, rfl, ⟨right, hright, rfl⟩,
      rfl⟩ := h
    refine suffixes_arguments hleft (Enumerated.imp hlist fun _ h => h.2) hn ?_ hright
    cases hlist with
    | none => exact .inl rfl
    | one hasg => exact .inr (hasg.1.begins trivial nofun)
    | more hasg => exact .inr ((hasg.1.begins trivial nofun).of_first nofun (fun _ h => h) _)
  | property =>
    obtain ⟨_, _, rfl, ⟨dot, hdot, rfl⟩, _, _, rfl, ⟨name, hname, rfl⟩, rfl⟩ := h
    exact ⟨_, suffixes_property hdot hname⟩
  | constant =>
    obtain ⟨-, t, ht, rfl⟩ := h.single
    exact recognizes_literal ht
  | name =>
    obtain ⟨t, ht, rfl⟩ := h.single
    exact ⟨_, recognizes_name ht⟩
  | receiver =>
    obtain ⟨t, ht, rfl⟩ := h.single
    exact ⟨_, recognizes_receiver ht⟩
  | inherited =>
    obtain ⟨_, _, rfl, ⟨t, ht, rfl⟩, _, _, rfl, ⟨dot, hdot, rfl⟩, hmethod⟩ := h
    obtain ⟨method, hkind, rfl⟩ := hmethod.single
    exact ⟨_, recognizes_inherited ht hdot hkind⟩
  | group =>
    obtain ⟨_, _, rfl, ⟨t, ht, rfl⟩, us, _, rfl, ⟨-, e, he⟩, hclose⟩ := h
    obtain ⟨close, hkind, rfl⟩ := hclose.single
    exact ⟨_, recognizes_group ht he hkind⟩
  | lambda =>
    obtain ⟨_, _, rfl, ⟨t, ht, rfl⟩, us, vs, rfl, ⟨-, params, hparams⟩, hblock⟩ := h
    obtain ⟨hderives, body, hbody⟩ := hblock.single
    have hlambda := recognizes_lambda ht hparams (hderives.begins trivial nofun) hbody
    exact ⟨_, hlambda⟩
  | _ => simp at hexpr

theorem readable_optional (h : Phrase.Means Known (.opt [.expr]) ts) :
    Derives [.opt [.expr]] ts ∧ ∃ e, Optional ts e := by
  rcases h with rfl | h
  · exact ⟨.opt_none, none, .absent⟩
  · obtain ⟨hderives, e, he⟩ := h.single
    exact ⟨.opt_some hderives, some e, .present (hderives.begins trivial nofun) he⟩

/-- With a statement for its body, `while` and `for` are as closed or open as this is. -/
theorem StmtReadable.around {before : List Token} {f : Stmt Unit → Stmt Unit}
    (h : StmtReadable us)
    (hread : ∀ {F s}, Recognizes statement F us (s.move ·) →
      Recognizes statement F (before ++ us) ((f s).move ·))
    (hderives : ∀ {vs}, Derives [.stmt] vs → Derives [.stmt] (before ++ vs)) :
    StmtReadable (before ++ us) := by
  obtain ⟨⟨s, hs⟩, hclosed | hopen⟩ := h
  · obtain ⟨s, hs⟩ := hclosed
    exact .closed (hread hs)
  · refine ⟨⟨f s, hread hs⟩, .inr fun els vs hels hvs => ?_⟩
    rw [List.append_assoc]
    exact hderives (hopen els vs hels hvs)

theorem readable_stmt {n : Nat} {body : List Phrase} (hp : Production .stmt body)
    (H : ∀ us, us.length < n → Derives [.stmt] us → StmtReadable us) (hn : ts.length ≤ n)
    (h : RowMeans Known body ts) : StmtReadable ts := by
  cases hp with
  | forStmt =>
    obtain ⟨_, _, rfl, ⟨keyword, hkeyword, rfl⟩, _, _, rfl, ⟨left, hleft, rfl⟩, is, _, rfl,
      ⟨hforInit, init, hinit⟩, vs, _, rfl, htest, _, _, rfl, ⟨semi, hsemi, rfl⟩, ws, _, rfl,
      hupdate, _, _, rfl, ⟨right, hright, rfl⟩, hbody⟩ := h
    obtain ⟨htests, test, htest⟩ := readable_optional htest
    obtain ⟨hupdates, update, hupdate⟩ := readable_optional hupdate
    have haround := @StmtReadable.around _
      (keyword :: left :: (is ++ (vs ++ semi :: (ws ++ [right])))) _ hbody.single.2
      (fun {F s} hs => by
        have hfor := recognizes_for hkeyword hleft hinit htest hsemi hupdate hright hs
        simpa only [List.cons_append, List.append_assoc, List.nil_append] using hfor)
      (fun {us} hus => by
        have hfor := Derives.of_production .forStmt (.token hkeyword (.token hleft (hforInit.cons
          (htests.cons (.token hsemi (hupdates.cons (.token hright hus)))))))
        simpa only [List.cons_append, List.append_assoc, List.nil_append] using hfor)
    simpa only [List.cons_append, List.append_assoc, List.nil_append] using haround
  | ifStmt =>
    obtain ⟨_, _, rfl, ⟨keyword, hkeyword, rfl⟩, _, _, rfl, ⟨left, hleft, rfl⟩, cs, _, rfl,
      ⟨hcond, e, he⟩, _, _, rfl, ⟨right, hright, rfl⟩, us, _, rfl, ⟨hus, hTrue⟩, hopt⟩ := h
    -- A condition whose body has no `else` of its own to go on with, whatever that body is.
    have hshort : ∀ {vs}, Derives [.stmt] vs → StmtReadable vs →
        StmtReadable (keyword :: left :: (cs ++ right :: vs)) := by
      rintro vs hvs ⟨⟨s, hs⟩, -⟩
      refine ⟨⟨_, recognizes_if hkeyword hleft he hright hs⟩, .inr fun els ws hels hws => ?_⟩
      have hif := Derives.of_production .ifStmt (.token hkeyword (.token hleft (hcond.cons
        (.token hright (hvs.cons (.opt_some (.token hels hws)))))))
      simpa only [List.cons_append, List.append_assoc] using hif
    rcases hopt.single with rfl | ⟨_, _, rfl, ⟨els, hels, rfl⟩, hFalse⟩
    · have hif := hshort hus hTrue
      simpa only [List.cons_append, List.nil_append, List.append_nil] using hif
    · obtain ⟨hvs, ⟨onFalse, hnotElse⟩, hFalse⟩ := hFalse.single
      simp only [List.cons_append, List.nil_append] at hn ⊢
      rcases hTrue.2 with ⟨onTrue, hTrue⟩ | hopen
      · rcases hFalse with ⟨onFalse, hFalse⟩ | hopen
        · exact .closed (recognizes_if_else hkeyword hleft he hright hTrue hels hFalse)
        · refine ⟨⟨_, recognizes_if_else hkeyword hleft he hright hTrue hels hnotElse⟩,
            .inr fun els' ws hels' hws => ?_⟩
          have hif := Derives.of_production .ifStmt (.token hkeyword (.token hleft (hcond.cons
            (.token hright (hus.cons (.opt_some (.token hels (hopen els' ws hels' hws))))))))
          simpa only [List.cons_append, List.append_assoc] using hif
      · -- The `else` belongs to the open statement before it.
        have hinner := hopen els _ hels hvs
        refine hshort hinner (H _ ?_ hinner)
        simp only [List.length_cons, List.length_append] at hn ⊢
        omega
  | whileStmt =>
    obtain ⟨_, _, rfl, ⟨keyword, hkeyword, rfl⟩, _, _, rfl, ⟨left, hleft, rfl⟩, cs, _, rfl,
      ⟨hcond, e, he⟩, _, _, rfl, ⟨right, hright, rfl⟩, hbody⟩ := h
    have haround := @StmtReadable.around _ (keyword :: left :: (cs ++ [right])) _ hbody.single.2
      (fun {F s} hs => by
        have hwhile := recognizes_while hkeyword hleft he hright hs
        simpa only [List.cons_append, List.append_assoc, List.nil_append] using hwhile)
      (fun {us} hus => by
        have hwhile := Derives.of_production .whileStmt (.token hkeyword (.token hleft (hcond.cons
          (.token hright hus))))
        simpa only [List.cons_append, List.append_assoc, List.nil_append] using hwhile)
    simpa only [List.cons_append, List.append_assoc, List.nil_append] using haround
  | doStmt =>
    obtain ⟨_, _, rfl, ⟨keyword, hkeyword, rfl⟩, us, _, rfl, ⟨-, ⟨s, hs⟩, -⟩, _, _, rfl,
      ⟨test, htest, rfl⟩, _, _, rfl, ⟨left, hleft, rfl⟩, cs, _, rfl, ⟨-, e, he⟩, _, _, rfl,
      ⟨right, hright, rfl⟩, hsemi⟩ := h
    obtain ⟨semi, hkind, rfl⟩ := hsemi.single
    have hdo := recognizes_do hkeyword hs htest hleft he hright hkind
    exact .closed hdo
  | printStmt =>
    obtain ⟨_, _, rfl, ⟨keyword, hkeyword, rfl⟩, us, _, rfl, ⟨-, e, he⟩, hsemi⟩ := h
    obtain ⟨semi, hkind, rfl⟩ := hsemi.single
    exact .closed (recognizes_print hkeyword he hkind)
  | returnStmt =>
    obtain ⟨_, _, rfl, ⟨keyword, hkeyword, rfl⟩, us, _, rfl, hvalue, hsemi⟩ := h
    obtain ⟨semi, hkind, rfl⟩ := hsemi.single
    rcases hvalue with rfl | hvalue
    · exact .closed (recognizes_return hkeyword hkind)
    · obtain ⟨hderives, e, he⟩ := hvalue.single
      exact .closed (recognizes_return_value hkeyword he (hderives.begins trivial nofun) hkind)
  | breakStmt =>
    obtain ⟨_, _, rfl, ⟨keyword, hkeyword, rfl⟩, hsemi⟩ := h
    obtain ⟨semi, hkind, rfl⟩ := hsemi.single
    exact .closed (recognizes_break hkeyword hkind)
  | continueStmt =>
    obtain ⟨_, _, rfl, ⟨keyword, hkeyword, rfl⟩, hsemi⟩ := h
    obtain ⟨semi, hkind, rfl⟩ := hsemi.single
    exact .closed (recognizes_continue hkeyword hkind)
  | blockStmt =>
    obtain ⟨hderives, ss, hss⟩ := h.single
    obtain ⟨s, hs⟩ := recognizes_block_statement hss (hderives.begins trivial nofun)
    exact .closed hs
  | exprStmt =>
    obtain ⟨us, _, rfl, ⟨hderives, e, he⟩, hsemi⟩ := h
    obtain ⟨semi, hkind, rfl⟩ := hsemi.single
    exact .closed (recognizes_evaluate he (hderives.begins trivial nofun) hkind)

theorem readable_decl {body : List Phrase} (hp : Production .decl body) (hbody : Derives body ts)
    (h : RowMeans Known body ts) : DeclReadable ts := by
  refine ⟨(Derives.of_production hp hbody).begins trivial nofun, ?_⟩
  cases hp with
  | classDecl =>
    obtain ⟨_, _, rfl, ⟨keyword, hkeyword, rfl⟩, _, _, rfl, ⟨name, hname, rfl⟩, _, _, rfl, hparent,
      _, _, rfl, ⟨left, hleft, rfl⟩, us, _, rfl, hmembers, hright⟩ := h
    obtain ⟨right, hkind, rfl⟩ := hright.single
    have hmembers : Repeated MemberReadable us :=
      Repeated.imp hmembers fun _ hus => hus.single.2
    rcases hparent with rfl | ⟨_, _, rfl, ⟨less, hless, rfl⟩, hsuper⟩
    · obtain ⟨ss, hss⟩ := @recognizes_declareClass _ _ _ _ _ none hkeyword hname (by simp) hleft
        hmembers hkind
      exact ⟨ss, hss.mono fun _ _ => rfl⟩
    · obtain ⟨parent, hparent, rfl⟩ := hsuper.single
      obtain ⟨ss, hss⟩ := @recognizes_declareClass _ _ _ _ _ (some (less, parent)) hkeyword hname
        (by simp [hless, hparent]) hleft hmembers hkind
      exact ⟨ss, hss.mono fun _ _ => rfl⟩
  | funDecl =>
    obtain ⟨_, _, rfl, ⟨keyword, hkeyword, rfl⟩, _, _, rfl, ⟨name, hname, rfl⟩, us, vs, rfl,
      ⟨-, params, hparams⟩, hblock⟩ := h
    obtain ⟨hderives, body, hbody⟩ := hblock.single
    obtain ⟨ss, hss⟩ := recognizes_declareFunction hkeyword hname hparams
      (hderives.begins trivial nofun) hbody
    exact ⟨ss, hss.mono fun _ _ => rfl⟩
  | varDecl =>
    obtain ⟨us, _, rfl, ⟨hderives, ss, hss⟩, hsemi⟩ := h
    obtain ⟨semi, hkind, rfl⟩ := hsemi.single
    have hbegins := (hderives.begins trivial nofun).of_first nofun (fun _ h => h) [semi]
    exact ⟨ss, (recognizes_declareVars (hss semi hkind) hbegins).mono fun _ _ => rfl⟩
  | stmtDecl =>
    obtain ⟨hderives, ⟨s, hs⟩, -⟩ := h.single
    exact ⟨[s], recognizes_declareStatement hs (hderives.begins trivial nofun)⟩

theorem readable_member (h : RowMeans Known [.opt [Kind.kwClass], Kind.identifier, .opt [.params],
    .block] ts) : MemberReadable ts := by
  obtain ⟨_, _, rfl, hclass, _, _, rfl, ⟨name, hname, rfl⟩, us, vs, rfl, hparams, hblock⟩ := h
  obtain ⟨hblocks, body, hbody⟩ := hblock.single
  have hbegins := hblocks.begins trivial nofun
  have hmethod : ∃ d : Declaration Unit, Recognizes method any (name :: (us ++ vs)) (d.move ·) := by
    rcases hparams with rfl | hparams
    · exact recognizes_getter hname hbegins hbody
    · obtain ⟨hderives, params, hparams⟩ := hparams.single
      exact recognizes_method hname hparams (hderives.begins trivial nofun) hbegins hbody
  obtain ⟨d, hd⟩ := hmethod
  refine ⟨_, d, Phrase.begins_token hname (by decide) (by decide) _, hd, ?_⟩
  rcases hclass with rfl | hclass
  · exact .inl rfl
  · obtain ⟨t, ht, rfl⟩ := hclass.single
    exact .inr ⟨t, ht, rfl⟩

theorem readable_vars (h : RowMeans Known [Kind.kwVar, Kind.identifier, .opt [Kind.assign, .asg],
    .many [Kind.comma, Kind.identifier, Kind.assign, .asg]] ts) : Readable .vars ts := by
  obtain ⟨_, _, rfl, ⟨var, hvar, rfl⟩, _, _, rfl, ⟨name, hname, rfl⟩, us, vs, rfl, hinit, hmore⟩ := h
  have hrow : ∀ ws, RowMeans Known [Kind.comma, Kind.identifier, Kind.assign, .asg] ws →
      ∃ (comma name eq : Token) (xs : List Token) (e : Expr Unit), comma.kind = .comma ∧
        name.kind = .identifier ∧ eq.kind = .assign ∧ ws = comma :: name :: eq :: xs ∧
        Recognizes assignment (stops 5) xs (e.move ·) := by
    rintro _ ⟨_, _, rfl, ⟨comma, hcomma, rfl⟩, _, _, rfl, ⟨name, hname, rfl⟩, _, _, rfl,
      ⟨eq, heq, rfl⟩, hasg⟩
    obtain ⟨-, e, he⟩ := hasg.single
    exact ⟨comma, name, eq, _, e, hcomma, hname, heq, rfl, he⟩
  obtain ⟨ss, hss⟩ := recognizes_furtherVariables hrow hmore.single
  have hfollows : ∀ g rest, Follows (fun k => k == .semicolon) rest →
      Follows (fun k => k == .semicolon || k == .comma) (vs.map (·.move g) ++ rest) := by
    intro g rest hrest
    refine .repeated g hmore.single (fun ws hws => ?_) (hrest.mono fun k hk => by simp [hk])
    obtain ⟨comma, _, _, _, _, hcomma, -, -, rfl, -⟩ := hrow ws hws
    exact .cons hcomma (by decide)
  rcases hinit with rfl | ⟨_, xs, rfl, ⟨eq, heq, rfl⟩, hasg⟩
  · exact ⟨_, fun semi hsemi => recognizes_variables hvar hname hss hfollows hsemi⟩
  · obtain ⟨-, e, he⟩ := hasg.single
    refine ⟨.declareVar ⟨var.span.start, Cursor.stopAfter eq xs⟩ name (some e) :: ss,
      fun semi hsemi => ?_⟩
    have hvars := recognizes_variables_init hvar hname heq he hss hfollows hsemi
    simpa only [List.cons_append, List.nil_append, List.append_assoc] using hvars

theorem readable_forInit {body : List Phrase} (hp : Production .forInit body)
    (h : RowMeans Known body ts) : ∃ init, Initial ts init := by
  cases hp with
  | noInit =>
    obtain ⟨semi, hsemi, rfl⟩ := h.single
    exact ⟨none, .absent hsemi⟩
  | varsInit =>
    obtain ⟨us, _, rfl, ⟨hderives, ss, hss⟩, hsemi⟩ := h
    obtain ⟨semi, hkind, rfl⟩ := hsemi.single
    exact ⟨some ss, .vars ((hderives.begins trivial nofun).of_first nofun (fun _ h => h) _)
      (hss semi hkind)⟩
  | exprInit =>
    obtain ⟨us, _, rfl, ⟨hderives, e, he⟩, hsemi⟩ := h
    obtain ⟨semi, hkind, rfl⟩ := hsemi.single
    exact ⟨_, .expr ((hderives.begins trivial nofun).of_first nofun (fun _ h => h) _)
      (recognizes_expressionStatement he hkind)⟩

/-- Every production carries what is known of its parts to its phrase. -/
theorem readable_production {n : Nat} {p : Phrase} {body : List Phrase} (hname : p.Named)
    (H : ∀ us, us.length < n → Derives [.stmt] us → StmtReadable us) (hp : Production p body)
    (hn : ts.length ≤ n) (hbody : Derives body ts) (h : RowMeans Known body ts) :
    Readable p ts := by
  cases hp with
  | optNone | optSome | manyNone | manyMore | listedNone | listedOne | listedMore =>
    exact hname.elim
  | file => exact Readable.decls h.single
  | classDecl => exact readable_decl .classDecl hbody h
  | funDecl => exact readable_decl .funDecl hbody h
  | varDecl => exact readable_decl .varDecl hbody h
  | stmtDecl => exact readable_decl .stmtDecl hbody h
  | member => exact readable_member h
  | params hcount =>
    obtain ⟨_, _, rfl, ⟨left, hleft, rfl⟩, us, _, rfl, hlist, hright⟩ := h
    obtain ⟨right, hkind, rfl⟩ := hright.single
    exact recognizes_parameters hleft hlist hcount hkind
  | vars => exact readable_vars h
  | forStmt => exact readable_stmt .forStmt H hn h
  | ifStmt => exact readable_stmt .ifStmt H hn h
  | whileStmt => exact readable_stmt .whileStmt H hn h
  | doStmt => exact readable_stmt .doStmt H hn h
  | printStmt => exact readable_stmt .printStmt H hn h
  | returnStmt => exact readable_stmt .returnStmt H hn h
  | breakStmt => exact readable_stmt .breakStmt H hn h
  | continueStmt => exact readable_stmt .continueStmt H hn h
  | blockStmt => exact readable_stmt .blockStmt H hn h
  | exprStmt => exact readable_stmt .exprStmt H hn h
  | noInit => exact readable_forInit .noInit h
  | varsInit => exact readable_forInit .varsInit h
  | exprInit => exact readable_forInit .exprInit h
  | block =>
    obtain ⟨_, _, rfl, ⟨left, hleft, rfl⟩, us, _, rfl, hdecls, hright⟩ := h
    obtain ⟨right, hkind, rfl⟩ := hright.single
    obtain ⟨ss, hss⟩ := recognizes_blockItems (Readable.decls hdecls)
    exact ⟨ss, recognizes_block hleft hss hkind⟩
  | literal hk | assignOp hk | infixOp hk | prefixOp hk | stepOp hk =>
    obtain ⟨t, rfl, rfl⟩ := h.single
    exact ⟨t, hk, rfl⟩
  | expr => exact readable_expr .expr (by simp) h
  | assignVar => exact readable_expr .assignVar (by simp) h
  | assignField => exact readable_expr .assignField (by simp) h
  | noAssign => exact readable_expr .noAssign (by simp) h
  | tern => exact readable_expr .tern (by simp) h
  | bin => exact readable_expr .bin (by simp) h
  | prefixed => exact readable_expr .prefixed (by simp) h
  | unprefixed => exact readable_expr .unprefixed (by simp) h
  | call => exact readable_expr .call (by simp) h
  | arguments hcount => exact readable_expr (.arguments hcount) (by simp) h
  | property => exact readable_expr .property (by simp) h
  | constant => exact readable_expr .constant (by simp) h
  | name => exact readable_expr .name (by simp) h
  | receiver => exact readable_expr .receiver (by simp) h
  | inherited => exact readable_expr .inherited (by simp) h
  | group => exact readable_expr .group (by simp) h
  | lambda => exact readable_expr .lambda (by simp) h

/-- What derives from the grammar is read. -/
theorem readable {p : Phrase} (hname : p.Named) (h : Derives [p] ts) : Readable p ts := by
  -- The induction is over derivations, inside one on the number of tokens.
  have hall : ∀ n {p : Phrase} {ts : List Token}, p.Named → ts.length ≤ n → Derives [p] ts →
      Readable p ts := by
    intro n
    induction n using Nat.strongRecOn with
    | ind n ih =>
      intro p ts hname hn h
      have H : ∀ us : List Token, us.length < n → Derives [.stmt] us → StmtReadable us :=
        fun us hus h => @ih us.length hus .stmt us trivial (Nat.le_refl _) h
      have hmeans := @Derives.fold Known n (fun hname hp hn hbody hmeans =>
        ⟨.of_production hp hbody, readable_production hname H hp hn hbody hmeans⟩) _ _ h hn
      have hknown := hmeans.single
      rw [Phrase.means_named hname] at hknown
      exact hknown.2
  exact hall ts.length hname (Nat.le_refl _) h

end

end Parser

/-! ## Whole lists of tokens -/

/-- An attempt with another value. -/
def Parsed.map {α β : Type} (f : α → β) : Parsed α → Parsed β
  | .ok a c => .ok (f a) c
  | .failed c => .failed c
  | .starved => .starved

theorem Parsed.map_append {α : Type} (r : Parsed (List α)) (as bs : List α) :
    (r.map (bs ++ ·)).map (as ++ ·) = r.map fun cs => as ++ (bs ++ cs) := by
  cases r <;> rfl

namespace Parser

variable {α β : Type}

theorem bind_pure (p : Parser α) (f : α → β) (c : Cursor) :
    (p >>= fun a => pure (f a)) c = (p c).map f := by
  change Parser.bind p _ c = _
  unfold Parser.bind Parsed.map
  cases p c <;> rfl

theorem bind_ok {p : Parser α} {f : α → Parser β} {c c' : Cursor} {b : β}
    (h : (p >>= f) c = .ok b c') : ∃ a c'', p c = .ok a c'' ∧ f a c'' = .ok b c' := by
  change Parser.bind p f c = _ at h
  unfold Parser.bind at h
  cases hp : p c with
  | ok a c'' => rw [hp] at h; exact ⟨a, c'', rfl, h⟩
  | failed | starved => rw [hp] at h; cases h

theorem Becomes.map {r r' : Parsed α} (h : r.Becomes r') (f : α → β) :
    (r.map f).Becomes (r'.map f) := by
  rcases h with rfl | rfl
  · exact .inl rfl
  · exact .inr rfl

/-- Tokens that are read as some statements, after which what comes next is read. -/
structure ReadsThrough (ts : List Token) (ss : List (Stmt Unit)) : Prop where
  follows : ∀ g rest, Follows notElse rest → Follows notElse (ts.map (·.move g) ++ rest)
  reads : ∀ g fuel previous faults rest, Follows notElse rest → ∃ fuel',
    (declarations fuel (.place previous faults (ts.map (·.move g) ++ rest))).Becomes
      ((declarations fuel' (.place (Cursor.last previous (ts.map (·.move g))) faults rest)).map
        (Stmt.moveList g ss ++ ·))

namespace ReadsThrough

variable {ts us : List Token} {ss more : List (Stmt Unit)}

theorem nil : ReadsThrough [] [] where
  follows _ _ hrest := hrest
  reads g fuel previous faults rest _ := by
    refine ⟨fuel, .inr ?_⟩
    cases hr : declarations fuel (.place previous faults rest) <;>
      simp [Parsed.map, Stmt.relocateList, hr]

theorem declaration (hbegins : Phrase.decl.Begins ts)
    (hss : Recognizes declaration notElse ts (Stmt.moveList · ss)) : ReadsThrough ts ss where
  follows g rest hrest := by
    cases ts with
    | nil => exact hbegins.elim
    | cons t ts =>
      exact .cons rfl ((by decide : ∀ k ∈ Phrase.decl.starts, notElse k = true) _ hbegins.1)
  reads g fuel previous faults rest hrest := by
    cases fuel with
    | zero => exact ⟨0, .inl rfl⟩
    | succ fuel =>
      refine ⟨fuel, ?_⟩
      rw [declarations, not_atEnd_bind g hbegins (by decide), if_neg Bool.false_ne_true]
      refine hss.bind hrest ?_
      rw [bind_pure]
      exact becomes_refl _

theorem append (h : ReadsThrough ts ss) (h' : ReadsThrough us more) :
    ReadsThrough (ts ++ us) (ss ++ more) where
  follows g rest hrest := by
    rw [List.map_append, List.append_assoc]
    exact h.follows g _ (h'.follows g rest hrest)
  reads g fuel previous faults rest hrest := by
    obtain ⟨fuel₁, h₁⟩ := h.reads g fuel previous faults _ (h'.follows g rest hrest)
    obtain ⟨fuel₂, h₂⟩ :=
      h'.reads g fuel₁ (Cursor.last previous (ts.map (·.move g))) faults rest hrest
    refine ⟨fuel₂, ?_⟩
    simp only [List.map_append, List.append_assoc, Cursor.last_append, Stmt.relocateList_append]
    rw [← Parsed.map_append]
    exact Becomes.trans h₁ (Becomes.map h₂ _)

/-- To read moved tokens is to move what is read. -/
theorem move (h : ReadsThrough ts ss) (g : Position → Position) :
    ReadsThrough (ts.map (·.move g)) (Stmt.moveList g ss) where
  follows g' rest hrest := by
    rw [Token.map_relocate_relocate]
    exact h.follows (fun p => g' (g p)) rest hrest
  reads g' fuel previous faults rest hrest := by
    have hmoved : Stmt.moveList g' (Stmt.moveList g ss) = Stmt.moveList (fun p => g' (g p)) ss :=
      Stmt.relocateList_relocateList _ _ ss
    rw [Token.map_relocate_relocate, hmoved]
    exact h.reads (fun p => g' (g p)) fuel previous faults rest hrest

end ReadsThrough

theorem readsThrough {ts : List Token} (h : Repeated DeclReadable ts) :
    ∃ ss, ReadsThrough ts ss := by
  induction h with
  | nil => exact ⟨[], .nil⟩
  | cons hts _ ih =>
    obtain ⟨ss, hss⟩ := hts.2
    obtain ⟨more, hmore⟩ := ih
    exact ⟨ss ++ more, (ReadsThrough.declaration hts.1 hss).append hmore⟩

/-- Reading stops where the input does. -/
theorem ReadsThrough.declarations {ts : List Token} {ss : List (Stmt Unit)}
    (h : ReadsThrough ts ss) {g : Position → Position} {fuel : Nat} {previous : Option Token}
    {faults : List Diagnostic} {t : Token} {rest : List Token} (ht : t.kind = .endOfInput) :
    (declarations fuel (.place previous faults (ts.map (·.move g) ++ t :: rest))).Becomes
      (.ok (Stmt.moveList g ss) (.place (Cursor.last previous (ts.map (·.move g))) faults
        (t :: rest))) := by
  obtain ⟨fuel', hfuel⟩ := h.reads g fuel previous faults (t :: rest) (.cons ht (by decide))
  refine Becomes.trans hfuel ?_
  cases fuel' with
  | zero => exact .inl rfl
  | succ fuel' =>
    rw [Parser.declarations, atEnd_bind, Cursor.place_atEnd, decide_eq_true ht, if_pos rfl]
    exact .inr (by simp [Parsed.map, pure, Parser.pure])

/-- The declarations end where the input does. -/
theorem declarations_atEnd {fuel : Nat} {c c' : Cursor} {ss : List (Stmt Unit)}
    (h : declarations fuel c = .ok ss c') : c'.atEnd := by
  induction fuel generalizing c ss with
  | zero => cases h
  | succ fuel ih =>
    rw [declarations, atEnd_bind] at h
    split at h
    · cases h
      assumption
    · obtain ⟨_, _, -, h⟩ := bind_ok h
      obtain ⟨_, _, hmore, h⟩ := bind_ok h
      cases h
      exact ih hmore

end Parser

/-- The tokens before the end of input. -/
abbrev beforeEnd (tokens : List Token) : List Token :=
  tokens.takeWhile fun t => t.kind ≠ .endOfInput

theorem Cursor.Reach.beforeEnd {c c' : Cursor} {ts : List Token} {fs : List Diagnostic}
    (h : c.Reach c' ts fs) (hend : c'.atEnd) : beforeEnd c.tokens = ts := by
  have hall : ∀ t ∈ ts, decide (t.kind ≠ .endOfInput) = true :=
    fun t ht => decide_eq_true (h.inner t ht)
  rw [Scriptlet.beforeEnd, h.tokens, Cursor.tokens, List.takeWhile_append_of_pos hall,
    List.takeWhile_cons_of_neg (by simpa [Cursor.atEnd] using hend), List.append_nil]

namespace Cursor

theorem place_tokens {previous : Option Token} {faults : List Diagnostic} {ts : List Token}
    (h : ts ≠ []) : (place previous faults ts).tokens = ts := by
  obtain ⟨t, ts, rfl⟩ := List.exists_cons_of_ne_nil h
  rfl

/-- A list of tokens is read up to an end of input that it has, or is given. -/
theorem ofTokens_eq (tokens : List Token) : ∃ ts t, t.kind = .endOfInput ∧
    ofTokens tokens = place none [] (ts ++ [t]) ∧ (tokens = ts ++ [t] ∨ tokens = ts) := by
  have hplace : ofTokens tokens = place none []
      (if tokens.getLast?.any fun t => t.kind = .endOfInput then tokens
        else tokens ++ [.missingEnd]) := by
    unfold ofTokens
    dsimp only
    split <;> next heq => rw [heq]; rfl
  rw [hplace]
  by_cases hended : tokens.getLast?.any (fun t => t.kind = .endOfInput) = true
  · obtain ⟨t, hlast, ht⟩ := (Option.any_eq_true ..).mp hended
    obtain ⟨ts, rfl⟩ := List.getLast?_eq_some_iff.mp hlast
    exact ⟨ts, t, of_decide_eq_true ht, by rw [if_pos hended], .inl rfl⟩
  · exact ⟨tokens, .missingEnd, rfl, by rw [if_neg hended], .inr rfl⟩

/-- A list of tokens with an end is read from its first token on. -/
theorem ofTokens_concat {last : Token} (h : last.kind = .endOfInput) (ts : List Token) :
    ofTokens (ts ++ [last]) = place none [] (ts ++ [last]) := by
  have hended : (ts ++ [last]).getLast?.any (fun t => t.kind = .endOfInput) = true := by
    rw [List.getLast?_concat]
    exact decide_eq_true h
  unfold ofTokens
  dsimp only
  rw [if_pos hended]
  cases ts with
  | nil => rfl
  | cons t ts => rfl

theorem beforeEnd_split {t : Token} (ht : t.kind = .endOfInput) (ts : List Token) :
    ∃ u rest, u.kind = .endOfInput ∧ ts ++ [t] = beforeEnd ts ++ u :: rest := by
  induction ts with
  | nil => exact ⟨t, [], ht, rfl⟩
  | cons u us ih =>
    by_cases hu : u.kind = .endOfInput
    · exact ⟨u, us ++ [t], hu, by rw [beforeEnd, List.takeWhile_cons_of_neg (by simpa)]; rfl⟩
    · obtain ⟨v, rest, hv, heq⟩ := ih
      refine ⟨v, rest, hv, ?_⟩
      rw [beforeEnd, List.takeWhile_cons_of_pos (by simpa), List.cons_append, heq]
      rfl

theorem beforeEnd_concat {t : Token} (ht : t.kind = .endOfInput) (ts : List Token) :
    beforeEnd (ts ++ [t]) = beforeEnd ts := by
  have hnone : beforeEnd [t] = [] := List.takeWhile_cons_of_neg (by simpa using ht)
  rw [beforeEnd] at hnone
  rw [beforeEnd, List.takeWhile_append, hnone, List.append_nil]
  split
  · next hall => exact ((List.takeWhile_prefix _).eq_of_length hall).symm
  · rfl

/-- Reading begins before the tokens that come before the end of input, and an end of input. -/
theorem ofTokens_place (tokens : List Token) : ∃ t rest, t.kind = .endOfInput ∧
    ofTokens tokens = place none [] (beforeEnd tokens ++ t :: rest) := by
  obtain ⟨ts, t, ht, heq, htokens⟩ := ofTokens_eq tokens
  obtain ⟨u, rest, hu, hsplit⟩ := beforeEnd_split ht ts
  refine ⟨u, rest, hu, ?_⟩
  rw [heq, hsplit]
  rcases htokens with rfl | rfl
  · rw [beforeEnd_concat ht]
  · rfl

theorem ofTokens_ended (tokens : List Token) : (ofTokens tokens).Ended ∧
    (ofTokens tokens).tokens.length ≤ tokens.length + 1 := by
  obtain ⟨ts, t, ht, heq, htokens⟩ := ofTokens_eq tokens
  rw [heq, Ended, place_tokens (by simp)]
  refine ⟨⟨ts, t, rfl, ht⟩, ?_⟩
  rcases htokens with rfl | rfl <;> simp

theorem ofTokens_beforeEnd (tokens : List Token) :
    beforeEnd (ofTokens tokens).tokens = beforeEnd tokens := by
  obtain ⟨ts, t, ht, heq, htokens⟩ := ofTokens_eq tokens
  rw [heq, place_tokens (by simp)]
  rcases htokens with rfl | rfl
  · rfl
  · exact beforeEnd_concat ht _

theorem ofTokens_faults (tokens : List Token) : (ofTokens tokens).faults = [] := by
  obtain ⟨t, rest, -, heq⟩ := ofTokens_place tokens
  rw [heq]
  cases beforeEnd tokens <;> rfl

end Cursor

/-! ## Programs and expressions -/

namespace Parser

variable {α : Type}

/-- With the fuel for its tokens the reader of declarations does not starve. -/
theorem sound_declarations (tokens : List Token) :
    (declarations (fuelFor tokens) (.ofTokens tokens)).Sound (.ofTokens tokens) 0
      fun _ => Derives [.many [.decl]] := by
  obtain ⟨hended, hlen⟩ := Cursor.ofTokens_ended tokens
  refine reads_declarations ?_ _ hended hlen trivial
  unfold fuelFor
  omega

theorem sound_expression (tokens : List Token) :
    (expression (fuelFor tokens) (.ofTokens tokens)).Sound (.ofTokens tokens) 0
      fun _ => Derives [.expr] := by
  obtain ⟨hended, hlen⟩ := Cursor.ofTokens_ended tokens
  refine (readsPhrases _).expression (tokens.length + 1) ?_ _ hended hlen trivial
  unfold fuelFor
  omega

/-- What reads soundly ends as it becomes. -/
theorem Becomes.eq {r r' : Parsed α} {c : Cursor} {d : Nat} {P : α → List Token → Prop}
    (h : r.Becomes r') (hsound : r.Sound c d P) : r = r' := by
  rcases h with rfl | rfl
  · exact hsound.elim
  · rfl

/-- What is read up to the end without faults is read from the tokens before the end. -/
theorem sound_at_end {tokens : List Token} {r : Parsed α} {P : α → List Token → Prop} {a : α}
    {c : Cursor} (hsound : r.Sound (.ofTokens tokens) 0 P) (hr : r = .ok a c) (hend : c.atEnd)
    (hfaults : c.faults = []) : P a (beforeEnd tokens) := by
  subst hr
  obtain ⟨ts, fs, hreach, -, hpost⟩ := hsound
  have hnone : fs = [] := by
    have := hreach.faults
    rw [hfaults, Cursor.ofTokens_faults, List.append_nil] at this
    exact this.symm
  rw [← Cursor.ofTokens_beforeEnd, hreach.beforeEnd hend]
  exact hpost hnone

end Parser

section

variable {tokens : List Token} {ss : List (Stmt Unit)} {e : Expr Unit} {c : Cursor}

theorem parseProgram_eq
    (h : Parser.declarations (Parser.fuelFor tokens) (.ofTokens tokens) = .ok ss c) :
    (parseProgram tokens).1.stmts = ss ∧ (parseProgram tokens).2 = c.faults.reverse := by
  unfold parseProgram
  dsimp only
  rw [h]
  exact ⟨rfl, rfl⟩

/-- Without a fault the declarations are read up to the end of the input. -/
theorem parseProgram_clean (h : (parseProgram tokens).2 = []) : ∃ ss c,
    Parser.declarations (Parser.fuelFor tokens) (.ofTokens tokens) = .ok ss c ∧ c.faults = [] := by
  have hsound := Parser.sound_declarations tokens
  unfold parseProgram at h
  dsimp only at h
  cases hr : Parser.declarations (Parser.fuelFor tokens) (.ofTokens tokens) with
  | starved => rw [hr] at hsound; exact hsound.elim
  | failed c =>
    rw [hr] at hsound h
    obtain ⟨ts, fs, hreach, hfs⟩ := hsound
    have hfaults : c.faults = [] := List.reverse_eq_nil_iff.mp h
    rw [hreach.faults] at hfaults
    exact absurd (List.append_eq_nil_iff.mp hfaults).1 hfs
  | ok ss c =>
    rw [hr] at h
    exact ⟨ss, c, rfl, List.reverse_eq_nil_iff.mp h⟩

theorem parseExpression_eq
    (h : Parser.expression (Parser.fuelFor tokens) (.ofTokens tokens) = .ok e c) (hend : c.atEnd) :
    parseExpression tokens = (some e, c.faults.reverse) := by
  unfold parseExpression
  rw [h]
  exact if_pos hend

theorem parseExpression_clean (h : (parseExpression tokens).2 = []) : ∃ e c,
    Parser.expression (Parser.fuelFor tokens) (.ofTokens tokens) = .ok e c ∧ c.atEnd ∧
      c.faults = [] := by
  have hsound := Parser.sound_expression tokens
  unfold parseExpression at h
  cases hr : Parser.expression (Parser.fuelFor tokens) (.ofTokens tokens) with
  | starved => rw [hr] at hsound; exact hsound.elim
  | failed c =>
    rw [hr] at hsound h
    obtain ⟨ts, fs, hreach, hfs⟩ := hsound
    have hfaults : c.faults = [] := List.reverse_eq_nil_iff.mp h
    rw [hreach.faults] at hfaults
    exact absurd (List.append_eq_nil_iff.mp hfaults).1 hfs
  | ok e c =>
    rw [hr] at h
    dsimp only at h
    by_cases hend : c.atEnd = true
    · rw [if_pos hend] at h
      exact ⟨e, c, rfl, hend, List.reverse_eq_nil_iff.mp h⟩
    · rw [if_neg hend] at h
      exact absurd (List.reverse_eq_nil_iff.mp h) (List.cons_ne_nil _ _)

/-- Tokens without a fault derive from the grammar. -/
theorem parseProgram_derives (h : (parseProgram tokens).2 = []) :
    Derives [.file] (beforeEnd tokens) := by
  obtain ⟨ss, c, hr, hfaults⟩ := parseProgram_clean h
  have hrow := Parser.sound_at_end (Parser.sound_declarations tokens) hr
    (Parser.declarations_atEnd hr) hfaults
  exact .of_production .file hrow

theorem Parser.ReadsThrough.parseProgram (h : ReadsThrough (beforeEnd tokens) ss) :
    (parseProgram tokens).1.stmts = ss ∧ (parseProgram tokens).2 = [] := by
  obtain ⟨t, rest, ht, hplace⟩ := Cursor.ofTokens_place tokens
  have hr := @declarations _ _ h id (fuelFor tokens) none [] _ rest ht
  have hstay : (beforeEnd tokens).map (·.move id) = beforeEnd tokens := Token.map_relocate_id _
  have hstay' : Stmt.moveList id ss = ss := Stmt.relocateList_id ss
  rw [hstay, hstay', ← hplace] at hr
  exact parseProgram_eq (Becomes.eq hr (sound_declarations tokens))

/-- What is read from tokens without a fault would also be read among others. -/
theorem parseProgram_readsThrough (h : (parseProgram tokens).2 = []) :
    Parser.ReadsThrough (beforeEnd tokens) (parseProgram tokens).1.stmts := by
  have hreadable : Parser.Readable .file (beforeEnd tokens) :=
    Parser.readable trivial (parseProgram_derives h)
  obtain ⟨ss, hss⟩ := Parser.readsThrough hreadable
  rwa [hss.parseProgram.1]

theorem parseExpression_derives (h : (parseExpression tokens).2 = []) :
    Derives [.expr] (beforeEnd tokens) := by
  obtain ⟨e, c, hr, hend, hfaults⟩ := parseExpression_clean h
  have hexpr := Parser.sound_at_end (Parser.sound_expression tokens) hr hend hfaults
  exact hexpr

/-- An expression that derives from the grammar is read as one that would be read anywhere. -/
theorem parseExpression_recognizes (h : Derives [.expr] (beforeEnd tokens)) : ∃ e : Expr Unit,
    parseExpression tokens = (some e, []) ∧
      Parser.Recognizes Parser.expression (Parser.stops 6) (beforeEnd tokens) (e.move ·) := by
  have hreadable : Parser.Readable .expr (beforeEnd tokens) := Parser.readable trivial h
  obtain ⟨e, he⟩ := hreadable
  obtain ⟨t, rest, ht, hplace⟩ := Cursor.ofTokens_place tokens
  have hr := he id (Parser.fuelFor tokens) none [] (t :: rest) (.cons ht (by decide))
  have hstay : (beforeEnd tokens).map (·.move id) = beforeEnd tokens := Token.map_relocate_id _
  have hstay' : e.move id = e := e.relocate_id
  dsimp only at hr
  rw [hstay, hstay', ← hplace] at hr
  have hread := Parser.Becomes.eq hr (Parser.sound_expression tokens)
  exact ⟨e, parseExpression_eq hread (decide_eq_true ht), he⟩

end

/-- No fault is found in the tokens of a file exactly if they derive from the grammar. -/
theorem parseProgram_accepts_iff (tokens : List Token) :
    (parseProgram tokens).2 = [] ↔
      Derives [.file] (tokens.takeWhile fun t => t.kind ≠ .endOfInput) := by
  refine ⟨parseProgram_derives, fun h => ?_⟩
  have hreadable : Parser.Readable .file (beforeEnd tokens) := Parser.readable trivial h
  obtain ⟨ss, hss⟩ := Parser.readsThrough hreadable
  exact hss.parseProgram.2

/-- No fault is found in the tokens of an expression exactly if they derive from the grammar. -/
theorem parseExpression_clean_iff (tokens : List Token) :
    (parseExpression tokens).2 = [] ↔ Derives [.expr] (beforeEnd tokens) := by
  refine ⟨parseExpression_derives, fun h => ?_⟩
  obtain ⟨e, heq, -⟩ := parseExpression_recognizes h
  rw [heq]

end Scriptlet

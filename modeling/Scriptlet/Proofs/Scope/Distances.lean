import Scriptlet.Proofs.Scope.Agreement
import Scriptlet.Proofs.Scope.Jumps
import Scriptlet.Proofs.Scope.Traversal
import Scriptlet.Proofs.Tree.Reading

/-!
# How far references reach

Every reference of a tree is linked once or not at all, and its link counts the scopes out to the
innermost one that has declared its name before (`references_linked`).

A local variable that is read in its own initializer is looked for outside of its scope, and must be
declared there. Once it was read in the initializer, for instance by a function in there, resolution
takes it for initialized, and the next time it is linked to itself
(`own_initializer_read_again`).
-/

namespace Scriptlet

namespace Spot

/-- Whether a variable is read in its own initializer after it was read there before. -/
def readsAgain (s : Spot) : Bool :=
  match s.item with
  | .read _ name => s.context.layers.head?.any fun l => l.initializing = some name.lexeme && l.early
  | _ => false

/-- The link of a reference where the innermost scope is never left out. -/
def direct? (s : Spot) : Option LinkRecord := s.linkWhere fun _ _ => false

/-- The finding about a variable that is read in its own initializer, whether for the first time or
not. -/
def lexicallyUnbound (s : Spot) : List Diagnostic := s.unboundWhere Context.initializes

end Spot

theorem Context.skips_eq (c : Context) (t : Trail) (start : Position) (name : Token) :
    c.skips name.lexeme =
      (!(⟨c, t, .read start name⟩ : Spot).readsAgain && c.initializes name.lexeme) := by
  unfold Spot.readsAgain Context.skips Context.initializes
  cases c.layers with
  | nil => rfl
  | cons l ls =>
    simp only [List.head?_cons, Option.any_some]
    cases decide (l.initializing = some name.lexeme) <;> cases l.early <;> rfl

namespace Spot

theorem link?_eq (s : Spot) : s.link? = if s.readsAgain then s.direct? else s.lexical? := by
  obtain ⟨c, t, item⟩ := s
  cases item with
  | read start name =>
    unfold link? direct? lexical? linkWhere
    dsimp only
    rw [Context.skips_eq c t start]
    cases readsAgain _ <;> simp
  | _ => rfl

theorem unbound_eq (s : Spot) : s.unbound = if s.readsAgain then [] else s.lexicallyUnbound := by
  obtain ⟨c, t, item⟩ := s
  cases item with
  | read start name =>
    unfold unbound lexicallyUnbound unboundWhere
    dsimp only
    rw [Context.skips_eq c t start]
    cases readsAgain _ <;> simp
  | _ => rfl

/-- A reference is linked unless there is a finding about it. -/
theorem isSome_link? (s : Spot) :
    s.link?.isSome ↔ s.item.reference?.isSome ∧ s.faults = [] := by
  obtain ⟨c, t, item⟩ := s
  cases item with
  | read start name =>
    cases hskips : c.skips name.lexeme <;> cases hbinds : c.bindsOutside name.lexeme <;>
      simp [link?, linkWhere, Item.reference?, faults, misplaced, unbound, unboundWhere, hskips,
        hbinds]
  | receiver => cases hclass : t.class? <;>
      simp [link?, linkWhere, Item.reference?, faults, misplaced, unbound, unboundWhere, hclass]
  | inherited => rcases hclass : t.class? with _ | _ | _ <;>
      simp [link?, linkWhere, Item.reference?, faults, misplaced, unbound, unboundWhere, hclass]
  | _ => simp [link?, linkWhere, Item.reference?, faults, misplaced, unbound, unboundWhere]

end Spot

/-- Findings about variables that are read in their own initializers. -/
def Diagnostic.isOwnInitializer (d : Diagnostic) : Bool := d.code == ("E3002" : Text)

theorem Diagnostic.isFault_of_isOwnInitializer {d : Diagnostic} (h : d.isOwnInitializer = true) :
    d.isFault = true := by
  have hcode : d.code = "E3002" := eq_of_beq h
  unfold isFault
  rw [hcode]
  rfl

theorem Spot.filter_isOwnInitializer_faults (s : Spot) :
    s.faults.filter Diagnostic.isOwnInitializer = s.unbound := by
  have hplacement : ∀ (f : ScopeFault) (token : Token), f.isPlacement →
      (f.report token).isOwnInitializer = false := by
    intro f token hf
    cases f with
    | ownInitializer => cases hf
    | _ => rfl
  rw [filter_faults hplacement fun _ _ => rfl]
  exact List.nil_append _

/-- The links of a resolution are those of some spots, one for each spot that has one. The
references of the resolved tree have these links, which are numbered in their order. -/
structure Resolved.LinkedAs {α : Type} (resolved : Resolved α)
    (references : Site → α → List (Reference (Option Link))) (first : Nat) (spots : List Spot) :
    Prop where
  entries : ∀ Γ, (references Γ resolved.tree).map Reference.entry = Spot.entries first spots
  links : resolved.links = spots.filterMap Spot.link?
  unbound : resolved.report.filter Diagnostic.isOwnInitializer = spots.flatMap Spot.unbound

theorem Resolve.Traverses.linkedAs {α : Type} {x : Resolve α} {globals : List Text}
    {spots : List Spot} {references : Site → α → List (Reference (Option Link))}
    (h : Traverses { globals := globals } x spots fun a met =>
      ∀ Γ, (references Γ a).map Reference.entry = met) (first : Nat) :
    (x.finish globals first).LinkedAs references first spots where
  entries := h.tree first
  links := h.links first
  unbound := h.filter first (fun _ => Diagnostic.isFault_of_isOwnInitializer)
    Spot.filter_isOwnInitializer_faults

/-- Each reference is linked once, to the innermost scope that has declared its name before, and not
at all exactly if there is a finding about it. A variable that is read in its own initializer leaves
the innermost scope out unless it was read there before. What was declared before is what the sites
of the references of a well-formed tree say. -/
theorem references_linked (globals : List Text) (first : Nat) :
    (∀ stmts : List (Stmt Unit),
      let spots := Stmt.spotsList { globals := globals } [] stmts
      Stmt.bareList (resolveStmts globals stmts first).tree = stmts ∧
      (resolveStmts globals stmts first).LinkedAs Stmt.referencesList first spots ∧
      (Stmt.WellFormedList stmts → Spot.Stand spots (Stmt.referencesList [] stmts))) ∧
    (∀ expr : Expr Unit,
      let spots := expr.spots { globals := globals } []
      (resolveExpr globals expr first).tree.bare = expr ∧
      (resolveExpr globals expr first).LinkedAs Expr.references first spots ∧
      (expr.WellFormed → Spot.Stand spots (expr.references []))) ∧
    ∀ s : Spot,
      (s.link?.isSome ↔ s.item.reference?.isSome ∧ s.faults = []) ∧
      s.link? = (if s.readsAgain then s.direct? else s.lexical?) ∧
      s.unbound = if s.readsAgain then [] else s.lexicallyUnbound := by
  refine ⟨fun stmts => ⟨?_, ?_, fun hw => ?_⟩, fun expr => ⟨?_, ?_, fun hw => ?_⟩, fun s => ?_⟩
  · exact (resolveStmts_demands globals stmts first).1
  · exact (resolveStmts_traverses globals stmts).linkedAs first
  · exact (Stmt.leads_list stmts [] hw (.top globals)).stand
  · exact (resolveExpr_demands globals expr first).1
  · exact (resolveExpr_traverses globals expr).linkedAs first
  · exact (expr.leads [] hw (.top globals)).stand
  · exact ⟨s.isSome_link?, s.link?_eq, s.unbound_eq⟩

/-- The initializer of a local variable reads a global of the same name. -/
theorem references_linked_shadowedGlobal :
    let stmts := (parseProgram
      (tokenize "var x = 1; \x7b var x = x; print x; \x7d").tokens).1.stmts
    let expr : Expr Unit := .name .nowhere ⟨.identifier, "x", none, .nowhere⟩ ()
    (resolveStmts [] stmts).links.map LinkRecord.hops = [1, 0] ∧
      (Stmt.WellFormedList stmts ∧
        Spot.Stand (Stmt.spotsList {} [] stmts) (Stmt.referencesList [] stmts)) ∧
      expr.WellFormed ∧ Spot.Stand (expr.spots {} []) (expr.references []) := by
  intro stmts expr
  obtain ⟨hstmts, hexprs, -⟩ := references_linked [] 0
  have hw : Stmt.WellFormedList stmts := parseProgram_wellFormed (tokenize_spelled _)
  have hx : expr.WellFormed := by
    change ("x" : Text) ≠ "super"
    decide
  exact ⟨by decide +kernel, ⟨hw, (hstmts stmts).2.2 hw⟩, hx, (hexprs expr).2.2 hx⟩

/-- Not even in all programs that are parsed does a variable that is read in its own initializer
leave the innermost scope out. -/
theorem own_initializer_read_again :
    ¬ ∀ (globals : List Text) (tokens : List Token),
      let stmts := (parseProgram tokens).1.stmts
      let spots := Stmt.spotsList { globals := globals } [] stmts
      (resolveStmts globals stmts).links = spots.filterMap Spot.lexical? ∧
      (resolveStmts globals stmts).report.filter Diagnostic.isOwnInitializer =
        spots.flatMap Spot.lexicallyUnbound := by
  intro hall
  have hlinks := (hall [] (tokenize "\x7b var f = fun() \x7b return f; \x7d and f; print f; \x7d").tokens).1
  revert hlinks
  decide +kernel

end Scriptlet

import Scriptlet.Proofs.Scope.Layers

/-!
# The scopes of a program

A program is also the list of its scopes: blocks, functions, and the scopes around the methods of a
class. A region is a scope with all that stands in it, and `Stmt.regions` and its companions list
the regions of a tree in the order in which they end. Each local declaration belongs to one of them
(`Stmt.regions_coverList`).

Which declarations of a region are never read is said of its spots alone. There are two ways to
count (`Spot.unreadWhere`): every read that leads to a declaration (`Spot.reads`), or only those
that do not stand in the initializer of the very variable that they read (`Spot.uses`).
-/

namespace Scriptlet

/-- Whether a place stands in the initializer of a variable of the scope at some level. -/
def Context.initializesAt (c : Context) (level : Nat) (x : Text) : Bool :=
  c.layers[c.layers.length - level]?.any fun l => l.initializing = some x

namespace Spot

/-- The name that is declared in the scope at some level. -/
def declares? (level : Nat) (s : Spot) : Option Token :=
  match s.item with
  | .declare name => if s.context.layers.length = level then some name else none
  | _ => none

/-- The name that is declared in a scope further in than some level. -/
def declaresInside? (level : Nat) (s : Spot) : Option Token :=
  match s.item with
  | .declare name => if level < s.context.layers.length then some name else none
  | _ => none

/-- Whether a variable of the scope at some level is read: the spot reads its name, and its link
leads to that scope. -/
def reads (level : Nat) (x : Text) (s : Spot) : Bool :=
  s.item.isRead && s.item.reference?.any (fun name => name.lexeme = x) &&
    s.link?.any fun record => record.depth - record.hops = level

/-- Whether a variable of the scope at some level is read in its own initializer. -/
def readsItself (level : Nat) (s : Spot) : Bool :=
  s.item.reference?.any fun name =>
    s.reads level name.lexeme && s.context.initializesAt level name.lexeme

/-- Whether a variable of the scope at some level is read outside of its own initializer. -/
def uses (level : Nat) (x : Text) (s : Spot) : Bool :=
  s.reads level x && !s.context.initializesAt level x

/-- The names declared in the scope at some level that no later spot reads, where `counts` tells
which spots count as reading a name. -/
def unreadWhere (counts : Nat → Text → Spot → Bool) (level : Nat) : List Spot → List Token
  | [] => []
  | s :: ss =>
    ((s.declares? level).filter fun name => !ss.any (counts level name.lexeme)).toList ++
      unreadWhere counts level ss

end Spot

/-- A scope of a program with all that stands in it. -/
structure Region where
  /-- How many scopes there are around its places, itself included. -/
  level : Nat
  spots : List Spot

namespace Region

/-- The names that a scope declares, in their order. -/
def declared (g : Region) : List Token := g.spots.filterMap (Spot.declares? g.level)

/-- The names of a scope that nothing reads. -/
def unread (g : Region) : List Token := Spot.unreadWhere Spot.reads g.level g.spots

/-- The names of a scope that nothing reads but their own initializers. -/
def unused (g : Region) : List Token := Spot.unreadWhere Spot.uses g.level g.spots

end Region

/-- Warnings about names that nobody reads. -/
def Diagnostic.isUnused (d : Diagnostic) : Bool := d.code == ("W3001" : Text)

/-- The warnings about some names. -/
def unusedWarnings (names : List Token) : Report :=
  names.map fun name => (ScopeFault.unused name.lexeme).report name

/-- The warnings that are due at the ends of some scopes. -/
def Region.warnings (regions : List Region) : Report :=
  regions.flatMap fun g => unusedWarnings g.unused

section

variable {β : Type}

mutual

/-- The scopes in an expression, in the order in which they end. -/
def Expr.regions (c : Context) (t : Trail) : Expr β → List Region
  | .literal .. => []
  | .name .. => []
  | .assign _ _ _ value _ => value.regions c t
  | .binary _ left _ right => left.regions c t ++ right.regions (c.after (left.spots c t)) t
  | .logical _ left _ right => left.regions c t ++ right.regions (c.after (left.spots c t)) t
  | .unary _ _ operand _ => operand.regions c t
  | .ternary _ condition onTrue onFalse =>
    let c₁ := c.after (condition.spots c (.condition :: t))
    condition.regions c (.condition :: t) ++ (onTrue.regions c₁ t ++
      onFalse.regions (c₁.after (onTrue.spots c₁ t)) t)
  | .group _ inner => inner.regions c t
  | .call _ callee _ args =>
    callee.regions c t ++ Expr.regionsList (c.after (callee.spots c t)) t args
  | .lambda function => function.regions c (.function :: t)
  | .get _ object _ => object.regions c t
  | .set _ object _ value => value.regions c t ++ object.regions (c.after (value.spots c t)) t
  | .receiver .. => []
  | .inherited .. => []

def Expr.regionsList (c : Context) (t : Trail) : List (Expr β) → List Region
  | [] => []
  | e :: es => e.regions c t ++ Expr.regionsList (c.after (e.spots c t)) t es

/-- The scopes in a function, the last of which is its own. -/
def Function.regions (c : Context) (t : Trail) : Function β → List Region
  | .mk span keyword params body getter =>
    Stmt.regionsList (c.enter.after (c.enter.parameters t params)) t body ++
      [⟨c.layers.length + 1, (Function.mk span keyword params body getter).spots c t⟩]

/-- The scopes in methods, where `kind` makes an ancestor of the name of each. -/
def Declaration.regionsList (c : Context) (t : Trail) (kind : Text → Ancestor) :
    List (Declaration β) → List Region
  | [] => []
  | .mk _ name function :: ds =>
    function.regions c (kind name.lexeme :: t) ++
      Declaration.regionsList (c.after (function.spots c (kind name.lexeme :: t))) t kind ds

/-- The scopes in a statement. The receiver and the superclass have scopes of their own. -/
def Stmt.regions (c : Context) (t : Trail) : Stmt β → List Region
  | .evaluate _ expr => expr.regions c t
  | .print _ _ value => value.regions c t
  | .declareVar _ _ none => []
  | .declareVar _ name (some init) =>
    init.regions ((c.note ⟨c, t, .declare name⟩).await name.lexeme) t
  | .block _ stmts =>
    Stmt.regionsList c.enter t stmts ++ [⟨c.layers.length + 1, Stmt.spotsList c.enter t stmts⟩]
  | .branch _ condition onTrue none =>
    condition.regions c (.condition :: t) ++
      onTrue.regions (c.after (condition.spots c (.condition :: t))) t
  | .branch _ condition onTrue (some onFalse) =>
    let c₁ := c.after (condition.spots c (.condition :: t))
    condition.regions c (.condition :: t) ++ (onTrue.regions c₁ t ++
      onFalse.regions (c₁.after (onTrue.spots c₁ t)) t)
  | .loop _ condition body none _ =>
    condition.regions c (.condition :: t) ++
      body.regions (c.after (condition.spots c (.condition :: t))) (.loop :: t)
  | .loop _ condition body (some update) _ =>
    let c₁ := c.after (condition.spots c (.condition :: t))
    condition.regions c (.condition :: t) ++ (body.regions c₁ (.loop :: t) ++
      update.regions (c₁.after (body.spots c₁ (.loop :: t))) (.loop :: t))
  | .leave _ _ none => []
  | .leave _ _ (some value) => value.regions c t
  | .breakLoop .. => []
  | .continueLoop .. => []
  | .declareFunction (.mk _ name function) =>
    function.regions (c.note ⟨c, t, .declare name⟩) (.function :: t)
  | .declareClass _ name none methods classMethods =>
    let c₁ := (c.note ⟨c, t, .declare name⟩).enterWith "this"
    let t₁ := .cls false :: t
    let spots := Declaration.spotsList c₁ t₁ .method methods
    Declaration.regionsList c₁ t₁ .method methods ++
      Declaration.regionsList (c₁.after spots) t₁ .classMethod classMethods ++
      [⟨c.layers.length + 1,
        spots ++ Declaration.spotsList (c₁.after spots) t₁ .classMethod classMethods⟩]
  | .declareClass _ name (some (parent, _)) methods classMethods =>
    let c₀ := c.note ⟨c, t, .declare name⟩
    let c₁ := ((c₀.note ⟨c₀, t, .read parent.span.start parent⟩).enterWith "super").enterWith "this"
    let t₁ := .cls true :: t
    let spots := Declaration.spotsList c₁ t₁ .method methods
    let all := spots ++ Declaration.spotsList (c₁.after spots) t₁ .classMethod classMethods
    Declaration.regionsList c₁ t₁ .method methods ++
      Declaration.regionsList (c₁.after spots) t₁ .classMethod classMethods ++
      [⟨c.layers.length + 2, all⟩] ++ [⟨c.layers.length + 1, all⟩]

/-- The scopes in statements one after the other. -/
def Stmt.regionsList (c : Context) (t : Trail) : List (Stmt β) → List Region
  | [] => []
  | s :: ss => s.regions c t ++ Stmt.regionsList (c.after (s.spots c t)) t ss

end

end

/-! ## Declarations and reads of a region -/

namespace Spot

variable {counts counts' : Nat → Text → Spot → Bool} {level : Nat} {spots : List Spot}

theorem reference?_of_reads {s : Spot} {x : Text} (h : s.reads level x) :
    ∃ name, s.item.reference? = some name ∧ name.lexeme = x := by
  rw [reads, Bool.and_eq_true, Bool.and_eq_true] at h
  obtain ⟨name, hname, hx⟩ := (Option.any_eq_true _ _).mp h.1.2
  exact ⟨name, hname, of_decide_eq_true hx⟩

/-- A name is unread if no spot after its declaration counts as reading it. -/
theorem mem_unreadWhere {name : Token} :
    name ∈ unreadWhere counts level spots ↔
      ∃ before s later, spots = before ++ s :: later ∧ s.declares? level = some name ∧
        ∀ s' ∈ later, counts level name.lexeme s' = false := by
  induction spots with
  | nil => simp [unreadWhere]
  | cons s ss ih =>
    rw [unreadWhere, List.mem_append, ih, Option.mem_toList, Option.filter_eq_some_iff,
      Bool.not_eq_true', List.any_eq_false]
    simp only [Bool.not_eq_true]
    constructor
    · rintro (⟨hdeclares, hlater⟩ | ⟨before, s', later, rfl, h⟩)
      · exact ⟨[], s, ss, rfl, hdeclares, hlater⟩
      · exact ⟨s :: before, s', later, rfl, h⟩
    · rintro ⟨_ | ⟨s', before⟩, s'', later, heq, h⟩
      · cases heq
        exact Or.inl h
      · cases heq
        exact Or.inr ⟨before, s'', later, rfl, h⟩

theorem unreadWhere_sublist (counts : Nat → Text → Spot → Bool) (level : Nat) (spots : List Spot) :
    (unreadWhere counts level spots).Sublist (spots.filterMap (declares? level)) := by
  induction spots with
  | nil => exact List.Sublist.slnil
  | cons s ss ih =>
    rw [unreadWhere, List.filterMap_cons]
    cases s.declares? level with
    | none => exact ih
    | some name =>
      rw [Option.filter_some]
      split
      · exact ih.cons_cons name
      · exact ih.cons name

theorem unreadWhere_congr
    (h : ∀ s ∈ spots, ∀ x, counts level x s = counts' level x s) :
    unreadWhere counts level spots = unreadWhere counts' level spots := by
  induction spots with
  | nil => rfl
  | cons s ss ih =>
    have hlater : ∀ x, ss.any (counts level x) = ss.any (counts' level x) := by
      intro x
      rw [Bool.eq_iff_iff, List.any_eq_true, List.any_eq_true]
      refine exists_congr fun s' => and_congr_right fun hs' => ?_
      rw [h s' (List.mem_cons_of_mem s hs')]
    rw [unreadWhere, unreadWhere, ih fun s' hs' => h s' (List.mem_cons_of_mem s hs')]
    simp only [hlater]

end Spot

namespace Spot

/-- What is declared inside of a level is declared one level further in, or still further in. -/
theorem declaresInside?_cases (level : Nat) (s : Spot) :
    s.declaresInside? level = s.declaresInside? (level + 1) ∧ s.declares? (level + 1) = none ∨
      s.declaresInside? level = s.declares? (level + 1) ∧ s.declaresInside? (level + 1) = none := by
  obtain ⟨context, trail, item⟩ := s
  cases item with
  | declare name =>
    simp only [declaresInside?, declares?]
    by_cases hat : context.layers.length = level + 1
    · simp [hat]
    · by_cases hinside : level + 1 < context.layers.length
      · simp [hat, hinside, Nat.lt_of_succ_lt hinside]
      · have hnot : ¬ level < context.layers.length := by omega
        simp [hat, hinside, hnot]
  | _ => exact Or.inl ⟨rfl, rfl⟩

end Spot

namespace Region

variable {g : Region}

/-- The unread names of a scope are among those that it declares, each once and in their order. -/
theorem unused_sublist (g : Region) : g.unused.Sublist g.declared :=
  Spot.unreadWhere_sublist _ _ _

/-- If no name is read in its own initializer, all reads count. -/
theorem unused_eq_unread (h : ∀ s ∈ g.spots, s.readsItself g.level = false) :
    g.unused = g.unread := by
  refine Spot.unreadWhere_congr fun s hs x => ?_
  rw [Spot.uses]
  cases hread : s.reads g.level x with
  | false => rfl
  | true =>
    obtain ⟨name, hname, rfl⟩ := Spot.reference?_of_reads hread
    have hown := h s hs
    rw [Spot.readsItself, hname, Option.any_some, hread, Bool.true_and] at hown
    rw [hown]
    rfl

end Region

/-! ## Every local declaration belongs to one region -/

/-- Regions that declare the names that spots declare further in than some level. -/
def Region.Covers (level : Nat) (spots : List Spot) (regions : List Region) : Prop :=
  (regions.flatMap Region.declared).Perm (spots.filterMap (Spot.declaresInside? level))

namespace Region.Covers

variable {level : Nat} {spots spots' : List Spot} {regions regions' : List Region}

theorem nil (level : Nat) : Region.Covers level [] [] := .refl []

theorem append (h : Region.Covers level spots regions) (h' : Region.Covers level spots' regions') :
    Region.Covers level (spots ++ spots') (regions ++ regions') := by
  unfold Region.Covers
  rw [List.flatMap_append, List.filterMap_append]
  exact List.Perm.append h h'

/-- What stands at a level is not further in. -/
theorem cons {s : Spot} (hs : s.context.layers.length = level)
    (h : Region.Covers level spots regions) : Region.Covers level (s :: spots) regions := by
  have hnone : s.declaresInside? level = none := by
    unfold Spot.declaresInside?
    split
    · rw [hs, if_neg (Nat.lt_irrefl level)]
    · rfl
  unfold Region.Covers
  rw [List.filterMap_cons, hnone]
  exact h

/-- What comes after some spots at the same level. -/
theorem andThen {c : Context} (h : Region.Covers c.layers.length spots regions)
    (h' : Region.Covers (c.after spots).layers.length spots' regions') :
    Region.Covers c.layers.length (spots ++ spots') (regions ++ regions') := by
  rw [Context.length_after] at h'
  exact h.append h'

theorem spot {s : Spot} (hs : s.context.layers.length = level) : Region.Covers level [s] [] :=
  (nil level).cons hs

/-- What stands in a scope, with the region of that scope. -/
theorem scope (h : Region.Covers (level + 1) spots regions) :
    Region.Covers level spots (regions ++ [⟨level + 1, spots⟩]) := by
  have hsplit : (spots.filterMap (Spot.declaresInside? (level + 1)) ++
      spots.filterMap (Spot.declares? (level + 1))).Perm
      (spots.filterMap (Spot.declaresInside? level)) := by
    clear h
    induction spots with
    | nil => exact .refl []
    | cons s ss ih =>
      simp only [List.filterMap_cons]
      rcases s.declaresInside?_cases level with ⟨hinside, hat⟩ | ⟨hat, hinside⟩
      · rw [hinside, hat]
        cases s.declaresInside? (level + 1) with
        | none => exact ih
        | some name => exact ih.cons name
      · rw [hat, hinside]
        cases s.declares? (level + 1) with
        | none => exact ih
        | some name => exact List.perm_middle.trans (ih.cons name)
  unfold Region.Covers
  rw [List.flatMap_append, List.flatMap_singleton]
  exact (List.Perm.append_right _ h).trans hsplit

end Region.Covers

namespace Context

theorem length_await (c : Context) (x : Text) : (c.await x).layers.length = c.layers.length := by
  obtain ⟨layers, globals⟩ := c
  cases layers <;> rfl

theorem length_enterWith (c : Context) (x : Text) :
    (c.enterWith x).layers.length = c.layers.length + 1 := rfl

end Context

section

variable {β : Type}

theorem Context.parameters_cover (c : Context) (t : Trail) (params : List Token) :
    Region.Covers c.layers.length (c.parameters t params) [] := by
  induction params generalizing c with
  | nil => exact .nil _
  | cons p ps ih =>
    have hrest := ih (c.note ⟨c, t, .declare p⟩)
    rw [Context.length_note] at hrest
    exact .cons rfl hrest

mutual

theorem Expr.regions_cover : ∀ (e : Expr β) (c : Context) (t : Trail),
    Region.Covers c.layers.length (e.spots c t) (e.regions c t)
  | .literal .., c, t => by
    rw [Expr.spots, Expr.regions]
    exact .nil _
  | .name .., c, t => by
    rw [Expr.spots, Expr.regions]
    exact .spot rfl
  | .assign _ _ _ value _, c, t => by
    rw [Expr.spots, Expr.regions]
    refine .cons rfl ?_
    rw [← List.append_nil (value.regions c t)]
    exact (value.regions_cover c t).append (.spot (c.length_after _))
  | .binary _ left _ right, c, t => by
    rw [Expr.spots, Expr.regions]
    exact (left.regions_cover c t).andThen (right.regions_cover _ t)
  | .logical _ left _ right, c, t => by
    rw [Expr.spots, Expr.regions]
    exact (left.regions_cover c t).andThen (right.regions_cover _ t)
  | .unary _ _ operand _, c, t => by
    rw [Expr.spots, Expr.regions]
    exact operand.regions_cover c t
  | .ternary _ condition onTrue onFalse, c, t => by
    rw [Expr.spots, Expr.regions]
    refine (condition.regions_cover c (.condition :: t)).andThen ?_
    exact (onTrue.regions_cover _ t).andThen (onFalse.regions_cover _ t)
  | .group _ inner, c, t => by
    rw [Expr.spots, Expr.regions]
    exact inner.regions_cover c t
  | .call _ callee _ args, c, t => by
    rw [Expr.spots, Expr.regions]
    exact (callee.regions_cover c t).andThen (Expr.regions_coverList args _ t)
  | .lambda function, c, t => by
    rw [Expr.spots, Expr.regions]
    exact function.regions_cover c (.function :: t)
  | .get _ object _, c, t => by
    rw [Expr.spots, Expr.regions]
    exact object.regions_cover c t
  | .set _ object _ value, c, t => by
    rw [Expr.spots, Expr.regions]
    exact (value.regions_cover c t).andThen (object.regions_cover _ t)
  | .receiver .., c, t => by
    rw [Expr.spots, Expr.regions]
    exact .spot rfl
  | .inherited .., c, t => by
    rw [Expr.spots, Expr.regions]
    exact .spot rfl

theorem Expr.regions_coverList : ∀ (es : List (Expr β)) (c : Context) (t : Trail),
    Region.Covers c.layers.length (Expr.spotsList c t es) (Expr.regionsList c t es)
  | [], c, t => by
    rw [Expr.spotsList, Expr.regionsList]
    exact .nil _
  | e :: es, c, t => by
    rw [Expr.spotsList, Expr.regionsList]
    exact (e.regions_cover c t).andThen (Expr.regions_coverList es _ t)

theorem Function.regions_cover : ∀ (f : Function β) (c : Context) (t : Trail),
    Region.Covers c.layers.length (f.spots c t) (f.regions c t)
  | .mk _ _ params body _, c, t => by
    rw [Function.regions, Function.spots]
    have hbody := (c.enter.parameters_cover t params).andThen (Stmt.regions_coverList body _ t)
    exact .scope hbody

theorem Declaration.regions_coverList : ∀ (ds : List (Declaration β)) (c : Context) (t : Trail)
    (kind : Text → Ancestor),
    Region.Covers c.layers.length (Declaration.spotsList c t kind ds)
      (Declaration.regionsList c t kind ds)
  | [], c, t, kind => by
    rw [Declaration.spotsList, Declaration.regionsList]
    exact .nil _
  | .mk _ name function :: ds, c, t, kind => by
    rw [Declaration.spotsList, Declaration.regionsList]
    exact (function.regions_cover c (kind name.lexeme :: t)).andThen
      (Declaration.regions_coverList ds _ t kind)

theorem Stmt.regions_cover : ∀ (s : Stmt β) (c : Context) (t : Trail),
    Region.Covers c.layers.length (s.spots c t) (s.regions c t)
  | .evaluate _ expr, c, t => by
    rw [Stmt.spots, Stmt.regions]
    exact expr.regions_cover c t
  | .print _ _ value, c, t => by
    rw [Stmt.spots, Stmt.regions]
    exact value.regions_cover c t
  | .declareVar _ _ none, c, t => by
    rw [Stmt.spots, Stmt.regions]
    exact .spot rfl
  | .declareVar _ name (some init), c, t => by
    rw [Stmt.spots, Stmt.regions]
    have hinit := init.regions_cover ((c.note ⟨c, t, .declare name⟩).await name.lexeme) t
    rw [Context.length_await, Context.length_note] at hinit
    exact hinit.cons rfl
  | .block _ stmts, c, t => by
    rw [Stmt.spots, Stmt.regions]
    exact .scope (Stmt.regions_coverList stmts c.enter t)
  | .branch _ condition onTrue none, c, t => by
    rw [Stmt.spots, Stmt.regions]
    exact (condition.regions_cover c (.condition :: t)).andThen (onTrue.regions_cover _ t)
  | .branch _ condition onTrue (some onFalse), c, t => by
    rw [Stmt.spots, Stmt.regions]
    refine (condition.regions_cover c (.condition :: t)).andThen ?_
    exact (onTrue.regions_cover _ t).andThen (onFalse.regions_cover _ t)
  | .loop _ condition body none _, c, t => by
    rw [Stmt.spots, Stmt.regions]
    exact (condition.regions_cover c (.condition :: t)).andThen (body.regions_cover _ (.loop :: t))
  | .loop _ condition body (some update) _, c, t => by
    rw [Stmt.spots, Stmt.regions]
    refine (condition.regions_cover c (.condition :: t)).andThen ?_
    exact (body.regions_cover _ (.loop :: t)).andThen (update.regions_cover _ (.loop :: t))
  | .leave _ _ none, c, t => by
    rw [Stmt.spots, Stmt.regions]
    exact .spot rfl
  | .leave _ _ (some value), c, t => by
    rw [Stmt.spots, Stmt.regions]
    exact (value.regions_cover c t).cons rfl
  | .breakLoop .., c, t => by
    rw [Stmt.spots, Stmt.regions]
    exact .spot rfl
  | .continueLoop .., c, t => by
    rw [Stmt.spots, Stmt.regions]
    exact .spot rfl
  | .declareFunction (.mk _ name function), c, t => by
    rw [Stmt.spots, Stmt.regions]
    have hfunction := function.regions_cover (c.note ⟨c, t, .declare name⟩) (.function :: t)
    rw [Context.length_note] at hfunction
    exact hfunction.cons rfl
  | .declareClass _ name none methods classMethods, c, t => by
    rw [Stmt.spots, Stmt.regions]
    refine .cons rfl (.scope ?_)
    rw [← c.length_note ⟨c, t, .declare name⟩, ← Context.length_enterWith _ "this"]
    exact (Declaration.regions_coverList methods _ _ .method).andThen
      (Declaration.regions_coverList classMethods _ _ .classMethod)
  | .declareClass _ name (some (parent, _)) methods classMethods, c, t => by
    rw [Stmt.spots, Stmt.regions]
    refine .cons rfl (.cons (c.length_note _) (.cons (c.length_note _) (.scope (.scope ?_))))
    rw [← c.length_note ⟨c, t, .declare name⟩, ← Context.length_note _ ⟨_, t, .read _ parent⟩,
      ← Context.length_enterWith _ "super", ← Context.length_enterWith _ "this"]
    exact (Declaration.regions_coverList methods _ _ .method).andThen
      (Declaration.regions_coverList classMethods _ _ .classMethod)

theorem Stmt.regions_coverList : ∀ (ss : List (Stmt β)) (c : Context) (t : Trail),
    Region.Covers c.layers.length (Stmt.spotsList c t ss) (Stmt.regionsList c t ss)
  | [], c, t => by
    rw [Stmt.spotsList, Stmt.regionsList]
    exact .nil _
  | s :: ss, c, t => by
    rw [Stmt.spotsList, Stmt.regionsList]
    exact (s.regions_cover c t).andThen (Stmt.regions_coverList ss _ t)

end

end

end Scriptlet

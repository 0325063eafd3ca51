import Scriptlet.Proofs.Tree.WellFormed

/-!
# Where references stand

A place of a program stands inside some scopes, and of each of them some names have been declared
before the place is reached. The site of a place lists these scopes, the innermost first, as frames.
`Expr.references` and its companions give the references of a tree in the order in which they are
resolved, each with its site: what lexical scoping says about a program, without any state.

A frame tells apart the names that are bound once the place is reached and those whose initializers
are still going on there. The latter are bound as far as resolution is concerned, but not yet when
the program runs.
-/

namespace Scriptlet

/-- A scope around a place. -/
structure Frame where
  /-- The names that are declared by the end of the scope. -/
  names : List Text
  /-- The names that are bound when the place is reached. -/
  ready : List Text := []
  /-- The names whose initializers the place stands in. -/
  pending : List Text := []

/-- The names that have been declared when a place is reached. -/
def Frame.declared (f : Frame) : List Text := f.pending ++ f.ready

/-- The scopes around a place, the innermost first. -/
abbrev Site := List Frame

namespace Site

/-- Inside the initializer of a name. -/
def await (x : Text) : Site → Site
  | [] => []
  | f :: Γ => { f with pending := x :: f.pending } :: Γ

/-- After a name was bound in the innermost scope. -/
def add (x : Text) : Site → Site
  | [] => []
  | f :: Γ => { f with ready := x :: f.ready } :: Γ

/-- After some names were bound in the innermost scope. -/
def addAll : List Text → Site → Site
  | [], Γ => Γ
  | x :: xs, Γ => addAll xs (Γ.add x)

/-- At the beginning of a new scope. -/
def enter (names : List Text) (Γ : Site) : Site := { names := names } :: Γ

/-- Inside the scope that holds the receiver of a method. -/
def withReceiver (Γ : Site) : Site := (Γ.enter ["this"]).add "this"

/-- Inside the scope that holds the superclass of a derived class. -/
def withSuperclass (derived : Bool) (Γ : Site) : Site :=
  if derived then (Γ.enter ["super"]).add "super" else Γ

/-- Inside the initializer of a name that the innermost scope has declared, this scope is left out
when the name is read; otherwise none is. -/
def LeavesOut (Γ : Site) (x : Text) (skipped : Nat) : Prop :=
  skipped = 0 ∨ skipped = 1 ∧ ∃ f ∈ Γ.head?, x ∈ f.declared

/-- How many scopes out a name is found if some innermost scopes are left out: in the first of the
others that has declared it, or else past all of them. -/
def hops (Γ : Site) (skipped : Nat) (x : Text) : Nat :=
  skipped + (Γ.drop skipped).findIdx fun f => decide (x ∈ f.declared)

theorem LeavesOut.le_length {Γ : Site} {x : Text} {skipped : Nat} (h : Γ.LeavesOut x skipped) :
    skipped ≤ Γ.length := by
  rcases h with rfl | ⟨rfl, f, hf, -⟩
  · exact Nat.zero_le _
  · cases Γ with
    | nil => cases hf
    | cons g Γ => simp

/-- A name is found past all scopes exactly if none of those that count has declared it. -/
theorem hops_eq_length_iff {Γ : Site} {x : Text} {skipped : Nat} (h : Γ.LeavesOut x skipped) :
    Γ.hops skipped x = Γ.length ↔ ∀ f ∈ Γ.drop skipped, x ∉ f.declared := by
  have hle := h.le_length
  have hlen : (Γ.drop skipped).length = Γ.length - skipped := List.length_drop
  have hiff : Γ.hops skipped x = Γ.length ↔
      (Γ.drop skipped).findIdx (fun f => decide (x ∈ f.declared)) = (Γ.drop skipped).length := by
    unfold hops
    omega
  rw [hiff, List.findIdx_eq_length]
  simp

/-- Where a name is found short of that, it has been declared. -/
theorem getElem?_hops {Γ : Site} {x : Text} {skipped : Nat} (h : Γ.LeavesOut x skipped)
    (hne : Γ.hops skipped x ≠ Γ.length) :
    ∃ f, Γ[Γ.hops skipped x]? = some f ∧ x ∈ f.declared := by
  rw [Ne, hops_eq_length_iff h] at hne
  obtain ⟨g, hg, hx⟩ : ∃ g ∈ Γ.drop skipped, x ∈ g.declared :=
    Classical.byContradiction fun hno => hne fun f hf hx => hno ⟨f, hf, hx⟩
  have hlt := List.findIdx_lt_length_of_exists (p := fun f => decide (x ∈ f.declared))
    ⟨g, hg, decide_eq_true hx⟩
  refine ⟨_, ?_, of_decide_eq_true (List.findIdx_getElem (w := hlt))⟩
  rw [hops, ← List.getElem?_drop, List.getElem?_eq_getElem hlt]

end Site

/-- A reference with its site. -/
structure Reference (β : Type) where
  site : Site
  name : Token
  link : β

section

variable {β : Type}

/-- The body of a function, after its parameters were bound. -/
def Site.inFunction (params : List Token) (body : List (Stmt β)) (Γ : Site) : Site :=
  let names := params.map Token.lexeme
  (Γ.enter (names ++ Stmt.declaredList body)).addAll names

mutual

/-- The references of an expression. The value of a field assignment comes before the object. -/
def Expr.references (Γ : Site) : Expr β → List (Reference β)
  | .literal .. => []
  | .name _ name link => [⟨Γ, name, link⟩]
  | .assign _ name _ value link => value.references Γ ++ [⟨Γ, name, link⟩]
  | .binary _ left _ right => left.references Γ ++ right.references Γ
  | .logical _ left _ right => left.references Γ ++ right.references Γ
  | .unary _ _ operand _ => operand.references Γ
  | .ternary _ condition onTrue onFalse =>
    condition.references Γ ++ (onTrue.references Γ ++ onFalse.references Γ)
  | .group _ inner => inner.references Γ
  | .call _ callee _ args => callee.references Γ ++ Expr.referencesList Γ args
  | .lambda function => function.references Γ
  | .get _ object _ => object.references Γ
  | .set _ object _ value => value.references Γ ++ object.references Γ
  | .receiver _ keyword link => [⟨Γ, keyword, link⟩]
  | .inherited _ keyword _ link => [⟨Γ, keyword, link⟩]

def Expr.referencesList (Γ : Site) : List (Expr β) → List (Reference β)
  | [] => []
  | e :: es => e.references Γ ++ Expr.referencesList Γ es

/-- The references of a function. -/
def Function.references (Γ : Site) : Function β → List (Reference β)
  | .mk _ _ params body _ => Stmt.referencesList (Γ.inFunction params body) body

def Declaration.referencesList (Γ : Site) : List (Declaration β) → List (Reference β)
  | [] => []
  | .mk _ _ function :: ds => function.references Γ ++ Declaration.referencesList Γ ds

/-- The references of a statement. The name of a class is bound for its methods, but not yet where
its superclass is named. -/
def Stmt.references (Γ : Site) : Stmt β → List (Reference β)
  | .evaluate _ expr => expr.references Γ
  | .print _ _ value => value.references Γ
  | .declareVar _ _ none => []
  | .declareVar _ name (some init) => init.references (Γ.await name.lexeme)
  | .block _ stmts => Stmt.referencesList (Γ.enter (Stmt.declaredList stmts)) stmts
  | .branch _ condition onTrue none => condition.references Γ ++ onTrue.references Γ
  | .branch _ condition onTrue (some onFalse) =>
    condition.references Γ ++ (onTrue.references Γ ++ onFalse.references Γ)
  | .loop _ condition body none _ => condition.references Γ ++ body.references Γ
  | .loop _ condition body (some update) _ =>
    condition.references Γ ++ (body.references Γ ++ update.references Γ)
  | .leave _ _ none => []
  | .leave _ _ (some value) => value.references Γ
  | .breakLoop .. => []
  | .continueLoop .. => []
  | .declareFunction (.mk _ name function) => function.references (Γ.add name.lexeme)
  | .declareClass _ name superclass methods classMethods =>
    let inside := ((Γ.add name.lexeme).withSuperclass superclass.isSome).withReceiver
    let parent := match superclass with
      | none => []
      | some (parent, link) => [⟨Γ.await name.lexeme, parent, link⟩]
    parent ++ (Declaration.referencesList inside methods ++
      Declaration.referencesList inside classMethods)

def Stmt.referencesList (Γ : Site) : List (Stmt β) → List (Reference β)
  | [] => []
  | s :: ss => s.references Γ ++ Stmt.referencesList (Γ.addAll s.declared) ss

end

end

/-! ## Sites of programs -/

/-- A site in which the superclass of a class is only ever bound one scope outside of a receiver. -/
inductive Site.Shaped : Site → Prop where
  | nil : Shaped []
  | scope {f : Frame} {Γ : Site} : ("super" : Text) ∉ f.declared → Shaped Γ → Shaped (f :: Γ)
  | derived {f g : Frame} {Γ : Site} : ("super" : Text) ∉ f.declared → ("this" : Text) ∈ f.ready →
    ("super" : Text) ∉ g.pending → Shaped Γ → Shaped (f :: g :: Γ)

namespace Site.Shaped

variable {Γ : Site}

theorem await (h : Γ.Shaped) {x : Text} (hx : x ≠ "super") : (Γ.await x).Shaped := by
  cases h with
  | nil => exact .nil
  | scope hf h => exact .scope (by simpa [Frame.declared, hx.symm] using hf) h
  | derived hf ht hg h => exact .derived (by simpa [Frame.declared, hx.symm] using hf) ht hg h

theorem add (h : Γ.Shaped) {x : Text} (hx : x ≠ "super") : (Γ.add x).Shaped := by
  cases h with
  | nil => exact .nil
  | scope hf h => exact .scope (by simpa [Frame.declared, hx.symm] using hf) h
  | derived hf ht hg h =>
    exact .derived (by simpa [Frame.declared, hx.symm] using hf) (List.mem_cons_of_mem _ ht) hg h

theorem addAll {xs : List Text} (h : Γ.Shaped) (hxs : ∀ x ∈ xs, x ≠ "super") :
    (Γ.addAll xs).Shaped := by
  induction xs generalizing Γ with
  | nil => exact h
  | cons x xs ih =>
    rw [List.forall_mem_cons] at hxs
    exact ih (h.add hxs.1) hxs.2

theorem enter (h : Γ.Shaped) (names : List Text) : (Γ.enter names).Shaped :=
  .scope (by simp [Frame.declared]) h

theorem withReceiver (h : Γ.Shaped) (derived : Bool) :
    (Γ.withSuperclass derived).withReceiver.Shaped := by
  have hthis : ("super" : Text) ∉ (⟨["this"], ["this"], []⟩ : Frame).declared := by decide
  cases derived with
  | false => exact .scope hthis h
  | true => exact .derived hthis List.mem_cons_self List.not_mem_nil h

/-- Where a superclass is bound, there is a receiver one scope further in. -/
theorem receiver (h : Γ.Shaped) {k : Nat} {g : Frame} (hg : Γ[k]? = some g)
    (hs : ("super" : Text) ∈ g.declared) :
    ("super" : Text) ∈ g.ready ∧ ∃ j f, k = j + 1 ∧ Γ[j]? = some f ∧ ("this" : Text) ∈ f.ready := by
  induction h generalizing k with
  | nil => simp at hg
  | scope hf _ ih =>
    cases k with
    | zero => cases hg; exact absurd hs hf
    | succ k =>
      obtain ⟨hr, j, f, rfl, hj, ht⟩ := ih hg
      exact ⟨hr, j + 1, f, rfl, hj, ht⟩
  | derived hf ht hp _ ih =>
    match k with
    | 0 => cases hg; exact absurd hs hf
    | 1 =>
      cases hg
      exact ⟨(List.mem_append.mp hs).resolve_left hp, 0, _, rfl, rfl, ht⟩
    | k + 2 =>
      obtain ⟨hr, j, f, rfl, hj, ht⟩ := ih hg
      exact ⟨hr, j + 2, f, rfl, hj, ht⟩

end Site.Shaped

end Scriptlet

import Scriptlet.Proofs.Tree.Movement
import Scriptlet.Scope.Resolver

/-!
# Resolving moved programs

What resolution makes of a program does not depend on where it was written, nor on what was found
and linked before it: on a moved program it takes the same decisions, and the links and findings
that it adds are the same ones, moved. `Resolution.Moved` relates the two states and
`Resolve.Tracks` says that a part of a resolution keeps them related; there is one such statement
for each kind of tree (`Expr.tracks_resolve`, `Stmt.tracks_resolve` and their companions).
-/

namespace Scriptlet

def Binding.move (g : Position → Position) (b : Binding) : Binding :=
  { b with name := b.name.move g }

def LinkRecord.move (g : Position → Position) (l : LinkRecord) : LinkRecord :=
  { l with start := g l.start }

def ScopeStack.move (g : Position → Position) (scopes : ScopeStack) : ScopeStack :=
  scopes.map (List.map (Binding.move g))

/-! ## Moved scopes -/

section

variable (g : Position → Position)

@[simp] theorem Binding.move_state (b : Binding) : (b.move g).state = b.state := rfl

@[simp] theorem Binding.move_lexeme (b : Binding) : (b.move g).name.lexeme = b.name.lexeme := rfl

namespace LocalScope

variable (s : LocalScope)

theorem binds_move (name : Text) : binds (s.map (Binding.move g)) name = s.binds name := by
  simp [binds, List.any_map, Function.comp_def]

theorem find?_move (name : Text) :
    find? (s.map (Binding.move g)) name = (s.find? name).map (Binding.move g) := by
  simp [find?, List.find?_map, Function.comp_def]

theorem put_move (b : Binding) :
    put (b.move g) (s.map (Binding.move g)) = (s.put b).map (Binding.move g) := by
  induction s with
  | nil => rfl
  | cons a s ih =>
    simp only [put, List.map_cons, Binding.move_lexeme, ih]
    split <;> rfl

theorem mark_move (name : Text) (state : BindingState) :
    mark name state (s.map (Binding.move g)) = (s.mark name state).map (Binding.move g) := by
  simp only [mark, List.map_map]
  refine List.map_congr_left fun b _ => ?_
  simp only [Function.comp, Binding.move_lexeme, apply_ite (Binding.move g)]
  rfl

theorem unread_move : unread (s.map (Binding.move g)) = s.unread.map (Token.move g) := by
  simp only [unread, List.filter_map, List.map_map]
  rfl

end LocalScope

namespace ScopeStack

variable (scopes : ScopeStack)

@[simp]
theorem length_move : (scopes.move g).length = scopes.length := List.length_map ..

theorem drop_move (n : Nat) : (scopes.move g).drop n = ScopeStack.move g (scopes.drop n) :=
  (List.map_drop ..).symm

theorem hops?_move (name : Text) : hops? (scopes.move g) name = hops? scopes name := by
  simp only [hops?, move, List.findIdx?_map, Function.comp_def, LocalScope.binds_move]

theorem markAt_move (hops : Nat) (name : Text) (state : BindingState) :
    markAt hops name state (scopes.move g) = (scopes.markAt hops name state).move g := by
  induction scopes generalizing hops with
  | nil => simp [markAt, move]
  | cons s rest ih =>
    cases hops with
    | zero => simp [markAt, move, LocalScope.mark_move]
    | succ hops => exact congrArg _ (ih hops)

end ScopeStack

end

/-! ## Two resolutions side by side -/

/-- A state of the resolution of a program and one of the moved program, where `reported` and
`linked` come from what was resolved before it. -/
structure Resolution.Moved (g : Position → Position) (reported : List Diagnostic)
    (linked : List LinkRecord) (r r' : Resolution) : Prop where
  scopes : r'.scopes = r.scopes.move g
  /-- The same globals, maybe in another order. -/
  globals : ∀ name, r'.globals.contains name = r.globals.contains name
  found : r'.found = r.found.map (Diagnostic.move g) ++ reported
  links : r'.links = r.links.map (LinkRecord.move g) ++ linked
  linkCount : r'.linkCount = r.linkCount

namespace Resolve

variable {α β : Type} {g : Position → Position} {reported : List Diagnostic}
  {linked : List LinkRecord}

/-- A part of a resolution and its counterpart for the moved program; `f` moves what they yield. -/
def Tracks (g : Position → Position) (reported : List Diagnostic) (linked : List LinkRecord)
    (f : α → α) (x x' : Resolve α) : Prop :=
  ∀ r r' : Resolution, r.Moved g reported linked r' →
    (x'.run r').1 = f (x.run r).1 ∧ (x.run r).2.Moved g reported linked (x'.run r').2

section

variable {f : α → α} {f' : β → β}

theorem tracks_pure {a a' : α} (h : a' = f a) :
    Tracks g reported linked f (pure a) (pure a') :=
  fun _ _ hr => ⟨h, hr⟩

theorem Tracks.bind {x x' : Resolve α} {k k' : α → Resolve β}
    (hx : Tracks g reported linked f x x')
    (hk : ∀ a, Tracks g reported linked f' (k a) (k' (f a))) :
    Tracks g reported linked f' (x >>= k) (x' >>= k') := by
  intro r r' hr
  obtain ⟨hvalue, hstate⟩ := hx r r' hr
  have hrest := hk (x.run r).1 _ _ hstate
  rw [← hvalue] at hrest
  exact hrest

/-- A part that looks at the state of the resolution first. -/
theorem tracks_get {k k' : Resolution → Resolve β}
    (hk : ∀ r r' : Resolution, r.Moved g reported linked r' →
      Tracks g reported linked f' (k r) (k' r')) :
    Tracks g reported linked f' (get >>= k) (get >>= k') :=
  fun r r' hr => hk r r' hr r r' hr

theorem tracks_modify {φ φ' : Resolution → Resolution}
    (h : ∀ r r' : Resolution, r.Moved g reported linked r' →
      (φ r).Moved g reported linked (φ' r')) :
    Tracks g reported linked id (modify φ) (modify φ') :=
  fun r r' hr => ⟨rfl, h r r' hr⟩

end

/-! ## Steps -/

theorem tracks_report (fault : ScopeFault) (token : Token) :
    Tracks g reported linked id (report fault token) (report fault (token.move g)) :=
  tracks_modify fun _ _ hr => { hr with found := congrArg (_ :: ·) hr.found }

/-- A finding that is made under some condition. -/
theorem tracks_reportIf {c : Prop} [Decidable c] {f : β → β} {fault : ScopeFault} {token : Token}
    {rest rest' : Unit → Resolve β} (h : ∀ u, Tracks g reported linked f (rest u) (rest' u)) :
    Tracks g reported linked f (if c then report fault token >>= rest else rest ())
      (if c then report fault (token.move g) >>= rest' else rest' ()) := by
  split
  · exact (tracks_report fault token).bind h
  · exact h ()

theorem tracks_openScope : Tracks g reported linked id openScope openScope :=
  tracks_modify fun _ _ hr => { hr with scopes := congrArg ([] :: ·) hr.scopes }

theorem tracks_closeScope : Tracks g reported linked id closeScope closeScope := by
  refine tracks_modify fun r r' hr => ?_
  have hscopes := hr.scopes
  cases hs : r.scopes with
  | nil =>
    rw [hs] at hscopes
    simp only [hscopes, ScopeStack.move, List.map_nil]
    exact hr
  | cons top rest =>
    rw [hs] at hscopes
    simp only [hscopes, ScopeStack.move, List.map_cons]
    refine { hr with scopes := rfl, found := ?_ }
    simp only [LocalScope.unread_move, List.map_append, List.map_reverse, List.map_map,
      List.append_assoc, hr.found]
    rfl

theorem tracks_declare (name : Token) :
    Tracks g reported linked id (declare name) (declare (name.move g)) := by
  refine tracks_get fun r r' hr => ?_
  have hscopes := hr.scopes
  cases hs : r.scopes with
  | nil =>
    rw [hs] at hscopes
    simp only [hscopes, ScopeStack.move, List.map_nil]
    refine tracks_modify fun _ _ hr => { hr with globals := fun x => ?_ }
    simp only [List.contains_cons, hr.globals, Token.relocate_lexeme]
  | cons top rest =>
    rw [hs] at hscopes
    simp only [hscopes, ScopeStack.move, List.map_cons, LocalScope.binds_move,
      Token.relocate_lexeme]
    refine tracks_reportIf fun _ => tracks_modify fun _ _ hr => { hr with scopes := ?_ }
    exact congrArg (· :: ScopeStack.move g rest) (LocalScope.put_move g top ⟨name, .declared⟩)

theorem tracks_define (name : Token) :
    Tracks g reported linked id (define name) (define (name.move g)) := by
  refine tracks_modify fun r r' hr => { hr with scopes := ?_ }
  simp only [hr.scopes, ScopeStack.markAt_move, Token.relocate_lexeme]

/-- Nothing was written for an implicit binding, so it must stay where it is. -/
theorem tracks_bindImplicit (hg : g .nowhere = .nowhere) (name : Text) :
    Tracks g reported linked id (bindImplicit name) (bindImplicit name) := by
  refine tracks_modify fun r r' hr => ?_
  have hscopes := hr.scopes
  cases hs : r.scopes with
  | nil =>
    rw [hs] at hscopes
    simp only [hscopes, ScopeStack.move, List.map_nil]
    exact hr
  | cons top rest =>
    rw [hs] at hscopes
    simp only [hscopes, ScopeStack.move, List.map_cons]
    refine { hr with scopes := ?_ }
    have hput := LocalScope.put_move g top ⟨⟨.identifier, name, none, .nowhere⟩, .read⟩
    have hstay : Span.nowhere.move g = .nowhere := by simp [Span.move, Span.nowhere, hg]
    simp only [Binding.move, Token.move, Token.relocate, hstay] at hput
    exact congrArg (· :: ScopeStack.move g rest) hput

theorem tracks_link {label : Text} {start : Position} {hops : Nat} :
    Tracks g reported linked id (link label start hops) (link label (g start) hops) := by
  intro r r' hr
  have hcount := hr.linkCount
  refine ⟨congrArg (fun n => some (Link.mk n hops)) hcount, hr.scopes, hr.globals, hr.found, ?_,
    congrArg (· + 1) hcount⟩
  change LinkRecord.mk label (g start) hops r'.scopes.length :: r'.links = _
  rw [hr.links, hr.scopes, ScopeStack.length_move]
  rfl

theorem tracks_linkBeyond {skipped : Nat} {label : Text} {start : Position} {name : Text}
    {isRead : Bool} :
    Tracks g reported linked id (linkBeyond skipped label start name isRead)
      (linkBeyond skipped label (g start) name isRead) := by
  refine tracks_get fun r r' hr => ?_
  simp only [hr.scopes, ScopeStack.drop_move, ScopeStack.hops?_move, ScopeStack.length_move]
  split
  · split
    · refine Tracks.bind (tracks_modify fun s s' hs => { hs with scopes := ?_ })
        fun _ => tracks_link
      simp only [hs.scopes, ScopeStack.markAt_move]
    · exact tracks_link
  · exact tracks_link

theorem tracks_linkVariable (start : Position) (name : Token) :
    Tracks g reported linked id (linkVariable start name)
      (linkVariable (g start) (name.move g)) := by
  refine tracks_get fun r r' hr => ?_
  cases hs : r.scopes with
  | nil =>
    have hs' : r'.scopes = [] := by rw [hr.scopes, hs]; rfl
    simp only [hs', Token.relocate_lexeme, Bool.false_eq_true, if_false]
    exact tracks_linkBeyond
  | cons top rest =>
    have hs' : r'.scopes = top.map (Binding.move g) :: ScopeStack.move g rest := by
      rw [hr.scopes, hs]
      rfl
    have hany (p : BindingState → Bool) :
        (LocalScope.find? (top.map (Binding.move g)) name.lexeme).any (fun b => p b.state) =
          (top.find? name.lexeme).any fun b => p b.state := by
      rw [LocalScope.find?_move, Option.any_map]
      rfl
    simp only [hs', Token.relocate_lexeme, hany fun state => state = .declared,
      List.drop_succ_cons, List.drop_zero, ScopeStack.hops?_move, hr.globals]
    split
    · split
      · exact tracks_linkBeyond
      · exact (tracks_report _ name).bind fun _ => tracks_pure rfl
    · exact tracks_linkBeyond

theorem tracks_parameters (params : List Token) :
    Tracks g reported linked id (parameters params) (parameters (params.map (Token.move g))) := by
  induction params with
  | nil => exact tracks_pure rfl
  | cons p ps ih => exact (tracks_declare p).bind fun _ => (tracks_define p).bind fun _ => ih

end Resolve

/-! ## Trees -/

open Resolve

section

variable {g : Position → Position} {reported : List Diagnostic} {linked : List LinkRecord}

mutual

theorem Expr.tracks_resolve (hg : g .nowhere = .nowhere) : ∀ (e : Expr Unit) (s : Surroundings),
    Tracks g reported linked (Expr.move g) (e.resolve s) ((e.relocate (Span.move g)).resolve s)
  | .literal span value, s => by
    rw [Expr.relocate, Expr.resolve, Expr.resolve]
    exact tracks_pure rfl
  | .name span name _, s => by
    rw [Expr.relocate, Expr.resolve, Expr.resolve]
    exact (tracks_linkVariable span.start name).bind fun _ => tracks_pure rfl
  | .assign span name op value _, s => by
    rw [Expr.relocate, Expr.resolve, Expr.resolve]
    refine tracks_reportIf fun _ => (value.tracks_resolve hg s).bind fun _ => ?_
    exact tracks_linkBeyond.bind fun _ => tracks_pure rfl
  | .binary span left op right, s | .logical span left op right, s => by
    rw [Expr.relocate, Expr.resolve, Expr.resolve]
    refine (left.tracks_resolve hg s).bind fun _ => (right.tracks_resolve hg s).bind fun _ => ?_
    exact tracks_pure rfl
  | .unary span op operand trailing, s => by
    rw [Expr.relocate, Expr.resolve, Expr.resolve]
    exact (operand.tracks_resolve hg s).bind fun _ => tracks_pure rfl
  | .ternary span condition onTrue onFalse, s => by
    rw [Expr.relocate, Expr.resolve, Expr.resolve]
    refine (condition.tracks_resolve hg _).bind fun _ => ?_
    refine (onTrue.tracks_resolve hg s).bind fun _ => ?_
    exact (onFalse.tracks_resolve hg s).bind fun _ => tracks_pure rfl
  | .group span inner, s => by
    rw [Expr.relocate, Expr.resolve, Expr.resolve]
    exact (inner.tracks_resolve hg s).bind fun _ => tracks_pure rfl
  | .call span callee paren args, s => by
    rw [Expr.relocate, Expr.resolve, Expr.resolve]
    refine (callee.tracks_resolve hg s).bind fun _ => ?_
    exact (Expr.tracks_resolveList hg args s).bind fun _ => tracks_pure rfl
  | .lambda function, s => by
    rw [Expr.relocate, Expr.resolve, Expr.resolve]
    exact (function.tracks_resolve hg _).bind fun _ => tracks_pure rfl
  | .get span object name, s => by
    rw [Expr.relocate, Expr.resolve, Expr.resolve]
    exact (object.tracks_resolve hg s).bind fun _ => tracks_pure rfl
  | .set span object name value, s => by
    rw [Expr.relocate, Expr.resolve, Expr.resolve]
    refine (value.tracks_resolve hg s).bind fun _ => (object.tracks_resolve hg s).bind fun _ => ?_
    exact tracks_pure rfl
  | .receiver span keyword _, s => by
    rw [Expr.relocate, Expr.resolve, Expr.resolve]
    split
    · exact (tracks_report _ keyword).bind fun _ => tracks_pure rfl
    · exact tracks_linkBeyond.bind fun _ => tracks_pure rfl
  | .inherited span keyword method _, s => by
    rw [Expr.relocate, Expr.resolve, Expr.resolve]
    split
    · exact (tracks_report _ keyword).bind fun _ => tracks_pure rfl
    · exact (tracks_report _ keyword).bind fun _ => tracks_pure rfl
    · exact tracks_linkBeyond.bind fun _ => tracks_pure rfl

theorem Expr.tracks_resolveList (hg : g .nowhere = .nowhere) : ∀ (es : List (Expr Unit))
    (s : Surroundings),
    Tracks g reported linked (Expr.moveList g) (Expr.resolveList s es)
      (Expr.resolveList s (Expr.relocateList (Span.move g) es))
  | [], s => by
    rw [Expr.relocateList, Expr.resolveList]
    exact tracks_pure rfl
  | e :: es, s => by
    rw [Expr.relocateList, Expr.resolveList, Expr.resolveList]
    refine (e.tracks_resolve hg s).bind fun _ => (Expr.tracks_resolveList hg es s).bind fun _ => ?_
    exact tracks_pure rfl

theorem Function.tracks_resolve (hg : g .nowhere = .nowhere) : ∀ (f : Function Unit)
    (s : Surroundings),
    Tracks g reported linked (Function.move g) (f.resolve s)
      ((f.relocate (Span.move g)).resolve s)
  | .mk span keyword params body getter, s => by
    rw [Function.relocate, Function.resolve, Function.resolve]
    refine tracks_openScope.bind fun _ => (tracks_parameters params).bind fun _ => ?_
    refine (Stmt.tracks_resolveList hg body _).bind fun _ => tracks_closeScope.bind fun _ => ?_
    exact tracks_pure rfl

theorem Declaration.tracks_resolveMethods (hg : g .nowhere = .nowhere) :
    ∀ (ds : List (Declaration Unit)) (s : Surroundings) (initializers : Bool),
    Tracks g reported linked (Declaration.moveList g)
      (Declaration.resolveMethods s initializers ds)
      (Declaration.resolveMethods s initializers (Declaration.relocateList (Span.move g) ds))
  | [], s, initializers => by
    rw [Declaration.relocateList, Declaration.resolveMethods]
    exact tracks_pure rfl
  | .mk span name function :: rest, s, initializers => by
    rw [Declaration.relocateList, Declaration.relocate, Declaration.resolveMethods,
      Declaration.resolveMethods]
    refine (function.tracks_resolve hg _).bind fun _ => ?_
    exact (Declaration.tracks_resolveMethods hg rest s initializers).bind fun _ => tracks_pure rfl

theorem Stmt.tracks_resolve (hg : g .nowhere = .nowhere) : ∀ (stmt : Stmt Unit) (s : Surroundings),
    Tracks g reported linked (Stmt.move g) (stmt.resolve s)
      ((stmt.relocate (Span.move g)).resolve s)
  | .evaluate span expr, s => by
    rw [Stmt.relocate, Stmt.resolve, Stmt.resolve]
    exact (expr.tracks_resolve hg s).bind fun _ => tracks_pure rfl
  | .print span keyword value, s => by
    rw [Stmt.relocate, Stmt.resolve, Stmt.resolve]
    exact (value.tracks_resolve hg s).bind fun _ => tracks_pure rfl
  | .declareVar span name none, s => by
    rw [Stmt.relocate, Stmt.resolve, Stmt.resolve]
    refine (tracks_declare name).bind fun _ => (tracks_define name).bind fun _ => ?_
    exact tracks_pure rfl
  | .declareVar span name (some init), s => by
    rw [Stmt.relocate, Stmt.resolve, Stmt.resolve]
    refine (tracks_declare name).bind fun _ => (init.tracks_resolve hg s).bind fun _ => ?_
    exact (tracks_define name).bind fun _ => tracks_pure rfl
  | .block span stmts, s => by
    rw [Stmt.relocate, Stmt.resolve, Stmt.resolve]
    refine tracks_openScope.bind fun _ => (Stmt.tracks_resolveList hg stmts s).bind fun _ => ?_
    exact tracks_closeScope.bind fun _ => tracks_pure rfl
  | .branch span condition onTrue none, s => by
    rw [Stmt.relocate, Stmt.resolve, Stmt.resolve]
    refine (condition.tracks_resolve hg _).bind fun _ => ?_
    exact (onTrue.tracks_resolve hg s).bind fun _ => tracks_pure rfl
  | .branch span condition onTrue (some onFalse), s => by
    rw [Stmt.relocate, Stmt.resolve, Stmt.resolve]
    refine (condition.tracks_resolve hg _).bind fun _ => ?_
    refine (onTrue.tracks_resolve hg s).bind fun _ => ?_
    exact (onFalse.tracks_resolve hg s).bind fun _ => tracks_pure rfl
  | .loop span condition body none bodyFirst, s => by
    rw [Stmt.relocate, Stmt.resolve, Stmt.resolve]
    refine (condition.tracks_resolve hg _).bind fun _ => (body.tracks_resolve hg _).bind fun _ => ?_
    exact tracks_pure rfl
  | .loop span condition body (some update) bodyFirst, s => by
    rw [Stmt.relocate, Stmt.resolve, Stmt.resolve]
    refine (condition.tracks_resolve hg _).bind fun _ => (body.tracks_resolve hg _).bind fun _ => ?_
    exact (update.tracks_resolve hg _).bind fun _ => tracks_pure rfl
  | .leave span keyword none, s => by
    rw [Stmt.relocate, Stmt.resolve, Stmt.resolve]
    exact tracks_reportIf fun _ => tracks_pure rfl
  | .leave span keyword (some value), s => by
    rw [Stmt.relocate, Stmt.resolve, Stmt.resolve]
    refine tracks_reportIf fun _ => tracks_reportIf fun _ => ?_
    exact (value.tracks_resolve hg s).bind fun _ => tracks_pure rfl
  | .breakLoop span keyword, s => by
    rw [Stmt.relocate, Stmt.resolve, Stmt.resolve]
    split
    · exact tracks_pure rfl
    · exact (tracks_report _ keyword).bind fun _ => tracks_pure rfl
  | .continueLoop span keyword, s => by
    rw [Stmt.relocate, Stmt.resolve, Stmt.resolve]
    split
    · exact tracks_pure rfl
    · exact (tracks_report _ keyword).bind fun _ => tracks_pure rfl
  | .declareFunction (.mk span name function), s => by
    rw [Stmt.relocate, Declaration.relocate, Stmt.resolve, Stmt.resolve]
    refine (tracks_declare name).bind fun _ => (tracks_define name).bind fun _ => ?_
    exact (function.tracks_resolve hg _).bind fun _ => tracks_pure rfl
  | .declareClass span name none methods classMethods, s => by
    rw [Stmt.relocate, Option.map_none, Stmt.resolve, Stmt.resolve]
    refine (tracks_declare name).bind fun _ => (tracks_define name).bind fun _ => ?_
    refine tracks_openScope.bind fun _ => (tracks_bindImplicit hg _).bind fun _ => ?_
    refine (Declaration.tracks_resolveMethods hg methods _ true).bind fun _ => ?_
    refine (Declaration.tracks_resolveMethods hg classMethods _ false).bind fun _ => ?_
    exact tracks_closeScope.bind fun _ => tracks_pure rfl
  | .declareClass span name (some (parent, _)) methods classMethods, s => by
    rw [Stmt.relocate, Option.map_some, Stmt.resolve, Stmt.resolve]
    refine (tracks_declare name).bind fun _ => (tracks_define name).bind fun _ => ?_
    refine tracks_reportIf fun _ => (tracks_linkVariable parent.span.start parent).bind fun _ => ?_
    refine tracks_openScope.bind fun _ => (tracks_bindImplicit hg _).bind fun _ => ?_
    refine tracks_openScope.bind fun _ => (tracks_bindImplicit hg _).bind fun _ => ?_
    refine (Declaration.tracks_resolveMethods hg methods _ true).bind fun _ => ?_
    refine (Declaration.tracks_resolveMethods hg classMethods _ false).bind fun _ => ?_
    refine tracks_closeScope.bind fun _ => tracks_closeScope.bind fun _ => ?_
    exact tracks_pure rfl

theorem Stmt.tracks_resolveList (hg : g .nowhere = .nowhere) : ∀ (stmts : List (Stmt Unit))
    (s : Surroundings),
    Tracks g reported linked (Stmt.moveList g) (Stmt.resolveList s stmts)
      (Stmt.resolveList s (Stmt.relocateList (Span.move g) stmts))
  | [], s => by
    rw [Stmt.relocateList, Stmt.resolveList]
    exact tracks_pure rfl
  | stmt :: stmts, s => by
    rw [Stmt.relocateList, Stmt.resolveList, Stmt.resolveList]
    refine (stmt.tracks_resolve hg s).bind fun _ => ?_
    exact (Stmt.tracks_resolveList hg stmts s).bind fun _ => tracks_pure rfl

end

end

end Scriptlet

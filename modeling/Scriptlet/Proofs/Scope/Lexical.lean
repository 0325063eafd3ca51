import Scriptlet.Scope.Resolver

/-!
# What stands where in a program

Lexical scoping is a matter of the text alone. Of every place of a program it says which scopes are
around it and which names were declared in them before, and what else is around it: functions,
methods and classes, loops, conditions. The spots of a tree (`Expr.spots` and its companions) are
its declarations, references and jumps in the order in which they are met, each with what is around
it. A spot alone decides where its reference leads (`Spot.link?`) and whether something about it is
wrong (`Spot.misplaced`, `Spot.unbound`).

One thing about a place is not seen from what is around it: in the initializer of a local variable,
whether the variable was read there before (`Layer.early`).
-/

namespace Scriptlet

/-! ## What is around a place -/

/-- A part of a program that other parts stand in. -/
inductive Ancestor where
  /-- The body of a function literal or of a declared function. -/
  | function
  | method (name : Text)
  | classMethod (name : Text)
  /-- A class, derived from another or not. -/
  | cls (derived : Bool)
  /-- The body or the update of a loop. -/
  | loop
  /-- The condition of a branch, a loop or a ternary. -/
  | condition
  deriving DecidableEq, Repr

/-- Functions of all kinds. -/
def Ancestor.isFunction : Ancestor → Bool
  | .function | .method _ | .classMethod _ => true
  | _ => false

/-- Whether a class is derived. -/
def Ancestor.derived? : Ancestor → Option Bool
  | .cls derived => some derived
  | _ => none

/-- All that a place stands in, the innermost first. -/
abbrev Trail := List Ancestor

namespace Trail

/-- The innermost function. -/
def function? (t : Trail) : Option Ancestor := t.find? Ancestor.isFunction

/-- Whether the innermost class is derived, if there is a class. -/
def class? (t : Trail) : Option Bool := t.findSome? Ancestor.derived?

/-- Whether there is a loop inside of the innermost function. -/
def inLoop (t : Trail) : Bool := (t.takeWhile fun a => !a.isFunction).contains .loop

/-- Whether there is a condition, at any distance. -/
def inCondition (t : Trail) : Bool := t.contains .condition

end Trail

/-- A scope around a place. -/
structure Layer where
  /-- The names that were declared before. -/
  names : List Text := []
  /-- The variable of the scope whose initializer the place stands in. -/
  initializing : Option Text := none
  /-- Whether this variable was read in its initializer before. -/
  early : Bool := false

/-- Whether a name was declared in a scope before. -/
def Layer.binds (l : Layer) (x : Text) : Bool := l.names.contains x

@[simp]
theorem Layer.binds_eq (l : Layer) (x : Text) : l.binds x = decide (x ∈ l.names) :=
  List.contains_eq_mem x l.names

/-- The scopes around a place, the innermost first, and the names that are known at top level. -/
structure Context where
  layers : List Layer := []
  globals : List Text := []

namespace Context

/-- In a new scope. -/
def enter (c : Context) : Context := { c with layers := {} :: c.layers }

/-- In a new scope that holds a name from its beginning. -/
def enterWith (x : Text) (c : Context) : Context := { c with layers := { names := [x] } :: c.layers }

/-- Out of the innermost scope. -/
def leave (c : Context) : Context := { c with layers := c.layers.tail }

/-- In the initializer of a variable of the innermost scope; there are none at top level. -/
def await (x : Text) (c : Context) : Context :=
  match c.layers with
  | [] => c
  | l :: ls => { c with layers := { l with initializing := some x, early := false } :: ls }

/-- How many scopes lie inside of the innermost one that has declared a name, where a number of
scopes is left out. If none has declared it, all of them count. -/
def distance (c : Context) (skipped : Nat) (x : Text) : Nat :=
  skipped + (c.layers.drop skipped).findIdx fun l => l.binds x

/-- Whether a place stands in the initializer of a variable of the innermost scope. -/
def initializes (c : Context) (x : Text) : Bool :=
  c.layers.head?.any fun l => l.initializing = some x

/-- Whether a place stands in the initializer of a variable of the innermost scope, and the variable
was not read there before. -/
def skips (c : Context) (x : Text) : Bool :=
  c.layers.head?.any fun l => l.initializing = some x && !l.early

/-- Whether a name is declared outside of the innermost scope. -/
def bindsOutside (c : Context) (x : Text) : Bool :=
  c.layers.tail.any (fun l => l.binds x) || c.globals.contains x

/-- The link of a reference that leaves a number of scopes out. -/
def link (c : Context) (skipped : Nat) (label : Text) (start : Position) (x : Text) : LinkRecord :=
  ⟨label, start, c.distance skipped x, c.layers.length⟩

end Context

/-! ## Spots -/

/-- What can stand at a place. -/
inductive Item where
  | declare (name : Token)
  | read (start : Position) (name : Token)
  /-- The target of an assignment, after its value. -/
  | write (start : Position) (name op : Token)
  | receiver (start : Position) (keyword : Token)
  | inherited (start : Position) (keyword method : Token)
  /-- The beginning of an assignment. -/
  | assignment (op : Token)
  /-- A class that names its superclass. -/
  | derive (name parent : Token)
  | leave (keyword : Token) (valued : Bool)
  | breakLoop (keyword : Token)
  | continueLoop (keyword : Token)

namespace Item

/-- The name that a reference refers to. -/
def reference? : Item → Option Token
  | .read _ name | .write _ name _ | .receiver _ name | .inherited _ name _ => some name
  | _ => none

/-- Whether a variable is read. An assignment that combines reads its target. -/
def isRead : Item → Bool
  | .read .. | .receiver .. | .inherited .. => true
  | .write _ _ op => op.kind.isCompoundAssign
  | _ => false

end Item

/-- An item with what is around it. -/
structure Spot where
  context : Context
  trail : Trail
  item : Item

namespace Spot

/-- The link of a reference, where `skips` tells in which places a variable that is read leaves the
innermost scope out. It must be declared outside then. -/
def linkWhere (skips : Context → Text → Bool) (s : Spot) : Option LinkRecord :=
  match s.item with
  | .read start name =>
    if skips s.context name.lexeme then
      if s.context.bindsOutside name.lexeme then
        some (s.context.link 1 ("var " ++ name.lexeme) start name.lexeme)
      else none
    else some (s.context.link 0 ("var " ++ name.lexeme) start name.lexeme)
  | .write start name _ => some (s.context.link 0 ("assign " ++ name.lexeme) start name.lexeme)
  | .receiver start keyword =>
    if s.trail.class?.isSome then some (s.context.link 0 "this" start keyword.lexeme) else none
  | .inherited start keyword method =>
    if s.trail.class? = some true then
      some (s.context.link 0 ("super." ++ method.lexeme) start keyword.lexeme)
    else none
  | _ => none

/-- The link of a reference. -/
def link? (s : Spot) : Option LinkRecord := s.linkWhere Context.skips

/-- The link of a reference if a variable that is read in its own initializer always leaves the
innermost scope out. -/
def lexical? (s : Spot) : Option LinkRecord := s.linkWhere Context.initializes

/-- The finding about an item that may not stand where it does. -/
def misplaced (s : Spot) : List Diagnostic :=
  match s.item with
  | .declare name =>
    if s.context.layers.head?.any fun l => l.binds name.lexeme then
      [(ScopeFault.redeclared name.lexeme).report name]
    else []
  | .receiver _ keyword =>
    if s.trail.class?.isNone then [ScopeFault.receiverOutsideClass.report keyword] else []
  | .inherited _ keyword _ =>
    match s.trail.class? with
    | none => [ScopeFault.inheritedOutsideClass.report keyword]
    | some false => [ScopeFault.inheritedWithoutSuperclass.report keyword]
    | some true => []
  | .assignment op =>
    if s.trail.inCondition then [ScopeFault.assignmentInCondition.report op] else []
  | .derive name parent =>
    if parent.lexeme = name.lexeme then [ScopeFault.selfInheritance.report parent] else []
  | .leave keyword valued =>
    if s.trail.function?.isNone then [ScopeFault.topLevelReturn.report keyword]
    else if valued ∧ s.trail.function? = some (.method "init") then
      [ScopeFault.initializerValue.report keyword]
    else []
  | .breakLoop keyword => if s.trail.inLoop then [] else [ScopeFault.strayBreak.report keyword]
  | .continueLoop keyword => if s.trail.inLoop then [] else [ScopeFault.strayContinue.report keyword]
  | _ => []

/-- The finding about a variable that leaves the innermost scope out, as `skips` tells, and is not
declared outside. -/
def unboundWhere (skips : Context → Text → Bool) (s : Spot) : List Diagnostic :=
  match s.item with
  | .read _ name =>
    if skips s.context name.lexeme && !s.context.bindsOutside name.lexeme then
      [(ScopeFault.ownInitializer name.lexeme).report name]
    else []
  | _ => []

/-- The finding about a variable that is read in its own initializer. -/
def unbound (s : Spot) : List Diagnostic := s.unboundWhere Context.skips

/-- All that is wrong about a spot. -/
def faults (s : Spot) : List Diagnostic := s.misplaced ++ s.unbound

end Spot

/-- Whether a finding is about something that stands where it may not, or is declared twice. -/
def ScopeFault.isPlacement : ScopeFault → Bool
  | .ownInitializer _ | .unused _ => false
  | _ => true

namespace Spot

variable {s : Spot} {d : Diagnostic}

theorem mem_misplaced (h : d ∈ s.misplaced) :
    ∃ (f : ScopeFault) (token : Token), f.isPlacement ∧ d = f.report token := by
  unfold misplaced at h
  repeat' split at h
  all_goals first
    | exact absurd h List.not_mem_nil
    | exact ⟨_, _, rfl, List.mem_singleton.mp h⟩

theorem mem_unbound (h : d ∈ s.unbound) :
    ∃ (name : Text) (token : Token), d = (ScopeFault.ownInitializer name).report token := by
  unfold unbound unboundWhere at h
  repeat' split at h
  all_goals first
    | exact absurd h List.not_mem_nil
    | exact ⟨_, _, List.mem_singleton.mp h⟩

/-- Findings of some kind about a spot, if the kind tells those about its place from the others. -/
theorem filter_faults {p : Diagnostic → Bool} {b b' : Bool}
    (hplacement : ∀ (f : ScopeFault) (token : Token), f.isPlacement → p (f.report token) = b)
    (hother : ∀ (name : Text) (token : Token),
      p ((ScopeFault.ownInitializer name).report token) = b') :
    s.faults.filter p = (if b then s.misplaced else []) ++ if b' then s.unbound else [] := by
  have hmisplaced : ∀ d ∈ s.misplaced, p d = b := by
    intro d hd
    obtain ⟨f, token, hf, rfl⟩ := mem_misplaced hd
    exact hplacement f token hf
  have hunbound : ∀ d ∈ s.unbound, p d = b' := by
    intro d hd
    obtain ⟨name, token, rfl⟩ := mem_unbound hd
    exact hother name token
  have hsame : ∀ (ds : Report) (b : Bool), (∀ d ∈ ds, p d = b) →
      ds.filter p = if b then ds else [] := by
    intro ds b h
    cases b with
    | false => exact List.filter_eq_nil_iff.mpr fun d hd => by rw [h d hd]; exact Bool.false_ne_true
    | true => exact List.filter_eq_self.mpr h
  rw [faults, List.filter_append, hsame _ _ hmisplaced, hsame _ _ hunbound]

end Spot

/-! ## The next place -/

/-- What a spot does to a scope around it. The level of a scope counts the scopes around it, itself
included; globals are at level zero. -/
inductive Effect where
  | declares (level : Nat) (x : Text)
  | reads (level : Nat) (x : Text)

namespace Effect

def level : Effect → Nat
  | .declares level _ | .reads level _ => level

/-- A declaration adds a name, and a variable that is read in its initializer is read early. -/
def onLayer : Effect → Layer → Layer
  | .declares _ x, l => { l with names := x :: l.names }
  | .reads _ x, l => if l.initializing = some x then { l with early := true } else l

/-- Only the scope at the level of the effect changes. -/
def onLayers (e : Effect) : List Layer → List Layer
  | [] => []
  | l :: ls => (if e.level = ls.length + 1 then e.onLayer l else l) :: e.onLayers ls

def onGlobals : Effect → List Text → List Text
  | .declares 0 x, xs => x :: xs
  | _, xs => xs

end Effect

/-- The effect of a spot, if it has one. -/
def Spot.effect? (s : Spot) : Option Effect :=
  match s.item with
  | .declare name => some (.declares s.context.layers.length name.lexeme)
  | item =>
    match item.reference?, s.link? with
    | some name, some record =>
      if item.isRead then some (.reads (record.depth - record.hops) name.lexeme) else none
    | _, _ => none

namespace Context

/-- At the next place after a spot. -/
def note (c : Context) (s : Spot) : Context :=
  match s.effect? with
  | some e => ⟨e.onLayers c.layers, e.onGlobals c.globals⟩
  | none => c

/-- At the next place after some spots. -/
def after (c : Context) (spots : List Spot) : Context := spots.foldl note c

end Context

/-! ## The spots of a tree -/

/-- The parameters of a function, one after the other. -/
def Context.parameters (c : Context) (t : Trail) : List Token → List Spot
  | [] => []
  | p :: ps => ⟨c, t, .declare p⟩ :: (c.note ⟨c, t, .declare p⟩).parameters t ps

section

variable {β : Type}

mutual

/-- The spots of an expression. The value of a field assignment comes before the object. -/
def Expr.spots (c : Context) (t : Trail) : Expr β → List Spot
  | .literal .. => []
  | .name span name _ => [⟨c, t, .read span.start name⟩]
  | .assign span name op value _ =>
    ⟨c, t, .assignment op⟩ :: (value.spots c t ++
      [⟨c.after (value.spots c t), t, .write span.start name op⟩])
  | .binary _ left _ right => left.spots c t ++ right.spots (c.after (left.spots c t)) t
  | .logical _ left _ right => left.spots c t ++ right.spots (c.after (left.spots c t)) t
  | .unary _ _ operand _ => operand.spots c t
  | .ternary _ condition onTrue onFalse =>
    let c₁ := c.after (condition.spots c (.condition :: t))
    condition.spots c (.condition :: t) ++ (onTrue.spots c₁ t ++
      onFalse.spots (c₁.after (onTrue.spots c₁ t)) t)
  | .group _ inner => inner.spots c t
  | .call _ callee _ args => callee.spots c t ++ Expr.spotsList (c.after (callee.spots c t)) t args
  | .lambda function => function.spots c (.function :: t)
  | .get _ object _ => object.spots c t
  | .set _ object _ value => value.spots c t ++ object.spots (c.after (value.spots c t)) t
  | .receiver span keyword _ => [⟨c, t, .receiver span.start keyword⟩]
  | .inherited span keyword method _ => [⟨c, t, .inherited span.start keyword method⟩]

def Expr.spotsList (c : Context) (t : Trail) : List (Expr β) → List Spot
  | [] => []
  | e :: es => e.spots c t ++ Expr.spotsList (c.after (e.spots c t)) t es

/-- The spots of a function, whose parameters and body share a scope. -/
def Function.spots (c : Context) (t : Trail) : Function β → List Spot
  | .mk _ _ params body _ =>
    c.enter.parameters t params ++
      Stmt.spotsList (c.enter.after (c.enter.parameters t params)) t body

/-- The spots of methods, where `kind` makes an ancestor of the name of each. -/
def Declaration.spotsList (c : Context) (t : Trail) (kind : Text → Ancestor) :
    List (Declaration β) → List Spot
  | [] => []
  | .mk _ name function :: ds =>
    function.spots c (kind name.lexeme :: t) ++
      Declaration.spotsList (c.after (function.spots c (kind name.lexeme :: t))) t kind ds

/-- The spots of a statement. A variable is declared before its initializer; the receiver and the
superclass are bound in scopes of their own around the methods of a class. -/
def Stmt.spots (c : Context) (t : Trail) : Stmt β → List Spot
  | .evaluate _ expr => expr.spots c t
  | .print _ _ value => value.spots c t
  | .declareVar _ name none => [⟨c, t, .declare name⟩]
  | .declareVar _ name (some init) =>
    ⟨c, t, .declare name⟩ :: init.spots ((c.note ⟨c, t, .declare name⟩).await name.lexeme) t
  | .block _ stmts => Stmt.spotsList c.enter t stmts
  | .branch _ condition onTrue none =>
    condition.spots c (.condition :: t) ++
      onTrue.spots (c.after (condition.spots c (.condition :: t))) t
  | .branch _ condition onTrue (some onFalse) =>
    let c₁ := c.after (condition.spots c (.condition :: t))
    condition.spots c (.condition :: t) ++ (onTrue.spots c₁ t ++
      onFalse.spots (c₁.after (onTrue.spots c₁ t)) t)
  | .loop _ condition body none _ =>
    condition.spots c (.condition :: t) ++
      body.spots (c.after (condition.spots c (.condition :: t))) (.loop :: t)
  | .loop _ condition body (some update) _ =>
    let c₁ := c.after (condition.spots c (.condition :: t))
    condition.spots c (.condition :: t) ++ (body.spots c₁ (.loop :: t) ++
      update.spots (c₁.after (body.spots c₁ (.loop :: t))) (.loop :: t))
  | .leave _ keyword none => [⟨c, t, .leave keyword false⟩]
  | .leave _ keyword (some value) => ⟨c, t, .leave keyword true⟩ :: value.spots c t
  | .breakLoop _ keyword => [⟨c, t, .breakLoop keyword⟩]
  | .continueLoop _ keyword => [⟨c, t, .continueLoop keyword⟩]
  | .declareFunction (.mk _ name function) =>
    ⟨c, t, .declare name⟩ :: function.spots (c.note ⟨c, t, .declare name⟩) (.function :: t)
  | .declareClass _ name none methods classMethods =>
    let c₁ := (c.note ⟨c, t, .declare name⟩).enterWith "this"
    let t₁ := .cls false :: t
    ⟨c, t, .declare name⟩ :: (Declaration.spotsList c₁ t₁ .method methods ++
      Declaration.spotsList (c₁.after (Declaration.spotsList c₁ t₁ .method methods)) t₁
        .classMethod classMethods)
  | .declareClass _ name (some (parent, _)) methods classMethods =>
    let c₀ := c.note ⟨c, t, .declare name⟩
    let read : Spot := ⟨c₀, t, .read parent.span.start parent⟩
    let c₁ := ((c₀.note read).enterWith "super").enterWith "this"
    let t₁ := .cls true :: t
    ⟨c, t, .declare name⟩ :: ⟨c₀, t, .derive name parent⟩ :: read ::
      (Declaration.spotsList c₁ t₁ .method methods ++
        Declaration.spotsList (c₁.after (Declaration.spotsList c₁ t₁ .method methods)) t₁
          .classMethod classMethods)

/-- The spots of statements one after the other. -/
def Stmt.spotsList (c : Context) (t : Trail) : List (Stmt β) → List Spot
  | [] => []
  | s :: ss => s.spots c t ++ Stmt.spotsList (c.after (s.spots c t)) t ss

end

end

end Scriptlet

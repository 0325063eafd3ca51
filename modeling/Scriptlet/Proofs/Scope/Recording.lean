import Scriptlet.Proofs.Tree.Numbering
import Scriptlet.Scope.Resolver

/-!
# Links in a table

What resolution finds out about references can be written into a table, under their numbers, and
the tree be left as it is. Such a walk (`Expr.record`, `Stmt.record`) writes an entry in the moment
in which it looks a reference up, and the entry stays, whatever the walk finds later. References
that are refused get no entry.

The walk does what resolution does: it ends in the same state, with the same findings, and the
entries that it has written are the links that stand in the resolved tree (`Expr.records`,
`Stmt.records` and their companions; `recordStmts_eq`, `recordExpr_eq` at top level). Only the count
of the links may be another one. Where all numbers are new, each reference is then found in the
table as it is linked in the resolved tree (`LinkTable.lookup_fileAll`).
-/

namespace Scriptlet

/-- How many scopes out names are bound, under the numbers of the references to them. An entry hides
the ones before it with its number. -/
abbrev LinkTable := List (Nat × Int)

namespace LinkTable

/-- Writes down what a reference is linked to, if it is. -/
def file (T : LinkTable) (node : Nat) : Option Link → LinkTable
  | none => T
  | some l => (node, l.hops) :: T

/-- Writes down what references are linked to, one after the other. -/
def fileAll (T : LinkTable) (met : List (Nat × Option Link)) : LinkTable :=
  met.foldl (fun T (node, link) => T.file node link) T

theorem fileAll_append (T : LinkTable) (met met' : List (Nat × Option Link)) :
    T.fileAll (met ++ met') = (T.fileAll met).fileAll met' :=
  List.foldl_append ..

theorem file_congr {link link' : Option Link} (h : link'.map Link.hops = link.map Link.hops)
    (T : LinkTable) (node : Nat) : T.file node link' = T.file node link := by
  match link, link', h with
  | none, none, _ => rfl
  | some ⟨_, _⟩, some ⟨_, _⟩, h => cases h; rfl

variable {T : LinkTable} {node : Nat} {link : Option Link} {met : List (Nat × Option Link)}

theorem lookup_file_of_ne {node' : Nat} (h : node' ≠ node) :
    (T.file node link).lookup node' = T.lookup node' := by
  cases link with
  | none => rfl
  | some l => rw [file, List.lookup_cons, beq_false_of_ne h]

theorem lookup_file_self (h : T.lookup node = none) :
    (T.file node link).lookup node = link.map Link.hops := by
  cases link with
  | none => exact h
  | some l => rw [file, List.lookup_cons, beq_self_eq_true]; rfl

/-- The entries of other references stay. -/
theorem lookup_fileAll_of_notMem (h : node ∉ met.map Prod.fst) :
    (T.fileAll met).lookup node = T.lookup node := by
  induction met generalizing T with
  | nil => rfl
  | cons entry met ih =>
    rw [List.map_cons, List.mem_cons, not_or] at h
    exact (ih h.2).trans (lookup_file_of_ne h.1)

/-- If all numbers are new, each reference is found linked as it was met. -/
theorem lookup_fileAll (hdistinct : (met.map Prod.fst).Nodup) (hnew : T.lookup node = none)
    (h : (node, link) ∈ met) : (T.fileAll met).lookup node = link.map Link.hops := by
  induction met generalizing T with
  | nil => cases h
  | cons entry met ih =>
    obtain ⟨hfirst, hrest⟩ := List.nodup_cons.mp hdistinct
    rcases List.mem_cons.mp h with rfl | h
    · exact (lookup_fileAll_of_notMem hfirst).trans (lookup_file_self hnew)
    · have hne : node ≠ entry.1 := fun heq => hfirst (heq ▸ List.mem_map_of_mem h)
      exact ih hrest ((lookup_file_of_ne hne).trans hnew) h

end LinkTable

/-- A step of a walk that writes into a table. -/
abbrev Recording := StateT LinkTable Resolve

/-- Links a reference and writes that down. -/
def Recording.keep (node : Nat) (x : Resolve (Option Link)) : Recording Unit := do
  let link ← x
  modify fun T => T.file node link

open Resolve Recording

mutual

/-- Writes down what the references of an expression are linked to. -/
def Expr.record (s : Surroundings) : Expr Nat → Recording Unit
  | .literal .. => return
  | .name span name node => keep node (linkVariable span.start name)
  | .assign span name op value node => do
    if s.inCondition then report .assignmentInCondition op
    value.record s
    keep node (linkBeyond 0 ("assign " ++ name.lexeme) span.start name.lexeme
      op.kind.isCompoundAssign)
  | .binary _ left _ right => do
    left.record s
    right.record s
  | .logical _ left _ right => do
    left.record s
    right.record s
  | .unary _ _ operand _ => operand.record s
  | .ternary _ condition onTrue onFalse => do
    condition.record { s with inCondition := true }
    onTrue.record s
    onFalse.record s
  | .group _ inner => inner.record s
  | .call _ callee _ args => do
    callee.record s
    Expr.recordList s args
  | .lambda function => function.record { s with function := .function }
  | .get _ object _ => object.record s
  | .set _ object _ value => do
    value.record s
    object.record s
  | .receiver span keyword node =>
    match s.cls with
    | .none => report .receiverOutsideClass keyword
    | _ => keep node (linkBeyond 0 "this" span.start keyword.lexeme true)
  | .inherited span keyword method node =>
    match s.cls with
    | .none => report .inheritedOutsideClass keyword
    | .plain => report .inheritedWithoutSuperclass keyword
    | .derived =>
      keep node (linkBeyond 0 ("super." ++ method.lexeme) span.start keyword.lexeme true)

def Expr.recordList (s : Surroundings) : List (Expr Nat) → Recording Unit
  | [] => return
  | e :: es => do
    e.record s
    Expr.recordList s es

def Function.record (s : Surroundings) : Function Nat → Recording Unit
  | .mk _ _ params body _ => do
    openScope
    parameters params
    Stmt.recordList { s with inLoop := false } body
    closeScope

def Declaration.recordMethods (s : Surroundings) (initializers : Bool) :
    List (Declaration Nat) → Recording Unit
  | [] => return
  | .mk _ name function :: rest => do
    let kind : FunctionKind :=
      if initializers && name.lexeme == ("init" : Text) then .initializer else .method
    function.record { s with function := kind }
    Declaration.recordMethods s initializers rest

/-- Writes down what the references of a statement are linked to. -/
def Stmt.record (s : Surroundings) : Stmt Nat → Recording Unit
  | .evaluate _ expr => expr.record s
  | .print _ _ value => value.record s
  | .declareVar _ name none => do
    declare name
    define name
  | .declareVar _ name (some init) => do
    declare name
    init.record s
    define name
  | .block _ stmts => do
    openScope
    Stmt.recordList s stmts
    closeScope
  | .branch _ condition onTrue none => do
    condition.record { s with inCondition := true }
    onTrue.record s
  | .branch _ condition onTrue (some onFalse) => do
    condition.record { s with inCondition := true }
    onTrue.record s
    onFalse.record s
  | .loop _ condition body none _ => do
    condition.record { s with inCondition := true }
    body.record { s with inLoop := true }
  | .loop _ condition body (some update) _ => do
    condition.record { s with inCondition := true }
    body.record { s with inLoop := true }
    update.record { s with inLoop := true }
  | .leave _ keyword none => do
    if s.function = .none then report .topLevelReturn keyword
  | .leave _ keyword (some value) => do
    if s.function = .none then report .topLevelReturn keyword
    if s.function = .initializer then report .initializerValue keyword
    value.record s
  | .breakLoop _ keyword => do
    unless s.inLoop do report .strayBreak keyword
  | .continueLoop _ keyword => do
    unless s.inLoop do report .strayContinue keyword
  | .declareFunction (.mk _ name function) => do
    declare name
    define name
    function.record { s with function := .function }
  | .declareClass _ name none methods classMethods => do
    declare name
    define name
    openScope
    bindImplicit "this"
    Declaration.recordMethods { s with cls := .plain } true methods
    Declaration.recordMethods { s with cls := .plain } false classMethods
    closeScope
  | .declareClass _ name (some (parent, node)) methods classMethods => do
    declare name
    define name
    if parent.lexeme == name.lexeme then report .selfInheritance parent
    keep node (linkVariable parent.span.start parent)
    openScope
    bindImplicit "super"
    openScope
    bindImplicit "this"
    Declaration.recordMethods { s with cls := .derived } true methods
    Declaration.recordMethods { s with cls := .derived } false classMethods
    closeScope
    closeScope

def Stmt.recordList (s : Surroundings) : List (Stmt Nat) → Recording Unit
  | [] => return
  | stmt :: stmts => do
    stmt.record s
    Stmt.recordList s stmts

end

/-! ## States with another count -/

/-- Two states of a resolution that differ at most in the count of the links. -/
structure Resolution.Agrees (r r' : Resolution) : Prop where
  scopes : r'.scopes = r.scopes
  globals : r'.globals = r.globals
  found : r'.found = r.found
  links : r'.links = r.links

namespace Recording

variable {α β γ : Type}

/-- A part of a resolution in which it hardly matters how many links were counted before: what `f`
tells of the thing that it yields is always the same. -/
def Uncounted (f : α → γ) (y : Resolve α) : Prop :=
  ∀ r r' : Resolution, r.Agrees r' →
    f (y.run r').1 = f (y.run r).1 ∧ (y.run r).2.Agrees (y.run r').2

theorem uncounted_pure (f : α → γ) (a : α) : Uncounted f (pure a) := fun _ _ h => ⟨rfl, h⟩

theorem uncounted_modify {φ : Resolution → Resolution}
    (h : ∀ r r' : Resolution, r.Agrees r' → (φ r).Agrees (φ r')) : Uncounted id (modify φ) :=
  fun r r' hr => ⟨rfl, h r r' hr⟩

theorem Uncounted.bind {f : β → γ} {y : Resolve α} {k : α → Resolve β} (hy : Uncounted id y)
    (hk : ∀ a, Uncounted f (k a)) : Uncounted f (y >>= k) := by
  intro r r' h
  obtain ⟨hvalue, hstate⟩ := hy r r' h
  have hrest := hk (y.run r).1 _ _ hstate
  change f ((k (y.run r').1).run (y.run r').2).1 = _ ∧
    Resolution.Agrees _ ((k (y.run r').1).run (y.run r').2).2
  rw [show (y.run r').1 = (y.run r).1 from hvalue]
  exact hrest

/-- A part that looks at the state of the resolution first. -/
theorem uncounted_get {f : α → γ} {k : Resolution → Resolve α}
    (hk : ∀ r r' : Resolution, r.Agrees r' → k r' = k r) (h : ∀ r, Uncounted f (k r)) :
    Uncounted f (get >>= k) := by
  intro r r' hr
  change f ((k r').run r').1 = _ ∧ Resolution.Agrees _ ((k r').run r').2
  rw [hk r r' hr]
  exact h r r r' hr

theorem uncounted_report (fault : ScopeFault) (token : Token) :
    Uncounted id (report fault token) :=
  uncounted_modify fun _ _ hr => { hr with found := congrArg (_ :: ·) hr.found }

theorem uncounted_openScope : Uncounted id openScope :=
  uncounted_modify fun _ _ hr => { hr with scopes := congrArg ([] :: ·) hr.scopes }

theorem uncounted_closeScope : Uncounted id closeScope := by
  refine uncounted_modify fun r r' hr => ?_
  rw [hr.scopes, hr.found]
  cases r.scopes with
  | nil => exact hr
  | cons top rest => exact ⟨rfl, hr.globals, rfl, hr.links⟩

theorem uncounted_define (name : Token) : Uncounted id (define name) := by
  refine uncounted_modify fun r r' hr => ?_
  rw [hr.scopes]
  exact ⟨rfl, hr.globals, hr.found, hr.links⟩

theorem uncounted_bindImplicit (name : Text) : Uncounted id (bindImplicit name) := by
  refine uncounted_modify fun r r' hr => ?_
  rw [hr.scopes]
  cases r.scopes with
  | nil => exact hr
  | cons top rest => exact ⟨rfl, hr.globals, hr.found, hr.links⟩

theorem uncounted_declare (name : Token) : Uncounted id (declare name) := by
  refine uncounted_get (fun r r' hr => by rw [hr.scopes]) fun r => ?_
  cases r.scopes with
  | nil =>
    refine uncounted_modify fun _ _ hr => { hr with globals := ?_ }
    rw [hr.globals]
  | cons top rest =>
    have hput : Uncounted id (modify fun r : Resolution =>
        { r with scopes := top.put ⟨name, .declared⟩ :: rest }) :=
      uncounted_modify fun _ _ hr => { hr with scopes := rfl }
    dsimp only
    split
    · exact (uncounted_report _ name).bind fun _ => hput
    · exact hput

theorem uncounted_parameters (params : List Token) : Uncounted id (parameters params) := by
  induction params with
  | nil => exact uncounted_pure id ()
  | cons p ps ih => exact (uncounted_declare p).bind fun _ => (uncounted_define p).bind fun _ => ih

/-- The number of a link depends on the count of those before it, but not where it leads. -/
theorem uncounted_link {label : Text} {start : Position} {hops : Nat} :
    Uncounted (Option.map Link.hops) (link label start hops) := by
  intro r r' hr
  refine ⟨rfl, hr.scopes, hr.globals, hr.found, ?_⟩
  change LinkRecord.mk label start hops r'.scopes.length :: r'.links = _
  rw [hr.links, hr.scopes]
  rfl

theorem uncounted_linkBeyond {skipped : Nat} {label : Text} {start : Position} {name : Text}
    {isRead : Bool} :
    Uncounted (Option.map Link.hops) (linkBeyond skipped label start name isRead) := by
  refine uncounted_get (fun r r' hr => by rw [hr.scopes]) fun r => ?_
  dsimp only
  split
  · split
    · refine Uncounted.bind (uncounted_modify fun _ _ hr => { hr with scopes := ?_ }) fun _ =>
        uncounted_link
      rw [hr.scopes]
    · exact uncounted_link
  · exact uncounted_link

theorem uncounted_linkVariable (start : Position) (name : Token) :
    Uncounted (Option.map Link.hops) (linkVariable start name) := by
  refine uncounted_get (fun r r' hr => by rw [hr.scopes, hr.globals]) fun r => ?_
  cases r.scopes with
  | nil => exact uncounted_linkBeyond
  | cons top rest =>
    dsimp only
    split
    · split
      · exact uncounted_linkBeyond
      · exact (uncounted_report _ name).bind fun _ => uncounted_pure _ none
    · exact uncounted_linkBeyond

/-! ## What a walk writes down -/

/-- A part of a walk that does what a part of a resolution does. What the latter yields is related
to what the walk writes down. -/
def Records (x : Recording Unit) (y : Resolve α) (P : α → List (Nat × Option Link) → Prop) : Prop :=
  ∀ (T : LinkTable) (r r' : Resolution), r.Agrees r' → ∃ met,
    ((x.run T).run r').1 = ((), T.fileAll met) ∧ (y.run r).2.Agrees ((x.run T).run r').2 ∧
      P (y.run r).1 met

variable {P : α → List (Nat × Option Link) → Prop} {Q : β → List (Nat × Option Link) → Prop}
  {x x' : Recording Unit}

theorem records_pure {a : α} (h : P a []) : Records (pure ()) (pure a) P :=
  fun _ _ _ hr => ⟨[], rfl, hr, h⟩

theorem Records.bind {y : Resolve α} {k : α → Resolve β} (hx : Records x y P)
    (hk : ∀ a met, P a met → Records x' (k a) fun b met' => Q b (met ++ met')) :
    Records (x >>= fun _ => x') (y >>= k) Q := by
  intro T r r' hr
  obtain ⟨met, hvalue, hstate, ha⟩ := hx T r r' hr
  obtain ⟨met', hvalue', hstate', hb⟩ := hk _ met ha (T.fileAll met) _ _ hstate
  have hrun : ((x >>= fun _ => x').run T).run r' =
      (x'.run (T.fileAll met)).run ((x.run T).run r').2 := by
    change (x'.run ((x.run T).run r').1.2).run ((x.run T).run r').2 = _
    rw [hvalue]
  rw [hrun]
  refine ⟨met ++ met', ?_, hstate', hb⟩
  rw [hvalue', T.fileAll_append]

theorem Records.map {y : Resolve α} {f : α → β} (hx : Records x y P)
    (hf : ∀ a met, P a met → Q (f a) met) : Records x (y >>= fun a => pure (f a)) Q := by
  intro T r r' hr
  obtain ⟨met, hvalue, hstate, ha⟩ := hx T r r' hr
  exact ⟨met, hvalue, hstate, hf _ met ha⟩

/-- A step that resolution makes as well. -/
theorem Records.step {y : Resolve α} {k : α → Resolve β} (hy : Uncounted id y)
    (hk : ∀ a, Records x' (k a) Q) : Records (liftM y >>= fun _ => x') (y >>= k) Q := by
  intro T r r' hr
  obtain ⟨-, hstate⟩ := hy r r' hr
  exact hk _ T _ _ hstate

/-- A last step that resolution makes as well. -/
theorem records_last {y : Resolve Unit} {b : β} (hy : Uncounted id y) (h : Q b []) :
    Records (liftM y) (y >>= fun _ => pure b) Q :=
  fun _ r r' hr => ⟨[], rfl, (hy r r' hr).2, h⟩

/-- A reference that is refused. Nothing is written down for it. -/
theorem records_refuse (fault : ScopeFault) (token : Token) {node : Nat} {b : β}
    (h : Q b [(node, none)]) :
    Records (liftM (report fault token)) (report fault token >>= fun _ => pure b) Q :=
  fun _ r r' hr => ⟨[(node, none)], rfl, (uncounted_report fault token r r' hr).2, h⟩

/-- A finding that is made under the same condition. -/
theorem Records.reportIf {b : Prop} [Decidable b] {fault : ScopeFault} {token : Token}
    {k : Unit → Recording Unit} {k' : Unit → Resolve β} (hk : ∀ u, Records (k u) (k' u) Q) :
    Records (if b then liftM (report fault token) >>= k else k ())
      (if b then report fault token >>= k' else k' ()) Q := by
  split
  · exact Records.step (uncounted_report fault token) hk
  · exact hk ()

theorem records_keep {y : Resolve (Option Link)} (hy : Uncounted (Option.map Link.hops) y)
    (node : Nat) : Records (keep node y) y fun link met => met = [(node, link)] := by
  intro T r r' hr
  obtain ⟨hvalue, hstate⟩ := hy r r' hr
  refine ⟨_, ?_, hstate, rfl⟩
  change ((), T.file node (y.run r').1) = _
  rw [LinkTable.file_congr hvalue]
  rfl

end Recording

/-! ## Trees -/

/-- A numbered tree, and what resolution makes of it, with the numbers and links that were met on
the way: all of them show one tree, which has both a number and a link at each reference. -/
def Expr.Filed (e : Expr Nat) (e' : Expr (Option Link)) (met : List (Nat × Option Link)) : Prop :=
  ∃ p : Expr (Nat × Option Link),
    p.mapLinks Prod.fst = e ∧ p.mapLinks Prod.snd = e' ∧ p.links = met

def Expr.FiledList (es : List (Expr Nat)) (es' : List (Expr (Option Link)))
    (met : List (Nat × Option Link)) : Prop :=
  ∃ ps : List (Expr (Nat × Option Link)), Expr.mapLinksList Prod.fst ps = es ∧
    Expr.mapLinksList Prod.snd ps = es' ∧ Expr.linksList ps = met

def Function.Filed (f : Function Nat) (f' : Function (Option Link))
    (met : List (Nat × Option Link)) : Prop :=
  ∃ p : Function (Nat × Option Link),
    p.mapLinks Prod.fst = f ∧ p.mapLinks Prod.snd = f' ∧ p.links = met

def Declaration.FiledList (ds : List (Declaration Nat)) (ds' : List (Declaration (Option Link)))
    (met : List (Nat × Option Link)) : Prop :=
  ∃ ps : List (Declaration (Nat × Option Link)), Declaration.mapLinksList Prod.fst ps = ds ∧
    Declaration.mapLinksList Prod.snd ps = ds' ∧ Declaration.linksList ps = met

def Stmt.Filed (s : Stmt Nat) (s' : Stmt (Option Link)) (met : List (Nat × Option Link)) : Prop :=
  ∃ p : Stmt (Nat × Option Link),
    p.mapLinks Prod.fst = s ∧ p.mapLinks Prod.snd = s' ∧ p.links = met

def Stmt.FiledList (ss : List (Stmt Nat)) (ss' : List (Stmt (Option Link)))
    (met : List (Nat × Option Link)) : Prop :=
  ∃ ps : List (Stmt (Nat × Option Link)), Stmt.mapLinksList Prod.fst ps = ss ∧
    Stmt.mapLinksList Prod.snd ps = ss' ∧ Stmt.linksList ps = met

mutual

theorem Expr.records : ∀ (e : Expr Nat) (s : Surroundings),
    Records (e.record s) ((e.mapLinks fun _ => ()).resolve s) e.Filed
  | .literal span value, s => by
    rw [Expr.record, Expr.mapLinks, Expr.resolve]
    exact records_pure ⟨.literal span value, rfl, rfl, rfl⟩
  | .name span name node, s => by
    rw [Expr.record, Expr.mapLinks, Expr.resolve]
    refine (records_keep (uncounted_linkVariable _ _) node).map fun link met hmet => ?_
    exact ⟨.name span name (node, link), rfl, rfl, hmet.symm⟩
  | .assign span name op value node, s => by
    rw [Expr.record, Expr.mapLinks, Expr.resolve]
    refine .reportIf fun _ => (value.records s).bind fun value met hvalue => ?_
    refine (records_keep uncounted_linkBeyond node).map fun link met' hmet => ?_
    obtain ⟨p, rfl, rfl, rfl⟩ := hvalue
    exact ⟨.assign span name op p (node, link), rfl, rfl, congrArg (p.links ++ ·) hmet.symm⟩
  | .binary span left op right, s => by
    rw [Expr.record, Expr.mapLinks, Expr.resolve]
    refine (left.records s).bind fun left met hleft => ?_
    refine (right.records s).map fun right met' hright => ?_
    obtain ⟨p, rfl, rfl, rfl⟩ := hleft
    obtain ⟨q, rfl, rfl, rfl⟩ := hright
    exact ⟨.binary span p op q, rfl, rfl, rfl⟩
  | .logical span left op right, s => by
    rw [Expr.record, Expr.mapLinks, Expr.resolve]
    refine (left.records s).bind fun left met hleft => ?_
    refine (right.records s).map fun right met' hright => ?_
    obtain ⟨p, rfl, rfl, rfl⟩ := hleft
    obtain ⟨q, rfl, rfl, rfl⟩ := hright
    exact ⟨.logical span p op q, rfl, rfl, rfl⟩
  | .unary span op operand trailing, s => by
    rw [Expr.record, Expr.mapLinks, Expr.resolve]
    refine (operand.records s).map fun operand met hoperand => ?_
    obtain ⟨p, rfl, rfl, rfl⟩ := hoperand
    exact ⟨.unary span op p trailing, rfl, rfl, rfl⟩
  | .ternary span condition onTrue onFalse, s => by
    rw [Expr.record, Expr.mapLinks, Expr.resolve]
    refine (condition.records { s with inCondition := true }).bind fun condition met hcond => ?_
    refine (onTrue.records s).bind fun onTrue met' htrue => ?_
    refine (onFalse.records s).map fun onFalse met'' hfalse => ?_
    obtain ⟨p, rfl, rfl, rfl⟩ := hcond
    obtain ⟨q, rfl, rfl, rfl⟩ := htrue
    obtain ⟨q', rfl, rfl, rfl⟩ := hfalse
    exact ⟨.ternary span p q q', rfl, rfl, rfl⟩
  | .group span inner, s => by
    rw [Expr.record, Expr.mapLinks, Expr.resolve]
    refine (inner.records s).map fun inner met hinner => ?_
    obtain ⟨p, rfl, rfl, rfl⟩ := hinner
    exact ⟨.group span p, rfl, rfl, rfl⟩
  | .call span callee paren args, s => by
    rw [Expr.record, Expr.mapLinks, Expr.resolve]
    refine (callee.records s).bind fun callee met hcallee => ?_
    refine (Expr.recordsList args s).map fun args met' hargs => ?_
    obtain ⟨p, rfl, rfl, rfl⟩ := hcallee
    obtain ⟨ps, rfl, rfl, rfl⟩ := hargs
    exact ⟨.call span p paren ps, rfl, rfl, rfl⟩
  | .lambda function, s => by
    rw [Expr.record, Expr.mapLinks, Expr.resolve]
    refine (function.records { s with function := .function }).map fun function met hfunction => ?_
    obtain ⟨p, rfl, rfl, rfl⟩ := hfunction
    exact ⟨.lambda p, rfl, rfl, rfl⟩
  | .get span object name, s => by
    rw [Expr.record, Expr.mapLinks, Expr.resolve]
    refine (object.records s).map fun object met hobject => ?_
    obtain ⟨p, rfl, rfl, rfl⟩ := hobject
    exact ⟨.get span p name, rfl, rfl, rfl⟩
  | .set span object name value, s => by
    rw [Expr.record, Expr.mapLinks, Expr.resolve]
    refine (value.records s).bind fun value met hvalue => ?_
    refine (object.records s).map fun object met' hobject => ?_
    obtain ⟨p, rfl, rfl, rfl⟩ := hvalue
    obtain ⟨q, rfl, rfl, rfl⟩ := hobject
    exact ⟨.set span q name p, rfl, rfl, rfl⟩
  | .receiver span keyword node, s => by
    rw [Expr.record, Expr.mapLinks, Expr.resolve]
    cases s.cls with
    | none =>
      exact records_refuse _ keyword ⟨.receiver span keyword (node, none), rfl, rfl, rfl⟩
    | plain | derived =>
      refine (records_keep uncounted_linkBeyond node).map fun link met hmet => ?_
      exact ⟨.receiver span keyword (node, link), rfl, rfl, hmet.symm⟩
  | .inherited span keyword method node, s => by
    rw [Expr.record, Expr.mapLinks, Expr.resolve]
    cases s.cls with
    | none | plain =>
      exact records_refuse _ keyword ⟨.inherited span keyword method (node, none), rfl, rfl, rfl⟩
    | derived =>
      refine (records_keep uncounted_linkBeyond node).map fun link met hmet => ?_
      exact ⟨.inherited span keyword method (node, link), rfl, rfl, hmet.symm⟩

theorem Expr.recordsList : ∀ (es : List (Expr Nat)) (s : Surroundings),
    Records (Expr.recordList s es) (Expr.resolveList s (Expr.mapLinksList (fun _ => ()) es))
      (Expr.FiledList es)
  | [], s => by
    rw [Expr.recordList, Expr.mapLinksList, Expr.resolveList]
    exact records_pure ⟨[], rfl, rfl, rfl⟩
  | e :: es, s => by
    rw [Expr.recordList, Expr.mapLinksList, Expr.resolveList]
    refine (e.records s).bind fun e met he => ?_
    refine (Expr.recordsList es s).map fun es met' hes => ?_
    obtain ⟨p, rfl, rfl, rfl⟩ := he
    obtain ⟨ps, rfl, rfl, rfl⟩ := hes
    exact ⟨p :: ps, rfl, rfl, rfl⟩

theorem Function.records : ∀ (f : Function Nat) (s : Surroundings),
    Records (f.record s) ((f.mapLinks fun _ => ()).resolve s) f.Filed
  | .mk span keyword params body getter, s => by
    rw [Function.record, Function.mapLinks, Function.resolve]
    refine .step uncounted_openScope fun _ => .step (uncounted_parameters params) fun _ => ?_
    refine (Stmt.recordsList body { s with inLoop := false }).bind fun body met hbody => ?_
    refine records_last uncounted_closeScope ?_
    obtain ⟨ps, rfl, rfl, rfl⟩ := hbody
    exact ⟨.mk span keyword params ps getter, rfl, rfl, (List.append_nil _).symm⟩

theorem Declaration.recordsMethods : ∀ (ds : List (Declaration Nat)) (s : Surroundings)
    (initializers : Bool), Records (Declaration.recordMethods s initializers ds)
      (Declaration.resolveMethods s initializers (Declaration.mapLinksList (fun _ => ()) ds))
      (Declaration.FiledList ds)
  | [], s, initializers => by
    rw [Declaration.recordMethods, Declaration.mapLinksList, Declaration.resolveMethods]
    exact records_pure ⟨[], rfl, rfl, rfl⟩
  | .mk span name function :: ds, s, initializers => by
    rw [Declaration.recordMethods, Declaration.mapLinksList, Declaration.mapLinks,
      Declaration.resolveMethods]
    refine (function.records _).bind fun function met hfunction => ?_
    refine (Declaration.recordsMethods ds s initializers).map fun ds met' hds => ?_
    obtain ⟨p, rfl, rfl, rfl⟩ := hfunction
    obtain ⟨ps, rfl, rfl, rfl⟩ := hds
    exact ⟨.mk span name p :: ps, rfl, rfl, rfl⟩

theorem Stmt.records : ∀ (stmt : Stmt Nat) (s : Surroundings),
    Records (stmt.record s) ((stmt.mapLinks fun _ => ()).resolve s) stmt.Filed
  | .evaluate span expr, s => by
    rw [Stmt.record, Stmt.mapLinks, Stmt.resolve]
    refine (expr.records s).map fun expr met hexpr => ?_
    obtain ⟨p, rfl, rfl, rfl⟩ := hexpr
    exact ⟨.evaluate span p, rfl, rfl, rfl⟩
  | .print span keyword value, s => by
    rw [Stmt.record, Stmt.mapLinks, Stmt.resolve]
    refine (value.records s).map fun value met hvalue => ?_
    obtain ⟨p, rfl, rfl, rfl⟩ := hvalue
    exact ⟨.print span keyword p, rfl, rfl, rfl⟩
  | .declareVar span name none, s => by
    rw [Stmt.record, Stmt.mapLinks, Stmt.resolve]
    exact .step (uncounted_declare name) fun _ =>
      records_last (uncounted_define name) ⟨.declareVar span name none, rfl, rfl, rfl⟩
  | .declareVar span name (some init), s => by
    rw [Stmt.record, Stmt.mapLinks, Stmt.resolve]
    refine .step (uncounted_declare name) fun _ => (init.records s).bind fun init met hinit => ?_
    refine records_last (uncounted_define name) ?_
    obtain ⟨p, rfl, rfl, rfl⟩ := hinit
    exact ⟨.declareVar span name (some p), rfl, rfl, (List.append_nil _).symm⟩
  | .block span stmts, s => by
    rw [Stmt.record, Stmt.mapLinks, Stmt.resolve]
    refine .step uncounted_openScope fun _ => ?_
    refine (Stmt.recordsList stmts s).bind fun stmts met hstmts => ?_
    refine records_last uncounted_closeScope ?_
    obtain ⟨ps, rfl, rfl, rfl⟩ := hstmts
    exact ⟨.block span ps, rfl, rfl, (List.append_nil _).symm⟩
  | .branch span condition onTrue none, s => by
    rw [Stmt.record, Stmt.mapLinks, Stmt.resolve]
    refine (condition.records { s with inCondition := true }).bind fun condition met hcond => ?_
    refine (onTrue.records s).map fun onTrue met' htrue => ?_
    obtain ⟨p, rfl, rfl, rfl⟩ := hcond
    obtain ⟨q, rfl, rfl, rfl⟩ := htrue
    exact ⟨.branch span p q none, rfl, rfl, rfl⟩
  | .branch span condition onTrue (some onFalse), s => by
    rw [Stmt.record, Stmt.mapLinks, Stmt.resolve]
    refine (condition.records { s with inCondition := true }).bind fun condition met hcond => ?_
    refine (onTrue.records s).bind fun onTrue met' htrue => ?_
    refine (onFalse.records s).map fun onFalse met'' hfalse => ?_
    obtain ⟨p, rfl, rfl, rfl⟩ := hcond
    obtain ⟨q, rfl, rfl, rfl⟩ := htrue
    obtain ⟨q', rfl, rfl, rfl⟩ := hfalse
    exact ⟨.branch span p q (some q'), rfl, rfl, rfl⟩
  | .loop span condition body none bodyFirst, s => by
    rw [Stmt.record, Stmt.mapLinks, Stmt.resolve]
    refine (condition.records { s with inCondition := true }).bind fun condition met hcond => ?_
    refine (body.records { s with inLoop := true }).map fun body met' hbody => ?_
    obtain ⟨p, rfl, rfl, rfl⟩ := hcond
    obtain ⟨q, rfl, rfl, rfl⟩ := hbody
    exact ⟨.loop span p q none bodyFirst, rfl, rfl, rfl⟩
  | .loop span condition body (some update) bodyFirst, s => by
    rw [Stmt.record, Stmt.mapLinks, Stmt.resolve]
    refine (condition.records { s with inCondition := true }).bind fun condition met hcond => ?_
    refine (body.records { s with inLoop := true }).bind fun body met' hbody => ?_
    refine (update.records { s with inLoop := true }).map fun update met'' hupdate => ?_
    obtain ⟨p, rfl, rfl, rfl⟩ := hcond
    obtain ⟨q, rfl, rfl, rfl⟩ := hbody
    obtain ⟨q', rfl, rfl, rfl⟩ := hupdate
    exact ⟨.loop span p q (some q') bodyFirst, rfl, rfl, rfl⟩
  | .leave span keyword none, s => by
    rw [Stmt.record, Stmt.mapLinks, Stmt.resolve]
    have hleave : (Stmt.leave span keyword none).Filed (.leave span keyword none) [] :=
      ⟨.leave span keyword none, rfl, rfl, rfl⟩
    split
    · exact records_last (uncounted_report _ keyword) hleave
    · exact records_pure hleave
  | .leave span keyword (some value), s => by
    rw [Stmt.record, Stmt.mapLinks, Stmt.resolve]
    refine .reportIf fun _ => .reportIf fun _ => (value.records s).map fun value met hvalue => ?_
    obtain ⟨p, rfl, rfl, rfl⟩ := hvalue
    exact ⟨.leave span keyword (some p), rfl, rfl, rfl⟩
  | .breakLoop span keyword, s => by
    rw [Stmt.record, Stmt.mapLinks, Stmt.resolve]
    have hbreak : (Stmt.breakLoop span keyword).Filed (.breakLoop span keyword) [] :=
      ⟨.breakLoop span keyword, rfl, rfl, rfl⟩
    split
    · exact records_pure hbreak
    · exact records_last (uncounted_report _ keyword) hbreak
  | .continueLoop span keyword, s => by
    rw [Stmt.record, Stmt.mapLinks, Stmt.resolve]
    have hcontinue : (Stmt.continueLoop span keyword).Filed (.continueLoop span keyword) [] :=
      ⟨.continueLoop span keyword, rfl, rfl, rfl⟩
    split
    · exact records_pure hcontinue
    · exact records_last (uncounted_report _ keyword) hcontinue
  | .declareFunction (.mk span name function), s => by
    rw [Stmt.record, Stmt.mapLinks, Declaration.mapLinks, Stmt.resolve]
    refine .step (uncounted_declare name) fun _ => .step (uncounted_define name) fun _ => ?_
    refine (function.records { s with function := .function }).map fun function met hfunction => ?_
    obtain ⟨p, rfl, rfl, rfl⟩ := hfunction
    exact ⟨.declareFunction (.mk span name p), rfl, rfl, rfl⟩
  | .declareClass span name none methods classMethods, s => by
    rw [Stmt.record, Stmt.mapLinks, Option.map_none, Stmt.resolve]
    refine .step (uncounted_declare name) fun _ => .step (uncounted_define name) fun _ => ?_
    refine .step uncounted_openScope fun _ => .step (uncounted_bindImplicit _) fun _ => ?_
    refine (Declaration.recordsMethods methods _ true).bind fun methods met hmethods => ?_
    refine (Declaration.recordsMethods classMethods _ false).bind fun classMethods met' hclass => ?_
    refine records_last uncounted_closeScope ?_
    obtain ⟨ps, rfl, rfl, rfl⟩ := hmethods
    obtain ⟨qs, rfl, rfl, rfl⟩ := hclass
    refine ⟨.declareClass span name none ps qs, rfl, rfl, ?_⟩
    rw [Stmt.links, List.append_nil]
    rfl
  | .declareClass span name (some (parent, node)) methods classMethods, s => by
    rw [Stmt.record, Stmt.mapLinks, Option.map_some, Stmt.resolve]
    refine .step (uncounted_declare name) fun _ => .step (uncounted_define name) fun _ => ?_
    refine .reportIf fun _ => ?_
    refine (records_keep (uncounted_linkVariable _ _) node).bind fun link met hlink => ?_
    refine .step uncounted_openScope fun _ => .step (uncounted_bindImplicit _) fun _ => ?_
    refine .step uncounted_openScope fun _ => .step (uncounted_bindImplicit _) fun _ => ?_
    refine (Declaration.recordsMethods methods _ true).bind fun methods met' hmethods => ?_
    refine (Declaration.recordsMethods classMethods _ false).bind
      fun classMethods met'' hclass => ?_
    refine .step uncounted_closeScope fun _ => records_last uncounted_closeScope ?_
    obtain ⟨ps, rfl, rfl, rfl⟩ := hmethods
    obtain ⟨qs, rfl, rfl, rfl⟩ := hclass
    refine ⟨.declareClass span name (some (parent, node, link)) ps qs, rfl, rfl, ?_⟩
    rw [hlink, Stmt.links, List.append_nil]
    rfl

theorem Stmt.recordsList : ∀ (ss : List (Stmt Nat)) (s : Surroundings),
    Records (Stmt.recordList s ss) (Stmt.resolveList s (Stmt.mapLinksList (fun _ => ()) ss))
      (Stmt.FiledList ss)
  | [], s => by
    rw [Stmt.recordList, Stmt.mapLinksList, Stmt.resolveList]
    exact records_pure ⟨[], rfl, rfl, rfl⟩
  | stmt :: stmts, s => by
    rw [Stmt.recordList, Stmt.mapLinksList, Stmt.resolveList]
    refine (stmt.records s).bind fun stmt met hstmt => ?_
    refine (Stmt.recordsList stmts s).map fun stmts met' hstmts => ?_
    obtain ⟨p, rfl, rfl, rfl⟩ := hstmt
    obtain ⟨ps, rfl, rfl, rfl⟩ := hstmts
    exact ⟨p :: ps, rfl, rfl, rfl⟩

end

/-! ## At top level -/

/-- Runs a walk at top level, where some names are known as globals. What it has written down is
there whatever it has found. -/
def Recording.finish (globals : List Text) (T : LinkTable) (x : Recording Unit) :
    LinkTable × Report :=
  let ((_, T), r) := (x.run T).run { globals := globals }
  (T, r.found.reverse)

/-- Writes down what the references of a program are linked to. -/
def recordStmts (globals : List Text) (T : LinkTable) (stmts : List (Stmt Nat)) :
    LinkTable × Report :=
  Recording.finish globals T (Stmt.recordList {} stmts)

/-- Writes down what the references of an expression that stands alone are linked to. -/
def recordExpr (globals : List Text) (T : LinkTable) (e : Expr Nat) : LinkTable × Report :=
  Recording.finish globals T (e.record {})

theorem Recording.Records.finish {α : Type} {x : Recording Unit} {y : Resolve α}
    {P : α → List (Nat × Option Link) → Prop} (h : Records x y P) (globals : List Text)
    (T : LinkTable) (first : Nat) : ∃ met,
      Recording.finish globals T x = (T.fileAll met, (Resolve.finish globals first y).report) ∧
        P (Resolve.finish globals first y).tree met := by
  obtain ⟨met, hvalue, hstate, hmet⟩ :=
    h T { globals := globals, linkCount := first } { globals := globals } ⟨rfl, rfl, rfl, rfl⟩
  refine ⟨met, Prod.ext ?_ ?_, hmet⟩
  · exact congrArg Prod.snd hvalue
  · exact congrArg List.reverse hstate.found

/-- Writing links down finds what resolution finds, and writes down the links that this makes. -/
theorem recordStmts_eq (globals : List Text) (T : LinkTable) (stmts : List (Stmt Nat))
    (first : Nat) :
    let resolved := resolveStmts globals (Stmt.mapLinksList (fun _ => ()) stmts) first
    ∃ met, recordStmts globals T stmts = (T.fileAll met, resolved.report) ∧
      Stmt.FiledList stmts resolved.tree met :=
  (Stmt.recordsList stmts {}).finish globals T first

theorem recordExpr_eq (globals : List Text) (T : LinkTable) (e : Expr Nat) (first : Nat) :
    let resolved := resolveExpr globals (e.mapLinks fun _ => ()) first
    ∃ met, recordExpr globals T e = (T.fileAll met, resolved.report) ∧ e.Filed resolved.tree met :=
  (e.records {}).finish globals T first

end Scriptlet

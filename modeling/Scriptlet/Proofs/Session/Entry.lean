import Scriptlet.Proofs.Evaluator.Relinking
import Scriptlet.Proofs.Scope.Recording

/-!
# Code whose links stand in a table

A source can be made ready to run without a link in its tree. Each of its references gets a new
number, what they are linked to is entered into a table for all sources, and the code holds the
numbers (`Link.entry`). Who comes to a reference looks its number up (`LinkTable.fill`).

Entering a source leaves the entries of earlier references alone (`LinkTable.Extends`), and makes
code in which the same links are found as resolution puts into the tree, and that has new numbers
only (`Entered.Shows`, `enterStmts_shows`, `enterExpr_shows`).
-/

namespace Scriptlet

/-- What stands at a reference in numbered code: its number. Nobody looks at the distance. -/
def Link.entry (node : Nat) : Option Link := some ⟨node, 0⟩

/-- A link without its place among all links. -/
def Link.plain : Option Link → Option Link := Option.map fun l => ⟨0, l.hops⟩

/-- Takes out the numbers that were not given yet. -/
def Link.below (next : Nat) : Option Link → Option Link := Option.filter fun l => l.ordinal < next

theorem Link.below_of_lt {next node : Nat} (h : node < next) :
    below next (entry node) = entry node := by
  simp [below, entry, h]

theorem Link.below_below {next next' : Nat} (h : next ≤ next') (link : Option Link) :
    below next' (below next link) = below next link := by
  cases link with
  | none => rfl
  | some l =>
    simp only [below, Option.filter_some, decide_eq_true_eq]
    split
    · next hl => rw [Option.filter_some, if_pos (decide_eq_true (Nat.lt_of_lt_of_le hl h))]
    · rfl

namespace LinkTable

/-- What a table says about the number that stands at a reference. -/
def fill (T : LinkTable) (link : Option Link) : Option Link :=
  link.bind fun l => (T.lookup l.ordinal).map fun hops => ⟨0, hops⟩

/-- Numbers from `next` up to `next'` were given, and entries were made for some of them. -/
structure Extends (T : LinkTable) (next : Nat) (T' : LinkTable) (next' : Nat) : Prop where
  le : next ≤ next'
  /-- The entries before stay. -/
  earlier : ∀ node < next, T'.lookup node = T.lookup node
  /-- Numbers that were not given have no entry. -/
  later : ∀ node, next' ≤ node → T'.lookup node = none

variable {T T' : LinkTable} {next next' : Nat}

theorem Extends.fill_below (h : T.Extends next T' next') (link : Option Link) :
    T'.fill (Link.below next link) = T.fill (Link.below next link) := by
  cases link with
  | none => rfl
  | some l =>
    simp only [Link.below, Option.filter_some, decide_eq_true_eq]
    split
    · next hl => simp only [fill, Option.bind_some, h.earlier _ hl]
    · rfl

/-- Where only given numbers have entries, no other number is worth a look. -/
theorem fill_below_self (h : ∀ node, next ≤ node → T.lookup node = none) (link : Option Link) :
    T.fill (Link.below next link) = T.fill link := by
  cases link with
  | none => rfl
  | some l =>
    simp only [Link.below, Option.filter_some, decide_eq_true_eq]
    split
    · rfl
    · next hl =>
      simp only [fill, Option.bind_none, Option.bind_some, h _ (Nat.not_lt.mp hl), Option.map_none]

section

variable {met : List (Nat × Option Link)} {k : Nat}

/-- New references, with numbers from `next` on. -/
theorem extends_fileAll (hnew : ∀ node, next ≤ node → T.lookup node = none)
    (hmet : met.map Prod.fst = List.range' next k) :
    T.Extends next (T.fileAll met) (next + k) where
  le := Nat.le_add_right next k
  earlier node hnode := lookup_fileAll_of_notMem <| by
    rw [hmet, List.mem_range'_1]
    omega
  later node hnode := (lookup_fileAll_of_notMem <| by
    rw [hmet, List.mem_range'_1]
    omega).trans (hnew node (by omega))

theorem fill_fileAll (hnew : ∀ node, next ≤ node → T.lookup node = none)
    (hmet : met.map Prod.fst = List.range' next k) {entry : Nat × Option Link} (h : entry ∈ met) :
    (T.fileAll met).fill (Link.entry entry.1) = Link.plain entry.2 := by
  have hnode : entry.1 ∈ List.range' next k := hmet ▸ List.mem_map_of_mem h
  have hlookup := lookup_fileAll (hmet ▸ List.nodup_range')
    (hnew entry.1 (List.mem_range'_1.mp hnode).1) h
  simp only [fill, Link.entry, Option.bind_some, hlookup, Option.map_map, Link.plain]
  rfl

end

end LinkTable

/-- A source whose references were entered into a table. -/
structure Entered where
  code : Code
  table : LinkTable
  /-- The number of the next reference. -/
  next : Nat
  report : Report

/-- Enters the references of a program. -/
def enterStmts (globals : List Text) (T : LinkTable) (next : Nat) (stmts : List (Stmt Unit)) :
    Entered :=
  let (stmts, next) := (Stmt.numberList stmts).run next
  let (table, report) := recordStmts globals T stmts
  ⟨.program (Stmt.mapLinksList Link.entry stmts), table, next, report⟩

/-- Enters the references of an expression that stands alone. -/
def enterExpr (globals : List Text) (T : LinkTable) (next : Nat) (e : Expr Unit) : Entered :=
  let (e, next) := e.number.run next
  let (table, report) := recordExpr globals T e
  ⟨.expression (e.mapLinks Link.entry), table, next, report⟩

/-- An entered source shows some code: this is found in it with the new table, and besides, numbers
that were given. -/
structure Entered.Shows (E : Entered) (T : LinkTable) (next : Nat) (code : Code) : Prop where
  table : T.Extends next E.table E.next
  filled : E.code.relink E.table.fill = code.relink Link.plain
  given : E.code.relink (Link.below E.next) = E.code

section

variable {T : LinkTable} {next : Nat}

/-- An entered program shows what resolution makes of it, with the same findings. -/
theorem enterStmts_shows (hnew : ∀ node, next ≤ node → T.lookup node = none)
    (globals : List Text) (stmts : List (Stmt Unit)) (first : Nat) :
    let E := enterStmts globals T next stmts
    let resolved := resolveStmts globals stmts first
    E.Shows T next (.program resolved.tree) ∧ E.report = resolved.report := by
  obtain ⟨k, hnext, hstmts, hlinks⟩ := Stmt.numbersList stmts next
  unfold enterStmts
  generalize (Stmt.numberList stmts).run next = numbering at hnext hstmts hlinks ⊢
  obtain ⟨numbered, next'⟩ := numbering
  obtain rfl : next' = next + k := hnext
  obtain rfl : Stmt.mapLinksList (fun _ => ()) numbered = stmts := hstmts
  -- `ps` has the number and the link of each reference: the numbered tree is one view of it, the
  -- resolved tree is the other one.
  obtain ⟨met, hrecord, ps, rfl, htree, rfl⟩ := recordStmts_eq globals T numbered first
  have hmet : (Stmt.linksList ps).map Prod.fst = List.range' next k := by
    rw [← hlinks, Stmt.linksList_mapLinksList]
  dsimp only
  rw [hrecord, ← htree]
  refine ⟨⟨LinkTable.extends_fileAll hnew hmet, congrArg Code.program ?_, congrArg Code.program ?_⟩,
    rfl⟩
  · rw [Stmt.mapLinksList_mapLinksList ps fun _ _ => rfl]
    exact (Stmt.mapLinksList_mapLinksList ps fun _ h => LinkTable.fill_fileAll hnew hmet h).trans
      (Stmt.mapLinksList_mapLinksList ps fun _ _ => rfl).symm
  · refine Stmt.mapLinksList_mapLinksList _ fun node h => Link.below_of_lt ?_
    rw [hlinks] at h
    exact (List.mem_range'_1.mp h).2

theorem enterExpr_shows (hnew : ∀ node, next ≤ node → T.lookup node = none)
    (globals : List Text) (e : Expr Unit) (first : Nat) :
    let E := enterExpr globals T next e
    let resolved := resolveExpr globals e first
    E.Shows T next (.expression resolved.tree) ∧ E.report = resolved.report := by
  obtain ⟨k, hnext, he, hlinks⟩ := e.numbers next
  unfold enterExpr
  generalize e.number.run next = numbering at hnext he hlinks ⊢
  obtain ⟨numbered, next'⟩ := numbering
  obtain rfl : next' = next + k := hnext
  obtain rfl : numbered.mapLinks (fun _ => ()) = e := he
  obtain ⟨met, hrecord, p, rfl, htree, rfl⟩ := recordExpr_eq globals T numbered first
  have hmet : p.links.map Prod.fst = List.range' next k := by
    rw [← hlinks, Expr.links_mapLinks]
  dsimp only
  rw [hrecord, ← htree]
  refine ⟨⟨LinkTable.extends_fileAll hnew hmet, congrArg Code.expression ?_,
    congrArg Code.expression ?_⟩, rfl⟩
  · rw [p.mapLinks_mapLinks fun _ _ => rfl]
    exact (p.mapLinks_mapLinks fun _ h => LinkTable.fill_fileAll hnew hmet h).trans
      (p.mapLinks_mapLinks fun _ _ => rfl).symm
  · refine Expr.mapLinks_mapLinks _ fun node h => Link.below_of_lt ?_
    rw [hlinks] at h
    exact (List.mem_range'_1.mp h).2

end

end Scriptlet

import Scriptlet.Tree.Dump

/-!
# Nodes as data

The fields of a node are named, and the names are in one order for all nodes, so equal objects have
equal fields (`Json.node_inj`). What an expression or a statement is can be read off its data
(`NodeKind.Writes.eq`). `Json.Tagged` says that the objects inside data, at any depth, have no other
kinds than nodes have.
-/

namespace Scriptlet

/-! ## Data -/

/-- The names of fields, in the order in which nodes and spans have them. -/
def Json.fieldNames : List String :=
  ["kind", "span", "start", "end", "offset", "line", "column", "params", "getter", "condition",
    "body", "doWhile", "increment", "then", "else", "callee", "args", "object", "name",
    "superclass", "methods", "classMethods", "func", "init", "op", "value", "left", "right",
    "postfix", "operand", "inner", "expr", "stmts", "method"]

namespace Json

variable {fields fields' : List (String × Json)}

theorem perm_of_sorted (h : sorted fields = sorted fields') : fields.Perm fields' := by
  have hsorted := Json.object.inj h
  exact (List.mergeSort_perm fields _).symm.trans (hsorted ▸ List.mergeSort_perm fields' _)

/-- Fields in this order are equal if they make equal objects. -/
theorem sorted_inj (names names' : List String) (hnames : names.Sublist fieldNames)
    (hnames' : names'.Sublist fieldNames) (hfields : fields.map Prod.fst = names)
    (hfields' : fields'.map Prod.fst = names') (h : sorted fields = sorted fields') :
    fields = fields' := by
  have hall : fieldNames.Pairwise fun a b => fieldNames.idxOf a < fieldNames.idxOf b := by
    decide +kernel
  have hordered {fields : List (String × Json)} (hs : (fields.map Prod.fst).Sublist fieldNames) :
      fields.Pairwise fun a b => fieldNames.idxOf a.1 < fieldNames.idxOf b.1 := by
    have hnames := hall.sublist hs
    rwa [List.pairwise_map] at hnames
  exact (perm_of_sorted h).eq_of_pairwise
    (fun a b _ _ hab hba => absurd (Nat.lt_trans hab hba) (Nat.lt_irrefl _))
    (hordered (hfields ▸ hnames)) (hordered (hfields' ▸ hnames'))

end Json

theorem Position.eq_of_dump {p p' : Position} (h : p.dump = p'.dump) : p = p' := by
  have hfields := Json.sorted_inj ["offset", "line", "column"] ["offset", "line", "column"]
    (by decide +kernel) (by decide +kernel) rfl rfl h
  simp only [List.cons.injEq, Prod.mk.injEq, Json.int.injEq, true_and, and_true] at hfields
  obtain ⟨hoffset, hline, hcolumn⟩ := hfields
  cases p
  cases p'
  cases hoffset
  cases hline
  cases hcolumn
  rfl

theorem Span.eq_of_dump {s s' : Span} (h : s.dump = s'.dump) : s = s' := by
  have hfields := Json.sorted_inj ["start", "end"] ["start", "end"] (by decide +kernel)
    (by decide +kernel) rfl rfl h
  simp only [List.cons.injEq, Prod.mk.injEq, true_and, and_true] at hfields
  cases s
  cases s'
  cases Position.eq_of_dump hfields.1
  cases Position.eq_of_dump hfields.2
  rfl

theorem Literal.eq_of_dump {v v' : Literal} (h : v.dump = v'.dump) : v = v' := by
  cases v <;> cases v' <;> cases h <;> rfl

/-- Equal nodes have the same kind, the same span and the same fields. -/
theorem Json.node_inj {kind kind' : String} {span span' : Span}
    {fields fields' : List (String × Json)} (names names' : List String)
    (hnames : ("kind" :: "span" :: names).Sublist fieldNames)
    (hnames' : ("kind" :: "span" :: names').Sublist fieldNames)
    (hfields : fields.map Prod.fst = names) (hfields' : fields'.map Prod.fst = names')
    (h : node kind span fields = node kind' span' fields') :
    (kind : Text) = kind' ∧ span = span' ∧ fields = fields' := by
  have hall := sorted_inj _ _ hnames hnames' (by rw [← hfields]; rfl) (by rw [← hfields']; rfl) h
  simp only [List.cons.injEq, Prod.mk.injEq, Json.text.injEq, true_and] at hall
  exact ⟨hall.1, Span.eq_of_dump hall.2.1, hall.2.2⟩

theorem Json.fields_of_node {kind kind' : String} {span span' : Span}
    {fields fields' : List (String × Json)} (names : List String)
    (hnames : ("kind" :: "span" :: names).Sublist fieldNames)
    (hfields : fields.map Prod.fst = names) (hfields' : fields'.map Prod.fst = names)
    (h : node kind span fields = node kind' span' fields') : span = span' ∧ fields = fields' :=
  (node_inj names names hnames hnames hfields hfields' h).2

theorem Json.length_of_node {kind kind' : String} {span span' : Span}
    {fields fields' : List (String × Json)}
    (h : node kind span fields = node kind' span' fields') : fields.length = fields'.length := by
  have hlength := (perm_of_sorted h).length_eq
  simpa only [List.length_cons, Nat.add_right_cancel_iff] using hlength

/-! ## Optional fields -/

namespace Json

variable {name : String} {value value' : Option Json} {fields fields' : List (String × Json)}

/-- A list of items that is left out if there are none. -/
def nonEmpty (items : List Json) : Option Json :=
  if items.isEmpty then none else some (.list items)

theorem optional_nonEmpty (name : String) (items : List Json) :
    (if items.isEmpty then [] else [(name, .list items)]) = optional name (nonEmpty items) := by
  cases items <;> rfl

theorem nonEmpty_inj {items items' : List Json} (h : nonEmpty items = nonEmpty items') :
    items = items' := by
  cases items <;> cases items' <;> cases h <;> rfl

theorem names_optional (name : String) (value : Option Json) :
    ((optional name value).map Prod.fst).Sublist [name] := by
  cases value with
  | none => exact List.nil_sublist _
  | some value => exact List.Sublist.refl _

/-- An optional field is told apart from the fields after it. -/
theorem optional_append_inj (hname : name ∉ fields.map Prod.fst)
    (hname' : name ∉ fields'.map Prod.fst)
    (h : optional name value ++ fields = optional name value' ++ fields') :
    value = value' ∧ fields = fields' := by
  cases value with
  | none =>
    cases value' with
    | none => exact ⟨rfl, h⟩
    | some v' =>
      rw [show fields = (name, v') :: fields' from h] at hname
      exact absurd List.mem_cons_self hname
  | some v =>
    cases value' with
    | none =>
      rw [show fields' = (name, v) :: fields from h.symm] at hname'
      exact absurd List.mem_cons_self hname'
    | some v' =>
      obtain ⟨hfield, hrest⟩ := List.cons.inj h
      exact ⟨congrArg some (Prod.mk.inj hfield).2, hrest⟩

/-- The fields of a class. -/
def classFields (name : Text) (superclass methods classMethods : Option Json) :
    List (String × Json) :=
  ("name", .text name) :: (optional "superclass" superclass ++
    (optional "methods" methods ++ optional "classMethods" classMethods))

theorem names_classFields (name : Text) (superclass methods classMethods : Option Json) :
    ("kind" :: "span" :: (classFields name superclass methods classMethods).map Prod.fst).Sublist
      fieldNames := by
  have hnames := ((names_optional "superclass" superclass).append
    ((names_optional "methods" methods).append (names_optional "classMethods" classMethods)))
  rw [← List.map_append, ← List.map_append] at hnames
  have hall :
      ["kind", "span", "name", "superclass", "methods", "classMethods"].Sublist fieldNames := by
    decide +kernel
  exact .trans (.cons_cons _ (.cons_cons _ (.cons_cons _ hnames))) hall

theorem classFields_inj {name name' : Text}
    {superclass superclass' methods methods' classMethods classMethods' : Option Json}
    (h : classFields name superclass methods classMethods =
      classFields name' superclass' methods' classMethods') :
    name = name' ∧ superclass = superclass' ∧ methods = methods' ∧
      classMethods = classMethods' := by
  have hlast (value : Option Json) :
      ((optional "classMethods" value).map Prod.fst).Sublist ["classMethods"] :=
    names_optional _ value
  have hrest (value value' : Option Json) : ((optional "methods" value ++
      optional "classMethods" value').map Prod.fst).Sublist ["methods", "classMethods"] := by
    rw [List.map_append]
    exact (names_optional _ value).append (hlast value')
  obtain ⟨hname, h⟩ := List.cons.inj h
  obtain ⟨hsuperclass, h⟩ := optional_append_inj
    (fun hmem => absurd ((hrest _ _).mem hmem) (by decide))
    (fun hmem => absurd ((hrest _ _).mem hmem) (by decide)) h
  obtain ⟨hmethods, h⟩ := optional_append_inj
    (fun hmem => absurd ((hlast _).mem hmem) (by decide))
    (fun hmem => absurd ((hlast _).mem hmem) (by decide)) h
  rw [← List.append_nil (optional _ classMethods),
    ← List.append_nil (optional _ classMethods')] at h
  obtain ⟨hclassMethods, -⟩ := optional_append_inj List.not_mem_nil List.not_mem_nil h
  exact ⟨Json.text.inj (Prod.mk.inj hname).2, hsuperclass, hmethods, hclassMethods⟩

end Json

/-! ## Kinds of nodes -/

/-- The kinds of nodes. -/
inductive NodeKind where
  | file
  | literal
  | variable
  | assign
  | binary
  | logical
  | unary
  | ternary
  | grouping
  | call
  | function
  | get
  | set
  | receiver
  | inherited
  | exprStmt
  | printStmt
  | varStmt
  | blockStmt
  | ifStmt
  | whileStmt
  | returnStmt
  | breakStmt
  | continueStmt
  | funcDecl
  | classDecl
  deriving DecidableEq, Repr

namespace NodeKind

/-- The name of a kind in data. -/
def name : NodeKind → String
  | .file => "File"
  | .literal => "LiteralExpr"
  | .variable => "VariableExpr"
  | .assign => "AssignExpr"
  | .binary => "BinaryExpr"
  | .logical => "LogicalExpr"
  | .unary => "UnaryExpr"
  | .ternary => "TernaryExpr"
  | .grouping => "GroupingExpr"
  | .call => "CallExpr"
  | .function => "FuncExpr"
  | .get => "GetExpr"
  | .set => "SetExpr"
  | .receiver => "ThisExpr"
  | .inherited => "SuperExpr"
  | .exprStmt => "ExprStmt"
  | .printStmt => "PrintStmt"
  | .varStmt => "VarStmt"
  | .blockStmt => "BlockStmt"
  | .ifStmt => "IfStmt"
  | .whileStmt => "WhileStmt"
  | .returnStmt => "ReturnStmt"
  | .breakStmt => "BreakStmt"
  | .continueStmt => "ContinueStmt"
  | .funcDecl => "FuncDecl"
  | .classDecl => "ClassDecl"

/-- Every kind of nodes. -/
def all : List NodeKind :=
  [.file, .literal, .variable, .assign, .binary, .logical, .unary, .ternary, .grouping, .call,
    .function, .get, .set, .receiver, .inherited, .exprStmt, .printStmt, .varStmt, .blockStmt,
    .ifStmt, .whileStmt, .returnStmt, .breakStmt, .continueStmt, .funcDecl, .classDecl]

theorem mem_all (k : NodeKind) : k ∈ all := by
  cases k <;> decide

/-- Kinds of nodes are told apart by their names. -/
theorem eq_of_name {k k' : NodeKind} (h : (k.name : Text) = k'.name) : k = k' := by
  have hfound : ∀ k ∈ all, (all.find? fun k' => (k'.name : Text) == k.name) = some k := by
    decide +kernel
  have hk := hfound k (mem_all k)
  rw [h, hfound k' (mem_all k')] at hk
  exact (Option.some.inj hk).symm

/-- No kind of nodes is unknown. -/
theorem name_ne_unknown (k : NodeKind) : (k.name : Text) ≠ "Unknown" := by
  cases k <;> decide

end NodeKind

section

variable {β : Type}

/-- The kind of the node that an expression is. -/
def Expr.kind : Expr β → NodeKind
  | .literal .. => .literal
  | .name .. => .variable
  | .assign .. => .assign
  | .binary .. => .binary
  | .logical .. => .logical
  | .unary .. => .unary
  | .ternary .. => .ternary
  | .group .. => .grouping
  | .call .. => .call
  | .lambda _ => .function
  | .get .. => .get
  | .set .. => .set
  | .receiver .. => .receiver
  | .inherited .. => .inherited

/-- The kind of the node that a statement is. -/
def Stmt.kind : Stmt β → NodeKind
  | .evaluate .. => .exprStmt
  | .print .. => .printStmt
  | .declareVar .. => .varStmt
  | .block .. => .blockStmt
  | .branch .. => .ifStmt
  | .loop .. => .whileStmt
  | .leave .. => .returnStmt
  | .breakLoop .. => .breakStmt
  | .continueLoop .. => .continueStmt
  | .declareFunction _ => .funcDecl
  | .declareClass .. => .classDecl

/-- Data of a node of a kind, with its fields in order. -/
inductive NodeKind.Writes (kind : NodeKind) : Json → Prop where
  | node {span : Span} {fields : List (String × Json)} (names : List String) :
    ("kind" :: "span" :: names).Sublist Json.fieldNames → fields.map Prod.fst = names →
    kind.Writes (.node kind.name span fields)

theorem NodeKind.Writes.eq {kind kind' : NodeKind} {data : Json} (h : kind.Writes data)
    (h' : kind'.Writes data) : kind = kind' := by
  obtain ⟨names, hnames, hfields⟩ := h
  generalize hdata : Json.node _ _ _ = data at h'
  obtain ⟨names', hnames', hfields'⟩ := h'
  exact eq_of_name (Json.node_inj names names' hnames hnames' hfields hfields' hdata).1

theorem Function.writes_dump (f : Function β) : NodeKind.function.Writes f.dump := by
  cases f with
  | mk => exact .node ["params", "getter", "body"] (by decide +kernel) rfl

theorem Expr.writes_dump : ∀ e : Expr β, e.kind.Writes e.dump
  | .literal .. => .node ["value"] (by decide +kernel) rfl
  | .name .. => .node ["name"] (by decide +kernel) rfl
  | .assign .. => .node ["name", "op", "value"] (by decide +kernel) rfl
  | .binary .. | .logical .. => .node ["op", "left", "right"] (by decide +kernel) rfl
  | .unary .. => .node ["op", "postfix", "operand"] (by decide +kernel) rfl
  | .ternary .. => .node ["condition", "then", "else"] (by decide +kernel) rfl
  | .group .. => .node ["inner"] (by decide +kernel) rfl
  | .call .. => .node ["callee", "args"] (by decide +kernel) rfl
  | .lambda function => function.writes_dump
  | .get .. => .node ["object", "name"] (by decide +kernel) rfl
  | .set .. => .node ["object", "name", "value"] (by decide +kernel) rfl
  | .receiver .. => .node [] (by decide +kernel) rfl
  | .inherited .. => .node ["method"] (by decide +kernel) rfl

theorem Declaration.writes_dump (d : Declaration β) : NodeKind.funcDecl.Writes d.dump := by
  cases d with
  | mk => exact .node ["name", "func"] (by decide +kernel) rfl

theorem Stmt.dump_declareClass (span : Span) (name : Token) (superclass : Option (Token × β))
    (methods classMethods : List (Declaration β)) :
    (declareClass span name superclass methods classMethods).dump =
      .node "ClassDecl" span (Json.classFields name.lexeme
        (superclass.map fun s => .text s.1.lexeme)
        (Json.nonEmpty (Declaration.dumpList methods))
        (Json.nonEmpty (Declaration.dumpList classMethods))) := by
  simp only [Stmt.dump, Json.classFields, Json.optional_nonEmpty, List.cons_append,
    List.append_assoc]

theorem Stmt.writes_dump : ∀ s : Stmt β, s.kind.Writes s.dump
  | .evaluate .. => .node ["expr"] (by decide +kernel) rfl
  | .print .. => .node ["value"] (by decide +kernel) rfl
  | .declareVar _ _ none => .node ["name"] (by decide +kernel) rfl
  | .declareVar _ _ (some _) => .node ["name", "init"] (by decide +kernel) rfl
  | .block .. => .node ["stmts"] (by decide +kernel) rfl
  | .branch _ _ _ none => .node ["condition", "then"] (by decide +kernel) rfl
  | .branch _ _ _ (some _) => .node ["condition", "then", "else"] (by decide +kernel) rfl
  | .loop _ _ _ none _ => .node ["condition", "body", "doWhile"] (by decide +kernel) rfl
  | .loop _ _ _ (some _) _ =>
    .node ["condition", "body", "doWhile", "increment"] (by decide +kernel) rfl
  | .leave _ _ none => .node [] (by decide +kernel) rfl
  | .leave _ _ (some _) => .node ["value"] (by decide +kernel) rfl
  | .breakLoop .. | .continueLoop .. => .node [] (by decide +kernel) rfl
  | .declareFunction declaration => declaration.writes_dump
  | .declareClass span name superclass methods classMethods => by
    rw [Stmt.dump_declareClass]
    exact .node _ (Json.names_classFields ..) rfl

end

/-! ## Objects inside data -/

/-- A value inside data, at any depth. -/
inductive Json.Part : Json → Json → Prop where
  | self (data : Json) : Part data data
  | item {items : List Json} {item part : Json} :
    item ∈ items → Part item part → Part (.list items) part
  | field {fields : List (String × Json)} {name : String} {value part : Json} :
    (name, value) ∈ fields → Part value part → Part (.object fields) part

/-- Every object inside data that has a kind has the kind of a node. -/
def Json.Tagged (data : Json) : Prop :=
  ∀ fields, data.Part (.object fields) → ∀ value, ("kind", value) ∈ fields →
    ∃ kind : NodeKind, value = .text kind.name

namespace Json

theorem tagged_text (t : Text) : (text t).Tagged := fun _ h => nomatch h

theorem tagged_bool (b : Bool) : (bool b).Tagged := fun _ h => nomatch h

theorem tagged_int (n : Int) : (int n).Tagged := fun _ h => nomatch h

theorem tagged_literal (v : Literal) : v.dump.Tagged := by
  intro fields hpart
  cases v <;> cases hpart

theorem tagged_list {items : List Json} (h : ∀ item ∈ items, item.Tagged) :
    (list items).Tagged := by
  intro fields hpart
  cases hpart with
  | item hmem hpart => exact h _ hmem fields hpart

theorem tagged_sorted {fields : List (String × Json)}
    (hkind : ∀ value, ("kind", value) ∈ fields → ∃ kind : NodeKind, value = .text kind.name)
    (h : ∀ field ∈ fields, field.2.Tagged) : (sorted fields).Tagged := by
  intro fields' hpart
  cases hpart with
  | self => exact fun value hvalue => hkind value (List.mem_mergeSort.mp hvalue)
  | field hmem hpart => exact h _ (List.mem_mergeSort.mp hmem) fields' hpart

theorem tagged_position (p : Position) : p.dump.Tagged :=
  tagged_sorted (by simp) (by simp [tagged_int])

theorem tagged_span (s : Span) : s.dump.Tagged :=
  tagged_sorted (by simp) (by simp [tagged_position])

/-- A node is tagged if its fields are, none of which is another kind. -/
theorem tagged_node (kind : NodeKind) {span : Span} {fields : List (String × Json)}
    (h : ∀ field ∈ fields, field.1 ≠ "kind" ∧ field.2.Tagged) :
    (node kind.name span fields).Tagged := by
  refine tagged_sorted ?_ ?_
  · intro value hvalue
    rcases List.mem_cons.mp hvalue with hvalue | hvalue
    · exact ⟨kind, (Prod.mk.inj hvalue).2⟩
    · rcases List.mem_cons.mp hvalue with hvalue | hvalue
      · exact absurd (Prod.mk.inj hvalue).1 (by decide)
      · exact absurd rfl (h _ hvalue).1
  · intro field hfield
    rcases List.mem_cons.mp hfield with rfl | hfield
    · exact tagged_text _
    · rcases List.mem_cons.mp hfield with rfl | hfield
      · exact tagged_span span
      · exact (h field hfield).2

theorem tagged_optional {name : String} {value : Option Json} (hname : name ≠ "kind")
    (h : ∀ v ∈ value, v.Tagged) : ∀ field ∈ optional name value,
      field.1 ≠ "kind" ∧ field.2.Tagged := by
  intro field hfield
  cases value with
  | none => cases hfield
  | some v =>
    rw [List.mem_singleton.mp hfield]
    exact ⟨hname, h v rfl⟩

theorem tagged_nonEmpty {items : List Json} (h : ∀ item ∈ items, item.Tagged) :
    ∀ v ∈ nonEmpty items, v.Tagged := by
  intro v hv
  cases items with
  | nil => cases hv
  | cons item items =>
    cases hv
    exact tagged_list h

end Json

end Scriptlet

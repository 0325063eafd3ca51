import Scriptlet.Diagnostic
import Scriptlet.Tree

/-!
# Moving trees

A tree says where in a source everything in it was written, and nothing else in it depends on that.
`relocate` puts a tree somewhere else: it applies a function to every stretch of source in it. To
relocate twice is to relocate once (`Expr.relocate_relocate` and its companions), and to relocate to
the same place changes nothing. A tree is moved if every position in it is (`Expr.move`).
-/

namespace Scriptlet

def Span.move (g : Position → Position) (s : Span) : Span := ⟨g s.start, g s.stop⟩

def Token.relocate (h : Span → Span) (t : Token) : Token := { t with span := h t.span }

def Diagnostic.relocate (h : Span → Span) (d : Diagnostic) : Diagnostic :=
  { d with span := h d.span }

section

variable {β : Type}

mutual

/-- The same expression, written somewhere else. -/
def Expr.relocate (h : Span → Span) : Expr β → Expr β
  | .literal span value => .literal (h span) value
  | .name span name link => .name (h span) (name.relocate h) link
  | .assign span name op value link =>
    .assign (h span) (name.relocate h) (op.relocate h) (value.relocate h) link
  | .binary span left op right =>
    .binary (h span) (left.relocate h) (op.relocate h) (right.relocate h)
  | .logical span left op right =>
    .logical (h span) (left.relocate h) (op.relocate h) (right.relocate h)
  | .unary span op operand trailing =>
    .unary (h span) (op.relocate h) (operand.relocate h) trailing
  | .ternary span condition onTrue onFalse =>
    .ternary (h span) (condition.relocate h) (onTrue.relocate h) (onFalse.relocate h)
  | .group span inner => .group (h span) (inner.relocate h)
  | .call span callee paren args =>
    .call (h span) (callee.relocate h) (paren.relocate h) (Expr.relocateList h args)
  | .lambda function => .lambda (function.relocate h)
  | .get span object name => .get (h span) (object.relocate h) (name.relocate h)
  | .set span object name value =>
    .set (h span) (object.relocate h) (name.relocate h) (value.relocate h)
  | .receiver span keyword link => .receiver (h span) (keyword.relocate h) link
  | .inherited span keyword method link =>
    .inherited (h span) (keyword.relocate h) (method.relocate h) link

def Expr.relocateList (h : Span → Span) : List (Expr β) → List (Expr β)
  | [] => []
  | e :: es => e.relocate h :: Expr.relocateList h es

/-- The same function, written somewhere else. -/
def Function.relocate (h : Span → Span) : Function β → Function β
  | .mk span keyword params body getter =>
    .mk (h span) (keyword.relocate h) (params.map (·.relocate h)) (Stmt.relocateList h body) getter

def Declaration.relocate (h : Span → Span) : Declaration β → Declaration β
  | .mk span name function => .mk (h span) (name.relocate h) (function.relocate h)

def Declaration.relocateList (h : Span → Span) : List (Declaration β) → List (Declaration β)
  | [] => []
  | d :: ds => d.relocate h :: Declaration.relocateList h ds

/-- The same statement, written somewhere else. -/
def Stmt.relocate (h : Span → Span) : Stmt β → Stmt β
  | .evaluate span expr => .evaluate (h span) (expr.relocate h)
  | .print span keyword value => .print (h span) (keyword.relocate h) (value.relocate h)
  | .declareVar span name none => .declareVar (h span) (name.relocate h) none
  | .declareVar span name (some init) =>
    .declareVar (h span) (name.relocate h) (some (init.relocate h))
  | .block span stmts => .block (h span) (Stmt.relocateList h stmts)
  | .branch span condition onTrue none =>
    .branch (h span) (condition.relocate h) (onTrue.relocate h) none
  | .branch span condition onTrue (some onFalse) =>
    .branch (h span) (condition.relocate h) (onTrue.relocate h) (some (onFalse.relocate h))
  | .loop span condition body none bodyFirst =>
    .loop (h span) (condition.relocate h) (body.relocate h) none bodyFirst
  | .loop span condition body (some update) bodyFirst =>
    .loop (h span) (condition.relocate h) (body.relocate h) (some (update.relocate h)) bodyFirst
  | .leave span keyword none => .leave (h span) (keyword.relocate h) none
  | .leave span keyword (some value) =>
    .leave (h span) (keyword.relocate h) (some (value.relocate h))
  | .breakLoop span keyword => .breakLoop (h span) (keyword.relocate h)
  | .continueLoop span keyword => .continueLoop (h span) (keyword.relocate h)
  | .declareFunction declaration => .declareFunction (declaration.relocate h)
  | .declareClass span name superclass methods classMethods =>
    .declareClass (h span) (name.relocate h)
      (superclass.map fun (token, link) => (token.relocate h, link))
      (Declaration.relocateList h methods) (Declaration.relocateList h classMethods)

def Stmt.relocateList (h : Span → Span) : List (Stmt β) → List (Stmt β)
  | [] => []
  | s :: ss => s.relocate h :: Stmt.relocateList h ss

end

abbrev Token.move (g : Position → Position) (t : Token) : Token := t.relocate (Span.move g)

abbrev Diagnostic.move (g : Position → Position) (d : Diagnostic) : Diagnostic :=
  d.relocate (Span.move g)

abbrev Expr.move (g : Position → Position) (e : Expr β) : Expr β := e.relocate (Span.move g)

abbrev Expr.moveList (g : Position → Position) (es : List (Expr β)) : List (Expr β) :=
  Expr.relocateList (Span.move g) es

abbrev Function.move (g : Position → Position) (f : Function β) : Function β :=
  f.relocate (Span.move g)

abbrev Declaration.move (g : Position → Position) (d : Declaration β) : Declaration β :=
  d.relocate (Span.move g)

abbrev Declaration.moveList (g : Position → Position) (ds : List (Declaration β)) :
    List (Declaration β) :=
  Declaration.relocateList (Span.move g) ds

abbrev Stmt.move (g : Position → Position) (s : Stmt β) : Stmt β := s.relocate (Span.move g)

abbrev Stmt.moveList (g : Position → Position) (ss : List (Stmt β)) : List (Stmt β) :=
  Stmt.relocateList (Span.move g) ss

end

/-! ## What stays -/

section

variable (h : Span → Span)

@[simp] theorem Token.relocate_kind (t : Token) : (t.relocate h).kind = t.kind := rfl

@[simp] theorem Token.relocate_lexeme (t : Token) : (t.relocate h).lexeme = t.lexeme := rfl

@[simp] theorem Token.relocate_literal (t : Token) : (t.relocate h).literal = t.literal := rfl

@[simp] theorem Token.relocate_span (t : Token) : (t.relocate h).span = h t.span := rfl

@[simp] theorem Span.move_start (g : Position → Position) (s : Span) :
    (s.move g).start = g s.start :=
  rfl

@[simp] theorem Span.move_stop (g : Position → Position) (s : Span) : (s.move g).stop = g s.stop :=
  rfl

variable {β : Type}

theorem Expr.relocateList_eq_map (es : List (Expr β)) :
    Expr.relocateList h es = es.map (·.relocate h) := by
  induction es with
  | nil => rfl
  | cons e es ih => rw [relocateList, ih, List.map_cons]

theorem Declaration.relocateList_eq_map (ds : List (Declaration β)) :
    Declaration.relocateList h ds = ds.map (·.relocate h) := by
  induction ds with
  | nil => rfl
  | cons d ds ih => rw [relocateList, ih, List.map_cons]

theorem Stmt.relocateList_eq_map (ss : List (Stmt β)) :
    Stmt.relocateList h ss = ss.map (·.relocate h) := by
  induction ss with
  | nil => rfl
  | cons s ss ih => rw [relocateList, ih, List.map_cons]

theorem Stmt.relocateList_append (ss ss' : List (Stmt β)) :
    Stmt.relocateList h (ss ++ ss') = Stmt.relocateList h ss ++ Stmt.relocateList h ss' := by
  simp only [relocateList_eq_map, List.map_append]

@[simp] theorem Function.relocate_span (f : Function β) : (f.relocate h).span = h f.span := by
  cases f
  rfl

@[simp] theorem Function.relocate_params (f : Function β) :
    (f.relocate h).params = f.params.map (·.relocate h) := by
  cases f
  rfl

@[simp] theorem Function.relocate_body (f : Function β) :
    (f.relocate h).body = Stmt.relocateList h f.body := by
  cases f
  rfl

@[simp] theorem Function.relocate_getter (f : Function β) : (f.relocate h).getter = f.getter := by
  cases f
  rfl

@[simp] theorem Declaration.relocate_name (d : Declaration β) :
    (d.relocate h).name = d.name.relocate h := by
  cases d
  rfl

@[simp] theorem Declaration.relocate_function (d : Declaration β) :
    (d.relocate h).function = d.function.relocate h := by
  cases d
  rfl

@[simp] theorem Expr.relocate_span (e : Expr β) : (e.relocate h).span = h e.span := by
  cases e with
  | lambda function => exact function.relocate_span h
  | _ => rfl

end

/-! ## Relocating twice -/

section

variable {β : Type} (h h' : Span → Span)

theorem Token.relocate_relocate (t : Token) :
    (t.relocate h).relocate h' = t.relocate fun s => h' (h s) :=
  rfl

theorem Token.map_relocate_relocate (ts : List Token) :
    (ts.map (·.relocate h)).map (·.relocate h') = ts.map (·.relocate fun s => h' (h s)) := by
  rw [List.map_map]
  rfl

mutual

theorem Expr.relocate_relocate (e : Expr β) :
    (e.relocate h).relocate h' = e.relocate fun s => h' (h s) := by
  match e with
  | .literal .. | .name .. | .receiver .. | .inherited .. => rfl
  | .assign span name op value link =>
    simp only [Expr.relocate, Token.relocate_relocate, value.relocate_relocate]
  | .binary span left op right | .logical span left op right =>
    simp only [Expr.relocate, Token.relocate_relocate, left.relocate_relocate, right.relocate_relocate]
  | .unary span op operand trailing =>
    simp only [Expr.relocate, Token.relocate_relocate, operand.relocate_relocate]
  | .ternary span condition onTrue onFalse =>
    simp only [Expr.relocate, condition.relocate_relocate, onTrue.relocate_relocate,
      onFalse.relocate_relocate]
  | .group span inner => simp only [Expr.relocate, inner.relocate_relocate]
  | .call span callee paren args =>
    simp only [Expr.relocate, Token.relocate_relocate, callee.relocate_relocate,
      Expr.relocateList_relocateList args]
  | .lambda function => simp only [Expr.relocate, function.relocate_relocate]
  | .get span object name => simp only [Expr.relocate, Token.relocate_relocate, object.relocate_relocate]
  | .set span object name value =>
    simp only [Expr.relocate, Token.relocate_relocate, object.relocate_relocate,
      value.relocate_relocate]

theorem Expr.relocateList_relocateList (es : List (Expr β)) :
    Expr.relocateList h' (Expr.relocateList h es) = Expr.relocateList (fun s => h' (h s)) es := by
  match es with
  | [] => rfl
  | e :: es => simp only [Expr.relocateList, e.relocate_relocate, Expr.relocateList_relocateList es]

theorem Function.relocate_relocate (f : Function β) :
    (f.relocate h).relocate h' = f.relocate fun s => h' (h s) := by
  match f with
  | .mk span keyword params body getter =>
    simp only [Function.relocate, Token.relocate_relocate, Token.map_relocate_relocate,
      Stmt.relocateList_relocateList body]

theorem Declaration.relocate_relocate (d : Declaration β) :
    (d.relocate h).relocate h' = d.relocate fun s => h' (h s) := by
  match d with
  | .mk span name function =>
    simp only [Declaration.relocate, Token.relocate_relocate, function.relocate_relocate]

theorem Declaration.relocateList_relocateList (ds : List (Declaration β)) :
    Declaration.relocateList h' (Declaration.relocateList h ds) =
      Declaration.relocateList (fun s => h' (h s)) ds := by
  match ds with
  | [] => rfl
  | d :: ds =>
    simp only [Declaration.relocateList, d.relocate_relocate, Declaration.relocateList_relocateList ds]

theorem Stmt.relocate_relocate (s : Stmt β) :
    (s.relocate h).relocate h' = s.relocate fun s => h' (h s) := by
  match s with
  | .declareVar _ _ none | .leave _ _ none | .breakLoop .. | .continueLoop .. => rfl
  | .evaluate span expr => simp only [Stmt.relocate, expr.relocate_relocate]
  | .print span keyword value =>
    simp only [Stmt.relocate, Token.relocate_relocate, value.relocate_relocate]
  | .declareVar span name (some init) =>
    simp only [Stmt.relocate, Token.relocate_relocate, init.relocate_relocate]
  | .block span stmts => simp only [Stmt.relocate, Stmt.relocateList_relocateList stmts]
  | .branch span condition onTrue none =>
    simp only [Stmt.relocate, condition.relocate_relocate, onTrue.relocate_relocate]
  | .branch span condition onTrue (some onFalse) =>
    simp only [Stmt.relocate, condition.relocate_relocate, onTrue.relocate_relocate,
      onFalse.relocate_relocate]
  | .loop span condition body none bodyFirst =>
    simp only [Stmt.relocate, condition.relocate_relocate, body.relocate_relocate]
  | .loop span condition body (some update) bodyFirst =>
    simp only [Stmt.relocate, condition.relocate_relocate, body.relocate_relocate,
      update.relocate_relocate]
  | .leave span keyword (some value) =>
    simp only [Stmt.relocate, Token.relocate_relocate, value.relocate_relocate]
  | .declareFunction declaration => simp only [Stmt.relocate, declaration.relocate_relocate]
  | .declareClass span name superclass methods classMethods =>
    simp only [Stmt.relocate, Token.relocate_relocate, Option.map_map, Function.comp_def,
      Declaration.relocateList_relocateList methods,
      Declaration.relocateList_relocateList classMethods]

theorem Stmt.relocateList_relocateList (ss : List (Stmt β)) :
    Stmt.relocateList h' (Stmt.relocateList h ss) = Stmt.relocateList (fun s => h' (h s)) ss := by
  match ss with
  | [] => rfl
  | s :: ss => simp only [Stmt.relocateList, s.relocate_relocate, Stmt.relocateList_relocateList ss]

end

end

/-! ## Staying -/

section

variable {β : Type}

theorem Token.relocate_id (t : Token) : t.relocate id = t := rfl

theorem Token.map_relocate_id (ts : List Token) : ts.map (·.relocate id) = ts := List.map_id ts

mutual

theorem Expr.relocate_id (e : Expr β) : e.relocate id = e := by
  match e with
  | .literal .. | .name .. | .receiver .. | .inherited .. => rfl
  | .assign span name op value link =>
    simp only [Expr.relocate, Token.relocate_id, value.relocate_id, id]
  | .binary span left op right | .logical span left op right =>
    simp only [Expr.relocate, Token.relocate_id, left.relocate_id, right.relocate_id, id]
  | .unary span op operand trailing =>
    simp only [Expr.relocate, Token.relocate_id, operand.relocate_id, id]
  | .ternary span condition onTrue onFalse =>
    simp only [Expr.relocate, condition.relocate_id, onTrue.relocate_id, onFalse.relocate_id, id]
  | .group span inner => simp only [Expr.relocate, inner.relocate_id, id]
  | .call span callee paren args =>
    simp only [Expr.relocate, Token.relocate_id, callee.relocate_id, Expr.relocateList_id args, id]
  | .lambda function => simp only [Expr.relocate, function.relocate_id]
  | .get span object name =>
    simp only [Expr.relocate, Token.relocate_id, object.relocate_id, id]
  | .set span object name value =>
    simp only [Expr.relocate, Token.relocate_id, object.relocate_id, value.relocate_id, id]

theorem Expr.relocateList_id (es : List (Expr β)) : Expr.relocateList id es = es := by
  match es with
  | [] => rfl
  | e :: es => simp only [Expr.relocateList, e.relocate_id, Expr.relocateList_id es]

theorem Function.relocate_id (f : Function β) : f.relocate id = f := by
  match f with
  | .mk span keyword params body getter =>
    simp only [Function.relocate, Token.relocate_id, List.map_id', Stmt.relocateList_id body, id]

theorem Declaration.relocate_id (d : Declaration β) : d.relocate id = d := by
  match d with
  | .mk span name function =>
    simp only [Declaration.relocate, Token.relocate_id, function.relocate_id, id]

theorem Declaration.relocateList_id (ds : List (Declaration β)) :
    Declaration.relocateList id ds = ds := by
  match ds with
  | [] => rfl
  | d :: ds =>
    simp only [Declaration.relocateList, d.relocate_id, Declaration.relocateList_id ds]

theorem Stmt.relocate_id (s : Stmt β) : s.relocate id = s := by
  match s with
  | .declareVar _ _ none | .leave _ _ none | .breakLoop .. | .continueLoop .. => rfl
  | .evaluate span expr => simp only [Stmt.relocate, expr.relocate_id, id]
  | .print span keyword value =>
    simp only [Stmt.relocate, Token.relocate_id, value.relocate_id, id]
  | .declareVar span name (some init) =>
    simp only [Stmt.relocate, Token.relocate_id, init.relocate_id, id]
  | .block span stmts => simp only [Stmt.relocate, Stmt.relocateList_id stmts, id]
  | .branch span condition onTrue none =>
    simp only [Stmt.relocate, condition.relocate_id, onTrue.relocate_id, id]
  | .branch span condition onTrue (some onFalse) =>
    simp only [Stmt.relocate, condition.relocate_id, onTrue.relocate_id, onFalse.relocate_id, id]
  | .loop span condition body none bodyFirst =>
    simp only [Stmt.relocate, condition.relocate_id, body.relocate_id, id]
  | .loop span condition body (some update) bodyFirst =>
    simp only [Stmt.relocate, condition.relocate_id, body.relocate_id, update.relocate_id, id]
  | .leave span keyword (some value) =>
    simp only [Stmt.relocate, Token.relocate_id, value.relocate_id, id]
  | .declareFunction declaration => simp only [Stmt.relocate, declaration.relocate_id]
  | .declareClass span name superclass methods classMethods =>
    simp only [Stmt.relocate, Token.relocate_id, Option.map_id', Declaration.relocateList_id methods,
      Declaration.relocateList_id classMethods, id]

theorem Stmt.relocateList_id (ss : List (Stmt β)) : Stmt.relocateList id ss = ss := by
  match ss with
  | [] => rfl
  | s :: ss => simp only [Stmt.relocateList, s.relocate_id, Stmt.relocateList_id ss]

end

end

end Scriptlet

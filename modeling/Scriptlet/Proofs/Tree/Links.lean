import Scriptlet.Tree

/-!
# What is known about references

`links` lists what is known about the references of a tree, in the order in which resolution meets
them. To change it by one function and then by another one is to change it once, by a function that
does the same to everything in this list (`Expr.mapLinks_mapLinks` and its companions), and a
function that changes nothing leaves the tree as it is.
-/

namespace Scriptlet

section

variable {β : Type}

mutual

/-- What is known about the references of an expression. The value of a field assignment comes
before the object. -/
def Expr.links : Expr β → List β
  | .literal .. => []
  | .name _ _ link | .receiver _ _ link | .inherited _ _ _ link => [link]
  | .assign _ _ _ value link => value.links ++ [link]
  | .binary _ left _ right | .logical _ left _ right => left.links ++ right.links
  | .unary _ _ operand _ => operand.links
  | .ternary _ condition onTrue onFalse => condition.links ++ (onTrue.links ++ onFalse.links)
  | .group _ inner => inner.links
  | .call _ callee _ args => callee.links ++ Expr.linksList args
  | .lambda function => function.links
  | .get _ object _ => object.links
  | .set _ object _ value => value.links ++ object.links

def Expr.linksList : List (Expr β) → List β
  | [] => []
  | e :: es => e.links ++ Expr.linksList es

def Function.links : Function β → List β
  | .mk _ _ _ body _ => Stmt.linksList body

def Declaration.linksList : List (Declaration β) → List β
  | [] => []
  | .mk _ _ function :: ds => function.links ++ Declaration.linksList ds

/-- What is known about the references of a statement. -/
def Stmt.links : Stmt β → List β
  | .evaluate _ expr => expr.links
  | .print _ _ value => value.links
  | .declareVar _ _ none | .leave _ _ none | .breakLoop .. | .continueLoop .. => []
  | .declareVar _ _ (some init) => init.links
  | .block _ stmts => Stmt.linksList stmts
  | .branch _ condition onTrue none => condition.links ++ onTrue.links
  | .branch _ condition onTrue (some onFalse) =>
    condition.links ++ (onTrue.links ++ onFalse.links)
  | .loop _ condition body none _ => condition.links ++ body.links
  | .loop _ condition body (some update) _ => condition.links ++ (body.links ++ update.links)
  | .leave _ _ (some value) => value.links
  | .declareFunction (.mk _ _ function) => function.links
  | .declareClass _ _ superclass methods classMethods =>
    (superclass.map Prod.snd).toList ++
      (Declaration.linksList methods ++ Declaration.linksList classMethods)

def Stmt.linksList : List (Stmt β) → List β
  | [] => []
  | s :: ss => s.links ++ Stmt.linksList ss

end

end

/-! ## Changing twice -/

section

variable {β γ δ : Type} {f : β → γ} {g : γ → δ} {k : β → δ}

mutual

theorem Expr.mapLinks_mapLinks : ∀ e : Expr β, (∀ l ∈ e.links, g (f l) = k l) →
    (e.mapLinks f).mapLinks g = e.mapLinks k
  | .literal .., _ => by simp only [Expr.mapLinks]
  | .name .., h | .receiver .., h | .inherited .., h => by
    rw [Expr.links, List.forall_mem_singleton] at h
    simp only [Expr.mapLinks, h]
  | .assign _ _ _ value _, h => by
    rw [Expr.links, List.forall_mem_append, List.forall_mem_singleton] at h
    simp only [Expr.mapLinks, value.mapLinks_mapLinks h.1, h.2]
  | .binary _ left _ right, h | .logical _ left _ right, h => by
    rw [Expr.links, List.forall_mem_append] at h
    simp only [Expr.mapLinks, left.mapLinks_mapLinks h.1, right.mapLinks_mapLinks h.2]
  | .unary _ _ operand _, h => by
    rw [Expr.links] at h
    simp only [Expr.mapLinks, operand.mapLinks_mapLinks h]
  | .ternary _ condition onTrue onFalse, h => by
    rw [Expr.links, List.forall_mem_append, List.forall_mem_append] at h
    simp only [Expr.mapLinks, condition.mapLinks_mapLinks h.1, onTrue.mapLinks_mapLinks h.2.1,
      onFalse.mapLinks_mapLinks h.2.2]
  | .group _ inner, h => by
    rw [Expr.links] at h
    simp only [Expr.mapLinks, inner.mapLinks_mapLinks h]
  | .call _ callee _ args, h => by
    rw [Expr.links, List.forall_mem_append] at h
    simp only [Expr.mapLinks, callee.mapLinks_mapLinks h.1, Expr.mapLinksList_mapLinksList args h.2]
  | .lambda function, h => by
    rw [Expr.links] at h
    simp only [Expr.mapLinks, function.mapLinks_mapLinks h]
  | .get _ object _, h => by
    rw [Expr.links] at h
    simp only [Expr.mapLinks, object.mapLinks_mapLinks h]
  | .set _ object _ value, h => by
    rw [Expr.links, List.forall_mem_append] at h
    simp only [Expr.mapLinks, object.mapLinks_mapLinks h.2, value.mapLinks_mapLinks h.1]

theorem Expr.mapLinksList_mapLinksList : ∀ es : List (Expr β),
    (∀ l ∈ Expr.linksList es, g (f l) = k l) →
      Expr.mapLinksList g (Expr.mapLinksList f es) = Expr.mapLinksList k es
  | [], _ => by simp only [Expr.mapLinksList]
  | e :: es, h => by
    rw [Expr.linksList, List.forall_mem_append] at h
    simp only [Expr.mapLinksList, e.mapLinks_mapLinks h.1, Expr.mapLinksList_mapLinksList es h.2]

theorem Function.mapLinks_mapLinks : ∀ F : Function β, (∀ l ∈ F.links, g (f l) = k l) →
    (F.mapLinks f).mapLinks g = F.mapLinks k
  | .mk _ _ _ body _, h => by
    rw [Function.links] at h
    simp only [Function.mapLinks, Stmt.mapLinksList_mapLinksList body h]

theorem Declaration.mapLinksList_mapLinksList : ∀ ds : List (Declaration β),
    (∀ l ∈ Declaration.linksList ds, g (f l) = k l) →
      Declaration.mapLinksList g (Declaration.mapLinksList f ds) = Declaration.mapLinksList k ds
  | [], _ => by simp only [Declaration.mapLinksList]
  | .mk _ _ function :: ds, h => by
    rw [Declaration.linksList, List.forall_mem_append] at h
    simp only [Declaration.mapLinksList, Declaration.mapLinks, function.mapLinks_mapLinks h.1,
      Declaration.mapLinksList_mapLinksList ds h.2]

theorem Stmt.mapLinks_mapLinks : ∀ s : Stmt β, (∀ l ∈ s.links, g (f l) = k l) →
    (s.mapLinks f).mapLinks g = s.mapLinks k
  | .evaluate _ expr, h => by
    rw [Stmt.links] at h
    simp only [Stmt.mapLinks, expr.mapLinks_mapLinks h]
  | .print _ _ value, h => by
    rw [Stmt.links] at h
    simp only [Stmt.mapLinks, value.mapLinks_mapLinks h]
  | .declareVar _ _ none, _ | .leave _ _ none, _ | .breakLoop .., _ | .continueLoop .., _ => by
    simp only [Stmt.mapLinks]
  | .declareVar _ _ (some init), h => by
    rw [Stmt.links] at h
    simp only [Stmt.mapLinks, init.mapLinks_mapLinks h]
  | .block _ stmts, h => by
    rw [Stmt.links] at h
    simp only [Stmt.mapLinks, Stmt.mapLinksList_mapLinksList stmts h]
  | .branch _ condition onTrue none, h => by
    rw [Stmt.links, List.forall_mem_append] at h
    simp only [Stmt.mapLinks, condition.mapLinks_mapLinks h.1, onTrue.mapLinks_mapLinks h.2]
  | .branch _ condition onTrue (some onFalse), h => by
    rw [Stmt.links, List.forall_mem_append, List.forall_mem_append] at h
    simp only [Stmt.mapLinks, condition.mapLinks_mapLinks h.1, onTrue.mapLinks_mapLinks h.2.1,
      onFalse.mapLinks_mapLinks h.2.2]
  | .loop _ condition body none _, h => by
    rw [Stmt.links, List.forall_mem_append] at h
    simp only [Stmt.mapLinks, condition.mapLinks_mapLinks h.1, body.mapLinks_mapLinks h.2]
  | .loop _ condition body (some update) _, h => by
    rw [Stmt.links, List.forall_mem_append, List.forall_mem_append] at h
    simp only [Stmt.mapLinks, condition.mapLinks_mapLinks h.1, body.mapLinks_mapLinks h.2.1,
      update.mapLinks_mapLinks h.2.2]
  | .leave _ _ (some value), h => by
    rw [Stmt.links] at h
    simp only [Stmt.mapLinks, value.mapLinks_mapLinks h]
  | .declareFunction (.mk _ _ function), h => by
    rw [Stmt.links] at h
    simp only [Stmt.mapLinks, Declaration.mapLinks, function.mapLinks_mapLinks h]
  | .declareClass _ _ none methods classMethods, h => by
    rw [Stmt.links, List.forall_mem_append, List.forall_mem_append] at h
    simp only [Stmt.mapLinks, Option.map_none, Declaration.mapLinksList_mapLinksList methods h.2.1,
      Declaration.mapLinksList_mapLinksList classMethods h.2.2]
  | .declareClass _ _ (some (_, link)) methods classMethods, h => by
    rw [Stmt.links, Option.map_some, Option.toList_some, List.forall_mem_append,
      List.forall_mem_append, List.forall_mem_singleton] at h
    simp only [Stmt.mapLinks, Option.map_some, h.1,
      Declaration.mapLinksList_mapLinksList methods h.2.1,
      Declaration.mapLinksList_mapLinksList classMethods h.2.2]

theorem Stmt.mapLinksList_mapLinksList : ∀ ss : List (Stmt β),
    (∀ l ∈ Stmt.linksList ss, g (f l) = k l) →
      Stmt.mapLinksList g (Stmt.mapLinksList f ss) = Stmt.mapLinksList k ss
  | [], _ => by simp only [Stmt.mapLinksList]
  | s :: ss, h => by
    rw [Stmt.linksList, List.forall_mem_append] at h
    simp only [Stmt.mapLinksList, s.mapLinks_mapLinks h.1, Stmt.mapLinksList_mapLinksList ss h.2]

end

end

/-! ## Changing nothing -/

section

variable {β : Type}

mutual

theorem Expr.mapLinks_id : ∀ e : Expr β, e.mapLinks id = e
  | .literal .. | .name .. | .receiver .. | .inherited .. => by simp only [Expr.mapLinks, id]
  | .assign _ _ _ value _ => by simp only [Expr.mapLinks, value.mapLinks_id, id]
  | .binary _ left _ right | .logical _ left _ right => by
    simp only [Expr.mapLinks, left.mapLinks_id, right.mapLinks_id]
  | .unary _ _ operand _ => by simp only [Expr.mapLinks, operand.mapLinks_id]
  | .ternary _ condition onTrue onFalse => by
    simp only [Expr.mapLinks, condition.mapLinks_id, onTrue.mapLinks_id, onFalse.mapLinks_id]
  | .group _ inner => by simp only [Expr.mapLinks, inner.mapLinks_id]
  | .call _ callee _ args => by
    simp only [Expr.mapLinks, callee.mapLinks_id, Expr.mapLinksList_id args]
  | .lambda function => by simp only [Expr.mapLinks, function.mapLinks_id]
  | .get _ object _ => by simp only [Expr.mapLinks, object.mapLinks_id]
  | .set _ object _ value => by simp only [Expr.mapLinks, object.mapLinks_id, value.mapLinks_id]

theorem Expr.mapLinksList_id : ∀ es : List (Expr β), Expr.mapLinksList id es = es
  | [] => by rw [Expr.mapLinksList]
  | e :: es => by rw [Expr.mapLinksList, e.mapLinks_id, Expr.mapLinksList_id es]

theorem Function.mapLinks_id : ∀ F : Function β, F.mapLinks id = F
  | .mk _ _ _ body _ => by rw [Function.mapLinks, Stmt.mapLinksList_id body]

theorem Declaration.mapLinksList_id : ∀ ds : List (Declaration β),
    Declaration.mapLinksList id ds = ds
  | [] => by rw [Declaration.mapLinksList]
  | .mk _ _ function :: ds => by
    rw [Declaration.mapLinksList, Declaration.mapLinks, function.mapLinks_id,
      Declaration.mapLinksList_id ds]

theorem Stmt.mapLinks_id : ∀ s : Stmt β, s.mapLinks id = s
  | .evaluate _ expr => by rw [Stmt.mapLinks, expr.mapLinks_id]
  | .print _ _ value => by rw [Stmt.mapLinks, value.mapLinks_id]
  | .declareVar _ _ none | .leave _ _ none | .breakLoop .. | .continueLoop .. => by
    rw [Stmt.mapLinks]
  | .declareVar _ _ (some init) => by rw [Stmt.mapLinks, init.mapLinks_id]
  | .block _ stmts => by rw [Stmt.mapLinks, Stmt.mapLinksList_id stmts]
  | .branch _ condition onTrue none => by
    rw [Stmt.mapLinks, condition.mapLinks_id, onTrue.mapLinks_id]
  | .branch _ condition onTrue (some onFalse) => by
    rw [Stmt.mapLinks, condition.mapLinks_id, onTrue.mapLinks_id, onFalse.mapLinks_id]
  | .loop _ condition body none _ => by rw [Stmt.mapLinks, condition.mapLinks_id, body.mapLinks_id]
  | .loop _ condition body (some update) _ => by
    rw [Stmt.mapLinks, condition.mapLinks_id, body.mapLinks_id, update.mapLinks_id]
  | .leave _ _ (some value) => by rw [Stmt.mapLinks, value.mapLinks_id]
  | .declareFunction (.mk _ _ function) => by
    rw [Stmt.mapLinks, Declaration.mapLinks, function.mapLinks_id]
  | .declareClass _ _ superclass methods classMethods => by
    cases superclass <;>
      simp only [Stmt.mapLinks, Option.map_none, Option.map_some, id,
        Declaration.mapLinksList_id methods, Declaration.mapLinksList_id classMethods]

theorem Stmt.mapLinksList_id : ∀ ss : List (Stmt β), Stmt.mapLinksList id ss = ss
  | [] => by rw [Stmt.mapLinksList]
  | s :: ss => by rw [Stmt.mapLinksList, s.mapLinks_id, Stmt.mapLinksList_id ss]

end

end

/-! ## What is known after a change -/

section

variable {β γ : Type} (f : β → γ)

mutual

theorem Expr.links_mapLinks : ∀ e : Expr β, (e.mapLinks f).links = e.links.map f
  | .literal .. | .name .. | .receiver .. | .inherited .. => by
    simp only [Expr.mapLinks, Expr.links, List.map_nil, List.map_cons]
  | .assign _ _ _ value _ => by
    simp only [Expr.mapLinks, Expr.links, value.links_mapLinks, List.map_append, List.map_singleton]
  | .binary _ left _ right | .logical _ left _ right => by
    simp only [Expr.mapLinks, Expr.links, left.links_mapLinks, right.links_mapLinks,
      List.map_append]
  | .unary _ _ operand _ => by simp only [Expr.mapLinks, Expr.links, operand.links_mapLinks]
  | .ternary _ condition onTrue onFalse => by
    simp only [Expr.mapLinks, Expr.links, condition.links_mapLinks, onTrue.links_mapLinks,
      onFalse.links_mapLinks, List.map_append]
  | .group _ inner => by simp only [Expr.mapLinks, Expr.links, inner.links_mapLinks]
  | .call _ callee _ args => by
    simp only [Expr.mapLinks, Expr.links, callee.links_mapLinks, Expr.linksList_mapLinksList args,
      List.map_append]
  | .lambda function => by simp only [Expr.mapLinks, Expr.links, function.links_mapLinks]
  | .get _ object _ => by simp only [Expr.mapLinks, Expr.links, object.links_mapLinks]
  | .set _ object _ value => by
    simp only [Expr.mapLinks, Expr.links, object.links_mapLinks, value.links_mapLinks,
      List.map_append]

theorem Expr.linksList_mapLinksList : ∀ es : List (Expr β),
    Expr.linksList (Expr.mapLinksList f es) = (Expr.linksList es).map f
  | [] => by simp only [Expr.mapLinksList, Expr.linksList, List.map_nil]
  | e :: es => by
    simp only [Expr.mapLinksList, Expr.linksList, e.links_mapLinks, Expr.linksList_mapLinksList es,
      List.map_append]

theorem Function.links_mapLinks : ∀ F : Function β, (F.mapLinks f).links = F.links.map f
  | .mk _ _ _ body _ => by
    simp only [Function.mapLinks, Function.links, Stmt.linksList_mapLinksList body]

theorem Declaration.linksList_mapLinksList : ∀ ds : List (Declaration β),
    Declaration.linksList (Declaration.mapLinksList f ds) = (Declaration.linksList ds).map f
  | [] => by simp only [Declaration.mapLinksList, Declaration.linksList, List.map_nil]
  | .mk _ _ function :: ds => by
    simp only [Declaration.mapLinksList, Declaration.mapLinks, Declaration.linksList,
      function.links_mapLinks, Declaration.linksList_mapLinksList ds, List.map_append]

theorem Stmt.links_mapLinks : ∀ s : Stmt β, (s.mapLinks f).links = s.links.map f
  | .evaluate _ expr => by simp only [Stmt.mapLinks, Stmt.links, expr.links_mapLinks]
  | .print _ _ value => by simp only [Stmt.mapLinks, Stmt.links, value.links_mapLinks]
  | .declareVar _ _ none | .leave _ _ none | .breakLoop .. | .continueLoop .. => by
    simp only [Stmt.mapLinks, Stmt.links, List.map_nil]
  | .declareVar _ _ (some init) => by simp only [Stmt.mapLinks, Stmt.links, init.links_mapLinks]
  | .block _ stmts => by simp only [Stmt.mapLinks, Stmt.links, Stmt.linksList_mapLinksList stmts]
  | .branch _ condition onTrue none => by
    simp only [Stmt.mapLinks, Stmt.links, condition.links_mapLinks, onTrue.links_mapLinks,
      List.map_append]
  | .branch _ condition onTrue (some onFalse) => by
    simp only [Stmt.mapLinks, Stmt.links, condition.links_mapLinks, onTrue.links_mapLinks,
      onFalse.links_mapLinks, List.map_append]
  | .loop _ condition body none _ => by
    simp only [Stmt.mapLinks, Stmt.links, condition.links_mapLinks, body.links_mapLinks,
      List.map_append]
  | .loop _ condition body (some update) _ => by
    simp only [Stmt.mapLinks, Stmt.links, condition.links_mapLinks, body.links_mapLinks,
      update.links_mapLinks, List.map_append]
  | .leave _ _ (some value) => by simp only [Stmt.mapLinks, Stmt.links, value.links_mapLinks]
  | .declareFunction (.mk _ _ function) => by
    simp only [Stmt.mapLinks, Declaration.mapLinks, Stmt.links, function.links_mapLinks]
  | .declareClass _ _ superclass methods classMethods => by
    cases superclass <;>
      simp only [Stmt.mapLinks, Stmt.links, Option.map_none, Option.map_some, Option.toList_none,
        Option.toList_some, List.map_nil, List.map_singleton, List.map_append,
        Declaration.linksList_mapLinksList methods, Declaration.linksList_mapLinksList classMethods]

theorem Stmt.linksList_mapLinksList : ∀ ss : List (Stmt β),
    Stmt.linksList (Stmt.mapLinksList f ss) = (Stmt.linksList ss).map f
  | [] => by simp only [Stmt.mapLinksList, Stmt.linksList, List.map_nil]
  | s :: ss => by
    simp only [Stmt.mapLinksList, Stmt.linksList, s.links_mapLinks, Stmt.linksList_mapLinksList ss,
      List.map_append]

end

end

/-! ## What stays -/

namespace Function

variable {β γ : Type} (f : β → γ) (F : Function β)

@[simp] theorem mapLinks_params : (F.mapLinks f).params = F.params := by
  cases F
  simp only [mapLinks, params]

@[simp] theorem mapLinks_body : (F.mapLinks f).body = Stmt.mapLinksList f F.body := by
  cases F
  simp only [mapLinks, body]

@[simp] theorem mapLinks_getter : (F.mapLinks f).getter = F.getter := by
  cases F
  simp only [mapLinks, getter]

end Function

namespace Declaration

variable {β γ : Type} (f : β → γ) (d : Declaration β)

@[simp] theorem mapLinks_name : (d.mapLinks f).name = d.name := by
  cases d
  simp only [mapLinks, name]

@[simp] theorem mapLinks_function : (d.mapLinks f).function = d.function.mapLinks f := by
  cases d
  simp only [mapLinks, function]

end Declaration

end Scriptlet

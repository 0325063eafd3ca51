import Scriptlet.Proofs.Tree.Links

/-!
# Numbered references

The references of a tree can be told apart by numbers: each gets the next one in the order of
`Expr.links`. So a tree that is numbered from `n` has the numbers from `n` on, each of them once,
and is the same tree otherwise (`Expr.numbers` and its companions). What is known about a reference
can then be kept apart from the tree, under its number.
-/

namespace Scriptlet

/-- A step of a count, which knows the next number. -/
abbrev Counting := StateM Nat

/-- The next number. -/
def Counting.fresh : Counting Nat := modifyGet fun n => (n, n + 1)

open Counting

mutual

/-- Numbers the references of an expression. -/
def Expr.number : Expr Unit → Counting (Expr Nat)
  | .literal span value => return .literal span value
  | .name span name _ => return .name span name (← fresh)
  | .assign span name op value _ => do
    let value ← value.number
    return .assign span name op value (← fresh)
  | .binary span left op right => do
    let left ← left.number
    let right ← right.number
    return .binary span left op right
  | .logical span left op right => do
    let left ← left.number
    let right ← right.number
    return .logical span left op right
  | .unary span op operand trailing => do
    let operand ← operand.number
    return .unary span op operand trailing
  | .ternary span condition onTrue onFalse => do
    let condition ← condition.number
    let onTrue ← onTrue.number
    let onFalse ← onFalse.number
    return .ternary span condition onTrue onFalse
  | .group span inner => do
    let inner ← inner.number
    return .group span inner
  | .call span callee paren args => do
    let callee ← callee.number
    let args ← Expr.numberList args
    return .call span callee paren args
  | .lambda function => do
    let function ← function.number
    return .lambda function
  | .get span object name => do
    let object ← object.number
    return .get span object name
  | .set span object name value => do
    let value ← value.number
    let object ← object.number
    return .set span object name value
  | .receiver span keyword _ => return .receiver span keyword (← fresh)
  | .inherited span keyword method _ => return .inherited span keyword method (← fresh)

def Expr.numberList : List (Expr Unit) → Counting (List (Expr Nat))
  | [] => return []
  | e :: es => do
    let e ← e.number
    let es ← Expr.numberList es
    return e :: es

def Function.number : Function Unit → Counting (Function Nat)
  | .mk span keyword params body getter => do
    let body ← Stmt.numberList body
    return .mk span keyword params body getter

def Declaration.numberList : List (Declaration Unit) → Counting (List (Declaration Nat))
  | [] => return []
  | .mk span name function :: rest => do
    let function ← function.number
    let rest ← Declaration.numberList rest
    return .mk span name function :: rest

/-- Numbers the references of a statement. -/
def Stmt.number : Stmt Unit → Counting (Stmt Nat)
  | .evaluate span expr => do
    let expr ← expr.number
    return .evaluate span expr
  | .print span keyword value => do
    let value ← value.number
    return .print span keyword value
  | .declareVar span name none => return .declareVar span name none
  | .declareVar span name (some init) => do
    let init ← init.number
    return .declareVar span name (some init)
  | .block span stmts => do
    let stmts ← Stmt.numberList stmts
    return .block span stmts
  | .branch span condition onTrue none => do
    let condition ← condition.number
    let onTrue ← onTrue.number
    return .branch span condition onTrue none
  | .branch span condition onTrue (some onFalse) => do
    let condition ← condition.number
    let onTrue ← onTrue.number
    let onFalse ← onFalse.number
    return .branch span condition onTrue (some onFalse)
  | .loop span condition body none bodyFirst => do
    let condition ← condition.number
    let body ← body.number
    return .loop span condition body none bodyFirst
  | .loop span condition body (some update) bodyFirst => do
    let condition ← condition.number
    let body ← body.number
    let update ← update.number
    return .loop span condition body (some update) bodyFirst
  | .leave span keyword none => return .leave span keyword none
  | .leave span keyword (some value) => do
    let value ← value.number
    return .leave span keyword (some value)
  | .breakLoop span keyword => return .breakLoop span keyword
  | .continueLoop span keyword => return .continueLoop span keyword
  | .declareFunction (.mk span name function) => do
    let function ← function.number
    return .declareFunction (.mk span name function)
  | .declareClass span name none methods classMethods => do
    let methods ← Declaration.numberList methods
    let classMethods ← Declaration.numberList classMethods
    return .declareClass span name none methods classMethods
  | .declareClass span name (some (parent, _)) methods classMethods => do
    let node ← fresh
    let methods ← Declaration.numberList methods
    let classMethods ← Declaration.numberList classMethods
    return .declareClass span name (some (parent, node)) methods classMethods

def Stmt.numberList : List (Stmt Unit) → Counting (List (Stmt Nat))
  | [] => return []
  | stmt :: stmts => do
    let stmt ← stmt.number
    let stmts ← Stmt.numberList stmts
    return stmt :: stmts

end

/-! ## Numbers from some number on -/

namespace Counting

variable {α β : Type} {P : α → List Nat → Prop} {Q : β → List Nat → Prop}

/-- A part of a numbering; what it yields is related to the numbers that it gives. -/
def Gives (x : Counting α) (P : α → List Nat → Prop) : Prop :=
  ∀ n, ∃ k, (x.run n).2 = n + k ∧ P (x.run n).1 (List.range' n k)

theorem gives_pure {a : α} (h : P a []) : Gives (pure a) P := fun _ => ⟨0, rfl, h⟩

theorem gives_fresh : Gives fresh fun node ns => ns = [node] := fun _ => ⟨1, rfl, rfl⟩

theorem Gives.bind {x : Counting α} {f : α → Counting β} (hx : Gives x P)
    (hf : ∀ a ns, P a ns → Gives (f a) fun b ns' => Q b (ns ++ ns')) : Gives (x >>= f) Q := by
  intro n
  obtain ⟨k, hnext, ha⟩ := hx n
  obtain ⟨k', hnext', hb⟩ := hf _ _ ha (x.run n).2
  refine ⟨k + k', ?_, ?_⟩
  · change ((f (x.run n).1).run (x.run n).2).2 = n + (k + k')
    rw [hnext', hnext, Nat.add_assoc]
  · rw [hnext, List.range'_append_1] at hb
    rw [← hnext] at hb
    exact hb

theorem Gives.map {x : Counting α} {f : α → β} (hx : Gives x P)
    (hf : ∀ a ns, P a ns → Q (f a) ns) : Gives (x >>= fun a => pure (f a)) Q := by
  refine hx.bind fun a ns ha => gives_pure ?_
  rw [List.append_nil]
  exact hf a ns ha

end Counting

/-- A tree with some numbers and the tree that it was before. -/
def Expr.Numbered (e : Expr Unit) (e' : Expr Nat) (ns : List Nat) : Prop :=
  e'.mapLinks (fun _ => ()) = e ∧ e'.links = ns

def Expr.NumberedList (es : List (Expr Unit)) (es' : List (Expr Nat)) (ns : List Nat) : Prop :=
  Expr.mapLinksList (fun _ => ()) es' = es ∧ Expr.linksList es' = ns

def Function.Numbered (f : Function Unit) (f' : Function Nat) (ns : List Nat) : Prop :=
  f'.mapLinks (fun _ => ()) = f ∧ f'.links = ns

def Declaration.NumberedList (ds : List (Declaration Unit)) (ds' : List (Declaration Nat))
    (ns : List Nat) : Prop :=
  Declaration.mapLinksList (fun _ => ()) ds' = ds ∧ Declaration.linksList ds' = ns

def Stmt.Numbered (s : Stmt Unit) (s' : Stmt Nat) (ns : List Nat) : Prop :=
  s'.mapLinks (fun _ => ()) = s ∧ s'.links = ns

def Stmt.NumberedList (ss : List (Stmt Unit)) (ss' : List (Stmt Nat)) (ns : List Nat) : Prop :=
  Stmt.mapLinksList (fun _ => ()) ss' = ss ∧ Stmt.linksList ss' = ns

mutual

theorem Expr.numbers : ∀ e : Expr Unit, Gives e.number e.Numbered
  | .literal span value => by
    rw [Expr.number]
    exact gives_pure ⟨rfl, rfl⟩
  | .name span name _ => by
    rw [Expr.number]
    exact gives_fresh.map fun _ _ hn => ⟨rfl, hn.symm⟩
  | .assign span name op value _ => by
    rw [Expr.number]
    refine value.numbers.bind fun value ns hvalue => gives_fresh.map fun _ ns' hn => ?_
    exact ⟨by rw [Expr.mapLinks, hvalue.1], by rw [Expr.links, hvalue.2, hn]⟩
  | .binary span left op right => by
    rw [Expr.number]
    refine left.numbers.bind fun left ns hleft => right.numbers.map fun right ns' hright => ?_
    exact ⟨by rw [Expr.mapLinks, hleft.1, hright.1], by rw [Expr.links, hleft.2, hright.2]⟩
  | .logical span left op right => by
    rw [Expr.number]
    refine left.numbers.bind fun left ns hleft => right.numbers.map fun right ns' hright => ?_
    exact ⟨by rw [Expr.mapLinks, hleft.1, hright.1], by rw [Expr.links, hleft.2, hright.2]⟩
  | .unary span op operand trailing => by
    rw [Expr.number]
    refine operand.numbers.map fun operand ns hoperand => ?_
    exact ⟨by rw [Expr.mapLinks, hoperand.1], hoperand.2⟩
  | .ternary span condition onTrue onFalse => by
    rw [Expr.number]
    refine condition.numbers.bind fun condition ns hcondition => ?_
    refine onTrue.numbers.bind fun onTrue ns' htrue => ?_
    refine onFalse.numbers.map fun onFalse ns'' hfalse => ?_
    exact ⟨by rw [Expr.mapLinks, hcondition.1, htrue.1, hfalse.1],
      by rw [Expr.links, hcondition.2, htrue.2, hfalse.2]⟩
  | .group span inner => by
    rw [Expr.number]
    refine inner.numbers.map fun inner ns hinner => ?_
    exact ⟨by rw [Expr.mapLinks, hinner.1], hinner.2⟩
  | .call span callee paren args => by
    rw [Expr.number]
    refine callee.numbers.bind fun callee ns hcallee => ?_
    refine (Expr.numbersList args).map fun args ns' hargs => ?_
    exact ⟨by rw [Expr.mapLinks, hcallee.1, hargs.1], by rw [Expr.links, hcallee.2, hargs.2]⟩
  | .lambda function => by
    rw [Expr.number]
    refine function.numbers.map fun function ns hfunction => ?_
    exact ⟨by rw [Expr.mapLinks, hfunction.1], hfunction.2⟩
  | .get span object name => by
    rw [Expr.number]
    refine object.numbers.map fun object ns hobject => ?_
    exact ⟨by rw [Expr.mapLinks, hobject.1], hobject.2⟩
  | .set span object name value => by
    rw [Expr.number]
    refine value.numbers.bind fun value ns hvalue => object.numbers.map fun object ns' hobject => ?_
    exact ⟨by rw [Expr.mapLinks, hobject.1, hvalue.1], by rw [Expr.links, hvalue.2, hobject.2]⟩
  | .receiver span keyword _ => by
    rw [Expr.number]
    exact gives_fresh.map fun _ _ hn => ⟨rfl, hn.symm⟩
  | .inherited span keyword method _ => by
    rw [Expr.number]
    exact gives_fresh.map fun _ _ hn => ⟨rfl, hn.symm⟩

theorem Expr.numbersList : ∀ es : List (Expr Unit),
    Gives (Expr.numberList es) (Expr.NumberedList es)
  | [] => by
    rw [Expr.numberList]
    exact gives_pure ⟨rfl, rfl⟩
  | e :: es => by
    rw [Expr.numberList]
    refine e.numbers.bind fun e ns he => (Expr.numbersList es).map fun es ns' hes => ?_
    exact ⟨by rw [Expr.mapLinksList, he.1, hes.1], by rw [Expr.linksList, he.2, hes.2]⟩

theorem Function.numbers : ∀ f : Function Unit, Gives f.number f.Numbered
  | .mk span keyword params body getter => by
    rw [Function.number]
    refine (Stmt.numbersList body).map fun body ns hbody => ?_
    exact ⟨by rw [Function.mapLinks, hbody.1], hbody.2⟩

theorem Declaration.numbersList : ∀ ds : List (Declaration Unit),
    Gives (Declaration.numberList ds) (Declaration.NumberedList ds)
  | [] => by
    rw [Declaration.numberList]
    exact gives_pure ⟨rfl, rfl⟩
  | .mk span name function :: ds => by
    rw [Declaration.numberList]
    refine function.numbers.bind fun function ns hfunction => ?_
    refine (Declaration.numbersList ds).map fun ds ns' hds => ?_
    exact ⟨by rw [Declaration.mapLinksList, Declaration.mapLinks, hfunction.1, hds.1],
      by rw [Declaration.linksList, hfunction.2, hds.2]⟩

theorem Stmt.numbers : ∀ s : Stmt Unit, Gives s.number s.Numbered
  | .evaluate span expr => by
    rw [Stmt.number]
    refine expr.numbers.map fun expr ns hexpr => ?_
    exact ⟨by rw [Stmt.mapLinks, hexpr.1], hexpr.2⟩
  | .print span keyword value => by
    rw [Stmt.number]
    refine value.numbers.map fun value ns hvalue => ?_
    exact ⟨by rw [Stmt.mapLinks, hvalue.1], hvalue.2⟩
  | .declareVar span name none | .leave span keyword none | .breakLoop span keyword
  | .continueLoop span keyword => by
    rw [Stmt.number]
    exact gives_pure ⟨rfl, rfl⟩
  | .declareVar span name (some init) => by
    rw [Stmt.number]
    refine init.numbers.map fun init ns hinit => ?_
    exact ⟨by rw [Stmt.mapLinks, hinit.1], hinit.2⟩
  | .block span stmts => by
    rw [Stmt.number]
    refine (Stmt.numbersList stmts).map fun stmts ns hstmts => ?_
    exact ⟨by rw [Stmt.mapLinks, hstmts.1], hstmts.2⟩
  | .branch span condition onTrue none => by
    rw [Stmt.number]
    refine condition.numbers.bind fun condition ns hcondition => ?_
    refine onTrue.numbers.map fun onTrue ns' htrue => ?_
    exact ⟨by rw [Stmt.mapLinks, hcondition.1, htrue.1], by rw [Stmt.links, hcondition.2, htrue.2]⟩
  | .branch span condition onTrue (some onFalse) => by
    rw [Stmt.number]
    refine condition.numbers.bind fun condition ns hcondition => ?_
    refine onTrue.numbers.bind fun onTrue ns' htrue => ?_
    refine onFalse.numbers.map fun onFalse ns'' hfalse => ?_
    exact ⟨by rw [Stmt.mapLinks, hcondition.1, htrue.1, hfalse.1],
      by rw [Stmt.links, hcondition.2, htrue.2, hfalse.2]⟩
  | .loop span condition body none bodyFirst => by
    rw [Stmt.number]
    refine condition.numbers.bind fun condition ns hcondition => ?_
    refine body.numbers.map fun body ns' hbody => ?_
    exact ⟨by rw [Stmt.mapLinks, hcondition.1, hbody.1], by rw [Stmt.links, hcondition.2, hbody.2]⟩
  | .loop span condition body (some update) bodyFirst => by
    rw [Stmt.number]
    refine condition.numbers.bind fun condition ns hcondition => ?_
    refine body.numbers.bind fun body ns' hbody => update.numbers.map fun update ns'' hupdate => ?_
    exact ⟨by rw [Stmt.mapLinks, hcondition.1, hbody.1, hupdate.1],
      by rw [Stmt.links, hcondition.2, hbody.2, hupdate.2]⟩
  | .leave span keyword (some value) => by
    rw [Stmt.number]
    refine value.numbers.map fun value ns hvalue => ?_
    exact ⟨by rw [Stmt.mapLinks, hvalue.1], hvalue.2⟩
  | .declareFunction (.mk span name function) => by
    rw [Stmt.number]
    refine function.numbers.map fun function ns hfunction => ?_
    exact ⟨by rw [Stmt.mapLinks, Declaration.mapLinks, hfunction.1], hfunction.2⟩
  | .declareClass span name none methods classMethods => by
    rw [Stmt.number]
    refine (Declaration.numbersList methods).bind fun methods ns hmethods => ?_
    refine (Declaration.numbersList classMethods).map fun classMethods ns' hclass => ?_
    exact ⟨by rw [Stmt.mapLinks, Option.map_none, hmethods.1, hclass.1],
      by rw [Stmt.links, Option.map_none, Option.toList_none, List.nil_append, hmethods.2,
        hclass.2]⟩
  | .declareClass span name (some (parent, _)) methods classMethods => by
    rw [Stmt.number]
    refine gives_fresh.bind fun node ns hnode => ?_
    refine (Declaration.numbersList methods).bind fun methods ns' hmethods => ?_
    refine (Declaration.numbersList classMethods).map fun classMethods ns'' hclass => ?_
    exact ⟨by rw [Stmt.mapLinks, Option.map_some, hmethods.1, hclass.1],
      by rw [Stmt.links, Option.map_some, Option.toList_some, hnode, hmethods.2, hclass.2]⟩

theorem Stmt.numbersList : ∀ ss : List (Stmt Unit),
    Gives (Stmt.numberList ss) (Stmt.NumberedList ss)
  | [] => by
    rw [Stmt.numberList]
    exact gives_pure ⟨rfl, rfl⟩
  | s :: ss => by
    rw [Stmt.numberList]
    refine s.numbers.bind fun s ns hs => (Stmt.numbersList ss).map fun ss ns' hss => ?_
    exact ⟨by rw [Stmt.mapLinksList, hs.1, hss.1], by rw [Stmt.linksList, hs.2, hss.2]⟩

end

end Scriptlet

import Scriptlet.Diagnostic.Printer
import Scriptlet.Proofs.Number.Patterns
import Scriptlet.Proofs.Token.Respacing
import Scriptlet.Proofs.Tree.Nodes
import Scriptlet.Proofs.Tree.Numbers

/-!
# Trees that can be written

Numbers are all that can keep data from being written: there is a document if every number in the
data is finite (`Json.document_of_finite`), and none if one is infinity
(`Json.document_of_infinity`). The numbers in the data of a tree are those in the tree
(`Program.numbers_dump`), and a report has none (`Report.numbers_data`). In the tree of a source
every number is finite or infinity (`numbers_of_source`), and it is finite if no number of the
source is reported to be too large (`finite_of_source`).
-/

namespace Scriptlet

namespace Json

/-! ## Numbers in data -/

variable {P : Float → Prop}

/-- What is asked of numbers holds of those inside data, at any depth. -/
def Numbers (P : Float → Prop) (data : Json) : Prop := ∀ x, data.Part (.number x) → P x

theorem numbers_text (t : Text) : (text t).Numbers P := fun _ h => nomatch h

theorem numbers_bool (b : Bool) : (bool b).Numbers P := fun _ h => nomatch h

theorem numbers_int (n : Int) : (int n).Numbers P := fun _ h => nomatch h

theorem numbers_literal (v : Literal) : v.dump.Numbers P ↔ v.Numbers P := by
  cases v with
  | none | bool | text => exact ⟨fun _ => trivial, fun _ _ h => nomatch h⟩
  | number x =>
    refine ⟨fun h => h x (.self _), fun h y hpart => ?_⟩
    cases hpart
    exact h

theorem numbers_list {items : List Json} :
    (list items).Numbers P ↔ ∀ item ∈ items, item.Numbers P := by
  refine ⟨fun h item hitem x hpart => h x (.item hitem hpart), fun h x hpart => ?_⟩
  cases hpart with
  | item hitem hpart => exact h _ hitem x hpart

theorem numbers_object {fields : List (String × Json)} :
    (object fields).Numbers P ↔ ∀ field ∈ fields, field.2.Numbers P := by
  refine ⟨fun h field hfield x hpart => h x (.field hfield hpart), fun h x hpart => ?_⟩
  cases hpart with
  | field hfield hpart => exact h _ hfield x hpart

theorem numbers_sorted {fields : List (String × Json)} :
    (sorted fields).Numbers P ↔ ∀ field ∈ fields, field.2.Numbers P := by
  unfold sorted
  simp only [numbers_object, List.mem_mergeSort]

theorem numbers_position (p : Position) : p.dump.Numbers P :=
  numbers_sorted.mpr (by simp [numbers_int])

theorem numbers_span (s : Span) : s.dump.Numbers P :=
  numbers_sorted.mpr (by simp [numbers_position])

theorem numbers_node {kind : String} {span : Span} {fields : List (String × Json)} :
    (node kind span fields).Numbers P ↔ ∀ field ∈ fields, field.2.Numbers P := by
  unfold node
  simp only [numbers_sorted, List.forall_mem_cons, numbers_text, numbers_span, true_and]

theorem numbers_optional {name : String} {value : Option Json} :
    (∀ field ∈ optional name value, field.2.Numbers P) ↔ ∀ v ∈ value, v.Numbers P := by
  cases value <;> simp [optional]

theorem numbers_nonEmpty {items : List Json} :
    (∀ v ∈ nonEmpty items, v.Numbers P) ↔ ∀ item ∈ items, item.Numbers P := by
  cases items <;> simp [nonEmpty, numbers_list]

theorem numbers_classFields {name : Text} {superclass methods classMethods : Option Json} :
    (∀ field ∈ classFields name superclass methods classMethods, field.2.Numbers P) ↔
      (∀ v ∈ superclass, v.Numbers P) ∧ (∀ v ∈ methods, v.Numbers P) ∧
        ∀ v ∈ classMethods, v.Numbers P := by
  simp only [classFields, List.forall_mem_cons, List.forall_mem_append, numbers_text,
    numbers_optional, true_and]

/-! ## Documents -/

mutual

/-- What keeps data from being written is a number inside them. -/
theorem part_of_nonFinite? {x : Float} : ∀ {j : Json}, j.nonFinite? = some x →
    j.Part (.number x) ∧ x.isFinite = false
  | .null, h | .bool _, h | .int _, h | .text _, h => nomatch h
  | .number y, h => by
    rw [nonFinite?] at h
    split at h
    · cases h
    · next hy =>
      cases h
      exact ⟨.self _, Bool.eq_false_iff.mpr hy⟩
  | .list items, h => by
    obtain ⟨item, hitem, hpart, hx⟩ := part_of_nonFiniteItem? h
    exact ⟨.item hitem hpart, hx⟩
  | .object fields, h => by
    obtain ⟨name, value, hfield, hpart, hx⟩ := part_of_nonFiniteField? h
    exact ⟨.field hfield hpart, hx⟩

theorem part_of_nonFiniteItem? {x : Float} : ∀ {items : List Json},
    nonFiniteItem? items = some x → ∃ item ∈ items, item.Part (.number x) ∧ x.isFinite = false
  | [], h => nomatch h
  | item :: items, h => by
    rw [nonFiniteItem?] at h
    cases hitem : item.nonFinite? with
    | some y =>
      rw [hitem] at h
      cases h
      exact ⟨item, List.mem_cons_self, part_of_nonFinite? hitem⟩
    | none =>
      rw [hitem] at h
      obtain ⟨later, hlater, hpart⟩ := part_of_nonFiniteItem? h
      exact ⟨later, List.mem_cons_of_mem _ hlater, hpart⟩

theorem part_of_nonFiniteField? {x : Float} : ∀ {fields : List (String × Json)},
    nonFiniteField? fields = some x →
      ∃ name value, (name, value) ∈ fields ∧ value.Part (.number x) ∧ x.isFinite = false
  | [], h => nomatch h
  | (name, value) :: fields, h => by
    rw [nonFiniteField?] at h
    cases hvalue : value.nonFinite? with
    | some y =>
      rw [hvalue] at h
      cases h
      exact ⟨name, value, List.mem_cons_self, part_of_nonFinite? hvalue⟩
    | none =>
      rw [hvalue] at h
      obtain ⟨name', value', hlater, hpart⟩ := part_of_nonFiniteField? h
      exact ⟨name', value', List.mem_cons_of_mem _ hlater, hpart⟩

end

mutual

/-- Data that can be written have finite numbers only. -/
theorem numbers_of_writable : ∀ {j : Json}, j.nonFinite? = none → j.Numbers (Float.isFinite ·)
  | .null, _ | .bool _, _ | .int _, _ | .text _, _ => fun _ h => nomatch h
  | .number y, h => by
    intro x hpart
    cases hpart
    rw [nonFinite?] at h
    split at h
    · assumption
    · cases h
  | .list items, h => numbers_list.mpr (numbers_of_writableItems h)
  | .object fields, h => numbers_object.mpr (numbers_of_writableFields h)

theorem numbers_of_writableItems : ∀ {items : List Json}, nonFiniteItem? items = none →
    ∀ item ∈ items, item.Numbers (Float.isFinite ·)
  | [], _ => List.forall_mem_nil _
  | item :: items, h => by
    rw [nonFiniteItem?] at h
    cases hitem : item.nonFinite? with
    | some y => rw [hitem] at h; cases h
    | none =>
      rw [hitem] at h
      exact List.forall_mem_cons.mpr ⟨numbers_of_writable hitem, numbers_of_writableItems h⟩

theorem numbers_of_writableFields : ∀ {fields : List (String × Json)},
    nonFiniteField? fields = none → ∀ field ∈ fields, field.2.Numbers (Float.isFinite ·)
  | [], _ => List.forall_mem_nil _
  | (_, value) :: fields, h => by
    rw [nonFiniteField?] at h
    cases hvalue : value.nonFinite? with
    | some y => rw [hvalue] at h; cases h
    | none =>
      rw [hvalue] at h
      exact List.forall_mem_cons.mpr ⟨numbers_of_writable hvalue, numbers_of_writableFields h⟩

end

theorem document_of_finite {j : Json} (h : j.Numbers (Float.isFinite ·)) :
    j.document = .ok (.line (j.render 0)) := by
  unfold document
  cases hnumber : j.nonFinite? with
  | none => rfl
  | some x =>
    obtain ⟨hpart, hx⟩ := part_of_nonFinite? hnumber
    rw [h x hpart] at hx
    cases hx

/-- Data in which no number but infinity lacks a decimal form. -/
theorem document_of_infinity {j : Json}
    (h : j.Numbers fun x => x.isFinite ∨ x = .ofBits 0x7FF0000000000000)
    (hinfinity : ¬ j.Numbers (Float.isFinite ·)) :
    j.document = .error "json: unsupported value: +Inf" := by
  unfold document
  cases hnumber : j.nonFinite? with
  | none => exact absurd (numbers_of_writable hnumber) hinfinity
  | some x =>
    obtain ⟨hpart, hx⟩ := part_of_nonFinite? hnumber
    rcases h x hpart with hfinite | rfl
    · rw [hfinite] at hx
      cases hx
    · rfl

end Json

/-! ## Reports -/

theorem Diagnostic.numbers_data {P : Float → Prop} (d : Diagnostic) : d.data.Numbers P := by
  have htext (t : Text) : ∀ v ∈ if t = [] then none else some (Json.text t), v.Numbers P := by
    intro v hv
    split at hv
    · cases hv
    · cases hv
      exact Json.numbers_text t
  unfold Diagnostic.data
  simp only [Json.numbers_sorted, List.forall_mem_append]
  refine ⟨⟨?_, ?_⟩, ?_⟩
  · simp [Json.numbers_text, Json.numbers_int]
  · exact Json.numbers_optional.mpr (htext _)
  · exact Json.numbers_optional.mpr (htext _)

theorem Report.numbers_data {P : Float → Prop} (r : Report) : r.data.Numbers P :=
  Json.numbers_list.mpr (List.forall_mem_map.mpr fun d _ => d.numbers_data)

/-! ## Trees -/

section

variable {β : Type} {P : Float → Prop}

mutual

theorem Expr.numbers_dump : ∀ e : Expr β, e.dump.Numbers P ↔ e.Numbers P
  | .literal _ value => by
    simp [Expr.dump, Expr.Numbers, Json.numbers_node, Json.numbers_literal]
  | .name .. | .receiver .. | .inherited .. => by
    simp [Expr.dump, Expr.Numbers, Json.numbers_node, Json.numbers_text]
  | .assign _ _ _ value _ => by
    simp [Expr.dump, Expr.Numbers, Json.numbers_node, Json.numbers_text, value.numbers_dump]
  | .binary _ left _ right | .logical _ left _ right => by
    simp [Expr.dump, Expr.Numbers, Json.numbers_node, Json.numbers_text, left.numbers_dump,
      right.numbers_dump]
  | .unary _ _ operand _ => by
    simp [Expr.dump, Expr.Numbers, Json.numbers_node, Json.numbers_text, Json.numbers_bool,
      operand.numbers_dump]
  | .ternary _ condition onTrue onFalse => by
    simp [Expr.dump, Expr.Numbers, Json.numbers_node, condition.numbers_dump,
      onTrue.numbers_dump, onFalse.numbers_dump]
  | .group _ inner => by
    simp [Expr.dump, Expr.Numbers, Json.numbers_node, inner.numbers_dump]
  | .call _ callee _ args => by
    simp [Expr.dump, Expr.Numbers, Json.numbers_node, Json.numbers_list, callee.numbers_dump,
      Expr.numbers_dumpList args]
  | .lambda function => function.numbers_dump
  | .get _ object _ => by
    simp [Expr.dump, Expr.Numbers, Json.numbers_node, Json.numbers_text, object.numbers_dump]
  | .set _ object _ value => by
    simp [Expr.dump, Expr.Numbers, Json.numbers_node, Json.numbers_text, object.numbers_dump,
      value.numbers_dump]

theorem Expr.numbers_dumpList : ∀ es : List (Expr β),
    (∀ item ∈ Expr.dumpList es, item.Numbers P) ↔ Expr.NumbersList P es
  | [] => by simp [Expr.dumpList, Expr.NumbersList]
  | e :: es => by
    simp [Expr.dumpList, Expr.NumbersList, e.numbers_dump, Expr.numbers_dumpList es]

theorem Function.numbers_dump : ∀ f : Function β, f.dump.Numbers P ↔ f.Numbers P
  | .mk _ _ params body _ => by
    simp [Function.dump, Function.Numbers, Json.numbers_node, Json.numbers_list, Json.numbers_text,
      Json.numbers_bool, Stmt.numbers_dumpList body]

theorem Declaration.numbers_dump : ∀ d : Declaration β, d.dump.Numbers P ↔ d.Numbers P
  | .mk _ _ function => by
    simp [Declaration.dump, Declaration.Numbers, Json.numbers_node, Json.numbers_text,
      function.numbers_dump]

theorem Declaration.numbers_dumpList : ∀ ds : List (Declaration β),
    (∀ item ∈ Declaration.dumpList ds, item.Numbers P) ↔ Declaration.NumbersList P ds
  | [] => by simp [Declaration.dumpList, Declaration.NumbersList]
  | d :: ds => by
    simp [Declaration.dumpList, Declaration.NumbersList, d.numbers_dump,
      Declaration.numbers_dumpList ds]

theorem Stmt.numbers_dump : ∀ s : Stmt β, s.dump.Numbers P ↔ s.Numbers P
  | .evaluate _ expr => by
    simp [Stmt.dump, Stmt.Numbers, Json.numbers_node, expr.numbers_dump]
  | .print _ _ value => by
    simp [Stmt.dump, Stmt.Numbers, Json.numbers_node, value.numbers_dump]
  | .declareVar _ _ none => by simp [Stmt.dump, Stmt.Numbers, Json.numbers_node, Json.numbers_text]
  | .declareVar _ _ (some init) => by
    simp [Stmt.dump, Stmt.Numbers, Json.numbers_node, Json.numbers_text, init.numbers_dump]
  | .block _ stmts => by
    simp [Stmt.dump, Stmt.Numbers, Json.numbers_node, Json.numbers_list,
      Stmt.numbers_dumpList stmts]
  | .branch _ condition onTrue none => by
    simp [Stmt.dump, Stmt.Numbers, Json.numbers_node, condition.numbers_dump, onTrue.numbers_dump]
  | .branch _ condition onTrue (some onFalse) => by
    simp [Stmt.dump, Stmt.Numbers, Json.numbers_node, condition.numbers_dump, onTrue.numbers_dump,
      onFalse.numbers_dump]
  | .loop _ condition body none _ => by
    simp [Stmt.dump, Stmt.Numbers, Json.numbers_node, Json.numbers_bool, condition.numbers_dump,
      body.numbers_dump]
  | .loop _ condition body (some update) _ => by
    simp [Stmt.dump, Stmt.Numbers, Json.numbers_node, Json.numbers_bool, condition.numbers_dump,
      body.numbers_dump, update.numbers_dump]
  | .leave _ _ none | .breakLoop .. | .continueLoop .. => by
    simp [Stmt.dump, Stmt.Numbers, Json.numbers_node]
  | .leave _ _ (some value) => by
    simp [Stmt.dump, Stmt.Numbers, Json.numbers_node, value.numbers_dump]
  | .declareFunction declaration => declaration.numbers_dump
  | .declareClass _ _ superclass methods classMethods => by
    have hsuperclass : ∀ v ∈ superclass.map (fun s => Json.text s.1.lexeme), v.Numbers P := by
      intro v hv
      obtain ⟨s, -, rfl⟩ := Option.map_eq_some_iff.mp hv
      exact Json.numbers_text _
    rw [Stmt.dump_declareClass, Json.numbers_node, Json.numbers_classFields,
      Json.numbers_nonEmpty, Json.numbers_nonEmpty, Declaration.numbers_dumpList methods,
      Declaration.numbers_dumpList classMethods, Stmt.Numbers]
    exact and_iff_right hsuperclass

theorem Stmt.numbers_dumpList : ∀ ss : List (Stmt β),
    (∀ item ∈ Stmt.dumpList ss, item.Numbers P) ↔ Stmt.NumbersList P ss
  | [] => by simp [Stmt.dumpList, Stmt.NumbersList]
  | s :: ss => by
    simp [Stmt.dumpList, Stmt.NumbersList, s.numbers_dump, Stmt.numbers_dumpList ss]

end

/-- The numbers in the data of a program are those in its tree. -/
theorem Program.numbers_dump (p : Program β) : p.dump.Numbers P ↔ Stmt.NumbersList P p.stmts := by
  simp [Program.dump, Json.numbers_node, Json.numbers_list, Stmt.numbers_dumpList]

end

/-! ## Sources -/

/-- What is asked of the numbers in the pieces of a source holds of those in its tokens. -/
theorem tokenize_numbers {P : Float → Prop} {source : Text}
    (h : ∀ x bytes, (.number x, bytes) ∈ Lexer.cutAll source → P x) :
    ∀ t ∈ (tokenize source).tokens, t.Numbers P := by
  intro t ht v hv
  cases v with
  | none | bool | text => trivial
  | number x =>
    have hliteral : t.literal = some (.number x) := hv
    have hcontent := List.mem_map_of_mem (f := Token.content) ht
    rw [content_tokenize] at hcontent
    rcases List.mem_append.mp hcontent with hpiece | hend
    · obtain ⟨⟨piece, bytes⟩, hmem, hmakes⟩ := List.mem_filterMap.mp hpiece
      obtain ⟨⟨kind, literal⟩, htoken, heq⟩ := Option.map_eq_some_iff.mp hmakes
      have hmade : literal = some (.number x) :=
        (congrArg (fun content => content.2.2) heq).trans hliteral
      rw [hmade] at htoken
      cases piece with
      | number y => cases htoken; exact h x bytes hmem
      | blank | lineComment | blockComment | string | word | operator | illegal => cases htoken
    · have hnone := congrArg (fun content => content.2.2) (List.mem_singleton.mp hend)
      cases hliteral.symm.trans hnone

/-- A number in a source is finite or infinity. -/
theorem number_of_cutAll {source : Text} {x : Float} {bytes : Text}
    (h : (.number x, bytes) ∈ Lexer.cutAll source) :
    x.isFinite ∨ x = .ofBits 0x7FF0000000000000 := by
  induction source using Lexer.cut_induction with
  | nil => cases h
  | cons b rest ih =>
    rw [Lexer.cutAll_cons] at h
    rcases List.mem_cons.mp h with hfirst | hlater
    · have hforms := Lexer.forms_cut b rest
      rw [← (Prod.mk.inj hfirst).1] at hforms
      obtain ⟨w, f, -, rfl⟩ := hforms
      exact readDecimal_finite_or w f
    · exact ih hlater

/-- A number that is not finite is reported to be too large. -/
theorem reported_of_cutAll {source : Text} {x : Float} {bytes : Text}
    (h : (.number x, bytes) ∈ Lexer.cutAll source) (hx : x.isFinite = false) :
    ∃ d ∈ (tokenize source).report, d.code = "E1005" := by
  have hfault : (Piece.number x).fault? bytes = some (.numberTooLarge bytes) :=
    if_neg (Bool.eq_false_iff.mp hx)
  have hcode : ("E1005" : Text) ∈ (tokenize source).report.map Diagnostic.code := by
    rw [codes_tokenize]
    exact List.mem_map.mpr ⟨_, List.mem_filterMap.mpr ⟨_, h, hfault⟩, rfl⟩
  exact List.mem_map.mp hcode

/-- The numbers in the tree of a source are finite or infinity. -/
theorem numbers_of_source (source : Text) :
    Stmt.NumbersList (fun x => x.isFinite ∨ x = .ofBits 0x7FF0000000000000)
      (parseProgram (tokenize source).tokens).1.stmts :=
  parseProgram_numbers (tokenize_numbers fun _ _ h => number_of_cutAll h)

/-- They are finite if no number is reported to be too large. -/
theorem finite_of_source {source : Text}
    (h : ∀ d ∈ (tokenize source).report, d.code ≠ "E1005") :
    Stmt.NumbersList (Float.isFinite ·) (parseProgram (tokenize source).tokens).1.stmts := by
  refine parseProgram_numbers (tokenize_numbers fun x bytes hmem => ?_)
  refine Bool.of_not_eq_false fun hx => ?_
  obtain ⟨d, hd, hcode⟩ := reported_of_cutAll hmem hx
  exact h d hd hcode

end Scriptlet

import Scriptlet.Proofs.Evaluator.Loops
import Scriptlet.Proofs.Value.Operators

/-!
# Assignments that combine

An assignment that combines reads its variable, evaluates its value, combines the two and writes the
result (`combineAssign`). Written out, `x += e` is `x = x + e`: both evaluate the same parts on the
same machines, in the same order, so that they end alike whatever `e` does to the variable, and an
error differs in its token only (`Expr.Alike`). The two trees take different amounts of fuel. This
does not matter, since one of them with some fuel is the other one with a fixed amount more
(`alike_of_shift`).

An increment of a variable that holds a number is such an assignment with the value one. After the
variable it yields what the variable held before.
-/

namespace Scriptlet

/-- Two outcomes that are the same, the token of an error apart. -/
inductive Outcome.Resembles {α : Type} : Outcome α → Outcome α → Prop where
  | ok (a : α) (m : Machine) : Resembles (.ok a m) (.ok a m)
  | error (fault : RuntimeFault) (t t' : Token) (m : Machine) :
    Resembles (.error ⟨fault, t⟩ m) (.error ⟨fault, t'⟩ m)
  | outOfFuel : Resembles .outOfFuel .outOfFuel

/-- An assignment that combines, and the same one written out: the variable is read by the left
operand of the binary operator, at the same distance. The value may be put in parentheses. -/
inductive Expr.WritesOut : Expr (Option Link) → Expr (Option Link) → Prop where
  | intro {span span₁ span₂ span₃ : Span} {name name₁ name₂ op equals binaryOp : Token}
      {value right : Expr (Option Link)} {link link₁ link₂ : Option Link} :
    op.kind.isCompoundAssign → equals.kind = .assign → binaryOp.kind = op.kind.binary →
    name₁.lexeme = name.lexeme → name₂.lexeme = name.lexeme →
    link₁.map Link.hops = link.map Link.hops → link₂.map Link.hops = link.map Link.hops →
    right = value ∨ (∃ place, right = .group place value) →
    WritesOut (.assign span name op value link)
      (.assign span₁ name₁ equals (.binary span₂ (.name span₃ name₂ link₂) binaryOp right) link₁)

/-- An increment or decrement before its variable, the same one after it, and the assignment that
adds or subtracts one. -/
inductive Expr.AddsOne (name : Text) (hops : Int) (kind : Kind) :
    Expr (Option Link) → Expr (Option Link) → Expr (Option Link) → Prop where
  | intro {span span₁ span₂ span₃ span₄ span₅ : Span} {x x₁ x₂ op op₁ op₂ : Token}
      {link link₁ link₂ : Link} :
    kind = .plusPlus ∧ op₂.kind = .plusAssign ∨ kind = .minusMinus ∧ op₂.kind = .minusAssign →
    op.kind = kind → op₁.kind = kind →
    x.lexeme = name → x₁.lexeme = name → x₂.lexeme = name →
    link.hops = hops → link₁.hops = hops → link₂.hops = hops →
    AddsOne name hops kind (.unary span op (.name span₁ x (some link)) false)
      (.unary span₂ op₁ (.name span₃ x₁ (some link₁)) true)
      (.assign span₄ x₂ op₂ (.literal span₅ (.number 1)) (some link₂))

/-- Two expressions that end alike on every machine, or both do not end. -/
def Expr.Alike (e e' : Expr (Option Link)) : Prop :=
  ∀ m, (∀ o, Eval.Ends (.expr e) m o → ∃ o', Eval.Ends (.expr e') m o' ∧ o.Resembles o') ∧
    ∀ o', Eval.Ends (.expr e') m o' → ∃ o, Eval.Ends (.expr e) m o ∧ o.Resembles o'

/-- The text of an operator only stands in the message about an unknown one. -/
theorem Value.combine_text {kind : Kind} (hkind : kind.isBinary) (op op' : Text)
    (left right : Value) : combine kind op left right = combine kind op' left right := by
  cases kind
  all_goals first | contradiction | skip
  all_goals cases left <;> cases right <;> rfl

namespace Outcome.Resembles

variable {α β : Type}

theorem refl (o : Outcome α) : o.Resembles o := by
  cases o with
  | ok a m => exact .ok a m
  | error e m => exact .error e.fault e.token e.token m
  | outOfFuel => exact .outOfFuel

theorem symm {o o' : Outcome α} (h : o.Resembles o') : o'.Resembles o := by
  cases h with
  | ok a m => exact .ok a m
  | error fault t t' m => exact .error fault t' t m
  | outOfFuel => exact .outOfFuel

theorem ne_outOfFuel {o o' : Outcome α} (h : o.Resembles o') (ho : o ≠ .outOfFuel) :
    o' ≠ .outOfFuel := by
  cases h with
  | ok | error => nofun
  | outOfFuel => exact absurd rfl ho

theorem bind {x y : Eval α} {f g : α → Eval β} {m : Machine} (hxy : (x m).Resembles (y m))
    (hfg : ∀ a m', (f a m').Resembles (g a m')) : ((x >>= f) m).Resembles ((y >>= g) m) := by
  rw [Eval.bind_apply, Eval.bind_apply]
  generalize x m = o at hxy
  generalize y m = o' at hxy
  cases hxy with
  | ok a m' => exact hfg a m'
  | error fault t t' m' => exact .error fault t t' m'
  | outOfFuel => exact .outOfFuel

end Outcome.Resembles

namespace Eval

/-! ## The parts of an assignment -/

/-- What an assignment combines, given how its value is evaluated. -/
def combined (name op : Token) (kind : Kind) (link : Option Link) (x : Eval Value) :
    Eval Value := do
  let current ← readLink name link
  let v ← x
  lift op (current.combine kind op.lexeme v)

/-- An assignment of what something evaluates to. -/
def assignLink (name : Token) (link : Option Link) (x : Eval Value) : Eval Value := do
  let v ← x
  writeLink name link v
  return v

/-- An assignment that combines, given how its value is evaluated. -/
def combineAssign (name op : Token) (kind : Kind) (link : Option Link) (x : Eval Value) :
    Eval Value :=
  assignLink name link (combined name op kind link x)

theorem bind_bind {α β γ : Type} (x : Eval α) (f : α → Eval β) (g : β → Eval γ) :
    (x >>= f) >>= g = x >>= fun a => f a >>= g := by
  funext m
  simp only [bind_apply]
  cases x m <;> rfl

section

variable {name name' : Token} {link link' : Option Link} (hname : name'.lexeme = name.lexeme)
  (hlink : link'.map Link.hops = link.map Link.hops) (m : Machine)

include hname hlink

theorem readLink_resembles : (readLink name link m).Resembles (readLink name' link' m) := by
  unfold readLink
  rw [hname]
  cases link with
  | none =>
    obtain rfl := Option.map_eq_none_iff.mp hlink
    exact .error _ _ _ m
  | some l =>
    obtain ⟨l', rfl, hhops⟩ := Option.map_eq_some_iff.mp hlink
    dsimp only
    rw [hhops]
    cases m.heap.getAt m.scope l.hops name.lexeme with
    | ok v => exact .ok v m
    | error fault => exact .error _ _ _ m

theorem writeLink_resembles (v : Value) :
    (writeLink name link v m).Resembles (writeLink name' link' v m) := by
  unfold writeLink
  rw [hname]
  cases link with
  | none =>
    obtain rfl := Option.map_eq_none_iff.mp hlink
    exact .error _ _ _ m
  | some l =>
    obtain ⟨l', rfl, hhops⟩ := Option.map_eq_some_iff.mp hlink
    dsimp only
    rw [hhops]
    cases m.heap.binderAt m.scope l.hops name.lexeme with
    | ok scope => exact .ok () _
    | error fault => exact .error _ _ _ m

end

theorem lift_resembles {α : Type} (op op' : Token) (result : Except RuntimeFault α) (m : Machine) :
    (lift op result m).Resembles (lift op' result m) := by
  unfold lift
  cases result with
  | ok a => exact .ok a m
  | error fault => exact .error fault op op' m

/-! ## The two trees -/

section

variable {span : Span} {name op : Token} {value : Expr (Option Link)} {link : Option Link}

theorem within_expr (n : Nat) (e : Expr (Option Link)) :
    within (n + 1) (.expr e) = exprStep (within n) e :=
  rfl

/-- An assignment that combines is evaluated part by part. -/
theorem within_compound (hop : op.kind.isCompoundAssign) (n : Nat) :
    within (n + 2) (.expr (.assign span name op value link)) =
      combineAssign name op op.kind.binary link (within (n + 1) (.expr value)) := by
  have hne : op.kind ≠ .assign := by
    intro heq
    rw [heq] at hop
    contradiction
  rw [within_expr, exprStep, assignStep, if_neg hne, combineAssign, assignLink, combined, bind_bind]
  simp only [bind_bind]
  rfl

/-- Written out, it is evaluated by the same parts. -/
theorem within_writtenOut (hop : op.kind.isCompoundAssign) {name₁ name₂ equals binaryOp : Token}
    {link₁ link₂ : Option Link} (hequals : equals.kind = .assign)
    (hbinary : binaryOp.kind = op.kind.binary) (hname₁ : name₁.lexeme = name.lexeme)
    (hname₂ : name₂.lexeme = name.lexeme) (hlink₁ : link₁.map Link.hops = link.map Link.hops)
    (hlink₂ : link₂.map Link.hops = link.map Link.hops) (span₁ span₂ span₃ : Span)
    (right : Expr (Option Link)) (n : Nat) (m : Machine) :
    (combineAssign name op op.kind.binary link (within (n + 2) (.expr right)) m).Resembles
      (within (n + 4) (.expr (.assign span₁ name₁ equals
        (.binary span₂ (.name span₃ name₂ link₂) binaryOp right) link₁)) m) := by
  have hkind : op.kind.binary.isBinary := Kind.isBinary_binary hop
  have hcomma : binaryOp.kind ≠ .comma := by
    intro heq
    rw [← hbinary, heq] at hkind
    contradiction
  have hparts : within (n + 4) (.expr (.assign span₁ name₁ equals
      (.binary span₂ (.name span₃ name₂ link₂) binaryOp right) link₁)) =
      assignLink name₁ link₁
        (combined name₂ binaryOp binaryOp.kind link₂ (within (n + 2) (.expr right))) := by
    have hleft : within (n + 3) (.expr (.binary span₂ (.name span₃ name₂ link₂) binaryOp right)) =
        combined name₂ binaryOp binaryOp.kind link₂ (within (n + 2) (.expr right)) := by
      simp only [within_expr (n + 2), exprStep, if_neg hcomma]
      rfl
    rw [within_expr, exprStep, assignStep, if_pos hequals, ← hleft]
    rfl
  rw [hparts, hbinary]
  apply Outcome.Resembles.bind
  · apply Outcome.Resembles.bind (readLink_resembles hname₂ hlink₂ m)
    intro current m'
    apply Outcome.Resembles.bind (.refl _)
    intro v m''
    rw [Value.combine_text hkind op.lexeme binaryOp.lexeme]
    exact lift_resembles op binaryOp _ m''
  · intro v m'
    apply Outcome.Resembles.bind (writeLink_resembles hname₁ hlink₁ m' v)
    intro _ m''
    exact .refl _

end

/-- Two expressions are alike if one of them with some fuel ends like the other one with more. -/
theorem alike_of_shift {e e' : Expr (Option Link)} {j k : Nat}
    (h : ∀ n m, (within (n + j) (.expr e) m).Resembles (within (n + k) (.expr e') m)) :
    e.Alike e' := by
  intro m
  constructor
  · intro o ho
    obtain ⟨n, hn⟩ := ho.eventually
    have hlike := h n m
    rw [hn (n + j) (Nat.le_add_right n j)] at hlike
    exact ⟨_, ⟨hlike.ne_outOfFuel ho.1, n + k, rfl⟩, hlike⟩
  · intro o' ho'
    obtain ⟨n, hn⟩ := ho'.eventually
    have hlike := h n m
    rw [hn (n + k) (Nat.le_add_right n k)] at hlike
    exact ⟨_, ⟨hlike.symm.ne_outOfFuel ho'.1, n + j, rfl⟩, hlike⟩

/-- An assignment that combines and the same one written out are alike. -/
theorem alike_of_writesOut {compound expanded : Expr (Option Link)}
    (h : compound.WritesOut expanded) : compound.Alike expanded := by
  cases h with
  | intro hop hequals hbinary hname₁ hname₂ hlink₁ hlink₂ hright =>
    rcases hright with rfl | ⟨place, rfl⟩
    · apply alike_of_shift (j := 3) (k := 4)
      intro n m
      rw [within_compound hop]
      exact within_writtenOut hop hequals hbinary hname₁ hname₂ hlink₁ hlink₂ ..
    · apply alike_of_shift (j := 2) (k := 4)
      intro n m
      rw [within_compound hop]
      exact within_writtenOut hop hequals hbinary hname₁ hname₂ hlink₁ hlink₂ _ _ _
        (.group place _) n m

/-! ## Failures -/

/-- Values that cannot be combined are left where the evaluation of the second one left them. -/
theorem ends_of_combine_error {span : Span} {name op : Token} {value : Expr (Option Link)}
    {link : Option Link} {m m' : Machine} {current v : Value} {fault : RuntimeFault}
    (hop : op.kind.isCompoundAssign) (hread : readLink name link m = .ok current m)
    (hvalue : Ends (.expr value) m (.ok v m'))
    (hcombine : current.combine op.kind.binary op.lexeme v = .error fault) :
    Ends (.expr (.assign span name op value link)) m (.error ⟨fault, op⟩ m') := by
  obtain ⟨n, hn⟩ := hvalue.eventually
  refine ⟨nofun, n + 2, ?_⟩
  rw [within_compound hop]
  have hfails : combined name op op.kind.binary link (within (n + 1) (.expr value)) m =
      .error ⟨fault, op⟩ m' := by
    apply (bind_of_ok hread).trans
    apply (bind_of_ok (hn (n + 1) (Nat.le_succ n))).trans
    rw [hcombine]
    rfl
  exact bind_of_error hfails

/-! ## Increments -/

section

variable {m : Machine} {name : Text} {hops : Int} {home : ScopeId} {x : Float}

/-- A variable that can be read at a distance can be written there. -/
theorem exists_home {current : Value} (hslot : m.heap.getAt m.scope hops name = .ok current) :
    ∃ home, m.heap.ancestor m.scope hops = .ok home ∧
      m.heap.binderAt m.scope hops name = .ok home := by
  cases ha : m.heap.ancestor m.scope hops with
  | error fault =>
    rw [Heap.getAt, ha] at hslot
    cases hslot
  | ok home =>
    rw [Heap.getAt_of_ancestor name ha] at hslot
    cases hv : (m.heap.slots home).get? name with
    | none =>
      rw [hv] at hslot
      cases hslot
    | some v =>
      have hbinder := Heap.binderAt_of_ancestor name ha
      rw [if_pos (Entries.has_of_get? hv)] at hbinder
      exact ⟨home, rfl, hbinder⟩

variable (hslot : m.heap.getAt m.scope hops name = .ok (.number x))
  (hbinder : m.heap.binderAt m.scope hops name = .ok home)
  {span place : Span} {token op : Token} {link : Link}
  (htoken : token.lexeme = name) (hlink : link.hops = hops)

include htoken hlink

include hslot in
theorem readLink_slot : readLink token (some link) m = .ok (.number x) m := by
  subst htoken hlink
  simp [readLink, hslot]

include hbinder in
theorem writeLink_slot (v : Value) : writeLink token (some link) v m =
    .ok () { m with heap := m.heap.define home name v } := by
  subst htoken hlink
  simp [writeLink, hbinder]

include hslot hbinder

theorem ends_increment (hop : op.kind = .plusPlus ∨ op.kind = .minusMinus) (trailing : Bool)
    (span place : Span) :
    Ends (.expr (.unary span op (.name place token (some link)) trailing)) m
      (.ok (.number (if trailing then x else stepped op.kind x))
        { m with heap := m.heap.define home name (.number (stepped op.kind x)) }) := by
  refine ⟨nofun, 2, ?_⟩
  rw [within_expr, exprStep, unaryStep, if_pos hop]
  apply (bind_of_ok (readLink_slot hslot htoken hlink)).trans
  exact bind_of_ok (writeLink_slot hbinder htoken hlink _)

theorem ends_addOne {y : Float}
    (hop : op.kind = .plusAssign ∧ y = x + 1 ∨ op.kind = .minusAssign ∧ y = x - 1) :
    Ends (.expr (.assign span token op (.literal place (.number 1)) (some link))) m
      (.ok (.number y) { m with heap := m.heap.define home name (.number y) }) := by
  have hcompound : op.kind.isCompoundAssign := by
    rcases hop with ⟨hop, -⟩ | ⟨hop, -⟩
    · rw [hop]; rfl
    · rw [hop]; rfl
  have hcombine : (Value.number x).combine op.kind.binary op.lexeme (.number 1) =
      .ok (.number y) := by
    rcases hop with ⟨hop, rfl⟩ | ⟨hop, rfl⟩
    · rw [hop]; rfl
    · rw [hop]; rfl
  refine ⟨nofun, 2, ?_⟩
  rw [within_compound hcompound 0]
  have hcombined : combined token op op.kind.binary (some link)
      (within 1 (.expr (.literal place (.number 1)))) m = .ok (.number y) m := by
    apply (bind_of_ok (readLink_slot hslot htoken hlink)).trans
    change lift op ((Value.number x).combine op.kind.binary op.lexeme (.number 1)) m = _
    rw [hcombine]
    rfl
  apply (bind_of_ok hcombined).trans
  exact bind_of_ok (writeLink_slot hbinder htoken hlink _)

end

/-- An assignment that combines is alike to the same one written out. If its two values cannot be
combined, it fails on the machine that the evaluation of the second one has left. If a variable
holds a number, an increment or decrement of it and the assignment that adds or subtracts one give
the variable the same number; they yield that number, or the old one if the operator trails. -/
theorem compound_assignment_reads_combines_writes :
    (∀ compound expanded, Expr.WritesOut compound expanded → compound.Alike expanded) ∧
    (∀ span name op value link m m' current v fault, op.kind.isCompoundAssign →
      readLink name link m = .ok current m → Ends (.expr value) m (.ok v m') →
      current.combine op.kind.binary op.lexeme v = .error fault →
      Ends (.expr (.assign span name op value link)) m (.error ⟨fault, op⟩ m')) ∧
    ∀ name hops kind before after addition, Expr.AddsOne name hops kind before after addition →
      ∀ (m : Machine) x, m.heap.getAt m.scope hops name = .ok (.number x) →
      ∃ home m', m.heap.ancestor m.scope hops = .ok home ∧
        m' = { m with heap := m.heap.define home name (.number (stepped kind x)) } ∧
        Ends (.expr before) m (.ok (.number (stepped kind x)) m') ∧
        Ends (.expr addition) m (.ok (.number (stepped kind x)) m') ∧
        Ends (.expr after) m (.ok (.number x) m') := by
  refine ⟨fun _ _ h => alike_of_writesOut h, ?_, ?_⟩
  · intro span name op value link m m' current v fault hop hread hvalue hcombine
    exact ends_of_combine_error hop hread hvalue hcombine
  · rintro name hops kind before after addition hadds m x hslot
    cases hadds with
    | @intro span span₁ span₂ span₃ _ _ _ _ _ op op₁ op₂ _ _ _ hkind hop hop₁ hx hx₁ hx₂ hl hl₁
      hl₂ =>
      have hincrement : kind = .plusPlus ∨ kind = .minusMinus := by
        rcases hkind with ⟨hkind, -⟩ | ⟨hkind, -⟩
        · exact .inl hkind
        · exact .inr hkind
      have hadd : op₂.kind = .plusAssign ∧ stepped kind x = x + 1 ∨
          op₂.kind = .minusAssign ∧ stepped kind x = x - 1 := by
        rcases hkind with ⟨rfl, hop₂⟩ | ⟨rfl, hop₂⟩
        · exact .inl ⟨hop₂, rfl⟩
        · exact .inr ⟨hop₂, rfl⟩
      obtain ⟨home, ha, hbinder⟩ := exists_home hslot
      subst hop
      have hbefore := ends_increment hslot hbinder hx hl hincrement false span span₁
      have hafter := ends_increment hslot hbinder hx₁ hl₁ (hop₁ ▸ hincrement) true span₂ span₃
      rw [hop₁] at hafter
      exact ⟨home, _, ha, rfl, hbefore, ends_addOne hslot hbinder hx₂ hl₂ hadd, hafter⟩

/-- A machine with a global `x`. -/
def holdingX (v : Value) : Machine := { heap := ({} : Heap).define Heap.globals "x" v }

/-- The variable `x`. -/
def readX : Expr (Option Link) :=
  .name .nowhere (.synthetic .identifier "x" .nowhere) (some ⟨0, 0⟩)

/-- `x`, an operator that assigns, and a value. -/
def updateX (kind : Kind) (value : Expr (Option Link)) : Expr (Option Link) :=
  .assign .nowhere (.synthetic .identifier "x" .nowhere) (.synthetic kind kind.text .nowhere) value
    (some ⟨0, 0⟩)

/-- `x = "c"`. -/
def resetX : Expr (Option Link) := updateX .assign (.literal .nowhere (.text "c"))

/-- `x = x + (x = "c")`. -/
def joinX : Expr (Option Link) :=
  updateX .assign (.binary .nowhere readX (.synthetic .plus "+" .nowhere) (.group .nowhere resetX))

/-- `++x` or `x++`. -/
def incrementX (trailing : Bool) : Expr (Option Link) :=
  .unary .nowhere (.synthetic .plusPlus "++" .nowhere) readX trailing

/-- The value of an assignment may assign the same variable, and still be combined with what the
variable held before. -/
theorem compound_assignment_reads_combines_writes_itself :
    Expr.WritesOut (updateX .plusAssign resetX) joinX ∧
      (∃ o, Ends (.expr joinX) (holdingX (.text "a")) o ∧
        (Outcome.ok (.text "ac") (holdingX (.text "ac"))).Resembles o) ∧
      (∃ token, Ends (.expr (updateX .minusAssign resetX)) (holdingX (.text "a"))
        (.error ⟨.operandsNotNumbers, token⟩ (holdingX (.text "c")))) ∧
      Expr.AddsOne "x" 0 .plusPlus (incrementX false) (incrementX true)
        (updateX .plusAssign (.literal .nowhere (.number 1))) ∧
      (holdingX (.number 1)).heap.getAt Heap.globals 0 "x" = .ok (.number 1) ∧
      ∃ m', Ends (.expr (incrementX true)) (holdingX (.number 1)) (.ok (.number 1) m') := by
  obtain ⟨hexpands, hfails, hsteps⟩ := compound_assignment_reads_combines_writes
  have hwrites : Expr.WritesOut (updateX .plusAssign resetX) joinX :=
    .intro rfl rfl rfl rfl rfl rfl rfl (.inr ⟨.nowhere, rfl⟩)
  have hcompound : Ends (.expr (updateX .plusAssign resetX)) (holdingX (.text "a"))
      (.ok (.text "ac") (holdingX (.text "ac"))) :=
    ⟨nofun, 4, rfl⟩
  have hreset : Ends (.expr resetX) (holdingX (.text "a"))
      (.ok (.text "c") (holdingX (.text "c"))) :=
    ⟨nofun, 3, rfl⟩
  have hadds : Expr.AddsOne "x" 0 .plusPlus (incrementX false) (incrementX true)
      (updateX .plusAssign (.literal .nowhere (.number 1))) :=
    .intro (.inl ⟨rfl, rfl⟩) rfl rfl rfl rfl rfl rfl rfl rfl
  obtain ⟨-, m', -, -, -, -, hafter⟩ := hsteps _ _ _ _ _ _ hadds (holdingX (.number 1)) 1 rfl
  exact ⟨hwrites, (hexpands _ _ hwrites _).1 _ hcompound,
    ⟨_, hfails _ _ _ _ _ _ _ (.text "a") _ _ rfl rfl hreset rfl⟩, hadds, rfl, m', hafter⟩

end Eval

end Scriptlet

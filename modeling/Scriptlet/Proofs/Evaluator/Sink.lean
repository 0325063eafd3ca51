import Scriptlet.Proofs.Evaluator.Moments

/-!
# Programs do not see their sink

Printing writes to a sink, and nothing in a program looks at it: neither at what was printed nor at
whether it can be written to. Two runs of a source on machines that differ in their sinks only do
the same, and the machines after them again differ in their sinks only (`Code.runWith_blind`).
-/

namespace Scriptlet

/-- Two machines that differ at most in their sinks. -/
structure Machine.Alike (m m' : Machine) : Prop where
  heap : m'.heap = m.heap
  scope : m'.scope = m.scope
  depth : m'.depth = m.depth
  clock : m'.clock = m.clock

namespace Machine.Alike

theorem of_sink (m : Machine) (sink : Sink) : m.Alike { m with sink := sink } :=
  ⟨rfl, rfl, rfl, rfl⟩

/-- A machine that is alike is the same machine with another sink. -/
theorem eq {m m' : Machine} (h : m.Alike m') : m' = { m with sink := m'.sink } := by
  obtain ⟨heap, scope, depth, clock, sink⟩ := m
  obtain ⟨heap', scope', depth', clock', sink'⟩ := m'
  obtain ⟨rfl, rfl, rfl, rfl⟩ := h
  rfl

end Machine.Alike

/-- Two ends of a run that differ at most in the sinks of their machines. -/
inductive Outcome.Alike {α : Type} : Outcome α → Outcome α → Prop where
  | ok {a : α} {m m' : Machine} : m.Alike m' → Alike (.ok a m) (.ok a m')
  | error {e : RuntimeError} {m m' : Machine} : m.Alike m' → Alike (.error e m) (.error e m')
  | outOfFuel : Alike .outOfFuel .outOfFuel

namespace Eval

variable {α β : Type}

/-- A computation that does not look at the sink. -/
def Blind (x : Eval α) : Prop := ∀ m m' : Machine, m.Alike m' → (x m).Alike (x m')

theorem Blind.of_sink {x : Eval α} (h : ∀ m sink, (x m).Alike (x { m with sink := sink })) :
    Blind x := by
  intro m m' hm
  rw [hm.eq]
  exact h m m'.sink

/-! ## Putting computations together -/

theorem Blind.bind {x : Eval α} {f : α → Eval β} (hx : Blind x) (hf : ∀ a, Blind (f a)) :
    Blind (x >>= f) := by
  intro m m' hm
  have h := hx m m' hm
  rw [bind_apply, bind_apply]
  revert h
  generalize x m = o
  generalize x m' = o'
  intro h
  cases h with
  | ok hm₁ => exact hf _ _ _ hm₁
  | error hm₁ => exact .error hm₁
  | outOfFuel => exact .outOfFuel

theorem Blind.inScope {x : Eval α} (hx : Blind x) (scope : ScopeId) : Blind (inScope scope x) := by
  intro m m' hm
  have hentered : Machine.Alike { m with scope := scope } { m' with scope := scope } :=
    ⟨hm.heap, rfl, hm.depth, hm.clock⟩
  have h := hx _ _ hentered
  unfold Eval.inScope
  dsimp only
  revert h
  generalize x { m with scope := scope } = o
  generalize x { m' with scope := scope } = o'
  intro h
  cases h with
  | ok hm₁ => exact .ok ⟨hm₁.heap, hm.scope, hm₁.depth, hm₁.clock⟩
  | error hm₁ => exact .error ⟨hm₁.heap, hm.scope, hm₁.depth, hm₁.clock⟩
  | outOfFuel => exact .outOfFuel

theorem Blind.nested {x : Eval α} (hx : Blind x) (token : Token) : Blind (nested token x) := by
  intro m m' hm
  have hentered : Machine.Alike { m with depth := m.depth + 1 } { m' with depth := m'.depth + 1 } :=
    ⟨hm.heap, hm.scope, congrArg (· + 1) hm.depth, hm.clock⟩
  have h := hx _ _ hentered
  unfold Eval.nested
  rw [hm.depth] at h ⊢
  split
  · exact .error hm
  · revert h
    generalize x { m with depth := m.depth + 1 } = o
    generalize x { m' with depth := m.depth + 1 } = o'
    intro h
    cases h with
    | ok hm₁ => exact .ok ⟨hm₁.heap, hm₁.scope, congrArg (· - 1) hm₁.depth, hm₁.clock⟩
    | error hm₁ => exact .error ⟨hm₁.heap, hm₁.scope, congrArg (· - 1) hm₁.depth, hm₁.clock⟩
    | outOfFuel => exact .outOfFuel

/-! ## Computations without inner tasks -/

theorem blind_lift (token : Token) (result : Except RuntimeFault α) : Blind (lift token result) := by
  intro m m' hm
  cases result with
  | ok a => exact .ok hm
  | error fault => exact .error hm

theorem blind_currentScope : Blind currentScope := by
  intro m m' hm
  unfold currentScope
  rw [hm.scope]
  exact .ok hm

/-- A computation that only changes the heap, depending on the heap and the scope. -/
theorem blind_of_heap (x : Eval α) (value : Heap → ScopeId → α) (heap : Heap → ScopeId → Heap)
    (h : ∀ m, x m = .ok (value m.heap m.scope) { m with heap := heap m.heap m.scope }) :
    Blind x := by
  intro m m' hm
  rw [h, h, hm.heap, hm.scope]
  exact .ok ⟨rfl, rfl, hm.depth, hm.clock⟩

theorem blind_readLink (name : Token) (link : Option Link) : Blind (readLink name link) := by
  refine .of_sink fun m sink => ?_
  cases link with
  | none => exact .error (.of_sink m sink)
  | some l =>
    unfold readLink
    dsimp only
    split
    · exact .ok (.of_sink m sink)
    · exact .error (.of_sink m sink)

theorem blind_writeLink (name : Token) (link : Option Link) (value : Value) :
    Blind (writeLink name link value) := by
  refine .of_sink fun m sink => ?_
  cases link with
  | none => exact .error (.of_sink m sink)
  | some l =>
    unfold writeLink
    dsimp only
    split
    · exact .ok ⟨rfl, rfl, rfl, rfl⟩
    · exact .error (.of_sink m sink)

theorem blind_inheritance (keyword : Token) (link : Option Link) :
    Blind (inheritance keyword link) := by
  refine .of_sink fun m sink => ?_
  cases link with
  | none => exact .error (.of_sink m sink)
  | some l =>
    unfold inheritance
    dsimp only
    split
    · exact .error (.of_sink m sink)
    · split
      · exact .ok (.of_sink m sink)
      · exact .error (.of_sink m sink)

theorem blind_property (object : Value) (name : Token) : Blind (property object name) := by
  refine .of_sink fun m sink => ?_
  unfold property
  split
  · dsimp only
    split
    · exact .ok (.of_sink m sink)
    · split
      · exact .ok (.of_sink m sink)
      · exact .error (.of_sink m sink)
  · split
    · exact .ok (.of_sink m sink)
    · exact .error (.of_sink m sink)
  · exact .error (.of_sink m sink)

theorem blind_callNative (token : Token) (native : Native) (args : List Value) :
    Blind (callNative token native args) := by
  refine .of_sink fun m sink => ?_
  unfold callNative
  dsimp only
  split
  · exact .ok (.of_sink m sink)
  · exact .error (.of_sink m sink)

/-! ## Whole evaluations -/

theorem blind_respects : Respects fun {_} _ y => Blind y where
  pure _ := fun _ _ hm => .ok hm
  starve := fun _ _ _ => .outOfFuel
  fail _ _ := fun _ _ hm => .error hm
  lift := blind_lift
  printLine _ := fun _ _ hm => .ok ⟨hm.heap, hm.scope, hm.depth, hm.clock⟩
  define name value :=
    blind_of_heap _ (fun _ _ => ()) (fun h here => h.define here name value) fun _ => rfl
  currentScope := blind_currentScope
  newScope parent slots :=
    blind_of_heap _ (fun h _ => h.nextScope) (fun h _ => h.addScope parent slots) fun _ => rfl
  newObject := blind_of_heap _ (fun h _ => h.nextObject) (fun h _ => h.addObject) fun _ => rfl
  newIdentity := blind_of_heap _ (fun h _ => h.nextIdentity) (fun h _ => h.addIdentity) fun _ => rfl
  setField id name value :=
    blind_of_heap _ (fun _ _ => ()) (fun h _ => h.setField id name value) fun _ => rfl
  readLink := blind_readLink
  writeLink := blind_writeLink
  inheritance := blind_inheritance
  receiverOf method :=
    blind_of_heap _ (fun h _ => ((h.slots method.scope).get? "this").getD .none) (fun h _ => h)
      fun _ => rfl
  property := blind_property
  callNative := blind_callNative
  bind hx hf := hx.bind hf
  inScope scope hx := hx.inScope scope
  nested token hx := hx.nested token

end Eval

/-- A run of a source does not look at the sink. -/
theorem Code.runWith_blind (code : Code) (fuel : Nat) :
    Eval.Blind (code.runWith (Eval.within fuel)) :=
  Eval.blind_respects.runWith (r := Eval.within fuel) (Eval.blind_respects.within fuel) code

end Scriptlet

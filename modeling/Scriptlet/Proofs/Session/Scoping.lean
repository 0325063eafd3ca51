import Scriptlet.Proofs.Evaluator.Runs
import Scriptlet.Proofs.Session.Control
import Scriptlet.Proofs.Tree.Reading

/-!
# Scopes over a whole session

All references that a session ever resolved stand in one list, in the order of their links
(`Session.Consistent`), and everything on the heap was made by code whose references are in this
list. A step adds the references of its code to it, and keeps the heap sound (`History.consistent`).

So what was shown for one run holds for every step after any history: wherever a reference is
evaluated, it lands where its name was found (`references_land`).
-/

namespace Scriptlet

/-! ## Loaded code -/

/-- Code that was loaded from a well-formed source, with its links numbered from some number on. -/
structure Loading.Linked (first : Nat) (code : Code) (links : List LinkRecord) (report : Report) :
    Prop where
  wellFormed : code.WellFormed
  numbered : Numbered first links code.references
  clean : report.hasErrors = false

namespace Session

variable {s : Session} {code : Code} {links : List LinkRecord} {report : Report}

theorem linked_of_loadStmts {stmts : List (Stmt Unit)} {before : Report}
    (hw : Stmt.WellFormedList stmts) (h : s.loadStmts stmts before = .ready code links report) :
    Loading.Linked s.links.length code links report := by
  unfold loadStmts at h
  dsimp only at h
  split at h
  · cases h
  · next hclean =>
    cases h
    rw [Bool.not_eq_true] at hclean
    obtain ⟨hwf, hnum⟩ := resolveStmts_numbered hw (Resolve.clean_of_append _ hclean)
    exact ⟨hwf, hnum, hclean⟩

theorem linked_of_loadProgram {tokens : List Token} {before : Report}
    (ht : ∀ t ∈ tokens, t.Spelled) (h : s.loadProgram tokens before = .ready code links report) :
    Loading.Linked s.links.length code links report := by
  unfold loadProgram at h
  dsimp only at h
  split at h
  · cases h
  · exact linked_of_loadStmts (parseProgram_wellFormed ht) h

theorem linked_of_loadExpression {tokens : List Token} {before : Report}
    (ht : ∀ t ∈ tokens, t.Spelled) (h : s.loadExpression tokens before = .ready code links report) :
    Loading.Linked s.links.length code links report := by
  unfold loadExpression at h
  dsimp only at h
  split at h
  · cases h
  · next expr hexpr =>
    split at h
    · cases h
    · unfold loadExpr at h
      dsimp only at h
      split at h
      · cases h
      · next hclean =>
        cases h
        rw [Bool.not_eq_true] at hclean
        obtain ⟨hwf, hnum⟩ := resolveExpr_numbered (parseExpression_wellFormed ht hexpr)
          (Resolve.clean_of_append _ hclean)
        exact ⟨hwf, hnum, hclean⟩

/-- Code that was loaded is well-formed, and its links continue those of the session. -/
theorem linked_of_load {step : Step} (h : s.load step = .ready code links report) :
    Loading.Linked s.links.length code links report := by
  cases step with
  | run source file =>
    unfold load at h
    dsimp only at h
    split at h
    · cases h
    · exact linked_of_loadProgram (tokenize_spelled source) h
  | eval source =>
    unfold load at h
    dsimp only at h
    split at h
    · cases h
    · split at h
      · cases h
      · split at h
        · exact linked_of_loadExpression (tokenize_spelled source) h
        · exact linked_of_loadProgram (tokenize_spelled source) h

/-! ## Histories -/

/-- A session whose references were linked in order, with a sound heap. -/
structure Consistent (s : Session) (refs : List (Reference (Option Link))) : Prop where
  numbered : Numbered 0 s.links refs
  sound : ∃ W, Sound refs W s.machine.heap

/-- The references of code that was loaded come after those of the session. -/
theorem Consistent.load {refs : List (Reference (Option Link))} (h : s.Consistent refs)
    {step : Step} (hload : s.load step = .ready code links report) :
    Numbered 0 (s.links ++ links) (refs ++ code.references) ∧
      code.Known (refs ++ code.references) ∧
      ∃ W, Sound (refs ++ code.references) W s.machine.heap := by
  obtain ⟨hwf, hnum, -⟩ := linked_of_load hload
  obtain ⟨W, hs⟩ := h.sound
  have hall : Numbered 0 (s.links ++ links) (refs ++ code.references) := by
    refine h.numbered.append ?_
    rwa [Nat.zero_add]
  refine ⟨hall, ⟨hwf, fun ref href => hall.known ref (List.mem_append_right _ href)⟩, W, ?_⟩
  exact hs.mono (List.prefix_append _ _)

theorem sound_start (natives : List Native) (clock : Float) (broken : Bool) :
    Sound [] [[]] (Machine.start natives clock broken).heap := by
  have hnatives : ∀ h : Heap, Sound [] [[]] h → Sound [] [[]]
      (natives.foldl (fun h n => h.define Heap.globals n.name (.native n)) h) := by
    induction natives with
    | nil => exact fun h hs => hs
    | cons n natives ih =>
      intro h hs
      refine ih _ (hs.define ?_ (fun hne => absurd rfl hne) trivial)
      cases n <;> decide
  have hslots : ∀ id, ({} : Heap).slots id = [] := by
    intro id
    cases id <;> simp [Heap.slots]
  refine hnatives {} ⟨rfl, by decide, rfl, ?_, ?_, ?_, ?_, ?_, ?_⟩
  · intro id hid hne
    exact absurd (Nat.lt_one_iff.mp hid) hne
  · intro id x hx
    rw [hslots] at hx
    cases hx
  · rw [hslots]
    decide
  · intro id v hv
    rw [hslots] at hv
    cases hv
  · intro id x v hv
    rw [hslots] at hv
    cases hv
  · intro id x v hv
    simp [Heap.field?] at hv

theorem History.consistent {codes : List Code} (h : s.History codes) :
    s.Consistent (codes.flatMap Code.references) := by
  induction h with
  | start settings clock broken => exact ⟨.nil 0, _, sound_start ..⟩
  | takeOutput _ ih => exact ⟨ih.numbered, ih.sound⟩
  | takeTrace _ ih => exact ⟨ih.numbered, ih.sound⟩
  | @step s s' codes fuel step result hs htake ih =>
    obtain ⟨-, ⟨report, hload, -, hm, hl⟩ | ⟨report, hload, -, hm, hl⟩ |
      ⟨code, links, report, hload, hl, hrun⟩⟩ := take_cases htake
    · simp only [hload, Loading.codes, List.append_nil]
      exact ⟨hl ▸ ih.numbered, hm ▸ ih.sound⟩
    · simp only [hload, Loading.codes, List.append_nil]
      exact ⟨hl ▸ ih.numbered, hm ▸ ih.sound⟩
    · -- the heap is sound for the references so far, and so for more of them
      obtain ⟨hnum, hknown, W, hsound⟩ := ih.load hload
      simp only [hload, Loading.codes, List.flatMap_append, List.flatMap_singleton]
      refine ⟨hl ▸ hnum, ?_⟩
      have hmeets := hknown.meets ⟨_, hnum⟩ hsound hs.at_rest.1 fuel
      obtain ⟨value, hp, -⟩ | ⟨e, hp, -⟩ := hrun
      · obtain ⟨a, m, hm, hheap⟩ := Code.heap_of_perform hp
        rw [hm] at hmeets
        obtain ⟨W', he⟩ := hmeets
        exact ⟨W', hheap ▸ he.sound⟩
      · rw [Code.perform_error_iff.mp hp] at hmeets
        obtain ⟨-, W', he⟩ := hmeets
        exact ⟨W', he.sound⟩

/-! ## Where references land -/

/-- By the end of a scope, resolution has declared in it the names of its frame. Whenever a step
evaluates a reference, after any history, the current scope is inside as many scopes as were open
when the reference was resolved; its link leads to the outermost scope exactly if the name was found
in no frame, and otherwise to a scope that binds only names of the frame in which it was found. -/
theorem references_land :
    (∀ (params : List Token) (body : List (Stmt Unit)) (around : Surroundings) (Γ : Site)
      (r : Resolution), (∀ p ∈ params, p.Ordinary) → Stmt.WellFormedList body → Γ.Shaped →
      Aligned r.scopes Γ → ∃ top rest,
        ((Resolve.openScope *> Resolve.parameters params *> Stmt.resolveList around body).run
          r).2.scopes = top :: rest ∧
        ∀ f ∈ (Γ.inFunction params body).head?, ∀ x, top.binds x ↔ x ∈ f.names) ∧
    ∀ (s : Session) (codes : List Code), s.History codes →
      ∀ (step : Step) (code : Code) (links : List LinkRecord) (report : Report),
        s.load step = .ready code links report → ∀ fuel : Nat,
        ¬ code.Reaches (fun t m => ¬ t.Lands ((codes ++ [code]).flatMap Code.references)
          (s.links ++ links) m) fuel s.machine := by
  refine ⟨fun _ _ _ _ _ hparams h hΓ hr => Stmt.binds_at_end hparams h hΓ hr, ?_⟩
  intro s codes hs step code links report hload fuel
  obtain ⟨hnum, hknown, W, hsound⟩ := hs.consistent.load hload
  rw [List.flatMap_append, List.flatMap_singleton]
  exact hknown.not_reaches ⟨_, hnum⟩ hsound hs.at_rest.1
    (fun t W m hs ht => not_not_intro (ht.lands hnum hs)) fuel

/-- A program that calls a function after the scope of its variable has ended. -/
def lateCall : Step :=
  .run ("var f; \x7b var n = 0; fun g() \x7b n = n + 1; return n; \x7d f = g; \x7d " ++
    "\x7b print f(); \x7d") []

theorem references_land_lateCall :
    ∃ code links report, (start {} 0 false).load lateCall = .ready code links report ∧
      code.references.length = 6 ∧
      ¬ code.Reaches (fun t m => ¬ t.Lands (([] ++ [code]).flatMap Code.references)
        ((start {} 0 false).links ++ links) m) 50 (start {} 0 false).machine := by
  obtain ⟨code, links, report, hload, hcount⟩ :=
    Loading.ready_of_any (l := (start {} 0 false).load lateCall)
      (p := fun code => code.references.length == 6) (by decide +kernel)
  exact ⟨code, links, report, hload, eq_of_beq hcount,
    references_land.2 _ [] (.start _ _ _) _ _ _ _ hload 50⟩

end Session

end Scriptlet

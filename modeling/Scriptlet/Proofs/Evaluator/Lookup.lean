import Scriptlet.Evaluator

/-!
# Looking up links

What a reference is linked to need not stand at the reference itself. It may be looked up in the
moment in which the variable is read or written, or the inherited method is found
(`Eval.lookupStep`); everything else is evaluated as before. If what is found is what stands at the
reference, nothing has changed (`Eval.through_id`).
-/

namespace Scriptlet

namespace Eval

variable (look : Option Link → Option Link)

/-- One evaluation that looks up what references are linked to. -/
def lookupStep (r : Runner) : Runner
  | .read name link => readLink name (look link)
  | .write name link value => writeLink name (look link) value
  | .inherit keyword link => inheritance keyword (look link)
  | t => step r t

/-- Evaluation that looks up what references are linked to, with an amount of fuel. -/
def through : (fuel : Nat) → Runner
  | 0, _ => starve
  | fuel + 1, t => lookupStep look (through fuel) t

theorem through_id (fuel : Nat) : through id fuel = within fuel := by
  induction fuel with
  | zero => rfl
  | succ fuel ih =>
    funext t
    rw [through, within, ih]
    cases t <;> rfl

/-! ## Links that lead equally far -/

variable {link link' : Option Link}

theorem readLink_congr (h : link'.map Link.hops = link.map Link.hops) (name : Token) :
    readLink name link' = readLink name link := by
  funext m
  match link, link', h with
  | none, none, _ => rfl
  | some ⟨_, _⟩, some ⟨_, _⟩, h => cases h; rfl

theorem writeLink_congr (h : link'.map Link.hops = link.map Link.hops) (name : Token)
    (value : Value) : writeLink name link' value = writeLink name link value := by
  funext m
  match link, link', h with
  | none, none, _ => rfl
  | some ⟨_, _⟩, some ⟨_, _⟩, h => cases h; rfl

theorem inheritance_congr (h : link'.map Link.hops = link.map Link.hops) (keyword : Token) :
    inheritance keyword link' = inheritance keyword link := by
  funext m
  match link, link', h with
  | none, none, _ => rfl
  | some ⟨_, _⟩, some ⟨_, _⟩, h => cases h; rfl

end Eval

end Scriptlet

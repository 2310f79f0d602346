import TsxCompiler.Peg.Parser

/-!
# Recursive rules

A rule that refers to itself is the fixed point of the rule's body. The body may use the rule only
at cursors with fewer characters left than where it started; a rule that reads something before it
refers to itself never notices.
-/

namespace TsxCompiler.Peg.Parser

variable {α : Type}

/-- A parser that answers only at cursors with fewer than `left` characters left. -/
def below (left : Nat) (p : Parser α) : Parser α := fun c =>
  if c.left < left then p c else .fail (.unexpected c.left none [])

/-- The rule whose body, given the rule itself, is `body`. -/
def fix (body : Parser α → Parser α) : Parser α := fun c =>
  body (fun d => if d.left < c.left then fix body d else .fail (.unexpected d.left none [])) c
termination_by c => c.left

/-- A recursive rule is its body, with the rule itself for what comes later in the text. -/
theorem fix_eq (body : Parser α → Parser α) (c : Cursor) :
    fix body c = body (below c.left (fix body)) c := by
  rw [fix]
  rfl

end TsxCompiler.Peg.Parser

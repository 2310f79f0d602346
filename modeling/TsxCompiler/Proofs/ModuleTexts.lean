import TsxCompiler.Proofs.Rules
import TsxCompiler.Source.Parse

/-!
# Modules and their texts

Which module a text is, said with the rule for modules: a text that does not nest too deep is what
the rule reads of it, and nothing else is a module.
-/

namespace TsxCompiler

open Peg Peg.Parser

theorem eq_ok_of_toOption {ε α : Type} {x : Except ε α} {a : α} (h : x.toOption = some a) :
    x = .ok a := by
  cases x with
  | error e => cases h
  | ok b => exact congrArg _ (Option.some.inj h)

variable {d : Dialect} {text : String} {p : Program}

theorem toOption_grammarParse (d : Dialect) (chars : List Char) :
    (Grammar.parse d chars).toOption = (run (Grammar.program d) chars).map Prod.fst := by
  unfold Grammar.parse run
  cases Grammar.program d (.ofList chars) <;> rfl

/-- The rule for modules decides, once the depth of the text is checked. -/
theorem toOption_parse (d : Dialect) (text : String) :
    (Program.parse d text).toOption =
      if (Nesting.excess text.toList).isSome then none
      else (run (Grammar.program d) text.toList).map Prod.fst := by
  unfold Program.parse
  dsimp only
  cases Nesting.excess text.toList with
  | some offset => rfl
  | none => exact toOption_grammarParse d text.toList

theorem run_program_of_parse (h : Program.parse d text = .ok p) :
    ∃ r, run (Grammar.program d) text.toList = some (p, r) := by
  have hread := toOption_parse d text
  rw [h] at hread
  split at hread
  · cases hread
  · obtain ⟨⟨q, r⟩, hr, rfl⟩ := Option.map_eq_some_iff.1 hread.symm
    exact ⟨r, hr⟩

theorem excess_of_parse (h : Program.parse d text = .ok p) :
    Nesting.excess text.toList = none := by
  have hread := toOption_parse d text
  rw [h] at hread
  split at hread
  · cases hread
  · rename_i hdepth
    simpa using hdepth

theorem grammarParse_of_run_program {chars r : List Char}
    (h : run (Grammar.program d) chars = some (p, r)) : Grammar.parse d chars = .ok p :=
  eq_ok_of_toOption (by rw [toOption_grammarParse, h]; rfl)

/-- A text that nests too deep is turned away at the place where it does. -/
theorem parse_of_excess {offset : Nat} (h : Nesting.excess text.toList = some offset) :
    Program.parse d text = .error (.ofOffset text.toList offset "nesting deeper than 128 levels") := by
  have hmessage : "nesting deeper than " ++ toString Nesting.maxDepth ++ " levels" =
      "nesting deeper than 128 levels" := by decide +kernel
  unfold Program.parse
  dsimp only
  rw [h, hmessage]

/-- What the grammar reads of a whole text is the module, if the text does not nest too deep. -/
theorem parse_of_run_program (hdepth : Nesting.excess text.toList = none)
    (h : run (Grammar.program d) text.toList = some (p, [])) : Program.parse d text = .ok p := by
  refine eq_ok_of_toOption ?_
  rw [toOption_parse, hdepth, h]
  rfl

end TsxCompiler

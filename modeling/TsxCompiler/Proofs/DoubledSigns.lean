import TsxCompiler.Print.Module
import TsxCompiler.Proofs.ExpressionModules
import TsxCompiler.Proofs.OperatorTrees

/-!
# Signs in a row

Operators in front of an operand are read one character at a time and never as the longest operator
that stands there. So two signs without a blank between them are two operators, as they are with
one: `--a` is the negation of a negation, in every dialect and in front of every operand
(`parse_doubledSign`). Printing puts the blank back.
-/

namespace TsxCompiler.Grammar

open Peg Peg.Parser Text

variable {d : Dialect}

/-! ## Signs -/

/-- The text of an operand with one sign in front of it, twice over and without a blank. -/
theorem printed_doubledSign {e : Expr} (h : OperatorTree e) {op : UnaryOp} (hop : op.isSign = true)
    (level : Nat) :
    Printed d (blockOf (statement d)) ArrowFree 9 (.unary op (.unary op e))
      (op.symbol ++ op.symbol ++ e.guarded Power.unary (e.print level)).toList := by
  have hG := arrowFree_textClass d
  obtain ⟨j, hj, hprinted⟩ :=
    (h.printsWell (B := blockOf (statement d)) hG level).guarded hG Power.unary
  have hgap : Printed.IsGap op [] := by
    refine .inr ⟨rfl, ?_⟩
    cases op with
    | minus | plus => rfl
    | not | typeOf | void | await => simp [UnaryOp.isSign] at hop
  have hinner := hprinted.unary hG hj hgap
  have houter := hinner.unary hG (Nat.le_refl 9) hgap
  simpa using houter

end TsxCompiler.Grammar

namespace TsxCompiler

open Grammar Peg Peg.Parser

/-- Two signs in a row in front of an operand are accepted, as two operators. -/
theorem parse_doubledSign (d : Dialect) {e : Expr} (h : OperatorTree e) {op : UnaryOp}
    (hop : op.isSign = true) (level : Nat)
    (hdepth : Nesting.excess
      (op.symbol ++ op.symbol ++ e.guarded Power.unary (e.print level)).toList = none) :
    Program.parse d (op.symbol ++ op.symbol ++ e.guarded Power.unary (e.print level)) =
      .ok ⟨[.stmt (.expr (.unary op (.unary op e)))]⟩ := by
  have hprinted := printed_doubledSign (d := d) h hop level
  have hfree : ArrowFree
      ((op.symbol ++ op.symbol ++ e.guarded Power.unary (e.print level)).toList ++ []) := by
    have hsign : LeadsArrowFree op.symbol := by
      cases op <;> exact .ofPlain rfl
    exact ((hsign.append hsign).append ((h.leadsArrowFree level).guarded e Power.unary)) [] rfl
  have hhalts : Halts d (blockOf (statement d)) 0 (skip []) := by
    rw [skip_nil]
    exact halts_nil
  have hread := hprinted.readsAt (Nat.zero_le 9) context_nil hfree hhalts
  have hskip := hprinted.skip_append []
  rw [List.append_nil, skip_nil] at hread
  rw [List.append_nil] at hskip
  refine parse_of_run_program hdepth ?_
  -- The text starts with the sign, so its only statement is an expression.
  obtain ⟨c, s, htext, hw, hb, hs⟩ : ∃ c s,
      (op.symbol ++ op.symbol ++ e.guarded Power.unary (e.print level)).toList = c :: s ∧
        Text.isWordStart c = false ∧ c ≠ '\x7b' ∧ c ≠ ';' := by
    cases op with
    | minus =>
      exact ⟨'-', '-' :: (e.guarded Power.unary (e.print level)).toList, by simp [UnaryOp.symbol],
        by decide, by decide, by decide⟩
    | plus =>
      exact ⟨'+', '+' :: (e.guarded Power.unary (e.print level)).toList, by simp [UnaryOp.symbol],
        by decide, by decide, by decide⟩
    | not | typeOf | void | await => simp [UnaryOp.isSign] at hop
  rw [htext] at hread hskip ⊢
  have hstmt : run (statement d) (c :: s) = some (.expr (.unary op (.unary op e)), []) := by
    rw [run_statement_expr hw hb hs, run_map, run_thenSkip]
    simp [show run (expression d (blockOf (statement d))) (c :: s) = _ from hread, terminator,
      run_yielding, run_optional]
  exact run_program_item hskip
    (run_moduleItem_stmt (run_keyword_none hw _ s) (run_keyword_none hw _ s) hstmt)

theorem parse_doubledSign_conditional :
    Program.parse ⟨.ecmaScript, false⟩ "++(a ? b : c)" =
      .ok ⟨[.stmt (.expr (.unary .plus (.unary .plus
        (.cond (.ident "a") (.ident "b") (.ident "c")))))]⟩ := by
  have htree : OperatorTree (.cond (.ident "a") (.ident "b") (.ident "c")) :=
    .cond (.ident (by decide) (by decide)) (.ident (by decide) (by decide))
      (.ident (by decide) (by decide))
  have htext : UnaryOp.plus.symbol ++ UnaryOp.plus.symbol ++
      (Expr.cond (.ident "a") (.ident "b") (.ident "c")).guarded Power.unary
        ((Expr.cond (.ident "a") (.ident "b") (.ident "c")).print 0) = "++(a ? b : c)" := by
    decide +kernel
  have hsign : UnaryOp.plus.isSign = true := rfl
  have hparse := parse_doubledSign ⟨.ecmaScript, false⟩ htree hsign 0
  rw [htext] at hparse
  exact hparse (by decide +kernel)

/-- Signs that stand together are read apart, in front of an operand and between two of them, even
when the second operand is on a line of its own. -/
theorem parse_adjacentSigns :
    (Program.parse ⟨.ecmaScript, false⟩ "--a").toOption.map Program.print = some "- -a;\n" ∧
    (Program.parse ⟨.ecmaScript, false⟩ "a++\nb").toOption.map Program.print =
      some "a + +b;\n" := by
  decide +kernel

end TsxCompiler

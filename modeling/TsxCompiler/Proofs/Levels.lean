import TsxCompiler.Print.Power
import TsxCompiler.Proofs.Lexemes

/-!
# Levels of the expression grammar

The rules for expressions form a ladder: each level reads an operand of the level above it and then
whatever its own operators add. This module numbers the levels, says what each of them looks for
behind an operand (`levelTail`), and climbs: an expression read at one level is read the same by
every lower level, as long as nothing that stands behind it goes on with one of theirs (`Halts`).
-/

namespace TsxCompiler.Grammar

open Peg Peg.Parser Text

variable (d : Dialect) (B : Parser (List Stmt))

/-! ## The ladder -/

/-- The rules for expressions from the loosest to the tightest. -/
def levelRule : Nat → Parser Expr
  | 0 => expression d B
  | 1 => conditional d B (expression d B)
  | 2 => nullish d B (expression d B)
  | 3 => disjunction d B (expression d B)
  | 4 => conjunction d B (expression d B)
  | 5 => equality d B (expression d B)
  | 6 => relational d B (expression d B)
  | 7 => additive d B (expression d B)
  | 8 => multiplicative d B (expression d B)
  | 9 => unaryExpr d B (expression d B)
  | 10 => postfixExpr d B (expression d B)
  | _ => primary d B (expression d B)

/-- The operators of the levels from `??` to `*`. -/
def levelOp : Nat → Parser BinaryOp
  | 2 => (sym "??").yielding .nullish
  | 3 => (sym "||").yielding .or
  | 4 => (sym "&&").yielding .and
  | 5 => equalityOp
  | 6 => relationalOp
  | 7 => additiveOp
  | _ => multiplicativeOp

/-- A member or a call behind an expression. -/
def accessSuffix : Parser (Expr → Expr) :=
  (memberSuffix (expression d B)).orElse (callSuffix (expression d B))

/-- What a level looks for behind an operand of the level above it. -/
def levelTail : Nat → Parser Unit
  | 0 => forget (assignOp.seq (expression d B))
  | 1 => forget ((((sym "?").skipThen (expression d B)).thenSkip (sym ":")).seq (expression d B))
  | 9 => (keyword "as").skipThen typeExpr
  | 10 => forget (accessSuffix d B)
  | i => forget ((levelOp i).seq (levelRule d B (i + 1)))

instance [Shrinks B] : Consumes (accessSuffix d B) := by
  unfold accessSuffix
  infer_instance

instance [Shrinks B] (i : Nat) : Consumes (levelRule d B i) := by
  unfold levelRule
  split <;> infer_instance

instance (i : Nat) : Shrinks (levelOp i) := by
  unfold levelOp
  split <;> infer_instance

/-- No level from `k` on finds its operators at the start of `r`. -/
def Halts (k : Nat) (r : List Char) : Prop :=
  ∀ i, k ≤ i → i ≤ 10 → run (levelTail d B i) r = none

theorem Halts.mono {d : Dialect} {B : Parser (List Stmt)} {j k : Nat} {r : List Char}
    (h : Halts d B k r) (hjk : k ≤ j) : Halts d B j r :=
  fun i hi hi' => h i (Nat.le_trans hjk hi) hi'

/-- The highest binding power of each level but the last. A conditional ends with a whole
expression, so it belongs where assignments do. -/
def levelPowers : List Nat := [3, 3, 4, 5, 6, 10, 11, 13, 14, 16, 18]

/-- The level that an expression of a binding power is read at. -/
def levelOf (power : Nat) : Nat :=
  levelPowers.countP (· < power)

theorem levelOf_mono {a b : Nat} (h : a ≤ b) : levelOf a ≤ levelOf b :=
  List.countP_mono_left fun x _ hx => by
    simp only [decide_eq_true_eq] at hx ⊢
    omega

theorem levelOf_le (power : Nat) : levelOf power ≤ 11 :=
  List.countP_le_length

/-! ## Climbing down -/

variable {d : Dialect} {B : Parser (List Stmt)}

theorem run_forget_none {α : Type} {p : Parser α} {s : List Char} :
    run (forget p) s = none ↔ run p s = none := by
  simp [forget, run_yielding]

/-- The levels from `??` to `*` read operands of the next level with their operators between
them. -/
theorem levelRule_eq_binaryLevel {i : Nat} (hi : 2 ≤ i) (hi' : i ≤ 8) :
    levelRule d B i = binaryLevel (levelRule d B (i + 1)) (levelOp i) := by
  match i, hi, hi' with
  | 2, _, _ | 3, _, _ | 4, _, _ | 5, _, _ | 6, _, _ | 7, _, _ | 8, _, _ => rfl

theorem levelTail_eq_binary {i : Nat} (hi : 2 ≤ i) (hi' : i ≤ 8) :
    levelTail d B i = forget ((levelOp i).seq (levelRule d B (i + 1))) := by
  match i, hi, hi' with
  | 2, _, _ | 3, _, _ | 4, _, _ | 5, _, _ | 6, _, _ | 7, _, _ | 8, _, _ => rfl

/-- Joins what the operators of one level add to a first operand. -/
def joinOperands (first : Expr) (rest : List (BinaryOp × Expr)) : Expr :=
  rest.foldl (fun left x => .binary x.1 left x.2) first

/-- Behind a first operand, a level goes on with its own operators. -/
theorem run_levelRule_binary {i : Nat} (hi : 2 ≤ i) (hi' : i ≤ 8) {s r : List Char} {e : Expr}
    (h : run (levelRule d B (i + 1)) s = some (e, r)) :
    run (levelRule d B i) s =
      (run (many ((levelOp i).seq (levelRule d B (i + 1)))) r).map fun x =>
        (joinOperands e x.1, x.2) := by
  rw [levelRule_eq_binaryLevel hi hi', binaryLevel, run_both, h]
  rfl

/-- Behind a primary expression or `new`, members and calls follow. -/
theorem run_postfixExpr_primary {s r : List Char} {e : Expr}
    (hnew : run (newExpr d B (expression d B)) s = none)
    (h : run (primary d B (expression d B)) s = some (e, r)) :
    run (postfixExpr d B (expression d B)) s =
      (run (many (accessSuffix d B)) r).map fun x => (applySuffixes e x.1, x.2) := by
  rw [postfixExpr, run_both, run_orElse, hnew, h]
  rfl

/-- Operators in front of an operand are put before it from the inside out. -/
theorem run_unaryExpr_op {s t : List Char} {op : UnaryOp} (h : run unaryOp s = some (op, t)) :
    run (unaryExpr d B (expression d B)) s =
      (run (unaryExpr d B (expression d B)) t).map fun x => (.unary op x.1, x.2) := by
  simp only [unaryExpr, run_thenSkip, run_both, run_many_step h]
  cases hops : run (many unaryOp) t with
  | none => rfl
  | some ops =>
    simp only [Option.map_some, Option.bind_some, List.foldr_cons]
    cases hpost : run (postfixExpr d B (expression d B)) ops.2 with
    | none => rfl
    | some x =>
      simp only [Option.map_some, Option.bind_some]
      cases run (casts d) x.2 <;> rfl

theorem run_casts {r : List Char} (h : run ((keyword "as").skipThen typeExpr) r = none) :
    run (casts d) r = some ((), r) := by
  unfold casts whenTyped
  split
  · simp [forget, run_yielding, run_many_none h]
  · rfl

/-- An operand without operators in front of it. -/
theorem run_unaryExpr_postfix {s r : List Char} {e : Expr} (hop : run unaryOp s = none)
    (h : run (postfixExpr d B (expression d B)) s = some (e, r))
    (hr : run ((keyword "as").skipThen typeExpr) r = none) :
    run (unaryExpr d B (expression d B)) s = some (e, r) := by
  simp [unaryExpr, run_thenSkip, run_both, run_many_none hop, h, run_casts hr]

/-- A text that the levels below `j` do not start differently: no operator and no `new` where the
tighter levels read an operand. -/
structure Opens (d : Dialect) (B : Parser (List Stmt)) (j : Nat) (s : List Char) : Prop where
  op : 9 < j → run unaryOp s = none
  new : 10 < j → run (newExpr d B (expression d B)) s = none

/-- One rung: what the level above reads is read by a level that finds none of its operators. -/
theorem run_levelRule_succ [Shrinks B] {i : Nat} (hi : i ≤ 10) {s r : List Char} {e : Expr}
    (h : run (levelRule d B (i + 1)) s = some (e, r)) (hs : Opens d B (i + 1) s)
    (hr : run (levelTail d B i) r = none) : run (levelRule d B i) s = some (e, r) := by
  match i, hi with
  | 0, _ =>
    have hr := run_forget_none.1 hr
    change run (expression d B) s = _
    rw [run_expression]
    simp only [levelRule] at h
    simp [expressionBody, run_both, h, run_optional_none hr]
  | 1, _ =>
    have hr := run_forget_none.1 hr
    simp only [levelRule] at h ⊢
    simp [conditional, run_both, h, run_optional_none hr]
  | 9, _ => exact run_unaryExpr_postfix (hs.op (by omega)) h hr
  | 10, _ =>
    have hr := run_forget_none.1 hr
    simp only [levelRule] at h ⊢
    rw [run_postfixExpr_primary (hs.new (by omega)) h, run_many_none hr]
    rfl
  | 2, hi | 3, hi | 4, hi | 5, hi | 6, hi | 7, hi | 8, hi =>
    rw [levelTail_eq_binary (by omega) (by omega)] at hr
    rw [run_levelRule_binary (by omega) (by omega) h, run_many_none (run_forget_none.1 hr)]
    rfl

/-- All rungs at once. -/
theorem run_levelRule_of_le [Shrinks B] {j k : Nat} (hkj : k ≤ j) (hj : j ≤ 11) {s r : List Char}
    {e : Expr} (h : run (levelRule d B j) s = some (e, r)) (hs : Opens d B j s)
    (hr : Halts d B k r) : run (levelRule d B k) s = some (e, r) := by
  induction j with
  | zero =>
    obtain rfl : k = 0 := by omega
    exact h
  | succ j ih =>
    by_cases hk : k = j + 1
    · exact hk ▸ h
    · refine ih (by omega) (by omega) ?_ ⟨fun h9 => hs.op (by omega), fun h10 => hs.new (by omega)⟩
      exact run_levelRule_succ (by omega) h hs (hr j (by omega) (by omega))

/-- A level reads nothing where the level above it reads nothing. -/
theorem run_levelRule_none_succ [Shrinks B] {i : Nat} (hi : i ≤ 10) {s : List Char}
    (h : run (levelRule d B (i + 1)) s = none) (hs : Opens d B (i + 1) s) :
    run (levelRule d B i) s = none := by
  match i, hi with
  | 0, _ =>
    change run (expression d B) s = none
    simp only [levelRule] at h
    rw [run_expression]
    simp [expressionBody, run_both, h]
  | 1, _ =>
    simp only [levelRule] at h ⊢
    simp [conditional, run_both, h]
  | 9, _ =>
    simp only [levelRule] at h ⊢
    simp [unaryExpr, run_thenSkip, run_both, run_many_none (hs.op (by omega)), h]
  | 10, _ =>
    simp only [levelRule] at h ⊢
    simp [postfixExpr, run_both, run_orElse, hs.new (by omega), h]
  | 2, _ | 3, _ | 4, _ | 5, _ | 6, _ | 7, _ | 8, _ =>
    rw [levelRule_eq_binaryLevel (by omega) (by omega), binaryLevel, run_both, h]
    rfl

/-- Without an operand no level reads anything, from the strongest level down. -/
theorem run_levelRule_none_of_primary [Shrinks B] {s : List Char} (hs : Opens d B 11 s)
    (h : run (primary d B (expression d B)) s = none) (i : Nat) :
    run (levelRule d B i) s = none := by
  have hdown : ∀ j, j ≤ 11 → run (levelRule d B (11 - j)) s = none := by
    intro j hj
    induction j with
    | zero => exact h
    | succ j ih =>
      have hstep := ih (by omega)
      rw [show 11 - j = 11 - (j + 1) + 1 by omega] at hstep
      exact run_levelRule_none_succ (by omega) hstep
        ⟨fun _ => hs.op (by omega), fun _ => hs.new (by omega)⟩
  by_cases hi : i ≤ 11
  · have := hdown (11 - i) (by omega)
    rwa [show 11 - (11 - i) = i by omega] at this
  · obtain ⟨j, rfl⟩ : ∃ j, i = j + 12 := ⟨i - 12, by omega⟩
    exact h

end TsxCompiler.Grammar

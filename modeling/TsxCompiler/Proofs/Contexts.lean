import TsxCompiler.Proofs.Primaries

/-!
# What stands behind an expression

Whether a level goes on behind an operand, and whether an arrow makes parameters of it, is decided
by the next token. This module goes through the tokens that can stand there: brackets, separators,
operators and the parts of a conditional.
-/

namespace TsxCompiler.Grammar

open Peg Peg.Parser Text

variable {d : Dialect} {B : Parser (List Stmt)}

/-! ## Levels that do not go on -/

/-- Whether what a level looks for may start with a character. -/
def startsTail : Nat → Char → Bool
  | 0, c => ['?', '|', '&', '+', '-', '='].contains c
  | 1, c => c == '?'
  | 2, c => c == '?'
  | 3, c => c == '|'
  | 4, c => c == '&'
  | 5, c => c == '=' || c == '!'
  | 6, c => c == '<' || c == '>' || isWordStart c
  | 7, c => c == '+' || c == '-'
  | 8, c => c == '*' || c == '/' || c == '%'
  | 9, c => isWordStart c
  | _, c => ['?', '.', '[', '('].contains c

/-- What may go on behind an operand of level `i` starts with one of a few characters. The levels are
gone through one by one, as each has its own operators. -/
theorem run_levelTail_none {i : Nat} (hi : i ≤ 10) {c : Char} (h : startsTail i c = false)
    (s : List Char) : run (levelTail d B i) (c :: s) = none := by
  match i, hi with
  | 0, _ =>
    simp [startsTail] at h
    simp [levelTail, run_forget_none, run_seq, assignOp, run_choice_cons, run_yielding, run_sym,
      run_chars_cons, run_char_cons, h]
  | 1, _ =>
    simp [startsTail] at h
    simp [levelTail, run_forget_none, run_seq, run_thenSkip, run_skipThen, run_sym, run_chars_cons,
      run_char_cons, h]
  | 2, _ | 3, _ | 4, _ =>
    simp [startsTail] at h
    simp [levelTail, levelOp, run_forget_none, run_seq, run_yielding, run_sym, run_chars_cons,
      run_char_cons, h]
  | 5, _ =>
    simp [startsTail] at h
    simp [levelTail, levelOp, equalityOp, run_forget_none, run_seq, run_choice_cons, run_yielding,
      run_sym, run_chars_cons, run_char_cons, h]
  | 6, _ =>
    simp [startsTail] at h
    simp [levelTail, levelOp, relationalOp, run_forget_none, run_seq, run_choice_cons,
      run_yielding, run_sym, run_chars_cons, run_char_cons, h, run_keyword_none]
  | 7, _ =>
    simp [startsTail] at h
    simp [levelTail, levelOp, additiveOp, run_forget_none, run_seq, run_choice_cons, run_yielding,
      run_sym, run_chars_cons, run_char_cons, h]
  | 8, _ =>
    simp [startsTail] at h
    simp [levelTail, levelOp, multiplicativeOp, run_forget_none, run_seq, run_choice_cons,
      run_yielding, run_sym, run_chars_cons, run_char_cons, h]
  | 9, _ =>
    simp [startsTail] at h
    simp [levelTail, run_skipThen, run_keyword_none h]
  | 10, _ =>
    simp [startsTail] at h
    simp [levelTail, accessSuffix, run_forget_none, run_orElse, memberSuffix, callSuffix,
      run_choice_cons, run_map, run_skipThen, run_sym, run_chars_cons, run_char_cons, h, arguments,
      run_inParens_none, run_inBrackets_none]

theorem halts_of_char {k : Nat} {c : Char} (h : ∀ i < 11, k ≤ i → startsTail i c = false)
    (s : List Char) : Halts d B k (c :: s) :=
  fun i hk hi => run_levelTail_none hi (h i (by omega) hk) s

theorem halts_nil : Halts d B 0 [] := by
  intro i _ hi
  match i, hi with
  | 0, _ =>
    simp [levelTail, run_forget_none, run_seq, assignOp, run_choice_cons, run_yielding]
  | 1, _ => simp [levelTail, run_forget_none, run_seq, run_thenSkip, run_skipThen]
  | 2, _ | 3, _ | 4, _ =>
    simp [levelTail, levelOp, run_forget_none, run_seq, run_yielding]
  | 5, _ | 6, _ | 7, _ | 8, _ =>
    simp [levelTail, levelOp, equalityOp, relationalOp, additiveOp, multiplicativeOp,
      run_forget_none, run_seq, run_choice_cons, run_yielding]
  | 9, _ => simp [levelTail, run_skipThen]
  | 10, _ =>
    simp [levelTail, accessSuffix, run_forget_none, run_orElse, memberSuffix, callSuffix,
      run_choice_cons, run_map, run_skipThen, arguments, inParens, inBrackets, between,
      run_thenSkip]

/-- The levels that a character may start the tail of, one by one, and the rest by the
character. -/
theorem halts_of_char_except {k : Nat} {c : Char} {s : List Char} (levels : List Nat)
    (hlevels : ∀ i ∈ levels, run (levelTail d B i) (c :: s) = none)
    (h : ∀ i < 11, k ≤ i → i ∉ levels → startsTail i c = false) : Halts d B k (c :: s) := by
  intro i hk hi
  by_cases hmem : i ∈ levels
  · exact hlevels i hmem
  · exact run_levelTail_none hi (h i (by omega) hk hmem) s

/-- `?` reaches for a member or a call only before a point. -/
theorem run_levelTail_access_question {c : Char} (h : c ≠ '.') (s : List Char) :
    run (levelTail d B 10) ('?' :: c :: s) = none := by
  simp [levelTail, accessSuffix, run_forget_none, run_orElse, memberSuffix, callSuffix,
    run_choice_cons, run_map, run_skipThen, run_sym, run_chars_cons, run_char_cons, h, arguments,
    run_inParens_none, run_inBrackets_none]

/-- Behind the test of a conditional, every level but those of conditionals and assignments
halts. -/
theorem halts_question (s : List Char) : Halts d B 2 ('?' :: ' ' :: s) := by
  refine halts_of_char_except [2, 10] ?_ (by decide)
  simp only [List.mem_cons, List.not_mem_nil, or_false, forall_eq_or_imp, forall_eq]
  refine ⟨?_, run_levelTail_access_question (by decide) s⟩
  simp [levelTail, levelOp, run_forget_none, run_seq, run_yielding, run_sym, run_chars_cons,
    run_char_cons]

/-- A word other than `as` is no cast. -/
theorem run_levelTail_cast_word {w : String} {rest : List Char} (hw : isIdentifier w = true)
    (hend : endsWord rest = true) (h : w ≠ "as") :
    run (levelTail d B 9) (w.toList ++ rest) = none := by
  simp [levelTail, run_skipThen, run_keyword_other hw hend h]

/-- Behind the left operand of an operator, every tighter level halts. -/
theorem halts_binaryOp (op : BinaryOp) (s : List Char) :
    Halts d B (levelOf op.precedence + 1) (op.symbol.toList ++ ' ' :: s) := by
  cases op with
  | nullish =>
    change Halts d B 3 ('?' :: '?' :: ' ' :: s)
    refine halts_of_char_except [10] ?_ (by decide)
    simpa using run_levelTail_access_question (by decide) (' ' :: s)
  | instanceOf =>
    have hcast := run_levelTail_cast_word (d := d) (B := B) (w := "instanceof") (by decide)
      (endsWord_cons (c := ' ') (by decide) s) (by decide)
    change Halts d B 7 ('i' :: ("nstanceof".toList ++ ' ' :: s))
    exact halts_of_char_except [9] (by simpa using hcast) (by decide)
  | isIn =>
    have hcast := run_levelTail_cast_word (d := d) (B := B) (w := "in") (by decide)
      (endsWord_cons (c := ' ') (by decide) s) (by decide)
    change Halts d B 7 ('i' :: 'n' :: ' ' :: s)
    exact halts_of_char_except [9] (by simpa using hcast) (by decide)
  | or | and | strictEq | strictNe | eq | ne | lt | le | gt | ge | add | sub | mul | div | mod =>
    exact halts_of_char (by decide) _

/-- Behind the target of an assignment, every level but that of assignments halts: the operators
that the combined ones start with find no operand at the sign of equality. -/
theorem halts_assignOp [Shrinks B] (op : AssignOp) (s : List Char) :
    Halts d B 1 (op.symbol.toList ++ ' ' :: s) := by
  have hskip : ∀ t, skip ('=' :: t) = '=' :: t := skip_cons (by decide) (by decide)
  have hnone : ∀ j t, run (levelRule d B j) ('=' :: t) = none := run_levelRule_none (by decide)
  have hquestion : ∀ t, run (expression d B) ('?' :: t) = none := run_levelRule_none (by decide) 0
  have hskip' : ∀ t, skip ('?' :: t) = '?' :: t := skip_cons (by decide) (by decide)
  cases op with
  -- for each operator the levels whose own operators start with the same character
  | plain =>
    change Halts d B 1 ('=' :: ' ' :: s)
    refine halts_of_char_except [5] ?_ (by decide)
    simp [levelTail, levelOp, equalityOp, run_forget_none, run_seq, run_choice_cons, run_yielding,
      run_sym, run_chars_cons, run_char_cons]
  | add =>
    change Halts d B 1 ('+' :: '=' :: ' ' :: s)
    refine halts_of_char_except [7] ?_ (by decide)
    simp [levelTail, levelOp, additiveOp, run_forget_none, run_seq, run_choice_cons, run_yielding,
      run_sym, run_chars_cons, run_char_cons, hskip, hnone]
  | sub =>
    change Halts d B 1 ('-' :: '=' :: ' ' :: s)
    refine halts_of_char_except [7] ?_ (by decide)
    simp [levelTail, levelOp, additiveOp, run_forget_none, run_seq, run_choice_cons, run_yielding,
      run_sym, run_chars_cons, run_char_cons, hskip, hnone]
  | or =>
    change Halts d B 1 ('|' :: '|' :: '=' :: ' ' :: s)
    refine halts_of_char_except [3] ?_ (by decide)
    simp [levelTail, levelOp, run_forget_none, run_seq, run_yielding, run_sym, run_chars_cons,
      run_char_cons, hskip, hnone]
  | and =>
    change Halts d B 1 ('&' :: '&' :: '=' :: ' ' :: s)
    refine halts_of_char_except [4] ?_ (by decide)
    simp [levelTail, levelOp, run_forget_none, run_seq, run_yielding, run_sym, run_chars_cons,
      run_char_cons, hskip, hnone]
  | nullish =>
    change Halts d B 1 ('?' :: '?' :: '=' :: ' ' :: s)
    refine halts_of_char_except [1, 2, 10] ?_ (by decide)
    simp only [List.mem_cons, List.not_mem_nil, or_false, forall_eq_or_imp, forall_eq]
    refine ⟨?_, ?_, run_levelTail_access_question (by decide) _⟩
    · simp [levelTail, run_forget_none, run_seq, run_thenSkip, run_skipThen, run_sym,
        run_chars_cons, run_char_cons, hskip', hquestion]
    · simp [levelTail, levelOp, run_forget_none, run_seq, run_yielding, run_sym, run_chars_cons,
        run_char_cons, hskip, hnone]

/-! ## No arrow -/

/-- There is no annotation without a colon. -/
theorem run_ascription_none {s : List Char} (h : run (sym ":") s = none) :
    run (ascription d) s = some ((), s) := by
  unfold ascription whenTyped
  split
  · rw [typeAscription, forget, run_yielding, run_optional_none]
    · rfl
    · simp [run_skipThen, h]
  · rfl

theorem run_genericParams_none {s : List Char} (h : run (sym "<") s = none) :
    run (genericParams d) s = some ((), s) := by
  unfold genericParams whenTyped
  split
  · simp [typeParams, forget, run_yielding, run_optional, inAngles, between, run_thenSkip,
      run_skipThen, h]
  · rfl

theorem run_ascription_type (hd : d.isTypeScript = true) {s r : List Char}
    (h : run typeExpr (skip s) = some ((), r)) : run (ascription d) (':' :: s) = some ((), r) := by
  have hcolon : run (sym ":") (':' :: s) = some ((), skip s) := run_sym_append ":" s
  have htype : run ((sym ":").skipThen typeExpr) (':' :: s) = some ((), r) := by
    rw [run_skipThen, hcolon]
    exact h
  rw [ascription, whenTyped, if_pos hd, typeAscription, forget, run_yielding,
    run_optional_some htype]
  rfl

/-- Neither an annotation nor an arrow starts with the character. -/
theorem quiet_of_char {c : Char} {s : List Char} (hw : isWordStart c = false) (hp : c ≠ '(')
    (hcolon : c ≠ ':') (harrow : run (sym "=>") (c :: s) = none) : Quiet d B (c :: s) where
  arrow := by
    simp [run_thenSkip, run_ascription_none (run_sym_none ":" rfl hcolon s), harrow]
  asyncArrow := by
    simp [run_thenSkip, run_orElse, params, run_inParens_none hp, run_map, run_identifier_none hw]
  asyncFunction := run_keyword_none hw _ s

theorem quiet_nil : Quiet d B [] where
  arrow := by simp [run_thenSkip, run_ascription_none]
  asyncArrow := by
    simp [run_thenSkip, run_orElse, params, inParens, between, run_skipThen, run_map]
  asyncFunction := by simp

/-- A reserved word is neither a parameter nor an arrow. -/
theorem quiet_reserved {w : String} {rest : List Char} (hw : isIdentifier w = true)
    (hend : endsWord rest = true) (hres : isReserved w = true) (hne : w ≠ "function") :
    Quiet d B (w.toList ++ rest) where
  arrow := by
    obtain ⟨c, cs, hc, hstart⟩ := exists_of_isIdentifier hw
    have hcolon : c ≠ ':' := ne_of_isWordStart hstart (by decide)
    have heq : c ≠ '=' := ne_of_isWordStart hstart (by decide)
    rw [hc]
    simp [run_thenSkip, run_ascription_none (run_sym_none ":" rfl hcolon _),
      run_sym_none "=>" rfl heq]
  asyncArrow := by
    simp [run_thenSkip, run_orElse, run_params_word hw, run_map, run_identifier,
      run_rawWord_append hw hend, hres]
  asyncFunction := run_keyword_other hw hend hne

/-- The colon of a conditional is quiet unless a type and an arrow follow it. -/
theorem quiet_colon {s : List Char}
    (h : run ((ascription d).thenSkip (sym "=>")) (':' :: s) = none) : Quiet d B (':' :: s) where
  arrow := h
  asyncArrow := by
    simp [run_thenSkip, run_orElse, params, run_inParens_none, run_map,
      run_identifier_none (show isWordStart ':' = false by decide)]
  asyncFunction := run_keyword_none (by decide) _ s

theorem quiet_binaryOp (op : BinaryOp) (s : List Char) :
    Quiet d B (op.symbol.toList ++ ' ' :: s) := by
  have hend := endsWord_cons (c := ' ') (by decide) s
  cases op with
  | instanceOf => exact quiet_reserved (by decide) hend (by decide) (by decide)
  | isIn => exact quiet_reserved (by decide) hend (by decide) (by decide)
  | strictEq =>
    change Quiet d B ('=' :: '=' :: '=' :: ' ' :: s)
    exact quiet_of_char (by decide) (by decide) (by decide)
      (by simp [run_sym, run_chars_cons, run_char_cons])
  | eq =>
    change Quiet d B ('=' :: '=' :: ' ' :: s)
    exact quiet_of_char (by decide) (by decide) (by decide)
      (by simp [run_sym, run_chars_cons, run_char_cons])
  | nullish | or | and | strictNe | ne | lt | le | gt | ge | add | sub | mul | div | mod =>
    exact quiet_of_char (by decide) (by decide) (by decide) (run_sym_none "=>" rfl (by decide) _)

theorem quiet_assignOp (op : AssignOp) (s : List Char) :
    Quiet d B (op.symbol.toList ++ ' ' :: s) := by
  cases op with
  | plain =>
    change Quiet d B ('=' :: ' ' :: s)
    exact quiet_of_char (by decide) (by decide) (by decide)
      (by simp [run_sym, run_chars_cons, run_char_cons])
  | add | sub | or | and | nullish =>
    exact quiet_of_char (by decide) (by decide) (by decide) (run_sym_none "=>" rfl (by decide) _)

/-! ## Operators as they are printed -/

theorem skip_binaryOp (op : BinaryOp) (s : List Char) :
    skip (op.symbol.toList ++ ' ' :: s) = op.symbol.toList ++ ' ' :: s := by
  cases op with
  | div => exact skip_slash (by decide) (by decide) s
  | nullish | or | and | strictEq | strictNe | eq | ne | lt | le | gt | ge | instanceOf | isIn | add
  | sub | mul | mod => exact skip_cons (by decide) (by decide) _

theorem skip_assignOp (op : AssignOp) (s : List Char) :
    skip (op.symbol.toList ++ ' ' :: s) = op.symbol.toList ++ ' ' :: s := by
  cases op <;> exact skip_cons (by decide) (by decide) _

theorem run_sym_word {text w : String} {x : Char} {more : List Char} (ht : text.toList = x :: more)
    (hx : isWordStart x = false) (hw : isIdentifier w = true) (rest : List Char) :
    run (sym text) (w.toList ++ rest) = none := by
  obtain ⟨c, cs, hc, hstart⟩ := exists_of_isIdentifier hw
  rw [hc]
  exact run_sym_none text ht (ne_of_isWordStart hstart hx) _

theorem run_unaryOp_word {w : String} {rest : List Char} (hw : isIdentifier w = true)
    (hend : endsWord rest = true) :
    run unaryOp (w.toList ++ rest) =
      if w = "typeof" then some (.typeOf, skip rest)
      else if w = "void" then some (.void, skip rest)
      else if w = "await" then some (.await, skip rest)
      else none := by
  have hnot : run (sym "!") (w.toList ++ rest) = none := run_sym_word rfl (by decide) hw rest
  have hminus : run (sym "-") (w.toList ++ rest) = none := run_sym_word rfl (by decide) hw rest
  have hplus : run (sym "+") (w.toList ++ rest) = none := run_sym_word rfl (by decide) hw rest
  simp only [unaryOp, run_choice_cons, run_choice_nil, run_yielding, hnot, hminus, hplus,
    run_keyword_word hw hend, Option.map_none, Option.none_or]
  repeat' split
  all_goals simp

theorem run_relationalOp_word {w : String} {rest : List Char} (hw : isIdentifier w = true)
    (hend : endsWord rest = true) :
    run relationalOp (w.toList ++ rest) =
      if w = "instanceof" then some (.instanceOf, skip rest)
      else if w = "in" then some (.isIn, skip rest)
      else none := by
  have hle : run (sym "<=") (w.toList ++ rest) = none := run_sym_word rfl (by decide) hw rest
  have hge : run (sym ">=") (w.toList ++ rest) = none := run_sym_word rfl (by decide) hw rest
  have hlt : run (sym "<") (w.toList ++ rest) = none := run_sym_word rfl (by decide) hw rest
  have hgt : run (sym ">") (w.toList ++ rest) = none := run_sym_word rfl (by decide) hw rest
  simp only [relationalOp, run_choice_cons, run_choice_nil, run_yielding, hle, hge, hlt, hgt,
    run_keyword_word hw hend, Option.map_none, Option.none_or]
  repeat' split
  all_goals simp

/-- Between its operands, an operator is read by its own level. -/
theorem run_levelOp (op : BinaryOp) (s : List Char) :
    run (levelOp (levelOf op.precedence)) (op.symbol.toList ++ ' ' :: s) = some (op, skip s) := by
  have hblank : ∀ t, skip (' ' :: t) = skip t := skip_blank (by decide)
  have hword : ∀ t, endsWord (' ' :: t) = true := endsWord_cons (by decide)
  cases op with
  | instanceOf | isIn =>
    change run relationalOp _ = _
    rw [run_relationalOp_word (by decide) (hword s), hblank]
    rfl
  | nullish | or | and =>
    simp [levelOf, levelPowers, BinaryOp.precedence, levelOp, run_yielding, run_sym, run_chars_cons,
      run_char_cons, BinaryOp.symbol, hblank]
  | strictEq | strictNe | eq | ne =>
    simp [levelOf, levelPowers, BinaryOp.precedence, levelOp, equalityOp, run_choice_cons,
      run_yielding, run_sym, run_chars_cons, run_char_cons, BinaryOp.symbol, hblank]
  | lt | le | gt | ge =>
    simp [levelOf, levelPowers, BinaryOp.precedence, levelOp, relationalOp, run_choice_cons,
      run_yielding, run_sym, run_chars_cons, run_char_cons, BinaryOp.symbol, hblank]
  | add | sub =>
    simp [levelOf, levelPowers, BinaryOp.precedence, levelOp, additiveOp, run_choice_cons,
      run_yielding, run_sym, run_chars_cons, run_char_cons, BinaryOp.symbol, hblank]
  | mul | div | mod =>
    simp [levelOf, levelPowers, BinaryOp.precedence, levelOp, multiplicativeOp, run_choice_cons,
      run_yielding, run_sym, run_chars_cons, run_char_cons, BinaryOp.symbol, hblank]

theorem run_assignOp (op : AssignOp) (s : List Char) :
    run assignOp (op.symbol.toList ++ ' ' :: s) = some (op, skip s) := by
  have hblank : ∀ t, skip (' ' :: t) = skip t := skip_blank (by decide)
  cases op <;>
    simp [assignOp, run_choice_cons, run_yielding, run_sym, run_chars_cons, run_char_cons,
      AssignOp.symbol, hblank]

end TsxCompiler.Grammar

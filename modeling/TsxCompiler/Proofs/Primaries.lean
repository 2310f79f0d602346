import TsxCompiler.Proofs.Levels

/-!
# How operands start

A primary expression is recognised by its first token, except that an arrow function may start like
a name, like a call of `async` or like an expression in parentheses. `Quiet` says that what follows
does not turn the text before it into an arrow function; given that, each kind of operand is read
as what it is.
-/

namespace TsxCompiler.Grammar

open Peg Peg.Parser Text

variable {d : Dialect} {B : Parser (List Stmt)}

/-! ## No operand -/

/-- Characters that an expression may start with. -/
def startsExpr (c : Char) : Bool :=
  isWordStart c || c.isDigit ||
    ['"', '\'', backquote, '(', '[', '\x7b', '<', '!', '-', '+'].contains c

theorem run_asyncMark_none {s : List Char} (h : run (keyword "async") s = none) :
    run asyncMark s = some (false, s) := by
  simp [asyncMark, run_map, run_optional_none h]

theorem run_functionWith_none {α : Type} {name : Parser α} {E : Parser Expr} {c : Char}
    (h : isWordStart c = false) (s : List Char) :
    run (functionWith name d E B) (c :: s) = none := by
  simp [functionWith, run_both, run_seq, run_thenSkip,
    run_asyncMark_none (run_keyword_none h "async" s), run_keyword_none h]

theorem run_classWith_none {α : Type} {name : Parser α} {E : Parser Expr} {c : Char}
    (h : isWordStart c = false) (s : List Char) :
    run (classWith name d E B) (c :: s) = none := by
  simp [classWith, run_seq, run_skipThen, run_keyword_none h]

theorem run_element_none {E : Parser Expr} [Shrinks E] {c : Char} (h : c ≠ '<') (s : List Char) :
    run (element E) (c :: s) = none := by
  rw [run_element]
  simp [markupBody, fragment, taggedElement, run_orElse, run_check, run_seq, run_skipThen,
    run_char_cons, h]

theorem run_markupExpr_none {E : Parser Expr} [Shrinks E] {c : Char} (h : c ≠ '<')
    (s : List Char) : run (markupExpr d E) (c :: s) = none := by
  unfold markupExpr
  split
  · simp [run_map, run_lexeme, run_element_none h]
  · simp [run_check, run_char_cons, h]

theorem run_inParens_none {α : Type} {p : Parser α} {c : Char} (h : c ≠ '(') (s : List Char) :
    run (inParens p) (c :: s) = none := by
  simp [inParens, between, run_thenSkip, run_skipThen, run_sym_none "(" rfl h]

theorem run_inBrackets_none {α : Type} {p : Parser α} {c : Char} (h : c ≠ '[') (s : List Char) :
    run (inBrackets p) (c :: s) = none := by
  simp [inBrackets, between, run_thenSkip, run_skipThen, run_sym_none "[" rfl h]

theorem run_inBraces_none {α : Type} {p : Parser α} {c : Char} (h : c ≠ '\x7b') (s : List Char) :
    run (inBraces p) (c :: s) = none := by
  simp [inBraces, between, run_thenSkip, run_skipThen, run_sym_none "\x7b" rfl h]

theorem run_arrowExpr_none {E : Parser Expr} {c : Char} (hw : isWordStart c = false) (hc : c ≠ '(')
    (s : List Char) : run (arrowExpr d B E) (c :: s) = none := by
  simp [arrowExpr, run_both, run_thenSkip, run_seq,
    run_asyncMark_none (run_keyword_none hw "async" s), run_orElse, params, run_inParens_none hc,
    run_map, run_identifier_none hw]

theorem run_literalExpr_none {c : Char} (hw : isWordStart c = false) (hn : c.isDigit = false)
    (hd : c ≠ '"') (hs : c ≠ '\'') (hb : c ≠ backquote) (s : List Char) :
    run literalExpr (c :: s) = none := by
  simp [literalExpr, run_map, run_choice_cons, run_yielding, run_stringLit_none hd hs,
    run_template_none hb, run_number_none hn, run_keyword_none hw]

theorem run_primary_none [Shrinks B] {c : Char} (h : startsExpr c = false) (s : List Char) :
    run (primary d B (expression d B)) (c :: s) = none := by
  simp only [startsExpr, Bool.or_eq_false_iff, List.contains_eq_mem, List.mem_cons,
    List.not_mem_nil, or_false, not_or, decide_eq_false_iff_not] at h
  obtain ⟨⟨hw, hn⟩, hdq, hsq, hb, hp, hbk, hbr, hl, -⟩ := h
  simp [primary, run_choice_cons, run_arrowExpr_none hw hp, functionExpr, run_map,
    run_functionWith_none hw, classExpr, run_classWith_none hw, run_markupExpr_none hl,
    run_literalExpr_none hw hn hdq hsq hb, run_yielding, run_keyword_none hw,
    run_identifier_none hw, arrayExpr, run_inBrackets_none hbk, objectExpr, run_inBraces_none hbr,
    run_inParens_none hp]

theorem run_unaryOp_none {c : Char} (hw : isWordStart c = false) (hn : c ≠ '!') (hm : c ≠ '-')
    (hp : c ≠ '+') (s : List Char) : run unaryOp (c :: s) = none := by
  simp [unaryOp, run_choice_cons, run_yielding, run_sym_none "!" rfl hn, run_sym_none "-" rfl hm,
    run_sym_none "+" rfl hp, run_keyword_none hw]

theorem run_newExpr_none {E : Parser Expr} {c : Char} (h : isWordStart c = false) (s : List Char) :
    run (newExpr d B E) (c :: s) = none := by
  simp [newExpr, run_both, run_skipThen, run_keyword_none h]

/-- No level reads anything where no expression starts. -/
theorem run_levelRule_none [Shrinks B] {c : Char} (h : startsExpr c = false) (i : Nat)
    (s : List Char) : run (levelRule d B i) (c :: s) = none := by
  refine run_levelRule_none_of_primary ?_ (run_primary_none h s) i
  simp only [startsExpr, Bool.or_eq_false_iff, List.contains_eq_mem, List.mem_cons,
    List.not_mem_nil, or_false, not_or, decide_eq_false_iff_not] at h
  obtain ⟨⟨hw, -⟩, -, -, -, -, -, -, -, hnot, hminus, hplus⟩ := h
  exact ⟨fun _ => run_unaryOp_none hw hnot hminus hplus s, fun _ => run_newExpr_none hw s⟩

/-! ## Words -/

theorem ne_of_isWordStart {c x : Char} (hc : isWordStart c = true) (hx : isWordStart x = false) :
    c ≠ x := by
  rintro rfl
  simp [hc] at hx

/-- What the first token of an operand is decided by: a text that starts with a word. -/
theorem exists_of_isIdentifier {w : String} (h : isIdentifier w = true) :
    ∃ c cs, w.toList = c :: cs ∧ isWordStart c = true := by
  unfold isIdentifier at h
  cases hw : w.toList with
  | nil => simp [hw] at h
  | cons c cs =>
    simp only [hw, Bool.and_eq_true] at h
    exact ⟨c, cs, rfl, h.1⟩

/-- A text that starts with a word has nothing to skip. -/
theorem skip_wordStart {c : Char} (h : isWordStart c = true) (s : List Char) :
    skip (c :: s) = c :: s := by
  have hblank : isBlank c = false := by
    rw [← Bool.not_eq_true]
    intro hb
    simp [isWordStart_of_isBlank hb] at h
  exact skip_cons hblank (ne_of_isWordStart h (by decide)) s

theorem skip_identifier {w : String} (h : isIdentifier w = true) (rest : List Char) :
    skip (w.toList ++ rest) = w.toList ++ rest := by
  obtain ⟨c, cs, hc, hstart⟩ := exists_of_isIdentifier h
  rw [hc]
  exact skip_wordStart hstart (cs ++ rest)

theorem run_keyword_word {w : String} {rest : List Char} (hw : isIdentifier w = true)
    (hend : endsWord rest = true) (text : String) :
    run (keyword text) (w.toList ++ rest) = if w = text then some ((), skip rest) else none := by
  simp [run_keyword, run_rawWord_append hw hend]

/-- What stands behind an operand does not turn it into the start of an arrow function: neither its
name, nor `async` before it, nor parameters in parentheses. -/
structure Quiet (d : Dialect) (B : Parser (List Stmt)) (r : List Char) : Prop where
  arrow : run ((ascription d).thenSkip (sym "=>")) r = none
  asyncArrow : run ((((params d (expression d B)).orElse
    (identifier.map fun name => [Pattern.ident name])).thenSkip (ascription d)).thenSkip
      (sym "=>")) r = none
  asyncFunction : run (keyword "function") r = none

/-- Parameters and their annotation without an arrow behind them are no arrow function. -/
theorem run_arrowExpr_of_head {E : Parser Expr} {s t : List Char} {isAsync : Bool}
    (hmark : run asyncMark s = some (isAsync, t))
    (h : run ((((params d E).orElse (identifier.map fun name => [Pattern.ident name])).thenSkip
      (ascription d)).thenSkip (sym "=>")) t = none) :
    run (arrowExpr d B E) s = none := by
  simp only [run_thenSkip] at h
  simp only [arrowExpr, run_both, run_thenSkip, run_seq, hmark, Option.bind_some]
  cases hhead : run ((params d E).orElse (identifier.map fun name => [Pattern.ident name])) t with
  | none => rfl
  | some x =>
    simp only [hhead, Option.bind_some, Option.map_some] at h ⊢
    cases hasc : run (ascription d) x.2 with
    | none => rfl
    | some y =>
      simp only [hasc, Option.bind_some, Option.map_some] at h ⊢
      cases harrow : run (sym "=>") y.2 with
      | none => rfl
      | some z => simp [harrow] at h

theorem run_asyncMark_word {w : String} {rest : List Char} (hw : isIdentifier w = true)
    (hend : endsWord rest = true) :
    run asyncMark (w.toList ++ rest) =
      if w = "async" then some (true, skip rest) else some (false, w.toList ++ rest) := by
  simp only [asyncMark, run_map]
  split
  · rename_i hasync
    subst hasync
    rw [run_optional_some (run_keyword_append hw hend)]
    rfl
  · rename_i hasync
    rw [run_optional_none (run_keyword_other hw hend hasync)]
    rfl

theorem run_params_word {E : Parser Expr} {w : String} (hw : isIdentifier w = true)
    (rest : List Char) : run (params d E) (w.toList ++ rest) = none := by
  obtain ⟨c, cs, hc, hstart⟩ := exists_of_isIdentifier hw
  rw [hc, params, List.cons_append, run_inParens_none (ne_of_isWordStart hstart (by decide))]

/-- A name that no arrow follows is no arrow function, and neither is a reserved word. -/
theorem run_arrowExpr_word {w : String} {rest : List Char} (hw : isIdentifier w = true)
    (hend : endsWord rest = true) (hq : Quiet d B (skip rest)) :
    run (arrowExpr d B (expression d B)) (w.toList ++ rest) = none := by
  have hmark := run_asyncMark_word hw hend
  by_cases hasync : w = "async"
  · rw [if_pos hasync] at hmark
    exact run_arrowExpr_of_head hmark hq.asyncArrow
  · rw [if_neg hasync] at hmark
    refine run_arrowExpr_of_head hmark ?_
    have harrow := hq.arrow
    simp only [run_thenSkip, run_orElse, run_params_word hw, run_map, run_identifier,
      run_rawWord_append hw hend, Option.bind_some, Option.none_or] at harrow ⊢
    split
    · rfl
    · simp only [Option.map_some, Option.bind_some]
      cases hasc : run (ascription d) (skip rest) with
      | none => rfl
      | some x =>
        simp only [hasc, Option.bind_some, Option.map_eq_none_iff] at harrow
        simp [harrow]

theorem run_functionWith_word {α : Type} {name : Parser α} {E : Parser Expr} {w : String}
    {rest : List Char} (hw : isIdentifier w = true) (hend : endsWord rest = true)
    (hne : w ≠ "function") (hasync : w = "async" → run (keyword "function") (skip rest) = none) :
    run (functionWith name d E B) (w.toList ++ rest) = none := by
  simp only [functionWith, run_both, run_seq, run_thenSkip, run_asyncMark_word hw hend]
  split
  · rename_i h
    simp [hasync h]
  · simp [run_keyword_other hw hend hne]

theorem run_classWith_word {α : Type} {name : Parser α} {E : Parser Expr} {w : String}
    {rest : List Char} (hw : isIdentifier w = true) (hend : endsWord rest = true)
    (hne : w ≠ "class") : run (classWith name d E B) (w.toList ++ rest) = none := by
  simp [classWith, run_seq, run_skipThen, run_keyword_other hw hend hne]

/-- The literals that are words. -/
def wordLiteral (w : String) : Option Literal :=
  if w = "true" then some (.bool true)
  else if w = "false" then some (.bool false)
  else if w = "null" then some .null
  else none

theorem run_literalExpr_word {w : String} {rest : List Char} (hw : isIdentifier w = true)
    (hend : endsWord rest = true) :
    run literalExpr (w.toList ++ rest) = (wordLiteral w).map fun l => (.lit l, skip rest) := by
  obtain ⟨c, cs, hc, hstart⟩ := exists_of_isIdentifier hw
  have hstring : run stringLit (w.toList ++ rest) = none := by
    rw [hc, List.cons_append, run_stringLit_none (ne_of_isWordStart hstart (by decide))
      (ne_of_isWordStart hstart (by decide))]
  have htemplate : run template (w.toList ++ rest) = none := by
    rw [hc, List.cons_append, run_template_none (ne_of_isWordStart hstart (by decide))]
  have hnumber : run number (w.toList ++ rest) = none := by
    rw [hc, List.cons_append, run_number_none]
    cases hd : c.isDigit with
    | false => rfl
    | true => simp [isWordStart_of_isDigit hd] at hstart
  simp only [literalExpr, run_map, run_choice_cons, run_choice_nil, run_yielding, hstring, htemplate,
    hnumber, run_keyword_word hw hend, wordLiteral, Option.map_none, Option.none_or]
  repeat' split
  all_goals rfl

/-- An operand that is one word: a constant or a name. -/
def wordOperand (w : String) : Option Expr :=
  match wordLiteral w with
  | some l => some (.lit l)
  | none => if w = "this" then some .this else if isReserved w then none else some (.ident w)

theorem wordOperand_of_isName {w : String} (h : isName w = true) :
    wordOperand w = some (.ident w) := by
  simp only [isName, Bool.and_eq_true, Bool.not_eq_true'] at h
  have hne : ∀ word, isReserved word = true → w ≠ word := by
    rintro word hword rfl
    simp [h.2] at hword
  simp [wordOperand, wordLiteral, hne "true" (by decide), hne "false" (by decide),
    hne "null" (by decide), hne "this" (by decide), h.2]

/-- A word is an operand by itself where neither an arrow nor a function goes on behind it. -/
theorem run_primary_word [Shrinks B] {w : String} {rest : List Char} {e : Expr}
    (hw : isIdentifier w = true) (he : wordOperand w = some e) (hend : endsWord rest = true)
    (hq : Quiet d B (skip rest)) :
    run (primary d B (expression d B)) (w.toList ++ rest) = some (e, skip rest) := by
  have hfun : w ≠ "function" := by
    rintro rfl
    simp [wordOperand, wordLiteral, isReserved, reservedWords] at he
  have hclass : w ≠ "class" := by
    rintro rfl
    simp [wordOperand, wordLiteral, isReserved, reservedWords] at he
  have hmarkup : run (markupExpr d (expression d B)) (w.toList ++ rest) = none := by
    obtain ⟨c, cs, hc, hstart⟩ := exists_of_isIdentifier hw
    rw [hc, List.cons_append, run_markupExpr_none (ne_of_isWordStart hstart (by decide))]
  simp only [primary, run_choice_cons, run_arrowExpr_word hw hend hq, functionExpr, run_map,
    run_functionWith_word hw hend hfun fun _ => hq.asyncFunction, classExpr,
    run_classWith_word hw hend hclass, hmarkup, run_literalExpr_word hw hend, run_yielding,
    run_keyword_word hw hend, run_identifier, run_rawWord_append hw hend, Option.map_none,
    Option.none_or]
  simp only [wordOperand] at he
  split at he
  · rename_i l hl
    simp_all
  · rename_i hl
    simp only [hl, Option.map_none, Option.none_or]
    split at he
    · rename_i hthis
      simp_all
    · rename_i hthis
      split at he
      · simp at he
      · rename_i hreserved
        simp_all

/-! ## Other operands -/

/-- An operand that starts with neither a word nor a tag is a literal or stands in brackets. -/
theorem run_primary_cons [Shrinks B] {c : Char} {s : List Char} (hw : isWordStart c = false)
    (hl : c ≠ '<') (harrow : run (arrowExpr d B (expression d B)) (c :: s) = none) :
    run (primary d B (expression d B)) (c :: s) =
      (run literalExpr (c :: s)).or ((run (arrayExpr (expression d B)) (c :: s)).or
        ((run (objectExpr (expression d B)) (c :: s)).or
          (run (inParens (expression d B)) (c :: s)))) := by
  simp [primary, run_choice_cons, harrow, functionExpr, run_map, run_functionWith_none hw,
    classExpr, run_classWith_none hw, run_markupExpr_none hl, run_yielding, run_keyword_none hw,
    run_identifier_none hw]

theorem run_primary_string [Shrinks B] {lit : StringLit} {raw : String} (h : IsSpelled lit)
    (hraw : lit.raw = some raw) (rest : List Char) :
    run (primary d B (expression d B)) (raw.toList ++ rest) =
      some (.lit (.string lit), skip rest) := by
  have hread := run_stringLit_append h hraw rest
  obtain ⟨q, body, hq, -, hspelled, -⟩ := h
  obtain ⟨w, hw⟩ : ∃ w, raw.toList ++ rest = q :: w := by
    rw [hraw, Option.some.injEq] at hspelled
    exact ⟨body ++ q :: rest, by simp [hspelled]⟩
  have hlit : run literalExpr (raw.toList ++ rest) = some (.lit (.string lit), skip rest) := by
    simp [literalExpr, run_map, run_choice_cons, hread]
  have hword : isWordStart q = false := by rcases hq with rfl | rfl <;> decide
  have htag : q ≠ '<' := by rcases hq with rfl | rfl <;> decide
  have hparen : q ≠ '(' := by rcases hq with rfl | rfl <;> decide
  rw [hw] at hlit ⊢
  rw [run_primary_cons hword htag (run_arrowExpr_none hword hparen w), hlit]
  rfl

theorem run_primary_template [Shrinks B] {raw : String} (h : isTemplateText raw = true)
    (rest : List Char) :
    run (primary d B (expression d B)) (backquote :: (raw.toList ++ backquote :: rest)) =
      some (.lit (.template raw), skip rest) := by
  have hlit : run literalExpr (backquote :: (raw.toList ++ backquote :: rest)) =
      some (.lit (.template raw), skip rest) := by
    simp [literalExpr, run_map, run_choice_cons, run_template_append h,
      run_stringLit_none (show backquote ≠ '"' by decide) (show backquote ≠ '\'' by decide)]
  rw [run_primary_cons (by decide) (by decide) (run_arrowExpr_none (by decide) (by decide) _), hlit]
  rfl

/-- A digit starts no other operand than a numeral. -/
theorem run_primary_number [Shrinks B] {text : String} {rest : List Char} (h : IsNumeral text)
    (hrest : endsNumber rest = true) :
    run (primary d B (expression d B)) (text.toList ++ rest) =
      some (.lit (.number text), skip rest) := by
  have hread := run_number_append h hrest
  obtain ⟨c, w, hw, hc⟩ : ∃ c w, text.toList ++ rest = c :: w ∧ c.isDigit = true := by
    obtain ⟨whole, hdigits, htext⟩ := h
    cases whole with
    | nil => simp [isDigits] at hdigits
    | cons c whole =>
      simp only [isDigits, List.all_cons, Bool.and_eq_true] at hdigits
      rcases htext with htext | ⟨fraction, -, htext⟩
      · exact ⟨c, whole ++ rest, by simp [htext], hdigits.2.1⟩
      · exact ⟨c, whole ++ '.' :: fraction ++ rest, by simp [htext], hdigits.2.1⟩
  have hword := isWordStart_of_isDigit hc
  have hne : ∀ x : Char, x.isDigit = false → c ≠ x := by
    rintro x hx rfl
    simp [hc] at hx
  rw [hw] at hread ⊢
  have hlit : run literalExpr (c :: w) = some (.lit (.number text), skip rest) := by
    simp [literalExpr, run_map, run_choice_cons, run_stringLit_none (hne '"' (by decide))
      (hne '\'' (by decide)), run_template_none (hne backquote (by decide)), hread]
  rw [run_primary_cons hword (hne '<' (by decide))
    (run_arrowExpr_none hword (hne '(' (by decide)) w), hlit]
  rfl

theorem run_primary_array [Shrinks B] {s r : List Char} {elems : List Argument}
    (h : run (inBrackets (sepByTrailing (sym ",") (argument (expression d B)))) ('[' :: s) =
      some (elems, r)) :
    run (primary d B (expression d B)) ('[' :: s) = some (.array elems, r) := by
  rw [run_primary_cons (by decide) (by decide) (run_arrowExpr_none (by decide) (by decide) s),
    run_literalExpr_none (by decide) (by decide) (by decide) (by decide) (by decide)]
  simp [arrayExpr, run_map, h]

theorem run_primary_parens [Shrinks B] {s r : List Char} {e : Expr}
    (harrow : run (arrowExpr d B (expression d B)) ('(' :: s) = none)
    (h : run (inParens (expression d B)) ('(' :: s) = some (e, r)) :
    run (primary d B (expression d B)) ('(' :: s) = some (e, r) := by
  rw [run_primary_cons (by decide) (by decide) harrow,
    run_literalExpr_none (by decide) (by decide) (by decide) (by decide) (by decide)]
  simp [arrayExpr, run_map, run_inBrackets_none, objectExpr, run_inBraces_none, h]

end TsxCompiler.Grammar

import TsxCompiler.Print.Module
import TsxCompiler.Proofs.ExpressionModules
import TsxCompiler.Proofs.ScanModes

/-!
# Arrow functions in conditionals

Where types are read, a name may have an annotation and then an arrow behind it. An expression is
tried as an arrow function first, so the colon of a conditional is taken for the colon of an
annotation whenever an arrow function stands behind it: `a ? b : c => d` is a conditional without
types, and with them it is no module at all (`parse_conditionalArrow`).
-/

namespace TsxCompiler.Grammar

open Peg Peg.Parser Text

variable {d : Dialect} {B : Parser (List Stmt)}

/-! ## Names -/

/-- A name that is no operator and does not announce a function. -/
structure PlainName (w : String) : Prop where
  name : isName w = true
  await : w ≠ "await"
  async : w ≠ "async"

namespace PlainName

variable {w : String} {rest : List Char}

theorem shape (hw : PlainName w) : isIdentifier w = true :=
  (Bool.and_eq_true_iff.1 hw.name).1

theorem skip_append (hw : PlainName w) (s : List Char) : skip (w.toList ++ s) = w.toList ++ s :=
  skip_identifier hw.shape s

theorem skip_eq (hw : PlainName w) : skip w.toList = w.toList := by
  have hskip := hw.skip_append []
  rwa [List.append_nil] at hskip

/-- A name is read as one by every level that does not go on behind it. -/
theorem run_levelRule [Shrinks B] {k : Nat} (hw : PlainName w) (hk : k ≤ 11)
    (hend : endsWord rest = true) (hquiet : Quiet d B (skip rest))
    (hhalts : Halts d B k (skip rest)) :
    run (levelRule d B k) (w.toList ++ rest) = some (.ident w, skip rest) := by
  have hoperand := wordOperand_of_isName hw.name
  exact run_levelRule_of_le hk (Nat.le_refl 11) (run_primary_word hw.shape hoperand hend hquiet)
    (Printed.opens_word hw.shape hoperand hw.await hend) hhalts

/-- A name that an arrow follows is the parameter of an arrow function, with or without an
annotation between them. -/
theorem run_arrow [Shrinks B] {t r : List Char} {c : Char} {body : Expr} {k : Nat}
    (hw : PlainName w) (hk : k ≤ 11) (hend : endsWord rest = true)
    (hhead : run ((ascription d).thenSkip (sym "=>")) (skip rest) = some ((), c :: t))
    (hbrace : c ≠ '\x7b') (hblock : run B (c :: t) = none)
    (hbody : run (expression d B) (c :: t) = some (body, r)) (hhalts : Halts d B k r) :
    run (levelRule d B k) (w.toList ++ rest) =
      some (.arrow false [.ident w] (.expr body), r) := by
  have hoperand := wordOperand_of_isName hw.name
  have hname := run_identifier_append hw.name hend
  have harrow : run (arrowExpr d B (expression d B)) (w.toList ++ rest) =
      some (.arrow false [.ident w] (.expr body), r) := by
    obtain ⟨u, t', hasc, hsym⟩ := run_thenSkip_inv hhead
    simp [arrowExpr, run_both, run_thenSkip, run_seq, run_asyncMark_word hw.shape hend, hw.async,
      run_orElse, run_params_word hw.shape, run_map, hname, hasc, hsym, arrowBody, hblock,
      run_skipThen, run_peek, run_satisfy_cons, hbrace, hbody]
  have hprimary : run (levelRule d B 11) (w.toList ++ rest) =
      some (.arrow false [.ident w] (.expr body), r) := by
    change run (primary d B (expression d B)) (w.toList ++ rest) = _
    simp [primary, run_choice_cons, harrow]
  exact run_levelRule_of_le hk (Nat.le_refl 11) hprimary
    (Printed.opens_word hw.shape hoperand hw.await hend) hhalts

end PlainName

/-! ## Annotations -/

section Types

variable {w : String} {rest t : List Char}

/-- A word that no point and no type arguments follow is a reference. -/
theorem run_typeReference_word (hw : isIdentifier w = true) (hend : endsWord rest = true)
    (hrest : skip rest = '=' :: t) :
    run (typeReference typeExpr) (w.toList ++ rest) = some ((), '=' :: t) := by
  have hword := run_word_append hw hend
  rw [hrest] at hword
  have hpoint : run (sym ".") ('=' :: t) = none := run_sym_none "." rfl (by decide) t
  have hangle : run (sym "<") ('=' :: t) = none := run_sym_none "<" rfl (by decide) t
  have hargs : run (typeArgs typeExpr) ('=' :: t) = none := by
    simp [typeArgs, forget, run_yielding, inAngles, between, run_thenSkip, run_skipThen, hangle]
  simp [typeReference, forget, run_yielding, run_seq, run_sepBy1, hword, runFollowers_none hpoint,
    run_optional_none hargs]

theorem run_primaryType_word (hw : isIdentifier w = true) (hend : endsWord rest = true)
    (hrest : skip rest = '=' :: t) :
    run (primaryType typeExpr) (w.toList ++ rest) = some ((), '=' :: t) := by
  have hparen : run (sym "(") (w.toList ++ rest) = none := run_sym_word rfl (by decide) hw rest
  have hbrace : run (sym "\x7b") (w.toList ++ rest) = none := run_sym_word rfl (by decide) hw rest
  have hbracket : run (sym "[") (w.toList ++ rest) = none := run_sym_word rfl (by decide) hw rest
  -- of the kinds of types only a reference starts with a word
  have hliteral : run literalType (w.toList ++ rest) = none := by
    obtain ⟨c, cs, hc, hstart⟩ := exists_of_isIdentifier hw
    have hdigit : c.isDigit = false := by
      rw [← Bool.not_eq_true]
      intro hd
      simp [isWordStart_of_isDigit hd] at hstart
    have hdouble : c ≠ '"' := ne_of_isWordStart hstart (by decide)
    have hsingle : c ≠ '\'' := ne_of_isWordStart hstart (by decide)
    rw [hc, List.cons_append]
    simp [literalType, run_orElse, forget, run_yielding, run_number_none hdigit,
      run_stringLit_none hdouble hsingle]
  simp [primaryType, run_choice_cons, functionType, parenType, objectType, tupleType, forget,
    run_yielding, run_seq, inParens, inBraces, inBrackets, between, run_thenSkip, run_skipThen,
    hparen, hbrace, hbracket, hliteral, run_typeReference_word hw hend hrest]

/-- A word in front of an arrow is a whole type. -/
theorem run_typeExpr_word (hw : isIdentifier w = true) (hend : endsWord rest = true)
    (hrest : skip rest = '=' :: t) : run typeExpr (w.toList ++ rest) = some ((), '=' :: t) := by
  have hbracket : run ((sym "[").seq (sym "]")) ('=' :: t) = none := by
    have hopen : run (sym "[") ('=' :: t) = none := run_sym_none "[" rfl (by decide) t
    simp [run_seq, hopen]
  have harray : run (arrayType typeExpr) (w.toList ++ rest) = some ((), '=' :: t) := by
    simp [arrayType, forget, run_yielding, run_seq, run_primaryType_word hw hend hrest,
      run_many_none hbracket]
  have hbar : run (sym "|") (w.toList ++ rest) = none := run_sym_word rfl (by decide) hw rest
  have hunion : run ((sym "|").orElse (sym "&")) ('=' :: t) = none := by
    have hor : run (sym "|") ('=' :: t) = none := run_sym_none "|" rfl (by decide) t
    have hand : run (sym "&") ('=' :: t) = none := run_sym_none "&" rfl (by decide) t
    simp [run_orElse, hor, hand]
  rw [run_typeExpr]
  simp [typeBody, forget, run_yielding, run_skipThen, run_optional_none hbar, run_sepBy1, harray,
    runFollowers_none hunion]

end Types

/-! ## Conditionals -/

/-- `test ? cons : param => body` -/
def conditionalArrow (test cons param body : String) : String :=
  test ++ " ? " ++ cons ++ " : " ++ param ++ " => " ++ body

/-- The arrow function from its parameter on. -/
def arrowText (param body : String) : List Char :=
  param.toList ++ ' ' :: '=' :: '>' :: ' ' :: body.toList

theorem toList_conditionalArrow (test cons param body : String) :
    (conditionalArrow test cons param body).toList =
      test.toList ++ ' ' :: '?' :: ' ' :: (cons.toList ++ ' ' :: ':' :: ' ' ::
        arrowText param body) := by
  simp [conditionalArrow, arrowText]

section Conditionals

variable {test cons param body : String} (htest : PlainName test) (hcons : PlainName cons)
  (hparam : PlainName param) (hbody : PlainName body)

include hbody in
/-- A name in front of an arrow and the body, whatever annotation stands between. -/
theorem run_expression_arrow {w : String} {rest : List Char} (hw : PlainName w)
    (hend : endsWord rest = true)
    (hhead : run ((ascription d).thenSkip (sym "=>")) (skip rest) = some ((), body.toList)) :
    run (expression d (blockOf (statement d))) (w.toList ++ rest) =
      some (.arrow false [.ident w] (.expr (.ident body)), []) := by
  have hread : run (levelRule d (blockOf (statement d)) 0) (body.toList ++ []) =
      some (.ident body, skip []) :=
    hbody.run_levelRule (Nat.zero_le 11) rfl (by rw [skip_nil]; exact quiet_nil)
      (by rw [skip_nil]; exact halts_nil)
  rw [List.append_nil, skip_nil] at hread
  obtain ⟨c, cs, hc, hstart⟩ := exists_of_isIdentifier hbody.shape
  have hbrace : c ≠ '\x7b' := ne_of_isWordStart hstart (by decide)
  rw [hc] at hread hhead
  exact hw.run_arrow (Nat.zero_le 11) hend hhead hbrace (run_inBraces_none hbrace cs) hread
    halts_nil

include hparam hbody in
/-- Without types, only an arrow can make a parameter of a name. -/
theorem run_expression_arrowText {m : Bool} :
    run (expression ⟨.ecmaScript, m⟩ (blockOf (statement ⟨.ecmaScript, m⟩)))
      (arrowText param body) = some (.arrow false [.ident param] (.expr (.ident body)), []) := by
  refine run_expression_arrow hbody hparam rfl ?_
  have hread := run_sym_append "=>" (' ' :: body.toList)
  rw [skip_blank (by decide), hbody.skip_eq] at hread
  rw [skip_blank (by decide), skip_cons (by decide) (by decide)]
  change run ((succeed ()).thenSkip (sym "=>")) _ = _
  rw [run_thenSkip, run_succeed]
  simpa using hread

include hparam hbody in
/-- With types, a colon in front of an arrow function starts an annotation. -/
theorem run_ascription_arrowText {m : Bool} :
    run ((ascription ⟨.typeScript, m⟩).thenSkip (sym "=>")) (':' :: ' ' :: arrowText param body) =
      some ((), body.toList) := by
  have hcolon := run_sym_append ":" (' ' :: arrowText param body)
  rw [skip_blank (by decide), arrowText, hparam.skip_append] at hcolon
  have htype : run typeExpr (param.toList ++ ' ' :: '=' :: '>' :: ' ' :: body.toList) =
      some ((), '=' :: '>' :: ' ' :: body.toList) :=
    run_typeExpr_word hparam.shape rfl
      (by rw [skip_blank (by decide), skip_cons (by decide) (by decide)])
  have hannotation : run (ascription ⟨.typeScript, m⟩) (':' :: ' ' :: arrowText param body) =
      some ((), '=' :: '>' :: ' ' :: body.toList) := by
    change run typeAscription (":".toList ++ _) = _
    rw [typeAscription, forget, run_yielding, run_optional, run_skipThen, arrowText, hcolon]
    simp [htype]
  have harrow := run_sym_append "=>" (' ' :: body.toList)
  rw [skip_blank (by decide), hbody.skip_eq] at harrow
  rw [run_thenSkip, hannotation]
  simp [show run (sym "=>") ('=' :: '>' :: ' ' :: body.toList) = _ from harrow]

include htest in
/-- The levels of an expression behind its first name, up to the question mark. -/
theorem run_nullish_test (s : List Char) :
    run (nullish d (blockOf (statement d)) (expression d (blockOf (statement d))))
      (test.toList ++ ' ' :: '?' :: ' ' :: s) = some (.ident test, '?' :: ' ' :: s) := by
  have hskip : skip (' ' :: '?' :: ' ' :: s) = '?' :: ' ' :: s := by
    rw [skip_blank (by decide), skip_cons (by decide) (by decide)]
  have harrow : run (sym "=>") ('?' :: ' ' :: s) = none := run_sym_none "=>" rfl (by decide) _
  have hread : run (levelRule d (blockOf (statement d)) 2) (test.toList ++ ' ' :: '?' :: ' ' :: s) =
      some (.ident test, skip (' ' :: '?' :: ' ' :: s)) := by
    refine htest.run_levelRule (by omega) rfl ?_ ?_
    · rw [hskip]
      exact quiet_of_char (by decide) (by decide) (by decide) harrow
    · rw [hskip]
      exact halts_question s
  rwa [hskip] at hread

include htest in
/-- An expression that starts with a name and a question mark is a statement of its own. -/
theorem run_moduleItem_test {s r : List Char} {e : Expr}
    (h : run (expression d (blockOf (statement d))) (test.toList ++ ' ' :: '?' :: s) = some (e, r))
    (hr : run (sym ";") r = none) :
    run (moduleItem d) (test.toList ++ ' ' :: '?' :: s) = some (.stmt (.expr e), r) := by
  have hrest : skip (' ' :: '?' :: s) = '?' :: s := by
    rw [skip_blank (by decide), skip_cons (by decide) (by decide)]
  have hstmt : run (statement d) (test.toList ++ ' ' :: '?' :: s) = some (.expr e, r) := by
    rw [run_statement_name htest.name rfl hrest (by decide) (by decide) (by decide)]
    simp [run_map, run_thenSkip, h, terminator, run_yielding, run_optional_none hr]
  have hother : ∀ x, isReserved x = true →
      run (keyword x) (test.toList ++ ' ' :: '?' :: s) = none := fun x hx =>
    run_keyword_other htest.shape rfl (ne_of_isName htest.name hx)
  exact run_moduleItem_stmt (hother _ (by decide)) (hother _ (by decide)) hstmt

include hcons in
theorem run_question (s : List Char) :
    run (sym "?") ('?' :: ' ' :: (cons.toList ++ s)) = some ((), cons.toList ++ s) := by
  have hread := run_sym_append "?" (' ' :: (cons.toList ++ s))
  rwa [skip_blank (by decide), hcons.skip_append] at hread

include hparam in
theorem run_colon (s : List Char) :
    run (sym ":") (':' :: ' ' :: (param.toList ++ s)) = some ((), param.toList ++ s) := by
  have hread := run_sym_append ":" (' ' :: (param.toList ++ s))
  rwa [skip_blank (by decide), hparam.skip_append] at hread

include hcons hparam hbody in
/-- Without types, the colon ends the first branch and the arrow function is the second one. -/
theorem run_branches (m : Bool) :
    run ((((sym "?").skipThen (expression ⟨.ecmaScript, m⟩ (blockOf (statement ⟨.ecmaScript, m⟩)))).thenSkip
        (sym ":")).seq (expression ⟨.ecmaScript, m⟩ (blockOf (statement ⟨.ecmaScript, m⟩))))
      ('?' :: ' ' :: (cons.toList ++ ' ' :: ':' :: ' ' :: arrowText param body)) =
        some ((.ident cons, .arrow false [.ident param] (.expr (.ident body))), []) := by
  have hskip : skip (' ' :: ':' :: ' ' :: arrowText param body) =
      ':' :: ' ' :: arrowText param body := by
    rw [skip_blank (by decide), skip_cons (by decide) (by decide)]
  have hfirst : run (levelRule ⟨.ecmaScript, m⟩ (blockOf (statement ⟨.ecmaScript, m⟩)) 0)
      (cons.toList ++ ' ' :: ':' :: ' ' :: arrowText param body) =
        some (.ident cons, skip (' ' :: ':' :: ' ' :: arrowText param body)) := by
    refine hcons.run_levelRule (Nat.zero_le 11) rfl ?_ ?_
    · rw [hskip]
      refine quiet_colon ?_
      change run ((succeed ()).thenSkip (sym "=>")) _ = none
      simp [run_thenSkip, run_sym_none "=>" rfl (show ':' ≠ '=' by decide)]
    · rw [hskip]
      exact halts_of_char (by decide) _
  rw [hskip] at hfirst
  have hcolon := run_colon hparam (' ' :: '=' :: '>' :: ' ' :: body.toList)
  have hsecond := run_expression_arrowText hparam hbody (m := m)
  rw [run_seq, run_thenSkip, run_skipThen, run_question hcons]
  simp only [levelRule] at hfirst
  simp only [arrowText] at hfirst hsecond ⊢
  simp [hfirst, hcolon, hsecond]

include hcons hparam hbody in
/-- With types, the first branch takes the rest of the text, and no colon is left. -/
theorem run_branches_typed (m : Bool) :
    run ((((sym "?").skipThen (expression ⟨.typeScript, m⟩ (blockOf (statement ⟨.typeScript, m⟩)))).thenSkip
        (sym ":")).seq (expression ⟨.typeScript, m⟩ (blockOf (statement ⟨.typeScript, m⟩))))
      ('?' :: ' ' :: (cons.toList ++ ' ' :: ':' :: ' ' :: arrowText param body)) = none := by
  have hfirst : run (expression ⟨.typeScript, m⟩ (blockOf (statement ⟨.typeScript, m⟩)))
      (cons.toList ++ ' ' :: ':' :: ' ' :: arrowText param body) =
        some (.arrow false [.ident cons] (.expr (.ident body)), []) := by
    refine run_expression_arrow hbody hcons rfl ?_
    rw [skip_blank (by decide), skip_cons (by decide) (by decide)]
    exact run_ascription_arrowText hparam hbody
  rw [run_seq, run_thenSkip, run_skipThen, run_question hcons]
  simp [hfirst]

include htest hcons hparam hbody in
/-- Without types, the colon of the conditional is followed by the second branch, an arrow. -/
theorem run_program_conditionalArrow (m : Bool) :
    run (program ⟨.ecmaScript, m⟩) (conditionalArrow test cons param body).toList =
      some (⟨[.stmt (.expr (.cond (.ident test) (.ident cons)
        (.arrow false [.ident param] (.expr (.ident body)))))]⟩, []) := by
  have hexpr : run (expression ⟨.ecmaScript, m⟩ (blockOf (statement ⟨.ecmaScript, m⟩)))
      (test.toList ++ ' ' :: '?' :: ' ' :: (cons.toList ++ ' ' :: ':' :: ' ' ::
        arrowText param body)) =
        some (.cond (.ident test) (.ident cons)
          (.arrow false [.ident param] (.expr (.ident body))), []) := by
    have hassign : run (assignOp.seq (expression ⟨.ecmaScript, m⟩
        (blockOf (statement ⟨.ecmaScript, m⟩)))) [] = none := by
      simp [run_seq, assignOp, run_choice_cons, run_yielding]
    rw [run_expression]
    simp [expressionBody, conditional, run_both, run_nullish_test htest,
      run_optional_some (run_branches hcons hparam hbody m), run_optional_none hassign]
  rw [toList_conditionalArrow]
  exact run_program_item (htest.skip_append _) (run_moduleItem_test htest hexpr (by simp))

include htest hcons hparam hbody in
/-- With types, only the test is left to read as an expression, and no item of a module starts with
the question mark behind it. -/
theorem run_program_conditionalArrow_typed (m : Bool) :
    run (program ⟨.typeScript, m⟩) (conditionalArrow test cons param body).toList = none := by
  have hexpr : run (expression ⟨.typeScript, m⟩ (blockOf (statement ⟨.typeScript, m⟩)))
      (test.toList ++ ' ' :: '?' :: ' ' :: (cons.toList ++ ' ' :: ':' :: ' ' ::
        arrowText param body)) =
        some (.ident test, '?' :: ' ' :: (cons.toList ++ ' ' :: ':' :: ' ' ::
          arrowText param body)) := by
    have hassign : ∀ s, run (assignOp.seq (expression ⟨.typeScript, m⟩
        (blockOf (statement ⟨.typeScript, m⟩)))) ('?' :: ' ' :: s) = none := by
      intro s
      simp [run_seq, assignOp, run_choice_cons, run_yielding, run_sym, run_chars_cons,
        run_char_cons]
    rw [run_expression]
    simp [expressionBody, conditional, run_both, run_nullish_test htest,
      run_optional_none (run_branches_typed hcons hparam hbody m), run_optional_none (hassign _)]
  rw [toList_conditionalArrow]
  refine run_program_none (htest.skip_append _)
    (run_moduleItem_test htest hexpr (run_sym_none ";" rfl (by decide) _)) ?_
  exact run_moduleItem_none (by decide) (by decide) _

end Conditionals

end TsxCompiler.Grammar

/-! ## Depth -/

namespace TsxCompiler.Nesting

/-- Characters that neither open a bracket or an element nor hide one. -/
def isFlat (c : Char) : Bool :=
  ! (['(', '[', '\x7b', '<', '/', '\'', '"', '\x60'].contains c)

theorem isFlat_of_isWordPart {c : Char} (h : Text.isWordPart c = true) : isFlat c = true := by
  have hall : (['(', '[', '\x7b', '<', '/', '\'', '"', '\x60'].all fun x => !Text.isWordPart x) =
      true := by
    decide
  rw [List.all_eq_true] at hall
  simp only [isFlat, Bool.not_eq_true', List.contains_eq_mem, decide_eq_false_iff_not]
  intro hmem
  simpa [h] using hall c hmem

/-- A text without brackets, quotes, slashes and angles stays in code at depth zero. -/
theorem scanFrom_flat {text : List Char} (h : text.all isFlat = true) {s : State}
    (hmode : s.mode = .code) (hdepth : s.depth = 0) (index : Nat) :
    scanFrom s index text = none := by
  induction text generalizing s index with
  | nil => rfl
  | cons c text ih =>
    simp only [List.all_cons, Bool.and_eq_true] at h
    have hc := h.1
    simp only [isFlat, List.contains_eq_mem, List.mem_cons, List.not_mem_nil, or_false, not_or,
      Bool.not_eq_true', decide_eq_false_iff_not] at hc
    obtain ⟨hparen, hbracket, hbrace, hangle, hslash, hsingle, hdouble, hback⟩ := hc
    have hstep : step s c text.head? =
        { s with
          depth := depthAfter s.depth s.prev c text.head?
          prev := if Text.isBlank c then s.prev else some c } := by
      simp [step, hmode, stepCode, hslash, hangle, hsingle, hdouble, hback]
    have hafter : (step s c text.head?).depth = 0 := by
      simp [hstep, depthAfter, hdepth, hparen, hbracket, hbrace, hangle]
    have hcode : (step s c text.head?).mode = .code := by rw [hstep, ← hmode]
    rw [scanFrom]
    simp [hafter, ih h.2 hcode hafter]

end TsxCompiler.Nesting

namespace TsxCompiler

open Grammar Peg Peg.Parser

theorem excess_conditionalArrow {test cons param body : String} (htest : PlainName test)
    (hcons : PlainName cons) (hparam : PlainName param) (hbody : PlainName body) :
    Nesting.excess (conditionalArrow test cons param body).toList = none := by
  have hname : ∀ {w : String}, PlainName w → ∀ c ∈ w.toList, Nesting.isFlat c = true := by
    intro w hw c hc
    have hall := all_of_isIdentifier hw.shape
    rw [List.all_eq_true] at hall
    exact Nesting.isFlat_of_isWordPart (hall c hc)
  rw [Nesting.excess_eq_scanFrom]
  refine Nesting.scanFrom_flat ?_ rfl rfl 0
  rw [List.all_eq_true, toList_conditionalArrow, arrowText]
  intro c hc
  simp only [List.mem_append, List.mem_cons] at hc
  rcases hc with hc | rfl | rfl | rfl | hc | rfl | rfl | rfl | hc | rfl | rfl | rfl | rfl | hc
  all_goals first | exact hname ‹_› c hc | rfl

/-- A conditional between names whose second branch is an arrow function is read without types and
refused with them. -/
theorem parse_conditionalArrow (m : Bool) {test cons param body : String}
    (htest : PlainName test) (hcons : PlainName cons) (hparam : PlainName param)
    (hbody : PlainName body) :
    Program.parse ⟨.ecmaScript, m⟩ (conditionalArrow test cons param body) =
        .ok ⟨[.stmt (.expr (.cond (.ident test) (.ident cons)
          (.arrow false [.ident param] (.expr (.ident body)))))]⟩ ∧
      ∃ e, Program.parse ⟨.typeScript, m⟩ (conditionalArrow test cons param body) = .error e := by
  constructor
  · exact parse_of_run_program (excess_conditionalArrow htest hcons hparam hbody)
      (run_program_conditionalArrow htest hcons hparam hbody m)
  · cases hp : Program.parse ⟨.typeScript, m⟩ (conditionalArrow test cons param body) with
    | error e => exact ⟨e, rfl⟩
    | ok p =>
      obtain ⟨r, hr⟩ := run_program_of_parse hp
      rw [run_program_conditionalArrow_typed htest hcons hparam hbody m] at hr
      cases hr

theorem parse_conditionalArrow_names :
    Program.parse ⟨.ecmaScript, true⟩ "ready ? draw : skip => next" =
        .ok ⟨[.stmt (.expr (.cond (.ident "ready") (.ident "draw")
          (.arrow false [.ident "skip"] (.expr (.ident "next")))))]⟩ ∧
      ∃ e, Program.parse ⟨.typeScript, true⟩ "ready ? draw : skip => next" = .error e := by
  have htest : PlainName "ready" := ⟨by decide, by decide, by decide⟩
  have hcons : PlainName "draw" := ⟨by decide, by decide, by decide⟩
  have hparam : PlainName "skip" := ⟨by decide, by decide, by decide⟩
  have hbody : PlainName "next" := ⟨by decide, by decide, by decide⟩
  have htext : conditionalArrow "ready" "draw" "skip" "next" = "ready ? draw : skip => next" := by
    decide
  rw [← htext]
  exact parse_conditionalArrow true htest hcons hparam hbody

/-- A conditional that has a reading without types and none with them. -/
theorem parse_arrowBranch :
    (Program.parse ⟨.ecmaScript, false⟩ "a ? b : c => d").toOption.map Program.print =
        some "a ? b : (c) => d;\n" ∧
      (Program.parse ⟨.typeScript, false⟩ "a ? b : c => d").toOption.map Program.print = none := by
  decide +kernel

end TsxCompiler

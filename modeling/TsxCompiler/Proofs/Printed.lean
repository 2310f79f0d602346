import TsxCompiler.Proofs.Patterns

/-!
# Printed expressions

`Printed` is what the grammar does with the text of an expression, whatever stands behind it: the
level the text belongs to reads exactly that expression, operators and suffixes that follow are
added to it, and a try to read it as a pattern does no harm. Each kind of expression keeps this
invariant (see the modules on operators); here it is turned into what its readers use: reading at a
lower level, in parentheses, as an argument and as a parameter.
-/

namespace TsxCompiler.Grammar

open Peg Peg.Parser Text

variable {d : Dialect} {B : Parser (List Stmt)} {Good : List Char → Prop}

/-! ## Texts and contexts -/

/-- Characters of printed expressions that stand for nothing but themselves: no quote, no brace and
no angle, which a tag may start with. -/
def isPassed (c : Char) : Bool :=
  !isQuote c && c != '<' && c != '\x7b' && c != '\x7d'

theorem isQuote_of_isPassed {c : Char} (h : isPassed c = true) : isQuote c = false := by
  simp only [isPassed, Bool.and_eq_true, Bool.not_eq_true'] at h
  exact h.1.1.1

theorem isPassed_of_isBlank {c : Char} (h : isBlank c = true) : isPassed c = true := by
  have hne : ∀ x, isBlank x = false → c ≠ x := by
    rintro x hx rfl
    simp [h] at hx
  simp [isPassed, isQuote, hne '"' (by decide), hne '\'' (by decide), hne backquote (by decide),
    hne '<' (by decide), hne '\x7b' (by decide), hne '\x7d' (by decide)]

/-- A class of texts that keeps its members when tokens are taken from the front, and in which the
colon of a conditional never starts an annotation with an arrow behind it. -/
structure TextClass (d : Dialect) (Good : List Char → Prop) : Prop where
  cons : ∀ {c s}, isPassed c = true → Good (c :: s) → Good s
  less : ∀ {c s}, c = ' ' ∨ c = '=' → Good ('<' :: c :: s) → Good (c :: s)
  string : ∀ {lit : StringLit} {raw s}, IsSpelled lit → lit.raw = some raw →
    Good (raw.toList ++ s) → Good s
  template : ∀ {raw s}, isTemplateText raw = true →
    Good (backquote :: (raw.toList ++ backquote :: s)) → Good s
  colon : ∀ {s}, Good (' ' :: ':' :: ' ' :: s) →
    run ((ascription d).thenSkip (sym "=>")) (':' :: ' ' :: s) = none

/-- A class of texts that keeps its members whatever is taken from the front. -/
def SuffixClosed (Good : List Char → Prop) : Prop :=
  ∀ w s, Good (w ++ s) → Good s

theorem good_of_append {p : Char → Bool} (hcons : ∀ {c s}, p c = true → Good (c :: s) → Good s)
    {w s : List Char} (hw : w.all p = true) (h : Good (w ++ s)) : Good s := by
  induction w with
  | nil => exact h
  | cons c w ih =>
    simp only [List.all_cons, Bool.and_eq_true] at hw
    exact ih hw.2 (hcons hw.1 h)

theorem TextClass.append (hG : TextClass d Good) {w s : List Char} (hw : w.all isPassed = true)
    (h : Good (w ++ s)) : Good s :=
  good_of_append hG.cons hw h

/-- An operator and the blank behind it. -/
theorem TextClass.binaryOp (hG : TextClass d Good) (op : BinaryOp) {s : List Char}
    (h : Good (op.symbol.toList ++ ' ' :: s)) : Good s := by
  refine hG.cons (c := ' ') (by decide) ?_
  cases op with
  | lt => exact hG.less (.inl rfl) h
  | le => exact hG.cons (by decide) (hG.less (.inr rfl) h)
  | _ => exact hG.append (by decide) h

theorem isPassed_of_isWordPart {c : Char} (h : isWordPart c = true) : isPassed c = true := by
  have hne : ∀ x, isWordPart x = false → c ≠ x := by
    rintro x hx rfl
    simp [h] at hx
  simp [isPassed, isQuote_of_isWordPart h, hne '<' (by decide), hne '\x7b' (by decide),
    hne '\x7d' (by decide)]

theorem passed_of_isIdentifier {name : String} (h : isIdentifier name = true) :
    name.toList.all isPassed = true := by
  have hall := all_of_isIdentifier h
  rw [List.all_eq_true] at hall ⊢
  exact fun c hc => isPassed_of_isWordPart (hall c hc)

theorem passed_of_isNumeral {text : String} (h : IsNumeral text) :
    text.toList.all isPassed = true :=
  all_of_isNumeral h (fun _ hc => forall_isDigit (P := fun c => isPassed c = true) (by decide) hc)
    rfl

/-- What may stand behind an operand: no more of its last word or number, and no arrow. -/
structure Context (d : Dialect) (B : Parser (List Stmt)) (rest : List Char) : Prop where
  word : endsWord rest = true
  number : endsNumber rest = true
  quiet : Quiet d B (skip rest)

theorem EntryEnd.context {rest : List Char} (h : EntryEnd d B rest) : Context d B rest := by
  have hquiet : Quiet d B (skip rest) := h.skip_eq.symm ▸ h.quiet
  obtain ⟨c, t, rfl, hc⟩ := h.closer
  refine ⟨?_, ?_, hquiet⟩
  · refine endsWord_cons ?_ t
    simp only [isCloser, List.contains_eq_mem, List.mem_cons, List.not_mem_nil, or_false,
      decide_eq_true_eq] at hc
    rcases hc with rfl | rfl | rfl | rfl <;> decide
  · simp only [isCloser, List.contains_eq_mem, List.mem_cons, List.not_mem_nil, or_false,
      decide_eq_true_eq] at hc
    rcases hc with rfl | rfl | rfl | rfl <;> rfl

theorem ne_of_startsExpr {c x : Char} (hc : startsExpr c = true) (hx : startsExpr x = false) :
    c ≠ x := by
  rintro rfl
  simp [hc] at hx

theorem isBlank_of_startsExpr {c : Char} (h : startsExpr c = true) : isBlank c = false := by
  cases hb : isBlank c with
  | false => rfl
  | true =>
    have hw := isWordStart_of_isBlank hb
    simp only [startsExpr, hw, Bool.false_or, Bool.or_eq_true, List.contains_eq_mem, List.mem_cons,
      List.not_mem_nil, or_false, decide_eq_true_eq] at h
    rcases h with hd | rfl | rfl | rfl | rfl | rfl | rfl | rfl | rfl | rfl | rfl
    · exact hb ▸ forall_isDigit (P := fun c => isBlank c = false) (by decide) hd
    all_goals exact absurd hb (by decide)

theorem followsPattern_of_startsExpr {c : Char} (h : startsExpr c = true) :
    followsPattern c = false := by
  have hne : ∀ x, startsExpr x = false → c ≠ x := fun x hx => ne_of_startsExpr h hx
  simp [followsPattern, isCloser, hne '=' (by decide), hne ',' (by decide), hne ')' (by decide),
    hne ']' (by decide), hne '\x7d' (by decide), hne ':' (by decide)]

/-- The text of an argument, given that of its value. -/
def argumentText (spread : Bool) (w : List Char) : List Char :=
  (if spread then ['.', '.', '.'] else []) ++ w

/-- The invariant: how the grammar reads the text `w` of the expression `e`, which belongs to the
level `j`. -/
structure Printed (d : Dialect) (B : Parser (List Stmt)) (Good : List Char → Prop) (j : Nat)
    (e : Expr) (w : List Char) : Prop where
  level_le : j ≤ 11
  starts : ∃ c s, w = c :: s ∧ startsExpr c = true
  drop : ∀ s, Good (w ++ s) → Good s
  opens : ∀ rest, endsWord rest = true → Opens d B j (w ++ rest)
  reads : ∀ rest, Context d B rest → Good (w ++ rest) → Halts d B j (skip rest) →
    run (levelRule d B j) (w ++ rest) = some (e, skip rest)
  chain : 2 ≤ j → j ≤ 8 → ∀ rest, Context d B rest → Good (w ++ rest) →
    Halts d B (j + 1) (skip rest) →
    run (levelRule d B j) (w ++ rest) =
      (run (many ((levelOp j).seq (levelRule d B (j + 1)))) (skip rest)).map fun x =>
        (joinOperands e x.1, x.2)
  access : 10 ≤ j → ∀ rest, Context d B rest → Good (w ++ rest) →
    run (postfixExpr d B (expression d B)) (w ++ rest) =
      (run (many (accessSuffix d B)) (skip rest)).map fun x => (applySuffixes e x.1, x.2)
  pattern : ∀ rest, endsWord rest = true → endsNumber rest = true → Good (w ++ rest) →
    ∀ p r, run (bindingPattern (expression d B)) (w ++ rest) = some (p, r) →
      PatternEnds d B (j = 0) rest r

namespace Printed

variable {j : Nat} {e : Expr} {w : List Char}

theorem skip_append (h : Printed d B Good j e w) (s : List Char) : skip (w ++ s) = w ++ s := by
  obtain ⟨c, t, rfl, hc⟩ := h.starts
  exact skip_cons (isBlank_of_startsExpr hc) (ne_of_startsExpr hc (by decide)) (t ++ s)

/-- A punctuator that no expression starts with is not read there. -/
theorem run_sym_none (h : Printed d B Good j e w) (text : String) {wanted : Char}
    {more : List Char} (ht : text.toList = wanted :: more) (hw : startsExpr wanted = false)
    (s : List Char) : run (sym text) (w ++ s) = none := by
  obtain ⟨c, t, rfl, hc⟩ := h.starts
  exact Grammar.run_sym_none text ht (ne_of_startsExpr hc hw) (t ++ s)

/-- Reading at a lower level. -/
theorem readsAt [Shrinks B] (h : Printed d B Good j e w) {k : Nat} (hk : k ≤ j) {rest : List Char}
    (hc : Context d B rest) (hgood : Good (w ++ rest)) (hr : Halts d B k (skip rest)) :
    run (levelRule d B k) (w ++ rest) = some (e, skip rest) :=
  run_levelRule_of_le hk h.level_le (h.reads rest hc hgood (hr.mono hk)) (h.opens rest hc.word) hr

/-- Reading as the first operand of a level. -/
theorem chainAt [Shrinks B] (h : Printed d B Good j e w) {i : Nat} (hi : 2 ≤ i) (hi' : i ≤ 8)
    (hij : i ≤ j) {rest : List Char} (hc : Context d B rest) (hgood : Good (w ++ rest))
    (hr : Halts d B (i + 1) (skip rest)) :
    run (levelRule d B i) (w ++ rest) =
      (run (many ((levelOp i).seq (levelRule d B (i + 1)))) (skip rest)).map fun x =>
        (joinOperands e x.1, x.2) := by
  by_cases heq : i = j
  · subst heq
    exact h.chain hi hi' rest hc hgood hr
  · exact run_levelRule_binary hi hi' (h.readsAt (by omega) hc hgood hr)

/-- Reading in front of the end of an entry. -/
theorem reads_entry [Shrinks B] (h : Printed d B Good j e w) {rest : List Char}
    (hrest : EntryEnd d B rest) (hgood : Good (w ++ rest)) :
    run (expression d B) (w ++ rest) = some (e, rest) := by
  have hread := h.readsAt (Nat.zero_le j) hrest.context hgood (hrest.skip_eq.symm ▸ hrest.halts)
  rwa [hrest.skip_eq] at hread

/-- The invariant for expressions that no operator takes apart. -/
theorem ofPrimary (starts : ∃ c s, w = c :: s ∧ startsExpr c = true)
    (drop : ∀ s, Good (w ++ s) → Good s)
    (opens : ∀ rest, endsWord rest = true → Opens d B 11 (w ++ rest))
    (reads : ∀ rest, Context d B rest → Good (w ++ rest) →
      run (primary d B (expression d B)) (w ++ rest) = some (e, skip rest))
    (pattern : ∀ rest, endsWord rest = true → endsNumber rest = true → Good (w ++ rest) →
      ∀ p r, run (bindingPattern (expression d B)) (w ++ rest) = some (p, r) →
        r = skip rest ∨ isStuck r = true) :
    Printed d B Good 11 e w where
  level_le := Nat.le_refl 11
  starts := starts
  drop := drop
  opens := opens
  reads rest hc hgood _ := reads rest hc hgood
  chain _ h := by omega
  access _ rest hc hgood :=
    run_postfixExpr_primary ((opens rest hc.word).new (by omega)) (reads rest hc hgood)
  pattern rest hword hnumber hgood p r hp :=
    (pattern rest hword hnumber hgood p r hp).elim .inl fun h => .inr (.inl h)

/-! ## Entries of rows -/

theorem run_dots_append (s : List Char) : run (sym "...") ('.' :: '.' :: '.' :: s) = some ((), skip s) := by
  simp [run_sym, run_chars_cons, run_char_cons]

/-- An argument is read up to the end of its entry. -/
theorem argument_reads [Shrinks B] (h : Printed d B Good j e w) (spread : Bool) {rest : List Char}
    (hrest : EntryEnd d B rest) (hgood : Good (w ++ rest)) :
    run (argument (expression d B)) (argumentText spread w ++ rest) = some (⟨spread, e⟩, rest) := by
  cases spread with
  | false =>
    have hdots : run (sym "...") (w ++ rest) = none := h.run_sym_none "..." rfl (by decide) rest
    simp [argument, argumentText, run_both, run_map, run_optional_none hdots,
      h.reads_entry hrest hgood]
  | true =>
    simp [argument, argumentText, run_both, run_map, run_optional_some (run_dots_append _),
      h.skip_append, h.reads_entry hrest hgood]

/-- An argument tried as a parameter. -/
theorem param_tried [Shrinks B] (h : Printed d B Good j e w) (spread : Bool) {rest r : List Char}
    {p : Pattern} (hrest : EntryEnd d B rest) (hgood : Good (w ++ rest))
    (hr : run ((restParam d (expression d B)).orElse (plainParam d (expression d B)))
      (argumentText spread w ++ rest) = some (p, r)) : r = rest ∨ isOpen r = true := by
  have hpattern := h.pattern rest hrest.context.word hrest.context.number hgood
  cases spread with
  | false =>
    have hdots : run (sym "...") (w ++ rest) = none := h.run_sym_none "..." rfl (by decide) rest
    rcases run_orElse_inv hr with hr | ⟨-, hr⟩
    · simp [argumentText, restParam, run_map, run_thenSkip, run_skipThen, hdots] at hr
    · exact run_plainParam_ends hrest hpattern hr
  -- behind the dots stands a pattern, and no plain parameter starts with a point
  | true =>
    rcases run_orElse_inv hr with hr | ⟨-, hr⟩
    · obtain ⟨q, hq, -⟩ := run_map_inv hr
      obtain ⟨_, t, hhead, hasc⟩ := run_thenSkip_inv hq
      obtain ⟨_, u, hdots, hq⟩ := run_skipThen_inv hhead
      simp only [argumentText, if_true, List.cons_append, List.nil_append, run_dots_append,
        h.skip_append, Option.some.injEq, Prod.mk.injEq, true_and] at hdots
      subst hdots
      have hends := hpattern q t hq
      rw [run_ascription_ends hrest hends hasc, ← hrest.skip_eq]
      exact isOpen_of_patternEnds hends
    · obtain ⟨q, o, t, hhead, -, -⟩ := run_both_inv hr
      obtain ⟨_, u, hhead, -⟩ := run_thenSkip_inv hhead
      obtain ⟨_, v, hq, -⟩ := run_thenSkip_inv hhead
      simp [argumentText, run_bindingPattern_none (c := '.') (by decide) (by decide)
        (by decide)] at hq

/-- An argument tried as an element of an array pattern. -/
theorem element_tried [Shrinks B] (h : Printed d B Good j e w) (spread : Bool) {rest r : List Char}
    {p : Pattern} (hrest : EntryEnd d B rest) (hgood : Good (w ++ rest))
    (hr : run (patternElement (expression d B) (bindingPattern (expression d B)))
      (argumentText spread w ++ rest) = some (p, r)) : r = rest ∨ isOpen r = true := by
  have hpattern := h.pattern rest hrest.context.word hrest.context.number hgood
  cases spread with
  | false =>
    have hdots : run (sym "...") (w ++ rest) = none := h.run_sym_none "..." rfl (by decide) rest
    rcases run_orElse_inv hr with hr | ⟨-, hr⟩
    · simp [argumentText, run_map, run_skipThen, hdots] at hr
    · exact run_withDefault_ends hrest hpattern hr
  | true =>
    rcases run_orElse_inv hr with hr | ⟨-, hr⟩
    · obtain ⟨q, hq, -⟩ := run_map_inv hr
      obtain ⟨_, u, hdots, hq⟩ := run_skipThen_inv hq
      simp only [argumentText, if_true, List.cons_append, List.nil_append, run_dots_append,
        h.skip_append, Option.some.injEq, Prod.mk.injEq, true_and] at hdots
      subst hdots
      rw [← hrest.skip_eq]
      exact isOpen_of_patternEnds (hpattern q r hq)
    · obtain ⟨q, o, t, hq, -, -⟩ := run_both_inv hr
      simp [argumentText, run_bindingPattern_none (c := '.') (by decide) (by decide)
        (by decide)] at hq

end Printed

end TsxCompiler.Grammar

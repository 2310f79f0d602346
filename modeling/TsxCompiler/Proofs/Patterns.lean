import TsxCompiler.Proofs.Contexts
import TsxCompiler.Proofs.Rows

/-!
# Expressions tried as patterns

An expression in parentheses and the arguments of a call may be the parameters of an arrow function,
so the grammar tries them as patterns first. Most expressions are no pattern: reading stops inside
them, at a token that no pattern goes on with (`isStuck`). What remains are names, arrays and
assignments, and these are read to their end.
-/

namespace TsxCompiler.Grammar

open Peg Peg.Parser Text

variable {d : Dialect} {B : Parser (List Stmt)}

/-! ## Texts that no pattern goes on with -/

/-- Characters that end an entry of a row. -/
def isCloser (c : Char) : Bool :=
  [',', ')', ']', '\x7d'].contains c

/-- Characters that may follow a pattern: the end of an entry, an annotation or a default. -/
def followsPattern (c : Char) : Bool :=
  isCloser c || c == ':' || c == '='

/-- Whether a pattern that ends before a text cannot be part of a row that is read to its end. An
`=` is harmless in front of another one, and a `?` in front of what no pattern goes on with. -/
def isStuck : List Char → Bool
  | [] => false
  | '=' :: s => s.head? == some '='
  | '?' :: s => (skip s).head?.any fun c => !followsPattern c
  | c :: _ => !followsPattern c

theorem isStuck_cons {c : Char} (h : followsPattern c = false) (hq : c ≠ '?') (s : List Char) :
    isStuck (c :: s) = true := by
  unfold isStuck
  split <;> simp_all [followsPattern]

theorem isStuck_question {c : Char} {s t : List Char} (hs : skip s = c :: t)
    (h : followsPattern c = false) : isStuck ('?' :: s) = true := by
  simp [isStuck, hs, h]

/-- Whether a text does not start with the end of an entry. -/
def isOpen (r : List Char) : Bool :=
  r.head?.all fun c => !isCloser c

theorem dead_of_isOpen {c : Char} {close : String} {r : List Char} (hc : isCloser c = true)
    (hclose : close.toList = [c]) (h : isOpen r = true) : Dead close r := by
  cases r with
  | nil => exact ⟨by simp, run_sym_nil (by simp [hclose])⟩
  | cons x r =>
    simp only [isOpen, List.head?_cons, Option.all_some, Bool.not_eq_true'] at h
    have hne : ∀ y, isCloser y = true → x ≠ y := by
      rintro y hy rfl
      simp [h] at hy
    exact ⟨run_sym_none "," rfl (hne ',' (by decide)) r, run_sym_none close hclose (hne c hc) r⟩

theorem isOpen_of_isStuck {r : List Char} (h : isStuck r = true) : isOpen r = true := by
  unfold isStuck at h
  split at h
  · simp at h
  · rfl
  · rfl
  · simp_all [isOpen, followsPattern]

/-- There is no default where reading is stuck. -/
theorem run_initializer_stuck [Shrinks B] {r : List Char} (h : isStuck r = true) :
    run (initializer (expression d B)) r = some (none, r) := by
  refine run_optional_none ?_
  rw [run_skipThen]
  unfold isStuck at h
  split at h
  · simp at h
  · rename_i s
    cases s with
    | nil => simp at h
    | cons x s =>
      simp only [List.head?_cons, beq_iff_eq, Option.some.injEq] at h
      subst h
      have hskip : skip ('=' :: s) = '=' :: s := skip_cons (by decide) (by decide) s
      have hnone : run (expression d B) ('=' :: s) = none := run_levelRule_none (by decide) 0 s
      simp [run_sym, run_chars_cons, run_char_cons, hskip, hnone]
  · simp [run_sym_none "=" rfl (show '?' ≠ '=' by decide)]
  · rename_i c s hne _
    simp [run_sym_none "=" rfl hne]

theorem run_initializer_none {E : Parser Expr} {c : Char} (h : c ≠ '=') (s : List Char) :
    run (initializer E) (c :: s) = some (none, c :: s) :=
  run_optional_none (by simp [run_skipThen, run_sym_none "=" rfl h])

theorem run_optionalMark_none {c : Char} (h : c ≠ '?') (s : List Char) :
    run (optionalMark d) (c :: s) = some ((), c :: s) := by
  unfold optionalMark whenTyped
  split
  · rw [forget, run_yielding, run_optional_none (run_sym_none "?" rfl h s)]
    rfl
  · rfl

/-- The mark of an optional parameter leads to no place that an entry goes on from. -/
theorem run_optionalMark_stuck {r r' : List Char} {u : Unit} (h : isStuck r = true)
    (hr : run (optionalMark d) r = some (u, r')) :
    r' = r ∨ ∃ c s, r' = c :: s ∧ followsPattern c = false := by
  cases r with
  | nil => simp [isStuck] at h
  | cons c s =>
    by_cases hc : c = '?'
    · subst hc
      unfold optionalMark whenTyped at hr
      split at hr
      · have hmark : run (sym "?") ('?' :: s) = some ((), skip s) := by
          simp [run_sym, run_chars_cons, run_char_cons]
        rw [forget, run_yielding, run_optional_some hmark] at hr
        simp only [Option.map_some, Option.some.injEq, Prod.mk.injEq, true_and] at hr
        subst hr
        simp only [isStuck] at h
        cases hs : skip s with
        | nil => simp [hs] at h
        | cons x t =>
          simp only [hs, List.head?_cons, Option.any_some, Bool.not_eq_true'] at h
          exact .inr ⟨x, t, rfl, h⟩
      · simp only [run_succeed, Option.some.injEq, Prod.mk.injEq, true_and] at hr
        exact .inl hr.symm
    · rw [run_optionalMark_none hc] at hr
      simp only [Option.some.injEq, Prod.mk.injEq, true_and] at hr
      exact .inl hr.symm

/-- There is no annotation where reading is stuck. -/
theorem run_colon_stuck {r : List Char} (h : isStuck r = true) : run (sym ":") r = none := by
  cases r with
  | nil => simp
  | cons c s =>
    have hc : c ≠ ':' := by
      rintro rfl
      simp [isStuck, followsPattern] at h
    exact run_sym_none ":" rfl hc s

/-! ## How patterns and property names start -/

theorem run_bindingPattern_none {E : Parser Expr} [Shrinks E] {c : Char} (hw : isWordStart c = false)
    (hb : c ≠ '[') (hbr : c ≠ '\x7b') (s : List Char) :
    run (bindingPattern E) (c :: s) = none := by
  rw [run_bindingPattern]
  simp [patternBody, run_choice_cons, arrayPattern, objectPattern, run_map, run_inBrackets_none hb,
    run_inBraces_none hbr, run_identifier_none hw]

/-- A word is a pattern unless it is reserved. -/
theorem run_bindingPattern_word {E : Parser Expr} [Shrinks E] {w : String} {rest : List Char}
    (hw : isIdentifier w = true) (hend : endsWord rest = true) :
    run (bindingPattern E) (w.toList ++ rest) =
      if isReserved w then none else some (.ident w, skip rest) := by
  obtain ⟨c, cs, hc, hstart⟩ := exists_of_isIdentifier hw
  have harray : run (arrayPattern E (bindingPattern E)) (w.toList ++ rest) = none := by
    rw [hc, arrayPattern, run_map, List.cons_append,
      run_inBrackets_none (ne_of_isWordStart hstart (by decide))]
    rfl
  have hobject : run (objectPattern E (bindingPattern E)) (w.toList ++ rest) = none := by
    rw [hc, objectPattern, run_map, List.cons_append,
      run_inBraces_none (ne_of_isWordStart hstart (by decide))]
    rfl
  rw [run_bindingPattern]
  simp only [patternBody, run_choice_cons, run_choice_nil, harray, hobject, run_map, run_identifier,
    run_rawWord_append hw hend, Option.bind_some, Option.none_or]
  split <;> rfl

/-- Characters that the name of a member may start with. -/
def startsMember (c : Char) : Bool :=
  isWordStart c || c.isDigit || ['"', '\'', '['].contains c

theorem run_propertyKey_none {E : Parser Expr} {c : Char} (h : startsMember c = false)
    (s : List Char) : run (propertyKey E) (c :: s) = none := by
  simp only [startsMember, Bool.or_eq_false_iff, List.contains_eq_mem, List.mem_cons,
    List.not_mem_nil, or_false, not_or, decide_eq_false_iff_not] at h
  obtain ⟨⟨hw, hn⟩, hd, hs, hb⟩ := h
  simp [propertyKey, run_choice_cons, run_map, run_stringLit_none hd hs, run_number_none hn,
    run_inBrackets_none hb, run_word_none hw]

theorem run_propertyKey_word {E : Parser Expr} {word : String} (hword : isIdentifier word = true)
    {rest : List Char} (hend : endsWord rest = true) :
    run (propertyKey E) (word.toList ++ rest) = some (.ident word, skip rest) := by
  have hread := run_word_append hword hend
  obtain ⟨c, cs, hc, hstart⟩ := exists_of_isIdentifier hword
  have hdigit : c.isDigit = false := by
    rw [← Bool.not_eq_true]
    intro hd
    simp [isWordStart_of_isDigit hd] at hstart
  rw [hc, List.cons_append] at hread ⊢
  simp [propertyKey, run_choice_cons, run_map, hread,
    run_stringLit_none (ne_of_isWordStart hstart (by decide))
      (ne_of_isWordStart hstart (by decide)),
    run_number_none hdigit, run_inBrackets_none (ne_of_isWordStart hstart (by decide))]

/-! ## Entries of parameter lists and array patterns -/

/-- Where reading an expression as a pattern ends: behind the expression, where it is stuck, or
before the value of an assignment. -/
def PatternEnds (d : Dialect) (B : Parser (List Stmt)) (isAssign : Prop) (rest r : List Char) :
    Prop :=
  r = skip rest ∨ isStuck r = true ∨
    (isAssign ∧ ∃ s, r = '=' :: ' ' :: s ∧
      (Halts d B 0 (skip rest) → Quiet d B (skip rest) →
        ∃ v, run (expression d B) (skip s) = some (v, skip rest)))

/-- A text with the end of an entry in front. -/
structure EntryEnd (d : Dialect) (B : Parser (List Stmt)) (rest : List Char) : Prop where
  closer : ∃ c t, rest = c :: t ∧ isCloser c = true
  halts : Halts d B 0 rest
  quiet : Quiet d B rest

theorem ne_of_isCloser {c x : Char} (hc : isCloser c = true) (hx : isCloser x = false) : c ≠ x := by
  rintro rfl
  simp [hc] at hx

theorem isBlank_of_isCloser {c : Char} (h : isCloser c = true) : isBlank c = false := by
  simp only [isCloser, List.contains_eq_mem, List.mem_cons, List.not_mem_nil, or_false,
    decide_eq_true_eq] at h
  rcases h with rfl | rfl | rfl | rfl <;> decide

theorem EntryEnd.skip_eq {rest : List Char} (h : EntryEnd d B rest) : skip rest = rest := by
  obtain ⟨c, t, rfl, hc⟩ := h.closer
  exact skip_cons (isBlank_of_isCloser hc) (ne_of_isCloser hc (by decide)) t

theorem entryEnd_cons {c : Char} (h : isCloser c = true) (t : List Char) :
    EntryEnd d B (c :: t) where
  closer := ⟨c, t, rfl, h⟩
  halts := by
    simp only [isCloser, List.contains_eq_mem, List.mem_cons, List.not_mem_nil, or_false,
      decide_eq_true_eq] at h
    rcases h with rfl | rfl | rfl | rfl <;> exact halts_of_char (by decide) t
  quiet := by
    have hw : isWordStart c = false := by
      simp only [isCloser, List.contains_eq_mem, List.mem_cons, List.not_mem_nil, or_false,
        decide_eq_true_eq] at h
      rcases h with rfl | rfl | rfl | rfl <;> decide
    exact quiet_of_char hw (ne_of_isCloser h (by decide)) (ne_of_isCloser h (by decide))
      (run_sym_none "=>" rfl (ne_of_isCloser h (by decide)) t)

/-- The default behind a pattern: it ends with the entry, or reading is stuck. -/
theorem run_initializer_ends [Shrinks B] {isAssign : Prop} {rest r r' : List Char} {o : Option Expr}
    (hrest : EntryEnd d B (skip rest)) (h : PatternEnds d B isAssign rest r)
    (hr : run (initializer (expression d B)) r = some (o, r')) :
    r' = skip rest ∨ isOpen r' = true := by
  rcases h with rfl | hstuck | ⟨-, s, rfl, hread⟩
  · obtain ⟨c, t, ht, hc⟩ := hrest.closer
    rw [ht] at hr ⊢
    rw [run_initializer_none (ne_of_isCloser hc (by decide))] at hr
    simp only [Option.some.injEq, Prod.mk.injEq] at hr
    exact .inl hr.2.symm
  · rw [run_initializer_stuck hstuck] at hr
    simp only [Option.some.injEq, Prod.mk.injEq] at hr
    exact .inr (hr.2 ▸ isOpen_of_isStuck hstuck)
  · obtain ⟨v, hv⟩ := hread hrest.halts hrest.quiet
    have hvalue : run ((sym "=").skipThen (expression d B)) ('=' :: ' ' :: s) =
        some (v, skip rest) := by
      simp [run_skipThen, run_sym, run_chars_cons, run_char_cons,
        skip_blank (show isBlank ' ' = true by decide), hv]
    rw [initializer, run_optional_some hvalue] at hr
    simp only [Option.some.injEq, Prod.mk.injEq] at hr
    exact .inl hr.2.symm

/-- An entry of an array pattern. -/
theorem run_withDefault_ends [Shrinks B] {isAssign : Prop} {s rest r : List Char} {q : Pattern}
    (hrest : EntryEnd d B rest)
    (h : ∀ p r, run (bindingPattern (expression d B)) s = some (p, r) →
      PatternEnds d B isAssign rest r)
    (hr : run (both withDefault (bindingPattern (expression d B)) (initializer (expression d B))) s =
      some (q, r)) : r = rest ∨ isOpen r = true := by
  obtain ⟨p, o, t, hp, ho, -⟩ := run_both_inv hr
  have hends := run_initializer_ends (hrest.skip_eq.symm ▸ hrest) (h p t hp) ho
  rwa [hrest.skip_eq] at hends

/-- A parameter with its annotation and its default. -/
theorem run_plainParam_ends [Shrinks B] {isAssign : Prop} {s rest r : List Char} {q : Pattern}
    (hrest : EntryEnd d B rest)
    (h : ∀ p r, run (bindingPattern (expression d B)) s = some (p, r) →
      PatternEnds d B isAssign rest r)
    (hr : run (plainParam d (expression d B)) s = some (q, r)) : r = rest ∨ isOpen r = true := by
  have hskip : EntryEnd d B (skip rest) := hrest.skip_eq.symm ▸ hrest
  suffices hends : r = skip rest ∨ isOpen r = true by rwa [hrest.skip_eq] at hends
  obtain ⟨p, o, t, hhead, ho, -⟩ := run_both_inv hr
  obtain ⟨_, u, hhead, hasc⟩ := run_thenSkip_inv hhead
  obtain ⟨_, v, hp, hmark⟩ := run_thenSkip_inv hhead
  rcases h p v hp with rfl | hstuck | ⟨hassign, s', rfl, hread⟩
  · -- the pattern is the whole entry: nothing of what may follow a pattern stands there
    rw [hrest.skip_eq] at hmark
    obtain ⟨c, t', hc, hcloser⟩ := hrest.closer
    rw [hc, run_optionalMark_none (ne_of_isCloser hcloser (by decide))] at hmark
    simp only [Option.some.injEq, Prod.mk.injEq, true_and] at hmark
    rw [← hmark, run_ascription_none
      (run_sym_none ":" rfl (ne_of_isCloser hcloser (by decide)) t')] at hasc
    simp only [Option.some.injEq, Prod.mk.injEq, true_and] at hasc
    rw [← hasc, ← hc] at ho
    have hend : PatternEnds d B isAssign rest rest := .inl hrest.skip_eq.symm
    exact run_initializer_ends hskip hend ho
  · rcases run_optionalMark_stuck hstuck hmark with rfl | ⟨c, t', rfl, hc⟩
    · rw [run_ascription_none (run_colon_stuck hstuck)] at hasc
      simp only [Option.some.injEq, Prod.mk.injEq, true_and] at hasc
      rw [← hasc] at ho
      have hend : PatternEnds d B isAssign rest _ := .inr (.inl hstuck)
      exact run_initializer_ends hskip hend ho
    · simp only [followsPattern, Bool.or_eq_false_iff, beq_eq_false_iff_ne, ne_eq] at hc
      rw [run_ascription_none (run_sym_none ":" rfl hc.1.2 t')] at hasc
      simp only [Option.some.injEq, Prod.mk.injEq, true_and] at hasc
      rw [← hasc, run_initializer_none hc.2] at ho
      simp only [Option.some.injEq, Prod.mk.injEq] at ho
      right
      simp [← ho.2, isOpen, hc.1.1]
  · rw [run_optionalMark_none (by decide)] at hmark
    simp only [Option.some.injEq, Prod.mk.injEq, true_and] at hmark
    rw [← hmark, run_ascription_none (run_sym_none ":" rfl (by decide) _)] at hasc
    simp only [Option.some.injEq, Prod.mk.injEq, true_and] at hasc
    rw [← hasc] at ho
    exact run_initializer_ends hskip (.inr (.inr ⟨hassign, s', rfl, hread⟩)) ho

/-- Behind a spread pattern, a default or a place to be stuck at is not the end of the entry. -/
theorem isOpen_of_patternEnds {isAssign : Prop} {rest r : List Char}
    (h : PatternEnds d B isAssign rest r) : r = skip rest ∨ isOpen r = true := by
  rcases h with rfl | hstuck | ⟨-, s, rfl, -⟩
  · exact .inl rfl
  · exact .inr (isOpen_of_isStuck hstuck)
  · exact .inr rfl

theorem run_ascription_ends {isAssign : Prop} {rest r r' : List Char} {u : Unit}
    (hrest : EntryEnd d B rest) (h : PatternEnds d B isAssign rest r)
    (hr : run (ascription d) r = some (u, r')) : r' = r := by
  have hnone : run (sym ":") r = none := by
    rcases h with rfl | hstuck | ⟨-, s, rfl, -⟩
    · rw [hrest.skip_eq]
      obtain ⟨c, t, rfl, hc⟩ := hrest.closer
      exact run_sym_none ":" rfl (ne_of_isCloser hc (by decide)) t
    · exact run_colon_stuck hstuck
    · exact run_sym_none ":" rfl (by decide) _
  rw [run_ascription_none hnone] at hr
  simp only [Option.some.injEq, Prod.mk.injEq, true_and] at hr
  exact hr.symm

end TsxCompiler.Grammar

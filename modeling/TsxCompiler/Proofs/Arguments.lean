import TsxCompiler.Proofs.Printed

/-!
# Rows of printed arguments

The arguments of a call and the elements of an array, read as what they are and tried as parameters
or as an array pattern. A try that reads the closing bracket has read the whole row, so all that an
arrow function still needs is the arrow behind it.
-/

namespace TsxCompiler.Grammar

open Peg Peg.Parser Text

variable {d : Dialect} {B : Parser (List Stmt)} {Good : List Char → Prop}

/-- Arguments with the texts of their values. -/
def ArgumentsPrinted (d : Dialect) (B : Parser (List Stmt)) (Good : List Char → Prop)
    (items : List (Argument × List Char)) : Prop :=
  ∀ x ∈ items, ∃ j, Printed d B Good j x.1.value x.2

/-- The texts of arguments. -/
def argumentTexts (items : List (Argument × List Char)) : List (List Char) :=
  items.map fun x => argumentText x.1.spread x.2

theorem entryEnd_rowTail {z : List Char} (hz : EntryEnd d B z) (ws : List (List Char)) :
    EntryEnd d B (rowTail z ws) := by
  cases ws with
  | nil => exact hz
  | cons w ws => exact entryEnd_cons (by decide) _

theorem skip_argumentText {j : Nat} {e : Expr} {w : List Char} (h : Printed d B Good j e w)
    (spread : Bool) (s : List Char) :
    skip (argumentText spread w ++ s) = argumentText spread w ++ s := by
  cases spread with
  | false => exact h.skip_append s
  | true => exact skip_cons (by decide) (by decide) _

theorem good_argumentText (hG : TextClass d Good) {spread : Bool} {w s : List Char}
    (h : Good (argumentText spread w ++ s)) : Good (w ++ s) := by
  rw [argumentText, List.append_assoc] at h
  exact hG.append (by cases spread <;> rfl) h

/-- A closing bracket is not read where an argument starts. -/
theorem run_closer_argumentText {j : Nat} {e : Expr} {w : List Char} (h : Printed d B Good j e w)
    (spread : Bool) {close : String} {c : Char} (hclose : close.toList = [c])
    (hc : isCloser c = true) (s : List Char) :
    run (sym close) (argumentText spread w ++ s) = none := by
  cases spread with
  | false =>
    refine h.run_sym_none close hclose ?_ s
    simp only [isCloser, List.contains_eq_mem, List.mem_cons, List.not_mem_nil, or_false,
      decide_eq_true_eq] at hc
    rcases hc with rfl | rfl | rfl | rfl <;> decide
  | true => exact run_sym_none close hclose (ne_of_isCloser hc (by decide)).symm _

/-- A good row leaves a good text behind its first item. -/
theorem good_rowTail (hG : TextClass d Good) {z : List Char} {x : Argument × List Char}
    {items : List (Argument × List Char)} (h : ArgumentsPrinted d B Good (x :: items))
    (hgood : Good (rowText z (argumentTexts (x :: items)))) :
    Good (x.2 ++ rowTail z (argumentTexts items)) ∧ Good (rowText z (argumentTexts items)) := by
  obtain ⟨j, hx⟩ := h x (by simp)
  have hfirst : Good (x.2 ++ rowTail z (argumentTexts items)) := good_argumentText hG hgood
  refine ⟨hfirst, ?_⟩
  have hrest := hx.drop _ hfirst
  cases items with
  | nil => exact hrest
  | cons y items => exact hG.append (w := [',', ' ']) (by decide) hrest

theorem good_rowText (hG : TextClass d Good) {z : List Char} {items : List (Argument × List Char)}
    (h : ArgumentsPrinted d B Good items) (hgood : Good (rowText z (argumentTexts items))) :
    Good z := by
  induction items with
  | nil => exact hgood
  | cons x items ih =>
    exact ih (fun y hy => h y (by simp [hy])) (good_rowTail hG h hgood).2

/-- By induction over the row: behind each argument stands a comma or the end of the row. -/
theorem rowReads_arguments [Shrinks B] (hG : TextClass d Good) {z : List Char}
    (hz : EntryEnd d B z) {items : List (Argument × List Char)}
    (h : ArgumentsPrinted d B Good items) (hgood : Good (rowText z (argumentTexts items))) :
    RowReads (argument (expression d B)) z
      (items.map fun x => (argumentText x.1.spread x.2, x.1)) := by
  induction items with
  | nil => trivial
  | cons x items ih =>
    obtain ⟨⟨spread, value⟩, w⟩ := x
    obtain ⟨hfirst, hrest⟩ := good_rowTail hG h hgood
    obtain ⟨j, hx⟩ := h (⟨spread, value⟩, w) (by simp)
    have htexts : (items.map fun x => (argumentText x.1.spread x.2, x.1)).map Prod.fst =
        argumentTexts items := by
      simp [argumentTexts]
    have htail : EntryEnd d B (rowTail z (argumentTexts items)) := entryEnd_rowTail hz _
    simp only [List.map_cons, RowReads, htexts, htail.skip_eq]
    exact ⟨hx.argument_reads spread htail hfirst, skip_argumentText hx spread _,
      ih (fun y hy => h y (by simp [hy])) hrest⟩

/-- Tried as patterns, each argument is read whole or left at a place where the row cannot end. -/
theorem rowTried_arguments (hG : TextClass d Good) {p : Parser Pattern} (close : String) {c : Char}
    (hclose : close.toList = [c]) (hc : isCloser c = true) {z : List Char} (hz : EntryEnd d B z)
    {items : List (Argument × List Char)} (h : ArgumentsPrinted d B Good items)
    (hp : ∀ x ∈ items, ∀ rest q r, EntryEnd d B rest → Good (x.2 ++ rest) →
      run p (argumentText x.1.spread x.2 ++ rest) = some (q, r) → r = rest ∨ isOpen r = true)
    (hgood : Good (rowText z (argumentTexts items))) :
    RowTried p close z (argumentTexts items) := by
  induction items with
  | nil => trivial
  | cons x items ih =>
    obtain ⟨hfirst, hrest⟩ := good_rowTail hG h hgood
    obtain ⟨j, hx⟩ := h x (by simp)
    refine ⟨?_, skip_argumentText hx x.1.spread _, run_closer_argumentText hx x.1.spread hclose hc _,
      ih (fun y hy => h y (by simp [hy])) (fun y hy => hp y (by simp [hy])) hrest⟩
    intro q r hr
    have htail : EntryEnd d B (rowTail z (argumentTexts items)) := entryEnd_rowTail hz _
    exact (hp x (by simp) _ q r htail hfirst hr).imp (fun hend => hend.trans htail.skip_eq.symm)
      (dead_of_isOpen hc hclose)

/-! ## Argument lists and arrays -/

theorem run_argument_none [Shrinks B] {c : Char} (h : startsExpr c = false) (hdot : c ≠ '.')
    (s : List Char) : run (argument (expression d B)) (c :: s) = none := by
  have hnone : run (expression d B) (c :: s) = none := run_levelRule_none h 0 s
  simp [argument, run_both, run_map, run_optional_none (run_sym_none "..." rfl hdot s), hnone]

/-- The row between the brackets of a call or an array. -/
theorem run_argumentRow [Shrinks B] (hG : TextClass d Good) {c : Char} (hc : isCloser c = true)
    (hcomma : c ≠ ',') {rest : List Char} {items : List (Argument × List Char)}
    (h : ArgumentsPrinted d B Good items)
    (hgood : Good (rowText (c :: rest) (argumentTexts items))) :
    run (sepByTrailing (sym ",") (argument (expression d B)))
      (skip (rowText (c :: rest) (argumentTexts items))) = some (items.map Prod.fst, c :: rest) := by
  have hz : EntryEnd d B (c :: rest) := entryEnd_cons hc rest
  have hnone : run (argument (expression d B)) (c :: rest) = none := by
    refine run_argument_none ?_ (ne_of_isCloser hc (by decide)) rest
    simp only [isCloser, List.contains_eq_mem, List.mem_cons, List.not_mem_nil, or_false,
      decide_eq_true_eq] at hc
    rcases hc with rfl | rfl | rfl | rfl <;> decide
  have hrow := run_row (rowReads_arguments hG hz h hgood)
    (hz.skip_eq.symm ▸ run_sym_none "," rfl hcomma rest) (hz.skip_eq.symm ▸ hnone)
  rw [hz.skip_eq] at hrow
  simpa [argumentTexts, Function.comp_def] using hrow

theorem run_arguments_printed [Shrinks B] (hG : TextClass d Good) {rest : List Char}
    {items : List (Argument × List Char)} (h : ArgumentsPrinted d B Good items)
    (hgood : Good (rowText (')' :: rest) (argumentTexts items))) :
    run (arguments (expression d B)) ('(' :: rowText (')' :: rest) (argumentTexts items)) =
      some (items.map Prod.fst, skip rest) :=
  run_between_cons rfl rfl (run_argumentRow hG (by decide) (by decide) h hgood)

theorem run_array_printed [Shrinks B] (hG : TextClass d Good) {rest : List Char}
    {items : List (Argument × List Char)} (h : ArgumentsPrinted d B Good items)
    (hgood : Good (rowText (']' :: rest) (argumentTexts items))) :
    run (primary d B (expression d B)) ('[' :: rowText (']' :: rest) (argumentTexts items)) =
      some (.array (items.map Prod.fst), skip rest) :=
  run_primary_array (run_between_cons rfl rfl (run_argumentRow hG (by decide) (by decide) h hgood))

/-- Arguments that were read as parameters were read up to their closing parenthesis. -/
theorem run_params_printed [Shrinks B] (hG : TextClass d Good) {rest r : List Char}
    {ps : List Pattern} {items : List (Argument × List Char)} (h : ArgumentsPrinted d B Good items)
    (hgood : Good (rowText (')' :: rest) (argumentTexts items)))
    (hr : run (params d (expression d B)) ('(' :: rowText (')' :: rest) (argumentTexts items)) =
      some (ps, r)) : r = skip rest := by
  have hz : EntryEnd d B (')' :: rest) := entryEnd_cons (by decide) rest
  have htried := rowTried_arguments (p := (restParam d (expression d B)).orElse
    (plainParam d (expression d B))) hG ")" rfl (by decide) hz h
    (fun x hx rest q r hrest hgood hr => by
      obtain ⟨j, hj⟩ := h x hx
      exact hj.param_tried x.1.spread hrest hgood hr) hgood
  have hnone : run ((restParam d (expression d B)).orElse (plainParam d (expression d B)))
      (')' :: rest) = none := by
    simp [run_orElse, restParam, plainParam, run_map, run_both, run_thenSkip, run_skipThen,
      run_sym_none "..." rfl (show ')' ≠ '.' by decide),
      run_bindingPattern_none (c := ')') (by decide) (by decide) (by decide)]
  obtain ⟨t, u, hrow, hclose⟩ := run_between_inv rfl hr
  obtain rfl := run_row_tried htried (hz.skip_eq.symm ▸ run_sym_none "," rfl (by decide) rest)
    (hz.skip_eq.symm ▸ hnone) hrow hclose
  rw [hz.skip_eq] at hclose
  simpa [run_sym, run_chars_cons, run_char_cons, eq_comm] using hclose

/-- Elements that were read as an array pattern were read up to their closing bracket. -/
theorem run_arrayPattern_printed [Shrinks B] (hG : TextClass d Good) {rest r : List Char}
    {p : Pattern} {items : List (Argument × List Char)} (h : ArgumentsPrinted d B Good items)
    (hgood : Good (rowText (']' :: rest) (argumentTexts items)))
    (hr : run (bindingPattern (expression d B)) ('[' :: rowText (']' :: rest) (argumentTexts items)) =
      some (p, r)) : r = skip rest := by
  have hz : EntryEnd d B (']' :: rest) := entryEnd_cons (by decide) rest
  -- each argument is tried as an element of the pattern
  have htried := rowTried_arguments (p := patternElement (expression d B)
    (bindingPattern (expression d B))) hG "]" rfl (by decide) hz h
    (fun x hx rest q r hrest hgood hr => by
      obtain ⟨j, hj⟩ := h x hx
      exact hj.element_tried x.1.spread hrest hgood hr) hgood
  have hnone : run (patternElement (expression d B) (bindingPattern (expression d B)))
      (']' :: rest) = none := by
    simp [run_orElse, patternElement, run_map, run_both, run_skipThen,
      run_sym_none "..." rfl (show ']' ≠ '.' by decide),
      run_bindingPattern_none (c := ']') (by decide) (by decide) (by decide)]
  rw [run_bindingPattern] at hr
  have harray : run (arrayPattern (expression d B) (bindingPattern (expression d B)))
      ('[' :: rowText (']' :: rest) (argumentTexts items)) = some (p, r) := by
    rcases run_choice_cons_inv hr with hr | ⟨-, hr⟩
    · exact hr
    · simp [run_choice_cons, objectPattern, run_map, run_inBraces_none, run_identifier_none
        (show isWordStart '[' = false by decide)] at hr
  obtain ⟨ps, hps, -⟩ := run_map_inv harray
  obtain ⟨t, u, hrow, hclose⟩ := run_between_inv rfl hps
  -- the pattern was closed, so the row was read to its end
  obtain rfl := run_row_tried htried (hz.skip_eq.symm ▸ run_sym_none "," rfl (by decide) rest)
    (hz.skip_eq.symm ▸ hnone) hrow hclose
  rw [hz.skip_eq] at hclose
  simpa [run_sym, run_chars_cons, run_char_cons, eq_comm] using hclose

end TsxCompiler.Grammar

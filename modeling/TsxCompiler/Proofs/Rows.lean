import TsxCompiler.Print.Tree
import TsxCompiler.Proofs.Lexemes

/-!
# Rows with commas

Printed rows, and how they are read: item by item, with the comma between two items read as a
separator. When the rule for items belongs to another row than the printed one, as when arguments
are tried as parameters, reading still ends at the bracket that closes the printed row or does not
find the bracket at all.
-/

namespace TsxCompiler.Grammar

open Peg Peg.Parser Text

variable {α : Type}

/-! ## Texts -/

/-- Items that follow in a row, each behind a comma and a blank, and the text `z` behind them. -/
def rowTail (z : List Char) : List (List Char) → List Char
  | [] => z
  | w :: ws => ',' :: ' ' :: (w ++ rowTail z ws)

/-- A row of items and the text `z` behind it. -/
def rowText (z : List Char) : List (List Char) → List Char
  | [] => z
  | w :: ws => w ++ rowTail z ws

theorem rowTail_append (z s : List Char) (ws : List (List Char)) :
    rowTail z ws ++ s = rowTail (z ++ s) ws := by
  induction ws with
  | nil => rfl
  | cons w ws ih => simp [rowTail, ih]

theorem rowText_append (z s : List Char) (ws : List (List Char)) :
    rowText z ws ++ s = rowText (z ++ s) ws := by
  cases ws with
  | nil => rfl
  | cons w ws => simp [rowText, rowTail_append]

theorem commaList_append (texts : List String) (z : List Char) :
    (Print.commaList texts).toList ++ z = rowText z (texts.map String.toList) := by
  have hsep : ", ".toList = [',', ' '] := rfl
  have htail : ∀ (text : String) (texts : List String),
      ([',', ' '].intercalate ((text :: texts).map String.toList)) ++ z =
        text.toList ++ rowTail z (texts.map String.toList) := by
    intro text texts
    induction texts generalizing text with
    | nil => simp [rowTail]
    | cons next texts ih =>
      have hnext := ih next
      simp only [List.map_cons] at hnext
      simp [rowTail, List.intercalate_cons_cons, hnext]
  rw [Print.commaList, String.toList_intercalate, hsep]
  cases texts with
  | nil => rfl
  | cons text texts => exact htail text texts

/-! ## Reading a row -/

/-- Each item of a row is read as its value, up to the rest of the row without blanks in front. -/
def RowReads (p : Parser α) (z : List Char) : List (List Char × α) → Prop
  | [] => True
  | (w, a) :: items =>
    run p (w ++ rowTail z (items.map Prod.fst)) =
        some (a, skip (rowTail z (items.map Prod.fst))) ∧
      skip (w ++ rowTail z (items.map Prod.fst)) = w ++ rowTail z (items.map Prod.fst) ∧
      RowReads p z items

theorem runFollowers_rowTail {p : Parser α} {z : List Char} {items : List (List Char × α)}
    (h : RowReads p z items) (hz : run (sym ",") (skip z) = none) :
    runFollowers (sym ",") p (skip (rowTail z (items.map Prod.fst))) =
      (items.map Prod.snd, skip z) := by
  induction items with
  | nil => simp [rowTail, runFollowers_eq, run_skipThen, hz]
  | cons item items ih =>
    obtain ⟨w, a⟩ := item
    obtain ⟨hread, hskip, hrest⟩ := h
    have hcomma : skip (',' :: ' ' :: (w ++ rowTail z (items.map Prod.fst))) =
        ',' :: ' ' :: (w ++ rowTail z (items.map Prod.fst)) :=
      skip_cons (by decide) (by decide) _
    have hsep : run ((sym ",").skipThen p)
        (',' :: ' ' :: (w ++ rowTail z (items.map Prod.fst))) =
          some (a, skip (rowTail z (items.map Prod.fst))) := by
      simp [run_skipThen, run_sym, run_chars_cons, run_char_cons,
        skip_blank (show isBlank ' ' = true by decide), hskip, hread]
    have hshort := (skip_suffix (rowTail z (items.map Prod.fst))).length_le
    rw [List.map_cons, rowTail, hcomma, runFollowers_eq, hsep]
    simp only [ih hrest, List.map_cons]
    rw [if_pos]
    simp only [List.length_cons, List.length_append]
    omega

theorem run_row {p : Parser α} {z : List Char} {items : List (List Char × α)}
    (h : RowReads p z items) (hz : run (sym ",") (skip z) = none) (hp : run p (skip z) = none) :
    run (sepByTrailing (sym ",") p) (skip (rowText z (items.map Prod.fst))) =
      some (items.map Prod.snd, skip z) := by
  cases items with
  | nil => simp [rowText, run_sepByTrailing, hp]
  | cons item items =>
    obtain ⟨w, a⟩ := item
    obtain ⟨hread, hskip, hrest⟩ := h
    rw [List.map_cons, rowText, hskip, run_sepByTrailing, hread]
    simp [runFollowers_rowTail hrest hz, hz]

/-! ## Trying a row -/

/-- A text at which neither a comma nor the closing bracket stands. -/
def Dead (close : String) (r : List Char) : Prop :=
  run (sym ",") r = none ∧ run (sym close) r = none

/-- A rule that is tried on the items of a row: where it reads something of an item, it reads all of
it or gets stuck inside. -/
def RowTried (p : Parser α) (close : String) (z : List Char) : List (List Char) → Prop
  | [] => True
  | w :: ws =>
    (∀ a r, run p (w ++ rowTail z ws) = some (a, r) → r = skip (rowTail z ws) ∨ Dead close r) ∧
      skip (w ++ rowTail z ws) = w ++ rowTail z ws ∧
      run (sym close) (w ++ rowTail z ws) = none ∧ RowTried p close z ws

/-- Where a row ends when one more comma is read if it is there. -/
def afterComma (r : List Char) : List Char :=
  ((run (sym ",") r).map Prod.snd).getD r

/-- Tried on a row of texts, the items of another kind are read to the end of the row, or up to a
place where the row is not closed. -/
theorem afterComma_followers {p : Parser α} {close : String} {z : List Char} {ws : List (List Char)}
    (h : RowTried p close z ws) (hz : run (sym ",") (skip z) = none) :
    afterComma (runFollowers (sym ",") p (skip (rowTail z ws))).2 = skip z ∨
      run (sym close) (afterComma (runFollowers (sym ",") p (skip (rowTail z ws))).2) = none := by
  induction ws with
  | nil =>
    left
    simp [rowTail, runFollowers_eq, run_skipThen, hz, afterComma]
  | cons w ws ih =>
    obtain ⟨hread, hskip, hclose, hrest⟩ := h
    have hcomma : run (sym ",") (skip (rowTail z (w :: ws))) = some ((), w ++ rowTail z ws) := by
      rw [rowTail, skip_cons (by decide) (by decide)]
      simp [run_sym, run_chars_cons, run_char_cons,
        skip_blank (show isBlank ' ' = true by decide), hskip]
    rw [runFollowers_eq, run_skipThen, hcomma, Option.bind_some]
    cases hp : run p (w ++ rowTail z ws) with
    | none =>
      -- the comma is read as the last one, and the row ends before the item
      right
      simp [afterComma, hcomma, hclose]
    | some x =>
      dsimp only
      rcases hread x.1 x.2 hp with hx | ⟨hcomma', hclose'⟩
      · have hshort := (skip_suffix (rowTail z ws)).length_le
        rw [if_pos]
        · simpa [hx] using ih hrest
        · rw [rowTail, skip_cons (by decide) (by decide), hx]
          simp only [List.length_cons, List.length_append]
          omega
      · right
        -- the item ended inside the text, and neither a comma nor the closing mark stands there
        have hstop : runFollowers (sym ",") p x.2 = ([], x.2) := by
          simp [runFollowers_eq, run_skipThen, hcomma']
        split <;> simp [hstop, afterComma, hcomma', hclose']

/-- A row that was tried and closed was read to its end. -/
theorem run_row_tried {p : Parser α} {close : String} {z : List Char} {ws : List (List Char)}
    (h : RowTried p close z ws) (hz : run (sym ",") (skip z) = none) (hp : run p (skip z) = none)
    {as : List α} {r r' : List Char} {u : Unit}
    (hrow : run (sepByTrailing (sym ",") p) (skip (rowText z ws)) = some (as, r))
    (hclosed : run (sym close) r = some (u, r')) : r = skip z := by
  rw [run_sepByTrailing] at hrow
  cases ws with
  | nil =>
    rw [rowText, hp] at hrow
    simp only [Option.some.injEq, Prod.mk.injEq] at hrow
    exact hrow.2.symm
  | cons w ws =>
    obtain ⟨hread, hskip, hclose, hrest⟩ := h
    rw [rowText, hskip] at hrow
    cases hp : run p (w ++ rowTail z ws) with
    -- the first item is no such item, so the row would have to be closed in front of it
    | none =>
      simp only [hp, Option.some.injEq, Prod.mk.injEq] at hrow
      rw [← hrow.2, hclose] at hclosed
      simp at hclosed
    | some x =>
      simp only [hp, Option.some.injEq, Prod.mk.injEq] at hrow
      obtain ⟨-, rfl⟩ := hrow
      rcases hread x.1 x.2 hp with hx | ⟨hcomma, hclose'⟩
      · rcases afterComma_followers hrest hz with hend | hend
        · rwa [hx]
        · rw [hx] at hclosed
          simp [afterComma, hclosed] at hend
      · have hstop : runFollowers (sym ",") p x.2 = ([], x.2) := by
          simp [runFollowers_eq, run_skipThen, hcomma]
        simp [hstop, hcomma, hclose'] at hclosed

/-! ## Brackets -/

/-- A value between brackets that are one character each. -/
theorem run_between_cons {p : Parser α} {opening closing : String} {o c : Char} {s rest : List Char}
    {a : α} (ho : opening.toList = [o]) (hc : closing.toList = [c])
    (h : run p (skip s) = some (a, c :: rest)) :
    run (between (sym opening) (sym closing) p) (o :: s) = some (a, skip rest) := by
  simp [between, run_thenSkip, run_skipThen, run_sym, ho, hc, run_chars_cons, run_char_cons, h]

theorem run_between_inv {p : Parser α} {opening closing : String} {o : Char} {s r : List Char}
    {a : α} (ho : opening.toList = [o])
    (h : run (between (sym opening) (sym closing) p) (o :: s) = some (a, r)) :
    ∃ t u, run p (skip s) = some (a, t) ∧ run (sym closing) t = some (u, r) := by
  obtain ⟨u, t, hopen, hclose⟩ := run_thenSkip_inv h
  obtain ⟨_, v, hstart, hp⟩ := run_skipThen_inv hopen
  obtain ⟨w, hw, rfl⟩ := run_sym_inv hstart
  simp only [ho, List.cons_append, List.nil_append, List.cons.injEq, true_and] at hw
  subst hw
  exact ⟨t, u, hp, hclose⟩

end TsxCompiler.Grammar

import TsxCompiler.Lower.MarkupText

/-!
# What is shown of a text between tags

Normalizing takes a text apart into lines, trims each of them by its place among the others, drops
the empty ones and joins the rest. Only layout is lost or added on the way: blanks, tabs and line
ends. So the content of a text is kept whatever its lines look like, nothing that is shown runs over
a line end, and it is no matter whether lines end in a newline or in a carriage return and a
newline.

* `content_normalize` — splitting, trimming and joining keep the content;
* `newline_not_mem_normalize` — what is shown stands on one line;
* `trimLines_endLines` — carriage returns in front of the line ends are trimmed away;
* `normalize_keepsContent` — the three together.
-/

namespace TsxCompiler

/-! ## Splitting, trimming and joining -/

namespace Text

theorem splitAt_cons_self (sep : Char) (s : List Char) :
    splitAt sep (sep :: s) = [] :: splitAt sep s := by
  simp [splitAt]

theorem splitAt_ne_nil (sep : Char) (s : List Char) : splitAt sep s ≠ [] := by
  cases s with
  | nil => simp [splitAt]
  | cons c s =>
    rw [splitAt]
    split
    · simp
    · split <;> simp

/-- A character that does not separate belongs to the first part. -/
theorem splitAt_cons_of_ne {sep c : Char} (hc : c ≠ sep) (s : List Char) :
    ∃ part parts, splitAt sep s = part :: parts ∧ splitAt sep (c :: s) = (c :: part) :: parts := by
  obtain ⟨part, parts, hs⟩ := List.exists_cons_of_ne_nil (splitAt_ne_nil sep s)
  exact ⟨part, parts, hs, by rw [splitAt, if_neg hc, hs]⟩

theorem not_mem_of_mem_splitAt {sep : Char} {s part : List Char} (h : part ∈ splitAt sep s) :
    sep ∉ part := by
  induction s generalizing part with
  | nil => simp_all [splitAt]
  | cons c s ih =>
    by_cases hc : c = sep
    · rw [hc, splitAt_cons_self] at h
      rcases List.mem_cons.1 h with rfl | h
      · exact List.not_mem_nil
      · exact ih h
    · obtain ⟨first, parts, hs, hcons⟩ := splitAt_cons_of_ne hc s
      rw [hcons] at h
      rw [hs] at ih
      rcases List.mem_cons.1 h with rfl | h
      · simpa [Ne.symm hc] using ih List.mem_cons_self
      · exact ih (List.mem_cons_of_mem _ h)

/-- Nothing but separators is lost by splitting. -/
theorem filter_splitAt {sep : Char} {p : Char → Bool} (hsep : p sep = false) (s : List Char) :
    (splitAt sep s).flatten.filter p = s.filter p := by
  induction s with
  | nil => rfl
  | cons c s ih =>
    by_cases hc : c = sep
    · rw [hc, splitAt_cons_self]
      simpa [hsep] using ih
    · obtain ⟨part, parts, hs, hcons⟩ := splitAt_cons_of_ne hc s
      rw [hcons, List.flatten_cons, List.cons_append, List.filter_cons, List.filter_cons,
        ← List.flatten_cons, ← hs, ih]

theorem filter_dropWhile {p q : Char → Bool} (h : ∀ c, q c = true → p c = false) (s : List Char) :
    (s.dropWhile q).filter p = s.filter p := by
  induction s with
  | nil => rfl
  | cons c s ih =>
    cases hc : q c with
    | true => simpa [hc, h c hc] using ih
    | false => simp [hc]

theorem filter_dropTrailing {p q : Char → Bool} (h : ∀ c, q c = true → p c = false)
    (s : List Char) : (dropTrailing q s).filter p = s.filter p := by
  rw [dropTrailing, List.filter_reverse, filter_dropWhile h, List.filter_reverse,
    List.reverse_reverse]

theorem dropTrailing_sublist (q : Char → Bool) (s : List Char) : (dropTrailing q s).Sublist s := by
  have h := (List.dropWhile_sublist (p := q) (l := s.reverse)).reverse
  rwa [List.reverse_reverse] at h

theorem dropTrailing_concat {q : Char → Bool} {c : Char} (hc : q c = true) (s : List Char) :
    dropTrailing q (s ++ [c]) = dropTrailing q s := by
  simp [dropTrailing, hc]

/-- Nothing but separators is added by joining. -/
theorem filter_joinWith {p : Char → Bool} {sep : List Char} (hsep : sep.filter p = [])
    (parts : List (List Char)) : (joinWith sep parts).filter p = parts.flatten.filter p := by
  fun_induction joinWith sep parts with
  | case1 => rfl
  | case2 part => simp
  | case3 part rest _ ih => simp [hsep, ih]

theorem mem_joinWith {c : Char} {sep : List Char} {parts : List (List Char)}
    (h : c ∈ joinWith sep parts) : c ∈ sep ∨ ∃ part ∈ parts, c ∈ part := by
  fun_induction joinWith sep parts with
  | case1 => simp at h
  | case2 part => exact .inr ⟨part, List.mem_cons_self, h⟩
  | case3 part rest _ ih =>
    simp only [List.append_assoc, List.mem_append] at h
    rcases h with h | h | h
    · exact .inr ⟨part, List.mem_cons_self, h⟩
    · exact .inl h
    · exact (ih h).imp_right fun ⟨w, hw, hc⟩ => ⟨w, List.mem_cons_of_mem _ hw, hc⟩

end Text

namespace MarkupText

open Text

/-! ## Content -/

/-- Blanks, tabs and the two characters of a line end. -/
def isLayout (c : Char) : Bool :=
  c == ' ' || c == '\t' || c == '\r' || c == '\n'

/-- A text without its layout. -/
def content (text : List Char) : List Char :=
  text.filter (!isLayout ·)

theorem isLayout_of_isPadding {c : Char} (h : isPadding c = true) : isLayout c = true := by
  unfold isLayout
  rw [show (c == ' ' || c == '\t') = true from h]
  rfl

/-- A line keeps its content, wherever it stands. -/
theorem content_trimLine (isFirst isLast : Bool) (line : List Char) :
    content (trimLine isFirst isLast line) = content line := by
  have hpadding : ∀ c, isPadding c = true → (!isLayout c) = false := by
    intro c hc
    simp [isLayout_of_isPadding hc]
  have hreturn : ∀ c : Char, (c == '\r') = true → (!isLayout c) = false := by
    intro c hc
    simp [isLayout, eq_of_beq hc]
  unfold content trimLine
  split <;> split <;>
    simp only [filter_dropTrailing hpadding, filter_dropWhile hpadding, filter_dropTrailing hreturn]

theorem trimLine_sublist (isFirst isLast : Bool) (line : List Char) :
    (trimLine isFirst isLast line).Sublist line := by
  have hreturn := dropTrailing_sublist (· == '\r') line
  have hleft := (List.dropWhile_sublist (p := isPadding)
    (l := dropTrailing (· == '\r') line)).trans hreturn
  unfold trimLine
  split <;> split
  · exact hreturn
  · exact (dropTrailing_sublist isPadding _).trans hreturn
  · exact hleft
  · exact (dropTrailing_sublist isPadding _).trans hleft

theorem content_flatten_trimLines (isFirst : Bool) (lines : List (List Char)) :
    content (trimLines isFirst lines).flatten = content lines.flatten := by
  fun_induction trimLines isFirst lines with
  | case1 => rfl
  | case2 isFirst line => simpa using content_trimLine isFirst true line
  | case3 isFirst line rest _ ih =>
    have hline := content_trimLine isFirst false line
    unfold content at hline ih ⊢
    simp only [List.flatten_cons, List.filter_append, hline, ih]

/-- A trimmed line is a part of one of the lines. -/
theorem exists_of_mem_trimLines {isFirst : Bool} {lines : List (List Char)} {line : List Char}
    (h : line ∈ trimLines isFirst lines) : ∃ whole ∈ lines, line.Sublist whole := by
  fun_induction trimLines isFirst lines with
  | case1 => simp at h
  | case2 isFirst whole =>
    rw [List.mem_singleton.1 h]
    exact ⟨whole, List.mem_cons_self, trimLine_sublist _ _ _⟩
  | case3 isFirst whole rest _ ih =>
    rcases List.mem_cons.1 h with rfl | h
    · exact ⟨whole, List.mem_cons_self, trimLine_sublist _ _ _⟩
    · obtain ⟨other, hother, hsub⟩ := ih h
      exact ⟨other, List.mem_cons_of_mem _ hother, hsub⟩

/-- The lines that are shown. -/
def shownLines (raw : List Char) : List (List Char) :=
  (trimLines true (splitAt '\n' raw)).filter fun line => !line.isEmpty

theorem normalize_eq (raw : List Char) :
    normalize raw =
      if shownLines raw = [] then none else some (joinWith [' '] (shownLines raw)) := by
  unfold normalize
  rw [← shownLines]
  split
  · simp_all
  · rename_i lines hne
    rw [if_neg]
    exact hne

theorem content_normalize (raw : List Char) :
    content ((normalize raw).getD []) = content raw := by
  have hshown : content (joinWith [' '] (shownLines raw)) = content raw := by
    calc content (joinWith [' '] (shownLines raw))
        = content (shownLines raw).flatten := filter_joinWith (by decide) _
      _ = content (trimLines true (splitAt '\n' raw)).flatten := by
          rw [shownLines, List.flatten_filter_not_isEmpty]
      _ = content (splitAt '\n' raw).flatten := content_flatten_trimLines true _
      _ = content raw := filter_splitAt (by decide) raw
  rw [normalize_eq]
  split
  · rename_i hnil
    rw [hnil] at hshown
    exact hshown
  · exact hshown

theorem newline_not_mem_normalize {raw text : List Char} (h : normalize raw = some text) :
    '\n' ∉ text := by
  rw [normalize_eq] at h
  split at h
  · cases h
  · cases h
    intro hmem
    rcases mem_joinWith hmem with hsep | ⟨line, hline, hc⟩
    · simp at hsep
    · obtain ⟨whole, hwhole, hsub⟩ := exists_of_mem_trimLines (List.mem_filter.1 hline).1
      exact not_mem_of_mem_splitAt hwhole (hsub.mem hc)

/-! ## Line ends -/

/-- A text with a carriage return in front of every newline. -/
def withReturns (raw : List Char) : List Char :=
  raw.flatMap fun c => if c = '\n' then ['\r', '\n'] else [c]

/-- Lines with a carriage return at the end of all but the last. -/
def endLines : List (List Char) → List (List Char)
  | [] => []
  | [line] => [line]
  | line :: rest => (line ++ ['\r']) :: endLines rest

theorem endLines_cons {lines : List (List Char)} (h : lines ≠ []) (line : List Char) :
    endLines (line :: lines) = (line ++ ['\r']) :: endLines lines := by
  obtain ⟨first, rest, rfl⟩ := List.exists_cons_of_ne_nil h
  rfl

/-- A text with returns has the same lines, each but the last with a return at its end. -/
theorem splitAt_withReturns (raw : List Char) :
    splitAt '\n' (withReturns raw) = endLines (splitAt '\n' raw) := by
  induction raw with
  | nil => rfl
  | cons c raw ih =>
    by_cases hc : c = '\n'
    · have hcons : withReturns (c :: raw) = '\r' :: '\n' :: withReturns raw := by
        simp [withReturns, hc]
      have hreturn : splitAt '\n' ('\r' :: '\n' :: withReturns raw) =
          ['\r'] :: splitAt '\n' (withReturns raw) := by
        simp [splitAt]
      rw [hcons, hreturn, hc, splitAt_cons_self, endLines_cons (splitAt_ne_nil _ _), ih]
      rfl
    · have hcons : withReturns (c :: raw) = c :: withReturns raw := by
        simp [withReturns, hc]
      -- the character goes to the front of the first line, whether or not others follow
      obtain ⟨line, lines, hraw, hsplit⟩ := splitAt_cons_of_ne hc raw
      obtain ⟨line', lines', hraw', hsplit'⟩ := splitAt_cons_of_ne hc (withReturns raw)
      rw [hcons, hsplit, hsplit']
      rw [hraw, hraw'] at ih
      cases lines with
      | nil =>
        cases ih
        rfl
      | cons next lines =>
        cases ih
        rfl

/-- Carriage returns at the ends of lines are trimmed away. -/
theorem trimLines_endLines (isFirst : Bool) (lines : List (List Char)) :
    trimLines isFirst (endLines lines) = trimLines isFirst lines := by
  induction lines generalizing isFirst with
  | nil => rfl
  | cons line lines ih =>
    cases lines with
    | nil => rfl
    | cons next lines =>
      have hne : endLines (next :: lines) ≠ [] := by cases lines <;> simp [endLines]
      have hline : trimLine isFirst false (line ++ ['\r']) = trimLine isFirst false line := by
        rw [trimLine, dropTrailing_concat (by decide)]
        rfl
      obtain ⟨next', lines', hends⟩ := List.exists_cons_of_ne_nil hne
      rw [endLines_cons (by simp), hends, trimLines, hline, ← hends, ih]
      · rfl
      · simp

/-- Of a text between tags the content is shown, all of it and in its order, on one line, and what
is shown does not depend on which of the two line ends the text has. -/
theorem normalize_keepsContent (raw : List Char) :
    content ((normalize raw).getD []) = content raw ∧
      (∀ text, normalize raw = some text → '\n' ∉ text) ∧
      normalize (withReturns raw) = normalize raw := by
  refine ⟨content_normalize raw, fun text h => newline_not_mem_normalize h, ?_⟩
  rw [normalize, splitAt_withReturns, trimLines_endLines]
  rfl

end MarkupText

end TsxCompiler

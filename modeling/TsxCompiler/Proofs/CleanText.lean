import TsxCompiler.Proofs.Lexemes
import TsxCompiler.Proofs.TokenPieces

/-!
# Text that is cut cleanly

A clean text is made of characters that open neither a string nor a comment, of slashes with a
blank behind them, and of closed strings. Clean texts can be put one behind the other, and cutting
one into tokens gives no comment and no string that is left open (`tokenize_clean`).
-/

namespace TsxCompiler.Highlight

open Grammar (isBody isBody_induct)

/-- A string with its quotes: what stands between them does not end it, and the closing quote is not
escaped. -/
def IsClosed (text : List Char) : Prop :=
  ∃ quote body, isQuote quote = true ∧ isBody (· != quote) body = true ∧
    text = quote :: (body ++ [quote])

/-- Characters that open neither a string nor a comment. -/
def opensNothing (c : Char) : Bool := !isQuote c && c != '/'

inductive Clean : List Char → Prop where
  | nil : Clean []
  | plain {c : Char} {s : List Char} : isQuote c = false → c ≠ '/' → Clean s → Clean (c :: s)
  | slash {s : List Char} : Clean s → Clean ('/' :: ' ' :: s)
  | string {text s : List Char} : IsClosed text → Clean s → Clean (text ++ s)

namespace Clean

theorem append {s t : List Char} (hs : Clean s) (ht : Clean t) : Clean (s ++ t) := by
  induction hs with
  | nil => exact ht
  | plain hq hc _ ih => exact .plain hq hc ih
  | slash _ ih => exact .slash ih
  | string htext _ ih =>
    rw [List.append_assoc]
    exact .string htext ih

theorem ofClosed {text : List Char} (h : IsClosed text) : Clean text := by
  have hclean := Clean.string h .nil
  rwa [List.append_nil] at hclean

theorem ofPlain {s : List Char} (h : s.all opensNothing = true) : Clean s := by
  induction s with
  | nil => exact .nil
  | cons c s ih =>
    simp only [List.all_cons, opensNothing, Bool.and_eq_true, Bool.not_eq_true', bne_iff_ne,
      ne_eq] at h
    exact .plain h.1.1 h.1.2 (ih h.2)

/-- A run of one kind of characters may be taken from the front, if neither quotes nor slashes are
of that kind. -/
theorem dropWhile {p : Char → Bool} {s : List Char} (h : Clean s)
    (hq : ∀ c, isQuote c = true → p c = false) (hslash : p '/' = false) :
    Clean (s.dropWhile p) := by
  induction h with
  | nil => exact .nil
  | @plain c s hc hne hs ih =>
    rw [List.dropWhile_cons]
    split
    · exact ih
    · exact .plain hc hne hs
  | slash hs ih =>
    rw [List.dropWhile_cons_of_neg (by simp [hslash])]
    exact .slash hs
  | @string text s htext hs ih =>
    obtain ⟨quote, body, hquote, hbody, rfl⟩ := htext
    rw [List.cons_append, List.dropWhile_cons_of_neg (by simp [hq quote hquote])]
    exact .string ⟨quote, body, hquote, hbody, rfl⟩ hs

end Clean

/-! ## One token -/

/-- A character that is no backslash ends a string or belongs to it. -/
theorem quoted_cons {quote c : Char} (hc : c ≠ '\\') (s : List Char) :
    quoted quote (c :: s) =
      if c == quote then ([c], s) else (c :: (quoted quote s).1, (quoted quote s).2) := by
  rw [quoted.eq_def]
  split
  · simp_all
  · rename_i heq
    exact absurd (List.cons.inj heq).1 hc
  · rename_i heq
    obtain ⟨rfl, rfl⟩ := List.cons.inj heq
    rfl

/-- The end of a closed string is found where it is. -/
theorem quoted_append_quote {quote : Char} {body : List Char} (hq : quote ≠ '\\')
    (hbody : isBody (· != quote) body = true) (s : List Char) :
    quoted quote (body ++ quote :: s) = (body ++ [quote], s) := by
  refine isBody_induct (motive := fun body => quoted quote (body ++ quote :: s) = (body ++ [quote], s))
    ?_ ?_ ?_ hbody
  · simp [quoted_cons hq]
  · intro c rest ih
    rw [List.cons_append, List.cons_append, quoted, ih]
    rfl
  · intro c rest hc hne ih
    have hne : (c == quote) = false := by simpa using hne
    rw [List.cons_append, quoted_cons hc, hne, ih]
    rfl

theorem isWordChar_of_isQuote {c : Char} (h : isQuote c = true) : isWordChar c = false := by
  simp only [isQuote, Bool.or_eq_true, beq_iff_eq] at h
  rcases h with (rfl | rfl) | rfl <;> decide

theorem isPunctuation_of_isQuote {c : Char} (h : isQuote c = true) : isPunctuation c = false := by
  simp only [isQuote, Bool.or_eq_true, beq_iff_eq] at h
  rcases h with (rfl | rfl) | rfl <;> decide

theorem isBlank_of_isQuote {c : Char} (h : isQuote c = true) : Text.isBlank c = false := by
  simp only [isQuote, Bool.or_eq_true, beq_iff_eq] at h
  rcases h with (rfl | rfl) | rfl <;> decide

/-- What a token of clean text is, and that the text behind it is clean again. -/
structure CutsCleanly (c : Char) (token : Cut) : Prop where
  noComment : token.tokenClass ≠ .comment
  closed : token.tokenClass = .string → IsClosed (c :: token.taken)
  rest : Clean token.rest

/-- A token that starts with neither a quote nor a slash is a run of one kind of characters, and a
quote is none of them. -/
theorem cut_plain {c : Char} {s : List Char} (hq : isQuote c = false) (hc : c ≠ '/')
    (hs : Clean s) : CutsCleanly c (cut c s) := by
  have hslash : (c == '/') = false := by simpa using hc
  simp only [cut, hslash, hq, Bool.false_eq_true, if_false]
  split
  · have hrest : Clean (s.dropWhile isWordChar) :=
      hs.dropWhile (fun _ => isWordChar_of_isQuote) (by decide)
    have hclass : ∀ word rest, wordClass word rest = .keyword ∨ wordClass word rest = .identifier := by
      intro word rest
      unfold wordClass
      split
      · exact .inl rfl
      · exact .inr rfl
    rcases hclass (c :: (run isWordChar s).1) (run isWordChar s).2 with h | h
    · exact ⟨by simp [h], by simp [h], hrest⟩
    · exact ⟨by simp [h], by simp [h], hrest⟩
  · split
    · exact ⟨nofun, nofun, hs.dropWhile (fun _ => isPunctuation_of_isQuote) (by decide)⟩
    · split
      · exact ⟨nofun, nofun, hs.dropWhile (fun _ => isBlank_of_isQuote) (by decide)⟩
      · exact ⟨nofun, nofun, hs⟩

theorem cut_slash {s : List Char} (hs : Clean s) : CutsCleanly '/' (cut '/' (' ' :: s)) :=
  ⟨nofun, nofun, .plain (by decide) (by decide) hs⟩

/-- A closed string is cut off as one token. -/
theorem cut_closed {quote : Char} {body : List Char} (hquote : isQuote quote = true)
    (hbody : isBody (· != quote) body = true) (s : List Char) :
    cut quote (body ++ quote :: s) = ⟨.string, body ++ [quote], s⟩ := by
  have hne : quote ≠ '\\' ∧ (quote == '/') = false := by
    simp only [isQuote, Bool.or_eq_true, beq_iff_eq] at hquote
    rcases hquote with (rfl | rfl) | rfl <;> decide
  simp only [cut, hne.2, hquote, Bool.false_eq_true, if_false, if_true,
    quoted_append_quote hne.1 hbody]
  rfl

theorem cut_string {quote : Char} {body s : List Char} (hquote : isQuote quote = true)
    (hbody : isBody (· != quote) body = true) (hs : Clean s) :
    CutsCleanly quote (cut quote (body ++ quote :: s)) := by
  rw [cut_closed hquote hbody]
  exact ⟨nofun, fun _ => ⟨quote, body, hquote, hbody, rfl⟩, hs⟩

/-- One token of clean text. -/
theorem cut_clean {c : Char} {s : List Char} (h : Clean (c :: s)) : CutsCleanly c (cut c s) := by
  generalize htext : c :: s = text at h
  cases h with
  | nil => cases htext
  | plain hq hc hs =>
    obtain ⟨rfl, rfl⟩ := List.cons.inj htext
    exact cut_plain hq hc hs
  | slash hs =>
    obtain ⟨rfl, rfl⟩ := List.cons.inj htext
    exact cut_slash hs
  | string hclosed hs =>
    obtain ⟨quote, body, hquote, hbody, rfl⟩ := hclosed
    rw [List.cons_append, List.append_assoc] at htext
    obtain ⟨rfl, rfl⟩ := List.cons.inj htext
    exact cut_string hquote hbody hs

/-! ## All tokens -/

theorem pieces_clean {s : List Char} (h : Clean s) :
    ∀ x ∈ pieces s, x.1 ≠ .comment ∧ (x.1 = .string → IsClosed x.2) := by
  fun_induction pieces s with
  | case1 => simp
  | case2 c s hle ih =>
    have hcut := cut_clean h
    intro x hx
    rcases List.mem_cons.1 hx with rfl | hx
    · exact ⟨hcut.noComment, hcut.closed⟩
    · exact ih hcut.rest x hx

end TsxCompiler.Highlight

namespace TsxCompiler

open Highlight

theorem Token.place_forall {P : TokenClass → List Char → Prop} {xs : List (TokenClass × List Char)}
    (h : ∀ x ∈ xs, P x.1 x.2) (start : Nat) :
    ∀ t ∈ Token.place start xs, P t.tokenClass t.text.toList := by
  induction xs generalizing start with
  | nil => simp [Token.place]
  | cons x xs ih =>
    obtain ⟨tokenClass, chars⟩ := x
    intro t ht
    simp only [Token.place, List.mem_cons] at ht
    rcases ht with rfl | ht
    · simpa using h (tokenClass, chars) (by simp)
    · exact ih (fun y hy => h y (by simp [hy])) _ t ht

/-- Clean code has no comment, and all its strings are closed. -/
theorem tokenize_clean {code : String} (h : Clean code.toList) :
    ∀ t ∈ Token.tokenize code,
      t.tokenClass ≠ .comment ∧ (t.tokenClass = .string → IsClosed t.text.toList) := by
  rw [Token.tokenize_eq]
  exact Token.place_forall (P := fun c s => c ≠ .comment ∧ (c = .string → IsClosed s))
    (pieces_clean h) 0

end TsxCompiler

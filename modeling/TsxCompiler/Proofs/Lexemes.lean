import TsxCompiler.Proofs.Rules

/-!
# Lexemes as functions on texts

What each lexeme reads, said without the parser: blanks and comments are what `skip` drops, a word
is the longest run of word characters, a literal is a text of a certain spelling. Each fact comes in
two directions: the spelling is read as it stands, and what was read has the spelling.
-/

namespace TsxCompiler.Grammar

open Peg Peg.Parser Text

variable {α β : Type}

/-! ## Blanks and comments -/

/-- A text from its first character that is neither blank nor part of a comment. -/
def skip (s : List Char) : List Char :=
  ((run trivia s).map Prod.snd).getD s

theorem run_trivia (s : List Char) : run trivia s = some ((), skip s) := by
  obtain ⟨us, r, h⟩ := run_many_isSome triviaPiece s
  simp [skip, trivia, run_yielding, h]

theorem run_lexeme (p : Parser α) (s : List Char) :
    run (lexeme p) s = (run p s).map fun x => (x.1, skip x.2) := by
  rw [lexeme, run_thenSkip]
  cases run p s <;> simp [run_trivia]

theorem skip_suffix (s : List Char) : skip s <:+ s :=
  Shrinks.suffix s () (skip s) (run_trivia s)

/-- The blank or comment in front is dropped first. -/
theorem skip_of_piece {s r : List Char} {u : Unit} (h : run triviaPiece s = some (u, r)) :
    skip s = skip r := by
  have hs := run_trivia s
  have hr := run_trivia r
  rw [trivia, run_yielding] at hs hr
  rw [run_many_step h] at hs
  cases hm : run (many triviaPiece) r with
  | none => simp [hm] at hr
  | some x =>
    simp only [hm, Option.map_some, Option.some.injEq, Prod.mk.injEq, true_and] at hs hr
    rw [← hs, ← hr]

theorem skip_of_none {s : List Char} (h : run triviaPiece s = none) : skip s = s := by
  simp [skip, trivia, run_yielding, run_many_none h]

@[simp] theorem skip_nil : skip [] = [] := by
  refine skip_of_none ?_
  simp [triviaPiece, run_choice_cons, run_yielding, run_seq, literal, run_chars_cons]

theorem skip_blank {c : Char} (h : isBlank c = true) (s : List Char) : skip (c :: s) = skip s := by
  refine skip_of_piece (u := ()) ?_
  simp [triviaPiece, run_choice_cons, run_yielding, run_satisfy_cons, h]

/-- A character that starts neither a blank nor a comment stays. -/
theorem skip_cons {c : Char} (h : isBlank c = false) (hc : c ≠ '/') (s : List Char) :
    skip (c :: s) = c :: s := by
  refine skip_of_none ?_
  simp [triviaPiece, run_choice_cons, run_yielding, run_satisfy_cons, h, run_seq, literal,
    run_chars_cons, run_char_cons, hc]

/-- A slash starts a comment only before a slash or a star. -/
theorem skip_slash {c : Char} (h : c ≠ '/') (hc : c ≠ '*') (s : List Char) :
    skip ('/' :: c :: s) = '/' :: c :: s := by
  refine skip_of_none ?_
  have hb : isBlank '/' = false := by decide
  simp [triviaPiece, run_choice_cons, run_yielding, run_satisfy_cons, hb, run_seq, literal,
    run_chars_cons, run_char_cons, h, hc]

theorem skip_slash_end : skip ['/'] = ['/'] := by
  refine skip_of_none ?_
  have hb : isBlank '/' = false := by decide
  simp [triviaPiece, run_choice_cons, run_yielding, run_satisfy_cons, hb, run_seq, literal,
    run_chars_cons, run_char_cons]

/-- There is nothing left to drop behind what was dropped. -/
theorem run_triviaPiece_skip (s : List Char) : run triviaPiece (skip s) = none := by
  induction hn : s.length using Nat.strongRecOn generalizing s with
  | _ n ih =>
    cases h : run triviaPiece s with
    | none => rw [skip_of_none h, h]
    | some x =>
      have hlt := length_lt_of_run h
      rw [skip_of_piece h]
      exact ih x.2.length (by omega) x.2 rfl

@[simp] theorem skip_skip (s : List Char) : skip (skip s) = skip s :=
  skip_of_none (run_triviaPiece_skip s)

/-! ## Punctuation -/

theorem run_sym (text : String) (s : List Char) :
    run (sym text) s = (run (chars text.toList) s).map fun x => ((), skip x.2) := by
  rw [sym, run_label, run_lexeme, literal]

theorem run_sym_append (text : String) (s : List Char) :
    run (sym text) (text.toList ++ s) = some ((), skip s) := by
  simp [run_sym, run_chars_append]

theorem run_sym_inv {text : String} {s r : List Char} {u : Unit}
    (h : run (sym text) s = some (u, r)) : ∃ t, s = text.toList ++ t ∧ r = skip t := by
  rw [run_sym] at h
  obtain ⟨⟨v, t⟩, ht, hr⟩ := Option.map_eq_some_iff.1 h
  cases hr
  exact ⟨t, run_chars_inv ht, rfl⟩

/-- A punctuator is not read where its first character does not stand. -/
theorem run_sym_none (text : String) {wanted c : Char} {more : List Char}
    (ht : text.toList = wanted :: more) (hc : c ≠ wanted) (s : List Char) :
    run (sym text) (c :: s) = none := by
  simp [run_sym, ht, run_chars_cons, run_char_cons, hc]

@[simp] theorem run_sym_nil {text : String} (ht : text.toList ≠ []) : run (sym text) [] = none := by
  cases h : text.toList with
  | nil => exact absurd h ht
  | cons c more => simp [run_sym, h, run_chars_cons]

/-! ## Words -/

/-- The characters that pass a test, as many as there are. -/
theorem run_many_satisfy (test : Char → Bool) (s : List Char) :
    run (many (satisfy test)) s = some (s.takeWhile test, s.dropWhile test) := by
  induction s with
  | nil => exact run_many_none rfl
  | cons c s ih =>
    cases h : test c with
    | false => simp [run_many_none, run_satisfy_cons, h]
    | true =>
      have hc : run (satisfy test) (c :: s) = some (c, s) := by simp [run_satisfy_cons, h]
      simp [run_many_step hc, ih, h]

@[simp] theorem run_rawWord_nil : run rawWord [] = none := by
  simp [rawWord, run_both]

theorem run_rawWord_cons (c : Char) (s : List Char) :
    run rawWord (c :: s) =
      if isWordStart c then
        some (String.ofList (c :: s.takeWhile isWordPart), s.dropWhile isWordPart)
      else none := by
  rw [rawWord, run_both, run_satisfy_cons]
  split <;> simp [run_many_satisfy]

/-- What holds of ten characters holds of every digit. -/
theorem forall_isDigit {P : Char → Prop} (h : ∀ n < 58, 48 ≤ n → P (Char.ofNat n)) {c : Char}
    (hc : c.isDigit = true) : P c := by
  simp only [Char.isDigit, Bool.and_eq_true, decide_eq_true_eq, UInt32.le_iff_toNat_le] at hc
  have := h c.toNat (Nat.lt_succ_of_le hc.2) hc.1
  rwa [Char.ofNat_toNat] at this

theorem isWordStart_of_isDigit {c : Char} (h : c.isDigit = true) : isWordStart c = false :=
  forall_isDigit (P := fun c => isWordStart c = false) (by decide) h

/-- The code points of all blanks. -/
def blankCodes : List Nat :=
  [9, 10, 11, 12, 13, 0x20, 0x85, 0xa0, 0x1680, 0x2000, 0x2001, 0x2002, 0x2003, 0x2004, 0x2005, 0x2006,
    0x2007, 0x2008, 0x2009, 0x200a, 0x2028, 0x2029, 0x202f, 0x205f, 0x3000]

/-- What holds of twenty-five characters holds of every blank. -/
theorem forall_isBlank {P : Char → Prop} (h : ∀ n ∈ blankCodes, P (Char.ofNat n)) {c : Char}
    (hc : isBlank c = true) : P c := by
  rw [← Char.ofNat_toNat c]
  refine h c.toNat ?_
  simp only [isBlank, inRanges, List.any_cons, List.any_nil, Bool.or_false, Bool.or_eq_true,
    Bool.and_eq_true, decide_eq_true_eq] at hc
  simp only [blankCodes, List.mem_cons, List.not_mem_nil]
  omega

/-- No blank is part of a word. -/
theorem isWordPart_of_isBlank {c : Char} (h : isBlank c = true) : isWordPart c = false :=
  forall_isBlank (P := fun c => isWordPart c = false) (by decide +kernel) h

theorem isWordPart_of_isWordStart {c : Char} (h : isWordStart c = true) : isWordPart c = true := by
  simp only [isWordStart, isWordPart, isAlphanumeric, Bool.or_eq_true] at h ⊢
  rcases h with (h | h) | h <;> simp [h]

theorem isWordStart_of_isBlank {c : Char} (h : isBlank c = true) : isWordStart c = false := by
  rw [← Bool.not_eq_true]
  intro hw
  exact absurd (isWordPart_of_isWordStart hw) (by simp [isWordPart_of_isBlank h])

/-- The three characters that open a literal. -/
def isQuote (c : Char) : Bool :=
  c == '"' || c == '\'' || c == backquote

theorem isQuote_of_isWordPart {c : Char} (h : isWordPart c = true) : isQuote c = false := by
  cases hq : isQuote c with
  | false => rfl
  | true =>
    simp only [isQuote, Bool.or_eq_true, beq_iff_eq] at hq
    rcases hq with (rfl | rfl) | rfl <;> exact absurd h (by decide)

theorem all_of_isIdentifier {name : String} (h : isIdentifier name = true) :
    name.toList.all isWordPart = true := by
  unfold isIdentifier at h
  split at h
  · simp at h
  · rename_i c cs hname
    simp only [Bool.and_eq_true] at h
    simp [hname, isWordPart_of_isWordStart h.1, h.2]

theorem run_rawWord_none {c : Char} (h : isWordStart c = false) (s : List Char) :
    run rawWord (c :: s) = none := by
  simp [run_rawWord_cons, h]

/-- Whether a word ends before a text: the text does not go on with a word character. -/
def endsWord : List Char → Bool
  | [] => true
  | c :: _ => !isWordPart c

theorem endsWord_cons {c : Char} (h : isWordPart c = false) (s : List Char) :
    endsWord (c :: s) = true := by
  simp [endsWord, h]

theorem takeWhile_append_of_all {test : Char → Bool} {w rest : List Char}
    (hw : w.all test = true) (hr : ∀ c ∈ rest.head?, test c = false) :
    (w ++ rest).takeWhile test = w ∧ (w ++ rest).dropWhile test = rest := by
  induction w with
  | nil =>
    cases rest with
    | nil => simp
    | cons c rest => simp [hr c (by simp)]
  | cons c w ih =>
    simp only [List.all_cons, Bool.and_eq_true] at hw
    simp [hw.1, ih hw.2]

/-- A word is read as a whole. -/
theorem run_rawWord_append {name : String} {rest : List Char} (hname : isIdentifier name = true)
    (hrest : endsWord rest = true) : run rawWord (name.toList ++ rest) = some (name, rest) := by
  unfold isIdentifier at hname
  cases hl : name.toList with
  | nil => simp [hl] at hname
  | cons c w =>
    simp only [hl, Bool.and_eq_true] at hname
    have hr : ∀ x ∈ rest.head?, isWordPart x = false := by
      intro x hx
      cases rest with
      | nil => simp at hx
      | cons y ys => simp_all [endsWord]
    obtain ⟨h1, h2⟩ := takeWhile_append_of_all hname.2 hr
    rw [List.cons_append, run_rawWord_cons, if_pos hname.1, h1, h2, ← hl, String.ofList_toList]

/-- What was read as a word is one, and it ends where reading stopped. -/
theorem run_rawWord_inv {s r : List Char} {name : String} (h : run rawWord s = some (name, r)) :
    s = name.toList ++ r ∧ isIdentifier name = true ∧ endsWord r = true := by
  cases s with
  | nil => simp at h
  | cons c s =>
    rw [run_rawWord_cons] at h
    split at h
    · rename_i hc
      simp only [Option.some.injEq, Prod.mk.injEq] at h
      obtain ⟨rfl, rfl⟩ := h
      refine ⟨by simp, ?_, ?_⟩
      · simp only [isIdentifier, String.toList_ofList, hc, Bool.true_and]
        exact List.all_takeWhile
      · cases hd : s.dropWhile isWordPart with
        | nil => rfl
        | cons x xs =>
          have := List.head?_dropWhile_not isWordPart s
          simp_all [endsWord]
    · simp at h

theorem run_word (s : List Char) : run word s = (run rawWord s).map fun x => (x.1, skip x.2) := by
  rw [word, run_label, run_lexeme]

theorem run_identifier (s : List Char) :
    run identifier s =
      (run rawWord s).bind fun x => if isReserved x.1 then none else some (x.1, skip x.2) := by
  rw [identifier, run_label, run_lexeme, run_check]
  cases run rawWord s with
  | none => rfl
  | some x => by_cases h : isReserved x.1 <;> simp [h, Except.toOption]

theorem run_keyword (text : String) (s : List Char) :
    run (keyword text) s =
      (run rawWord s).bind fun x => if x.1 = text then some ((), skip x.2) else none := by
  rw [keyword, run_label, run_lexeme, run_check]
  cases run rawWord s with
  | none => rfl
  | some x => by_cases h : x.1 = text <;> simp [h, Except.toOption]

/-- Whether a text names a binding: it has the shape of an identifier and is not reserved. -/
def isName (name : String) : Bool :=
  isIdentifier name && !isReserved name

theorem isIdentifier_of_isName {name : String} (h : isName name = true) :
    isIdentifier name = true := by
  simp only [isName, Bool.and_eq_true] at h
  exact h.1

theorem run_identifier_append {name : String} {rest : List Char} (hname : isName name = true)
    (hrest : endsWord rest = true) :
    run identifier (name.toList ++ rest) = some (name, skip rest) := by
  simp only [isName, Bool.and_eq_true, Bool.not_eq_true'] at hname
  simp [run_identifier, run_rawWord_append hname.1 hrest, hname.2]

theorem run_identifier_inv {s r : List Char} {name : String}
    (h : run identifier s = some (name, r)) :
    isName name = true ∧ ∃ t, s = name.toList ++ t ∧ endsWord t = true ∧ r = skip t := by
  rw [run_identifier] at h
  obtain ⟨⟨w, t⟩, hw, hr⟩ := Option.bind_eq_some_iff.1 h
  split at hr
  · simp at hr
  · rename_i hres
    simp only [Option.some.injEq, Prod.mk.injEq] at hr
    obtain ⟨rfl, rfl⟩ := hr
    obtain ⟨hs, hshape, hend⟩ := run_rawWord_inv hw
    exact ⟨by simp [isName, hshape, hres], t, hs, hend, rfl⟩

theorem run_word_append {name : String} {rest : List Char} (hname : isIdentifier name = true)
    (hrest : endsWord rest = true) :
    run word (name.toList ++ rest) = some (name, skip rest) := by
  simp [run_word, run_rawWord_append hname hrest]

theorem run_word_inv {s r : List Char} {name : String} (h : run word s = some (name, r)) :
    isIdentifier name = true ∧ ∃ t, s = name.toList ++ t ∧ endsWord t = true ∧ r = skip t := by
  rw [run_word] at h
  obtain ⟨⟨w, t⟩, hw, hr⟩ := Option.map_eq_some_iff.1 h
  simp only [Prod.mk.injEq] at hr
  obtain ⟨rfl, rfl⟩ := hr
  obtain ⟨hs, hshape, hend⟩ := run_rawWord_inv hw
  exact ⟨hshape, t, hs, hend, rfl⟩

theorem run_keyword_append {text : String} {rest : List Char} (htext : isIdentifier text = true)
    (hrest : endsWord rest = true) :
    run (keyword text) (text.toList ++ rest) = some ((), skip rest) := by
  simp [run_keyword, run_rawWord_append htext hrest]

/-- A keyword is not read where another word stands. -/
theorem run_keyword_other {text name : String} {rest : List Char}
    (hname : isIdentifier name = true) (hrest : endsWord rest = true) (hne : name ≠ text) :
    run (keyword text) (name.toList ++ rest) = none := by
  simp [run_keyword, run_rawWord_append hname hrest, hne]

@[simp] theorem run_word_nil : run word [] = none := by
  simp [run_word]

@[simp] theorem run_identifier_nil : run identifier [] = none := by
  simp [run_identifier]

@[simp] theorem run_keyword_nil (text : String) : run (keyword text) [] = none := by
  simp [run_keyword]

theorem run_word_none {c : Char} (h : isWordStart c = false) (s : List Char) :
    run word (c :: s) = none := by
  simp [run_word, run_rawWord_none h]

theorem run_identifier_reserved {name : String} {rest : List Char} (hname : isIdentifier name = true)
    (hrest : endsWord rest = true) (hres : isReserved name = true) :
    run identifier (name.toList ++ rest) = none := by
  rw [run_identifier, run_rawWord_append hname hrest, Option.bind_some, if_pos hres]

theorem run_identifier_none {c : Char} (h : isWordStart c = false) (s : List Char) :
    run identifier (c :: s) = none := by
  simp [run_identifier, run_rawWord_none h]

theorem run_keyword_none {c : Char} (h : isWordStart c = false) (text : String) (s : List Char) :
    run (keyword text) (c :: s) = none := by
  simp [run_keyword, run_rawWord_none h]

/-! ## Quoted text -/

/-- Whether a text is made of plain characters and of pairs of a backslash and any character. -/
def isBody (plain : Char → Bool) : List Char → Bool
  | [] => true
  | ['\\'] => false
  | '\\' :: _ :: rest => isBody plain rest
  | c :: rest => plain c && isBody plain rest

/-- One piece of quoted text. -/
def bodyPiece (plain : Char → Bool) : Parser (List Char) :=
  escapePair.orElse ((satisfy plain).map fun c => [c])

instance (plain : Char → Bool) : Consumes (bodyPiece plain) := by
  unfold bodyPiece
  infer_instance

theorem run_escapePair_cons (c x : Char) (s : List Char) :
    run escapePair (c :: x :: s) = if c = '\\' then some ([c, x], s) else none := by
  rw [escapePair, run_both, run_char_cons, anyChar]
  split <;> simp [run_satisfy_cons]

@[simp] theorem run_escapePair_nil : run escapePair [] = none := by
  simp [escapePair, run_both]

@[simp] theorem run_escapePair_single (c : Char) : run escapePair [c] = none := by
  rw [escapePair, run_both, run_char_cons, anyChar]
  split <;> simp

/-- What stops quoted text: the end, or a character that is neither plain nor a backslash. -/
def endsBody (plain : Char → Bool) : List Char → Bool
  | [] => true
  | c :: _ => !plain c && c != '\\'

theorem run_bodyPiece_none {plain : Char → Bool} {rest : List Char}
    (h : endsBody plain rest = true) : run (bodyPiece plain) rest = none := by
  cases rest with
  | nil => simp [bodyPiece, run_orElse, run_map]
  | cons c rest =>
    simp only [endsBody, Bool.and_eq_true, Bool.not_eq_true', bne_iff_ne, ne_eq] at h
    cases rest with
    | nil => simp [bodyPiece, run_orElse, run_map, run_satisfy_cons, h.1]
    | cons x rest =>
      simp [bodyPiece, run_orElse, run_map, run_satisfy_cons, run_escapePair_cons, h.1, h.2]

/-- Quoted text is read up to what stops it. -/
theorem run_body_append {plain : Char → Bool} {body rest : List Char}
    (hbody : isBody plain body = true) (hrest : endsBody plain rest = true) :
    run ((many (bodyPiece plain)).map List.flatten) (body ++ rest) = some (body, rest) := by
  suffices h : ∃ pieces, run (many (bodyPiece plain)) (body ++ rest) = some (pieces, rest) ∧
      pieces.flatten = body by
    obtain ⟨pieces, hp, rfl⟩ := h
    simp [run_map, hp]
  induction body using isBody.induct with
  | case1 => exact ⟨[], run_many_none (run_bodyPiece_none hrest), rfl⟩
  | case2 => simp [isBody] at hbody
  -- an escape takes two characters at once
  | case3 x body ih =>
    rw [isBody] at hbody
    obtain ⟨pieces, hp, hflat⟩ := ih hbody
    have hx : run (bodyPiece plain) ('\\' :: x :: body ++ rest) =
        some (['\\', x], body ++ rest) := by
      simp [bodyPiece, run_orElse, run_escapePair_cons]
    exact ⟨['\\', x] :: pieces, by rw [run_many_step hx, hp]; rfl, by simp [hflat]⟩
  | case4 c body h1 h2 ih =>
    have hne : c ≠ '\\' := by
      rintro rfl
      cases body with
      | nil => exact h1 rfl rfl
      | cons x body => exact h2 x body rfl rfl
    rw [isBody] at hbody
    · simp only [Bool.and_eq_true] at hbody
      obtain ⟨pieces, hp, hflat⟩ := ih hbody.2
      have hesc : run escapePair (c :: body ++ rest) = none := by
        cases hl : body ++ rest with
        | nil => simp [hl]
        | cons x s => simp [hl, run_escapePair_cons, hne]
      have hc : run (bodyPiece plain) (c :: body ++ rest) = some ([c], body ++ rest) := by
        rw [bodyPiece, run_orElse, hesc]
        simp [run_map, run_satisfy_cons, hbody.1]
      exact ⟨[c] :: pieces, by rw [run_many_step hc, hp]; rfl, by simp [hflat]⟩
    · exact h1
    · exact h2

theorem isBody_cons_plain {plain : Char → Bool} {c : Char} {body : List Char}
    (hc : plain c = true) (hne : c ≠ '\\') (hbody : isBody plain body = true) :
    isBody plain (c :: body) = true := by
  rw [isBody]
  · simp [hc, hbody]
  · rintro rfl -
    exact hne rfl
  · rintro x rest rfl -
    exact hne rfl

/-- Induction over quoted text, one piece at a time. -/
theorem isBody_induct {plain : Char → Bool} {motive : List Char → Prop} (nil : motive [])
    (pair : ∀ c rest, motive rest → motive ('\\' :: c :: rest))
    (char : ∀ c rest, c ≠ '\\' → plain c = true → motive rest → motive (c :: rest))
    {body : List Char} (h : isBody plain body = true) : motive body := by
  fun_induction isBody plain body with
  | case1 => exact nil
  | case2 => simp at h
  | case3 c rest ih => exact pair c rest (ih h)
  | case4 c rest hsingle hpair ih =>
    simp only [Bool.and_eq_true] at h
    refine char c rest ?_ h.1 (ih h.2)
    rintro rfl
    cases rest with
    | nil => exact hsingle rfl rfl
    | cons x rest => exact hpair x rest rfl rfl

/-- A piece of a literal is an escape with the character behind it or one plain character. -/
theorem run_bodyPiece_inv {plain : Char → Bool} (hplain : plain '\\' = false) {s r : List Char}
    {piece : List Char} (h : run (bodyPiece plain) s = some (piece, r)) :
    s = piece ++ r ∧ ∀ body, isBody plain body = true → isBody plain (piece ++ body) = true := by
  rcases run_orElse_inv h with h | ⟨-, h⟩
  · match s, h with
    | [], h => simp at h
    | [c], h => simp at h
    | c :: x :: s, h =>
      rw [run_escapePair_cons] at h
      split at h
      · rename_i hc
        simp only [Option.some.injEq, Prod.mk.injEq] at h
        obtain ⟨rfl, rfl⟩ := h
        subst hc
        exact ⟨rfl, fun body hb => by simpa [isBody] using hb⟩
      · simp at h
  · obtain ⟨c, hc, rfl⟩ := run_map_inv h
    cases s with
    | nil => simp at hc
    | cons y s =>
      rw [run_satisfy_cons] at hc
      split at hc
      · rename_i hy
        simp only [Option.some.injEq, Prod.mk.injEq] at hc
        obtain ⟨rfl, rfl⟩ := hc
        refine ⟨rfl, fun body hb => isBody_cons_plain hy ?_ hb⟩
        rintro rfl
        simp [hplain] at hy
      · simp at hc

/-- What was read as quoted text is quoted text. -/
theorem run_body_inv {plain : Char → Bool} (hplain : plain '\\' = false) {s r body : List Char}
    (h : run ((many (bodyPiece plain)).map List.flatten) s = some (body, r)) :
    s = body ++ r ∧ isBody plain body = true := by
  obtain ⟨pieces, hp, rfl⟩ := run_map_inv h
  refine run_many_induct (motive := fun pieces s r => s = pieces.flatten ++ r ∧
    isBody plain pieces.flatten = true) ?_ ?_ hp
  · intro s _
    exact ⟨rfl, rfl⟩
  · rintro s t r piece pieces hpiece - ⟨rfl, hbody⟩
    obtain ⟨rfl, hcons⟩ := run_bodyPiece_inv hplain hpiece
    exact ⟨by simp, hcons _ hbody⟩

/-! ## Literals -/

/-- Characters that stand for themselves in a string with the given quotes. -/
def isStringChar (quote c : Char) : Bool :=
  c != quote && c != '\\' && c != '\n'

/-- Characters that stand for themselves in a template. -/
def isTemplateChar (c : Char) : Bool :=
  c != backquote && c != '\\'

/-- A string literal with a spelling: quotes of one kind around a body that they do not end early,
and the value the body stands for. -/
def IsSpelled (lit : StringLit) : Prop :=
  ∃ quote body, (quote = '"' ∨ quote = '\'') ∧ isBody (isStringChar quote) body = true ∧
    lit.raw = some (String.ofList (quote :: (body ++ [quote]))) ∧
    lit.value = String.ofList (unescape body)

theorem IsSpelled.exists_raw {lit : StringLit} (h : IsSpelled lit) :
    ∃ raw, lit.raw = some raw := by
  obtain ⟨quote, body, -, -, hraw, -⟩ := h
  exact ⟨_, hraw⟩

/-- A string starts with one of two quotes. -/
theorem IsSpelled.exists_quote {lit : StringLit} {raw : String} (h : IsSpelled lit)
    (hraw : lit.raw = some raw) : ∃ q t, raw.toList = q :: t ∧ (q = '"' ∨ q = '\'') := by
  obtain ⟨q, body, hq, -, hspelled, -⟩ := h
  rw [hraw, Option.some.injEq] at hspelled
  exact ⟨q, body ++ [q], by simp [hspelled], hq⟩

/-- The text between two backquotes, without a place for a substitution. -/
def isTemplateText (raw : String) : Bool :=
  isBody isTemplateChar raw.toList && !hasSubstitution raw.toList

/-- One decimal digit or more. -/
def isDigits (s : List Char) : Bool :=
  !s.isEmpty && s.all Char.isDigit

/-- A decimal number: digits, and possibly a point and digits. -/
def IsNumeral (text : String) : Prop :=
  ∃ whole, isDigits whole = true ∧
    (text.toList = whole ∨
      ∃ fraction, isDigits fraction = true ∧ text.toList = whole ++ '.' :: fraction)

/-- What holds of digits and of the point holds of every character of a number. -/
theorem all_of_isNumeral {test : Char → Bool} {text : String} (h : IsNumeral text)
    (hdigit : ∀ c, c.isDigit = true → test c = true) (hpoint : test '.' = true) :
    text.toList.all test = true := by
  have hdigits : ∀ {ds : List Char}, isDigits ds = true → ds.all test = true := by
    intro ds hds
    simp only [isDigits, Bool.and_eq_true, List.all_eq_true] at hds
    rw [List.all_eq_true]
    intro c hc
    exact hdigit c (hds.2 c hc)
  obtain ⟨whole, hwhole, htext | ⟨fraction, hfraction, htext⟩⟩ := h
  · rw [htext]
    exact hdigits hwhole
  · rw [htext, List.all_append, hdigits hwhole, List.all_cons, hpoint, hdigits hfraction]
    rfl

theorem quotedBody_eq (quote : Char) :
    quotedBody quote = (many (bodyPiece (isStringChar quote))).map List.flatten := rfl

theorem run_quotedString_append {q : Char} (hq : q ≠ '\\') {body : List Char}
    (hbody : isBody (isStringChar q) body = true) (rest : List Char) :
    run (quotedString q) (q :: (body ++ q :: rest)) =
      some (⟨String.ofList (unescape body), some (String.ofList (q :: (body ++ [q])))⟩, rest) := by
  have hend : endsBody (isStringChar q) (q :: rest) = true := by
    simp [endsBody, isStringChar, hq]
  rw [quotedString, run_map, run_thenSkip, run_skipThen, run_char_cons, if_pos rfl,
    Option.bind_some, quotedBody_eq, run_body_append hbody hend]
  simp [run_char_cons]

theorem run_char_inv {wanted c : Char} {s r : List Char} (h : run (char wanted) s = some (c, r)) :
    s = wanted :: r := by
  cases s with
  | nil => simp at h
  | cons x s =>
    rw [run_char_cons] at h
    split at h <;> simp_all

theorem run_quotedString_inv {quote : Char} {s r : List Char} {lit : StringLit}
    (h : run (quotedString quote) s = some (lit, r)) :
    ∃ body, isBody (isStringChar quote) body = true ∧ s = quote :: (body ++ quote :: r) ∧
      lit.raw = some (String.ofList (quote :: (body ++ [quote]))) ∧
      lit.value = String.ofList (unescape body) := by
  obtain ⟨body, hquoted, rfl⟩ := run_map_inv h
  obtain ⟨_, t, hhead, hclose⟩ := run_thenSkip_inv hquoted
  obtain ⟨_, u, hopen, hbody⟩ := run_skipThen_inv hhead
  rw [quotedBody_eq] at hbody
  obtain ⟨hu, hbody⟩ := run_body_inv (by simp [isStringChar]) hbody
  rw [run_char_inv hopen, hu, run_char_inv hclose]
  exact ⟨body, hbody, rfl, rfl, rfl⟩

theorem run_quotedString_none {q c : Char} (h : c ≠ q) (s : List Char) :
    run (quotedString q) (c :: s) = none := by
  simp [quotedString, run_map, run_thenSkip, run_skipThen, run_char_cons, h]

theorem run_quotedString_of_notMem {q : Char} {s : List Char} (h : q ∉ s) :
    run (quotedString q) s = none := by
  cases s with
  | nil => rfl
  | cons c s => exact run_quotedString_none (Ne.symm (List.ne_of_not_mem_cons h)) s

/-- A spelled literal is read as it is written. -/
theorem run_stringLit_append {lit : StringLit} {raw : String} (h : IsSpelled lit)
    (hraw : lit.raw = some raw) (rest : List Char) :
    run stringLit (raw.toList ++ rest) = some (lit, skip rest) := by
  obtain ⟨quote, body, hq, hbody, hspelled, hvalue⟩ := h
  obtain ⟨value, _⟩ := lit
  simp only at hraw hspelled hvalue
  subst hspelled hvalue
  simp only [Option.some.injEq] at hraw
  subst hraw
  rw [stringLit, run_label, run_lexeme, run_orElse, String.toList_ofList]
  rcases hq with rfl | rfl
  · simp [run_quotedString_append (q := '"') (by decide) hbody]
  · simp [run_quotedString_append (q := '\'') (by decide) hbody,
      run_quotedString_none (q := '"') (c := '\'') (by decide)]

/-- What was read as a string literal is spelled as it stands. -/
theorem run_stringLit_inv {s r : List Char} {lit : StringLit}
    (h : run stringLit s = some (lit, r)) :
    IsSpelled lit ∧ ∃ raw t, lit.raw = some raw ∧ s = raw.toList ++ t ∧ r = skip t := by
  rw [stringLit, run_label, run_lexeme] at h
  obtain ⟨⟨l, t⟩, hl, hr⟩ := Option.map_eq_some_iff.1 h
  simp only [Prod.mk.injEq] at hr
  obtain ⟨rfl, rfl⟩ := hr
  have hquote : ∃ quote, (quote = '"' ∨ quote = '\'') ∧
      run (quotedString quote) s = some (l, t) := by
    rcases run_orElse_inv hl with hl | ⟨-, hl⟩
    · exact ⟨'"', .inl rfl, hl⟩
    · exact ⟨'\'', .inr rfl, hl⟩
  obtain ⟨quote, hq, hl⟩ := hquote
  obtain ⟨body, hbody, rfl, hraw, hvalue⟩ := run_quotedString_inv hl
  exact ⟨⟨quote, body, hq, hbody, hraw, hvalue⟩, _, t, hraw, by simp, rfl⟩

/-- A string literal starts with a quote. -/
theorem run_stringLit_none {c : Char} (hd : c ≠ '"') (hs : c ≠ '\'') (s : List Char) :
    run stringLit (c :: s) = none := by
  rw [stringLit, run_label, run_lexeme, run_orElse, run_quotedString_none hd,
    run_quotedString_none hs]
  rfl

@[simp] theorem run_stringLit_nil : run stringLit [] = none := by
  simp [stringLit, run_lexeme, run_orElse, quotedString, run_map, run_thenSkip, run_skipThen]

theorem template_eq :
    template = (lexeme ((((char backquote).skipThen
      ((many (bodyPiece isTemplateChar)).map List.flatten)).thenSkip (char backquote)).check
        fun body =>
          if hasSubstitution body then .error "template literal substitutions are not supported"
          else .ok (String.ofList body))).label "template literal" := rfl

/-- A template is read as it is written. -/
theorem run_template_append {raw : String} (h : isTemplateText raw = true) (rest : List Char) :
    run template (backquote :: (raw.toList ++ backquote :: rest)) = some (raw, skip rest) := by
  simp only [isTemplateText, Bool.and_eq_true, Bool.not_eq_true'] at h
  have hend : endsBody isTemplateChar (backquote :: rest) = true := by
    simp [endsBody, isTemplateChar, backquote]
  rw [template_eq, run_label, run_lexeme, run_check, run_thenSkip, run_skipThen, run_char_cons,
    if_pos rfl, Option.bind_some, run_body_append h.1 hend]
  simp [run_char_cons, h.2, Except.toOption]

/-- What is read as a template has no substitution, and its text is kept as it is. -/
theorem run_template_inv {s r : List Char} {raw : String} (h : run template s = some (raw, r)) :
    isTemplateText raw = true ∧
      ∃ t, s = backquote :: (raw.toList ++ backquote :: t) ∧ r = skip t := by
  rw [template_eq, run_label, run_lexeme] at h
  obtain ⟨⟨w, t⟩, hw, hr⟩ := Option.map_eq_some_iff.1 h
  simp only [Prod.mk.injEq] at hr
  obtain ⟨rfl, rfl⟩ := hr
  obtain ⟨body, hquoted, haccept⟩ := run_check_inv hw
  obtain ⟨_, u, hhead, hclose⟩ := run_thenSkip_inv hquoted
  obtain ⟨_, v, hopen, hbody⟩ := run_skipThen_inv hhead
  obtain ⟨hv, hbody⟩ := run_body_inv (by simp [isTemplateChar]) hbody
  split at haccept
  · simp at haccept
  · rename_i hsub
    simp only [Except.ok.injEq] at haccept
    subst haccept
    refine ⟨by simp [isTemplateText, hbody, hsub], t, ?_, rfl⟩
    rw [run_char_inv hopen, hv, run_char_inv hclose, String.toList_ofList]

theorem run_template_none {c : Char} (h : c ≠ backquote) (s : List Char) :
    run template (c :: s) = none := by
  simp [template, run_lexeme, run_check, run_thenSkip, run_skipThen, run_char_cons, h]

@[simp] theorem run_template_nil : run template [] = none := by
  simp [template, run_lexeme, run_check, run_thenSkip, run_skipThen]

/-! ## Numbers -/

theorem run_digits_append {ds rest : List Char} (hds : isDigits ds = true)
    (hrest : ∀ c ∈ rest.head?, c.isDigit = false) :
    run digits (ds ++ rest) = some (ds, rest) := by
  simp only [isDigits, Bool.and_eq_true] at hds
  obtain ⟨htake, hdrop⟩ := takeWhile_append_of_all hds.2 hrest
  cases ds with
  | nil => simp at hds
  | cons c ds =>
    simp only [List.all_cons, Bool.and_eq_true] at hds
    rw [digits, run_many1, run_many_satisfy, htake, hdrop]
    simp [run_satisfy_cons, hds.2.1]

theorem run_digits_inv {s r ds : List Char} (h : run digits s = some (ds, r)) :
    isDigits ds = true ∧ s = ds ++ r := by
  rw [digits, run_many1, run_many_satisfy] at h
  obtain ⟨⟨c, t⟩, hc, hds⟩ := Option.bind_eq_some_iff.1 h
  simp only [Option.some.injEq, Prod.mk.injEq] at hds
  obtain ⟨rfl, rfl⟩ := hds
  cases s with
  | nil => simp at hc
  | cons x s =>
    rw [run_satisfy_cons] at hc
    split at hc
    · rename_i hx
      refine ⟨?_, (List.takeWhile_append_dropWhile).symm⟩
      simp only [isDigits, List.takeWhile_cons, hx, if_true, List.isEmpty_cons, Bool.not_false,
        List.all_cons, Bool.true_and]
      exact List.all_takeWhile
    · simp at hc

theorem run_digits_none {c : Char} (h : c.isDigit = false) (s : List Char) :
    run digits (c :: s) = none := by
  simp [digits, run_many1, run_satisfy_cons, h]

@[simp] theorem run_digits_nil : run digits [] = none := by
  simp [digits, run_many1]

/-- Whether a number ends before a text: neither a digit nor a point with a digit follows. -/
def endsNumber : List Char → Bool
  | '.' :: c :: _ => !c.isDigit
  | c :: _ => !c.isDigit
  | [] => true

/-- No point with digits behind it follows where a number ends. -/
theorem run_fraction_none {rest : List Char} (h : endsNumber rest = true) :
    run (both List.cons (char '.') digits) rest = none := by
  cases rest with
  | nil => simp [run_both]
  | cons c rest =>
    by_cases hc : c = '.'
    · subst hc
      cases rest with
      | nil => simp [run_both, run_char_cons]
      | cons x rest =>
        simp only [endsNumber, Bool.not_eq_true'] at h
        simp [run_both, run_char_cons, run_digits_none h]
    · simp [run_both, run_char_cons, hc]

theorem head_of_endsNumber {rest : List Char} (h : endsNumber rest = true) :
    ∀ c ∈ rest.head?, c.isDigit = false := by
  intro c hc
  cases rest with
  | nil => simp at hc
  | cons x rest =>
    simp only [List.head?_cons, Option.mem_def, Option.some.injEq] at hc
    subst hc
    unfold endsNumber at h
    split at h <;> simp_all

/-- A number is read as it is written. -/
theorem run_number_append {text : String} {rest : List Char} (h : IsNumeral text)
    (hrest : endsNumber rest = true) :
    run number (text.toList ++ rest) = some (text, skip rest) := by
  have hhead := head_of_endsNumber hrest
  obtain ⟨whole, hw, htext | ⟨fraction, hf, htext⟩⟩ := h
  · rw [number, run_label, run_lexeme, run_both, htext, run_digits_append hw hhead,
      Option.bind_some, run_optional_none (run_fraction_none hrest)]
    simp [← htext]
  · have hpoint : run (both List.cons (char '.') digits) ('.' :: (fraction ++ rest)) =
        some ('.' :: fraction, rest) := by
      simp [run_both, run_char_cons, run_digits_append hf hhead]
    have hdigits : run digits (whole ++ '.' :: (fraction ++ rest)) =
        some (whole, '.' :: (fraction ++ rest)) := run_digits_append hw (by simp)
    rw [number, run_label, run_lexeme, run_both, htext, List.append_assoc, List.cons_append, hdigits,
      Option.bind_some, run_optional_some hpoint]
    have hof : String.ofList (whole ++ '.' :: fraction) = text := by
      rw [← htext, String.ofList_toList]
    simp only [Option.map_some, Option.getD_some, hof]

/-- What was read as a number is one. -/
theorem run_number_inv {s r : List Char} {text : String} (h : run number s = some (text, r)) :
    IsNumeral text ∧ ∃ t, s = text.toList ++ t ∧ r = skip t := by
  rw [number, run_label, run_lexeme] at h
  obtain ⟨⟨w, t⟩, hw, hr⟩ := Option.map_eq_some_iff.1 h
  simp only [Prod.mk.injEq] at hr
  obtain ⟨rfl, rfl⟩ := hr
  obtain ⟨whole, fraction, u, hwhole, hfraction, rfl⟩ := run_both_inv hw
  obtain ⟨hdigits, rfl⟩ := run_digits_inv hwhole
  rcases run_optional_inv hfraction with ⟨more, rfl, hmore⟩ | ⟨rfl, -, rfl⟩
  · obtain ⟨c, ds, v, hpoint, hread, rfl⟩ := run_both_inv hmore
    obtain ⟨hds, rfl⟩ := run_digits_inv hread
    obtain rfl := run_char_inv hpoint
    have hc : c = '.' := by
      simpa [run_char_cons, eq_comm] using hpoint
    subst hc
    exact ⟨⟨whole, hdigits, .inr ⟨ds, hds, by simp⟩⟩, t, by simp, rfl⟩
  · exact ⟨⟨whole, hdigits, .inl (by simp)⟩, _, by simp, rfl⟩

theorem run_number_none {c : Char} (h : c.isDigit = false) (s : List Char) :
    run number (c :: s) = none := by
  simp [number, run_lexeme, run_both, run_digits_none h]

@[simp] theorem run_number_nil : run number [] = none := by
  simp [number, run_lexeme, run_both]

end TsxCompiler.Grammar

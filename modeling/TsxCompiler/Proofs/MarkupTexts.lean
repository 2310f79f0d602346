import TsxCompiler.Proofs.ArrowFree
import TsxCompiler.Proofs.PrintedTree
import TsxCompiler.Proofs.WellFormed

/-!
# Texts of expressions with markup

The text between two tags may hold anything, an arrow as well, so a text with markup in it is not
arrow-free. Reading a type still never comes to such an arrow, since no type starts with a tag:
it would have to be read as type arguments, and these are looked for behind a word only. `Lexed`
follows a text token by token and allows an element only where an operand may start and no word
stands in front of it, the operators `in` and `instanceof` apart. In such a text nothing is an
annotation with an arrow behind it (`markup_textClass`). No annotation is looked for in a text
without colons, and there an element may stand anywhere. Behind a brace the text is that of the
markup around the expression, and may be any.

The printed text of an operand can be followed up to what stands behind it (`LeadsOperand`), and
behind `typeof`, `void` and `await` too if it does not start with a tag or there is no colon.
-/

namespace TsxCompiler

/-- Whether the text of an operand starts with a tag. -/
def Expr.opensMarkup : Expr → Bool
  | .jsx _ => true
  | .member obj _ _ => obj.opensMarkup
  | .call callee _ _ => callee.opensMarkup
  | _ => false

end TsxCompiler

namespace TsxCompiler.Grammar

open Peg Peg.Parser Text

/-! ## Literals -/

/-- The text of a string or a template. -/
inductive LiteralText : List Char → Prop where
  | string {lit : StringLit} {raw : String} :
    IsSpelled lit → lit.raw = some raw → LiteralText raw.toList
  | template {raw : String} :
    isTemplateText raw = true → LiteralText (backquote :: (raw.toList ++ [backquote]))

theorem LiteralText.exists_quote {w : List Char} (h : LiteralText w) :
    ∃ q t, w = q :: t ∧ isQuote q = true := by
  cases h with
  | string hlit hraw =>
    obtain ⟨q, t, ht, hq⟩ := hlit.exists_quote hraw
    exact ⟨q, t, ht, by rcases hq with rfl | rfl <;> decide⟩
  | template _ => exact ⟨backquote, _, rfl, by decide⟩

theorem LiteralText.ne_cons {w s t : List Char} {c : Char} (hw : LiteralText w)
    (hc : isQuote c = false) : w ++ s ≠ c :: t := by
  obtain ⟨q, u, rfl, hq⟩ := hw.exists_quote
  intro h
  injection h with hqc _
  rw [hqc, hc] at hq
  cases hq

/-- Where a text starts with a literal, that literal is the only one. -/
theorem LiteralText.rest_unique {w v s t : List Char} (hw : LiteralText w) (hv : LiteralText v)
    (h : w ++ s = v ++ t) : s = t := by
  -- a literal is found again by reading it, and the first quote says which kind it is
  suffices hwv : w = v by
    subst hwv
    exact List.append_cancel_left h
  cases hw with
  | string hlit hraw =>
    have hread := run_stringLit_append hlit hraw s
    rw [h] at hread
    cases hv with
    | string hlit' hraw' =>
      rw [run_stringLit_append hlit' hraw' t] at hread
      simp only [Option.some.injEq, Prod.mk.injEq] at hread
      rw [hread.1, hraw, Option.some.injEq] at hraw'
      rw [hraw']
    | template _ =>
      rw [List.cons_append, run_stringLit_none (by decide) (by decide)] at hread
      cases hread
  | template htext =>
    cases hv with
    | string hlit' hraw' =>
      obtain ⟨q, u, hu, hq⟩ := hlit'.exists_quote hraw'
      rw [hu] at h
      injection h with h1 _
      subst h1
      exact absurd hq (by decide)
    | template htext' =>
      have hread := run_template_append htext s
      have hread' := run_template_append htext' t
      have htexts : ∀ {raw : String} (s : List Char),
          backquote :: (raw.toList ++ [backquote]) ++ s =
            backquote :: (raw.toList ++ backquote :: s) := by simp
      rw [htexts, htexts] at h
      rw [h, hread'] at hread
      simp only [Option.some.injEq, Prod.mk.injEq] at hread
      rw [hread.1]

/-! ## The texts -/

/-- The words that are operators between two operands. -/
def wordOperators : List String := ["in", "instanceof"]

def startsWordOperator (s : List Char) : Bool :=
  wordOperators.contains (String.ofList (s.takeWhile isWordPart))

/-- Whether there is room for an element behind a character that is no part of a word, given
whether there was before it. -/
def roomBehind (room : Bool) (c : Char) : Bool :=
  if isBlank c then room else c != ')' && c != ']'

/-- Texts that are followed token by token. The first flag says whether the text is free of colons,
the second whether it starts inside a word, the third whether there is room for an element. -/
inductive Lexed (E : Parser Expr) (free : Bool) : Bool → Bool → List Char → Prop where
  | nil {inside room : Bool} : Lexed E free inside room []
  | brace {inside room : Bool} {s : List Char} : Lexed E free inside room ('\x7d' :: s)
  | mark {inside room : Bool} {c : Char} {s : List Char} : isPassed c = true →
    isWordPart c = false → startsArrowOrComment c s = false → (c ≠ ':' ∨ free = false) →
      Lexed E free false (roomBehind room c) s → Lexed E free inside room (c :: s)
  | less {inside room : Bool} {c : Char} {s : List Char} : c = ' ' ∨ c = '=' →
    Lexed E free false true (c :: s) → Lexed E free inside room ('<' :: c :: s)
  | word {room : Bool} {c : Char} {s : List Char} : isWordPart c = true →
    Lexed E free true (!room && startsWordOperator (c :: s)) s → Lexed E free false room (c :: s)
  | inWord {room : Bool} {c : Char} {s : List Char} : isWordPart c = true →
    Lexed E free true room s → Lexed E free true room (c :: s)
  | literal {inside room : Bool} {w s t : List Char} : LiteralText w → t = w ++ s →
    Lexed E free false false s → Lexed E free inside room t
  | element {inside room : Bool} {c : Char} {s r : List Char} {el : Element} :
    ¬(c = ' ' ∨ c = '=') → (inside = false ∧ room = true) ∨ free = true →
      run (element E) ('<' :: c :: s) = some (el, r) → Lexed E free false false r →
        Lexed E free inside room ('<' :: c :: s)

namespace Lexed

variable {E : Parser Expr} {free inside room : Bool} {c : Char} {s : List Char}

/-- What a text leaves when a character is taken that stands for nothing but itself. -/
theorem passed_inv (hc : isPassed c = true) (h : Lexed E free inside room (c :: s)) :
    (isWordPart c = false ∧ (startsArrowOrComment c s = false ∧ (c ≠ ':' ∨ free = false)) ∧
      Lexed E free false (roomBehind room c) s) ∨
    (isWordPart c = true ∧
      Lexed E free true (if inside then room else !room && startsWordOperator (c :: s)) s) := by
  cases h with
  | brace => exact absurd hc (by decide)
  | mark _ hpart harrow hcolon hs => exact .inl ⟨hpart, ⟨harrow, hcolon⟩, hs⟩
  | less _ _ => exact absurd hc (by decide)
  | word hpart hs => exact .inr ⟨hpart, hs⟩
  | inWord hpart hs => exact .inr ⟨hpart, hs⟩
  | literal hw heq _ => exact absurd heq.symm (hw.ne_cons (isQuote_of_isPassed hc))
  | element _ _ _ _ => exact absurd hc (by decide)

theorem mark_inv (hc : isPassed c = true) (hpart : isWordPart c = false)
    (h : Lexed E free inside room (c :: s)) :
    (startsArrowOrComment c s = false ∧ (c ≠ ':' ∨ free = false)) ∧
      Lexed E free false (roomBehind room c) s := by
  rcases h.passed_inv hc with ⟨-, hs⟩ | ⟨hpart', -⟩
  · exact hs
  · simp [hpart] at hpart'

theorem part_inv (hpart : isWordPart c = true) (h : Lexed E free inside room (c :: s)) :
    Lexed E free true (if inside then room else !room && startsWordOperator (c :: s)) s := by
  rcases h.passed_inv (isPassed_of_isWordPart hpart) with ⟨hpart', -⟩ | ⟨-, hs⟩
  · simp [hpart] at hpart'
  · exact hs

/-- An angle is an operator, or an element starts with it. -/
theorem angle_inv (h : Lexed E free inside room ('<' :: c :: s)) :
    ((c = ' ' ∨ c = '=') ∧ Lexed E free false true (c :: s)) ∨
    (¬(c = ' ' ∨ c = '=') ∧ ((inside = false ∧ room = true) ∨ free = true) ∧
      ∃ el r, run (Grammar.element E) ('<' :: c :: s) = some (el, r) ∧ Lexed E free false false r) := by
  cases h with
  | mark hc _ _ _ _ => exact absurd hc (by decide)
  | less hc hs => exact .inl ⟨hc, hs⟩
  | word hc _ => exact absurd hc (by decide)
  | inWord hc _ => exact absurd hc (by decide)
  | literal hw heq _ => exact absurd heq.symm (hw.ne_cons (by decide))
  | element hc hplace hread hr => exact .inr ⟨hc, hplace, _, _, hread, hr⟩

theorem literal_inv {w : List Char} (hw : LiteralText w) (h : Lexed E free inside room (w ++ s)) :
    Lexed E free false false s := by
  generalize htext : w ++ s = u at h
  cases h with
  | nil =>
    obtain ⟨q, t, rfl, -⟩ := hw.exists_quote
    simp at htext
  | brace => exact absurd htext (hw.ne_cons (by decide))
  | mark hc _ _ _ _ => exact absurd htext (hw.ne_cons (isQuote_of_isPassed hc))
  | less _ _ => exact absurd htext (hw.ne_cons (by decide))
  | word hc _ => exact absurd htext (hw.ne_cons (isQuote_of_isWordPart hc))
  | inWord hc _ => exact absurd htext (hw.ne_cons (isQuote_of_isWordPart hc))
  | literal hv heq hs =>
    rw [hw.rest_unique hv (htext.trans heq)]
    exact hs
  | element _ _ _ _ => exact absurd htext (hw.ne_cons (by decide))

/-- There is no arrow where a token starts, nor an opening brace. -/
theorem run_arrow_none (h : Lexed E free inside room s) : run (sym "=>") s = none := by
  cases hs : run (sym "=>") s with
  | none => rfl
  | some x =>
    obtain ⟨t, rfl, -⟩ := run_sym_inv hs
    have hstart : startsArrowOrComment '=' ('>' :: t) = false :=
      (mark_inv (by decide) (by decide) h).1.1
    simp [startsArrowOrComment] at hstart

theorem run_brace_none (h : Lexed E free inside room s) : run (sym "\x7b") s = none := by
  cases hs : run (sym "\x7b") s with
  | none => rfl
  | some x =>
    obtain ⟨t, rfl, -⟩ := run_sym_inv hs
    change Lexed E free inside room ('\x7b' :: t) at h
    cases h with
    | mark hc _ _ _ _ => exact absurd hc (by decide)
    | word hc _ => exact absurd hc (by decide)
    | inWord hc _ => exact absurd hc (by decide)
    | literal hw heq _ => exact absurd heq.symm (hw.ne_cons (by decide))

/-- A word ends where a character stands that is no part of it. -/
theorem leaveWord (hend : endsWord s = true) (h : Lexed E free true room s) : Lexed E free false room s := by
  cases h with
  | nil => exact .nil
  | brace => exact .brace
  | mark hc hpart harrow hcolon hs => exact .mark hc hpart harrow hcolon hs
  | less hc hs => exact .less hc hs
  | inWord hc _ => simp [endsWord, hc] at hend
  | literal hw heq hs => exact .literal hw heq hs
  | element hc hplace hread hr => exact .element hc (.inr (by simpa using hplace)) hread hr

theorem enterWord (hend : endsWord s = true) (h : Lexed E free false false s) :
    Lexed E free true false s := by
  cases h with
  | nil => exact .nil
  | brace => exact .brace
  | mark hc hpart harrow hcolon hs => exact .mark hc hpart harrow hcolon hs
  | less hc hs => exact .less hc hs
  | word hc _ => simp [endsWord, hc] at hend
  | literal hw heq hs => exact .literal hw heq hs
  | element hc hplace hread hr => exact .element hc (.inr (by simpa using hplace)) hread hr

/-- There are no comments to skip. -/
theorem skip (h : Lexed E free inside room s) :
    ∃ inside', (inside = false → inside' = false) ∧ Lexed E free inside' room (skip s) := by
  induction s generalizing inside with
  | nil => exact ⟨inside, id, by simpa using h⟩
  | cons c s ih =>
    cases hb : isBlank c with
    | true =>
      have hs := (mark_inv (isPassed_of_isBlank hb) (isWordPart_of_isBlank hb) h).2
      rw [roomBehind, if_pos hb] at hs
      obtain ⟨inside', hinside, hs⟩ := ih hs
      rw [skip_blank hb]
      exact ⟨inside', fun _ => hinside rfl, hs⟩
    | false =>
      refine ⟨inside, id, ?_⟩
      rwa [skip_of_noComment hb]
      rintro rfl
      exact (mark_inv (by decide) (by decide) h).1.1

end Lexed

/-! ## Types in such texts -/

/-- A text that can be followed from wherever it starts. -/
def IsLexed (E : Parser Expr) (free : Bool) (s : List Char) : Prop :=
  ∃ inside room, Lexed E free inside room s

section Tokens

variable {E : Parser Expr} {free : Bool} {s : List Char}

theorem IsLexed.cons {c : Char} (hc : isPassed c = true) (h : IsLexed E free (c :: s)) :
    IsLexed E free s := by
  obtain ⟨inside, room, h⟩ := h
  rcases h.passed_inv hc with ⟨-, -, hs⟩ | ⟨-, hs⟩ <;> exact ⟨_, _, hs⟩

theorem IsLexed.skip (h : IsLexed E free s) : IsLexed E free (skip s) := by
  obtain ⟨inside, room, h⟩ := h
  obtain ⟨inside', -, hs⟩ := h.skip
  exact ⟨inside', room, hs⟩

theorem Lexed.skip_outside {room : Bool} (h : Lexed E free false room s) :
    Lexed E free false room (Grammar.skip s) := by
  obtain ⟨inside', hinside, hs⟩ := h.skip
  exact hinside rfl ▸ hs

/-- Punctuation that leaves room for an operand. -/
def leavesRoom (c : Char) : Bool :=
  isPassed c && !isWordPart c && !isBlank c && c != ')' && c != ']'

theorem passed_of_leavesRoom {c : Char} (h : leavesRoom c = true) :
    isPassed c = true ∧ isWordPart c = false ∧ ∀ room, roomBehind room c = true := by
  simp only [leavesRoom, Bool.and_eq_true, Bool.not_eq_true'] at h
  obtain ⟨⟨⟨⟨hpassed, hpart⟩, hblank⟩, hparen⟩, hbracket⟩ := h
  refine ⟨hpassed, hpart, fun room => ?_⟩
  rw [roomBehind, hblank, if_neg Bool.false_ne_true, hparen, hbracket]
  rfl

theorem Lexed.marks_inv {inside room : Bool} {w : List Char} (hw : w.all leavesRoom = true)
    (hne : w ≠ []) (h : Lexed E free inside room (w ++ s)) : Lexed E free false true s := by
  induction w generalizing inside room with
  | nil => exact absurd rfl hne
  | cons c w ih =>
    rw [List.all_cons, Bool.and_eq_true] at hw
    obtain ⟨hpassed, hpart, hroom⟩ := passed_of_leavesRoom hw.1
    have hs := (mark_inv hpassed hpart h).2
    rw [hroom] at hs
    cases w with
    | nil => exact hs
    | cons x w => exact ih hw.2 (by simp) hs

/-- A word where an operand may start leaves no room for an element. -/
theorem Lexed.name_inv {name : String} (hname : isIdentifier name = true)
    (hend : endsWord s = true) (h : Lexed E free false true (name.toList ++ s)) :
    Lexed E free false false s := by
  have hall := all_of_isIdentifier hname
  obtain ⟨c, cs, hc, -⟩ := exists_of_isIdentifier hname
  rw [hc] at hall h
  simp only [List.all_cons, Bool.and_eq_true] at hall
  have hrest : Lexed E free true false (cs ++ s) := h.part_inv hall.1
  refine leaveWord hend ?_
  obtain ⟨-, hcs⟩ := hall
  clear h hc
  induction cs with
  | nil => exact hrest
  | cons x cs ih =>
    simp only [List.all_cons, Bool.and_eq_true] at hcs
    exact ih (hrest.part_inv hcs.1) hcs.2

/-- Reading a type over a text without arrows keeps to such texts, token by token, and so never comes
to an arrow. Braces are not read at all, for none stand in such a text outside of markup. -/
theorem lexed_tokenTexts (E : Parser Expr) :
    TokenTexts (IsLexed E false) (Lexed E false false true) (Lexed E false false false) where
  any_of_operand _ hs := ⟨_, _, hs⟩
  any_of_behind _ hs := ⟨_, _, hs⟩
  opening {text} ht s u r hr hs := by
    have hmarks : ∀ x ∈ openingMarks, x.toList.all leavesRoom = true ∧ x.toList ≠ [] := by decide
    obtain ⟨t, rfl, rfl⟩ := run_sym_inv hr
    obtain ⟨inside, room, hs⟩ := hs
    exact (hs.marks_inv (hmarks text ht).1 (hmarks text ht).2).skip_outside
  closing {text} ht s u r hr hs := by
    have hmarks : ∀ x ∈ [")", "]", ">"], ∃ c, x.toList = [c] ∧ isPassed c = true := by
      intro x hx
      simp only [List.mem_cons, List.not_mem_nil, or_false] at hx
      rcases hx with rfl | rfl | rfl <;> exact ⟨_, rfl, by decide⟩
    obtain ⟨c, hc, hpassed⟩ := hmarks text ht
    obtain ⟨t, rfl, rfl⟩ := run_sym_inv hr
    rw [hc] at hs
    exact (hs.cons hpassed).skip
  angle s u r hr hs := by
    obtain ⟨t, rfl, rfl⟩ := run_sym_inv hr
    change Lexed E false false false ('<' :: t) at hs
    cases t with
    | nil =>
      rw [skip_nil]
      exact .nil
    | cons c t =>
      -- behind a word `<` is an operator: an element would need room in front of it
      rcases hs.angle_inv with ⟨-, hs⟩ | ⟨-, hplace, -⟩
      · exact hs.skip_outside
      · simp at hplace
  braces hp s a r hr hs := by
    obtain ⟨inside, room, hs⟩ := hs
    obtain ⟨_, _, hinner, -⟩ := run_thenSkip_inv hr
    obtain ⟨_, _, hopen, -⟩ := run_skipThen_inv hinner
    rw [hs.run_brace_none] at hopen
    cases hopen
  word s name r hr hs := by
    obtain ⟨hname, t, rfl, hend, rfl⟩ := run_word_inv hr
    exact (hs.name_inv hname hend).skip_outside
  string s lit r hr hs := by
    obtain ⟨hlit, raw, t, hraw, rfl, rfl⟩ := run_stringLit_inv hr
    obtain ⟨inside, room, hs⟩ := hs
    exact ⟨_, _, (hs.literal_inv (.string hlit hraw)).skip_outside⟩
  number s text r hr hs := by
    obtain ⟨htext, t, rfl, rfl⟩ := run_number_inv hr
    exact (good_of_append IsLexed.cons (passed_of_isNumeral htext) hs).skip
  arrow hs := by
    obtain ⟨inside, room, hs⟩ := hs
    exact hs.run_arrow_none

end Tokens

/-- Where types are part of the language, a text has to be one that can be followed. -/
def MarkupText (d : Dialect) (E : Parser Expr) (free : Bool) (s : List Char) : Prop :=
  d.isTypeScript = true → IsLexed E free s

/-- The texts with markup in them are a class that the operators can be read in. -/
theorem markup_textClass (d : Dialect) (E : Parser Expr) (free : Bool) :
    TextClass d (MarkupText d E free) where
  cons hc h hd := (h hd).cons hc
  less hc h hd := by
    obtain ⟨inside, room, hs⟩ := h hd
    rcases hs.angle_inv with ⟨-, hs⟩ | ⟨hne, -⟩
    · exact ⟨_, _, hs⟩
    · exact absurd hc hne
  string hlit hraw h hd := by
    obtain ⟨inside, room, hs⟩ := h hd
    exact ⟨_, _, hs.literal_inv (.string hlit hraw)⟩
  template {raw s} hraw h hd := by
    obtain ⟨inside, room, hs⟩ := h hd
    exact ⟨_, _, Lexed.literal_inv (.template hraw) (by simpa using hs)⟩
  colon {s} h := by
    cases hd : d.isTypeScript with
    | false =>
      have hnone : run (sym "=>") (':' :: ' ' :: s) = none := run_sym_none "=>" rfl (by decide) _
      simp [ascription, whenTyped, hd, run_thenSkip, hnone]
    | true =>
      have hs := (h hd).cons (by decide)
      cases free with
      | false => exact (lexed_tokenTexts E).run_ascription_arrow d hs
      | true =>
        -- Without a colon there is nothing to read a type behind.
        obtain ⟨inside, room, hs⟩ := hs
        exact absurd (hs.mark_inv (by decide) (by decide)).1.2 (by decide)

/-! ## Printed texts -/

/-- What may stand behind an operand. -/
structure BehindOperand (E : Parser Expr) (free : Bool) (s : List Char) : Prop where
  word : endsWord s = true
  lexed : Lexed E free false false s

/-- A text of an operand, which can be followed up to what stands behind it. -/
def LeadsLexed (E : Parser Expr) (free room : Bool) (text : String) : Prop :=
  ∀ s, BehindOperand E free s → Lexed E free false room (text.toList ++ s)

section Lead

variable {E : Parser Expr} {free inside room : Bool} {s : List Char}

theorem behind_brace (s : List Char) : BehindOperand E free ('\x7d' :: s) := ⟨rfl, .brace⟩

theorem Lexed.blank (h : Lexed E free false room s) : Lexed E free inside room (' ' :: s) :=
  .mark (by decide) (by decide) rfl (.inl (by decide)) h

theorem behind_closer {c : Char} (hc : c = ')' ∨ c = ']') (h : Lexed E free false false s) :
    BehindOperand E free (c :: s) ∧ Lexed E free false true (c :: s) := by
  rcases hc with rfl | rfl <;>
    exact ⟨⟨rfl, .mark (by decide) (by decide) rfl (.inl (by decide)) h⟩, .mark (by decide) (by decide) rfl (.inl (by decide)) h⟩

/-- Punctuation that leaves room for an operand, with a blank behind it, and has neither an arrow
nor a comment in it. -/
def isSymbolText : List Char → Bool
  | [] => true
  | c :: w => leavesRoom c && !startsArrowOrComment c (w ++ [' ']) && isSymbolText w

/-- The characters of an operator with a blank behind it leave room for an element. -/
theorem lexed_symbol {w : List Char} (hw : isSymbolText w = true) (hne : w ≠ [])
    (hcolon : ':' ∉ w ∨ free = false) (h : Lexed E free false true s) :
    Lexed E free inside room (w ++ ' ' :: s) := by
  induction w generalizing inside room with
  | nil => exact absurd rfl hne
  | cons c w ih =>
    simp only [isSymbolText, Bool.and_eq_true, Bool.not_eq_true'] at hw
    obtain ⟨⟨hmark, harrow⟩, hw⟩ := hw
    obtain ⟨hpassed, hpart, hroom⟩ := passed_of_leavesRoom hmark
    have hstart : startsArrowOrComment c (w ++ ' ' :: s) = false := by
      cases w <;> exact harrow
    rw [List.mem_cons, not_or] at hcolon
    refine .mark hpassed hpart hstart (hcolon.imp_left fun h => Ne.symm h.1) ?_
    rw [hroom]
    cases w with
    | nil => exact h.blank
    | cons x w => exact ih hw (by simp) (hcolon.imp_left And.right)

/-- A word leaves no room, unless it is an operator between two operands. -/
theorem lexed_parts {w : List Char} (hw : w.all isWordPart = true) (hne : w ≠ [])
    (h : Lexed E free true (!room && startsWordOperator (w ++ s)) s) : Lexed E free false room (w ++ s) := by
  have hparts : ∀ {room : Bool} {v : List Char}, v.all isWordPart = true → Lexed E free true room s →
      Lexed E free true room (v ++ s) := by
    intro room v hv hs
    induction v with
    | nil => exact hs
    | cons c v ih =>
      simp only [List.all_cons, Bool.and_eq_true] at hv
      exact .inWord hv.1 (ih hv.2)
  cases w with
  | nil => exact absurd rfl hne
  | cons c w =>
    simp only [List.all_cons, Bool.and_eq_true] at hw
    exact .word hw.1 (hparts hw.2 h)

theorem startsWordOperator_append {name : String} (hname : isIdentifier name = true)
    (hend : endsWord s = true) :
    startsWordOperator (name.toList ++ s) = wordOperators.contains name := by
  have hstop : ∀ c ∈ s.head?, isWordPart c = false := by
    cases s with
    | nil => simp
    | cons c s => simpa [endsWord] using hend
  rw [startsWordOperator, (takeWhile_append_of_all (all_of_isIdentifier hname) hstop).1,
    String.ofList_toList]

namespace LeadsLexed

theorem ofWord {name : String} (hname : isIdentifier name = true)
    (hroom : room = true ∨ wordOperators.contains name = false) : LeadsLexed E free room name := by
  intro s hs
  obtain ⟨c, cs, hc, -⟩ := exists_of_isIdentifier hname
  refine lexed_parts (all_of_isIdentifier hname) (by simp [hc]) ?_
  have hnone : (!room && wordOperators.contains name) = false := by
    rcases hroom with rfl | hop
    · rfl
    · rw [hop, Bool.and_false]
  rw [startsWordOperator_append hname hs.word, hnone]
  exact hs.lexed.enterWord hs.word

theorem ofName {name : String} (h : isName name = true) : LeadsLexed E free room name := by
  simp only [isName, Bool.and_eq_true, Bool.not_eq_true'] at h
  refine ofWord h.1 (.inr ?_)
  cases hop : wordOperators.contains name with
  | false => rfl
  | true =>
    simp only [wordOperators, List.contains_eq_mem, List.mem_cons, List.not_mem_nil, or_false,
      decide_eq_true_eq] at hop
    rcases hop with rfl | rfl <;> exact absurd h.2 (by decide)

/-- A numeral is one run of digits or two with a point between them. No digits spell a word
operator. -/
theorem ofNumber {text : String} (h : IsNumeral text) : LeadsLexed E free room text := by
  have hdigits : ∀ {room : Bool} {ds s : List Char}, isDigits ds = true → Lexed E free true false s →
      Lexed E free false room (ds ++ s) := by
    intro room ds s hds hs
    cases ds with
    | nil => exact absurd hds (by decide)
    | cons c ds =>
      simp only [isDigits, List.all_cons, Bool.and_eq_true, List.all_eq_true] at hds
      have hpart : ∀ {c : Char}, c.isDigit = true → isWordPart c = true := fun hc =>
        forall_isDigit (P := fun c => isWordPart c = true) (by decide) hc
      have hall : (c :: ds).all isWordPart = true := by
        simp only [List.all_cons, hpart hds.2.1, Bool.true_and, List.all_eq_true]
        exact fun x hx => hpart (hds.2.2 x hx)
      have hne : c ≠ 'i' := by
        rintro rfl
        exact absurd hds.2.1 (by decide)
      have hnone : startsWordOperator (c :: ds ++ s) = false := by
        simp [startsWordOperator, wordOperators, hpart hds.2.1, ← String.toList_inj, hne]
      refine lexed_parts hall (by simp) ?_
      rwa [hnone, Bool.and_false]
  intro s hs
  obtain ⟨whole, hwhole, htext | ⟨fraction, hfraction, htext⟩⟩ := h
  · rw [htext]
    exact hdigits hwhole (hs.lexed.enterWord hs.word)
  · rw [htext, List.append_assoc]
    refine hdigits hwhole (.mark (by decide) (by decide) rfl (.inl (by decide)) ?_)
    exact hdigits hfraction (hs.lexed.enterWord hs.word)

theorem ofLiteral {text : String} (h : LiteralText text.toList) : LeadsLexed E free room text :=
  fun _ hs => .literal h rfl hs.lexed

theorem parens {text : String} (h : LeadsLexed E free true text) :
    LeadsLexed E free room (Print.parens text) := by
  intro s hs
  rw [toList_parens, List.cons_append, List.append_assoc]
  exact .mark (by decide) (by decide) rfl (.inl (by decide)) (h _ (behind_closer (.inl rfl) hs.lexed).1)

/-- Texts in brackets, divided by commas. -/
theorem lexed_row {texts : List String} (h : ∀ text ∈ texts, LeadsLexed E free true text) {c : Char}
    (hc : c = ')' ∨ c = ']') (hs : Lexed E free false false s) :
    Lexed E free false true ((Print.commaList texts).toList ++ c :: s) := by
  have hcloser := behind_closer hc hs
  have htail : ∀ {texts : List String}, (∀ text ∈ texts, LeadsLexed E free true text) →
      BehindOperand E free (rowTail (c :: s) (texts.map String.toList)) := by
    intro texts htexts
    induction texts with
    | nil => exact hcloser.1
    | cons text texts ih =>
      have hrest := htexts text (by simp) _ (ih fun t ht => htexts t (by simp [ht]))
      exact ⟨rfl, .mark (by decide) (by decide) rfl (.inl (by decide)) hrest.blank⟩
  rw [commaList_append]
  cases texts with
  | nil => exact hcloser.2
  | cons text texts => exact h text (by simp) _ (htail fun t ht => h t (by simp [ht]))

/-- An operand behind a text that divides it from the one before. -/
theorem spaced {a b symbol : String} (ha : LeadsLexed E free room a) (hb : LeadsLexed E free true b)
    (hsymbol : ∀ s, Lexed E free false true s → Lexed E free false false (symbol.toList ++ ' ' :: s)) :
    LeadsLexed E free room (a ++ " " ++ symbol ++ " " ++ b) := by
  intro s hs
  have htext : (a ++ " " ++ symbol ++ " " ++ b).toList ++ s =
      a.toList ++ ' ' :: (symbol.toList ++ ' ' :: (b.toList ++ s)) := by
    simp
  rw [htext]
  exact ha _ ⟨rfl, (hsymbol _ (hb s hs)).blank⟩

theorem lexed_binaryOp (op : BinaryOp) (h : Lexed E free false true s) :
    Lexed E free false false (op.symbol.toList ++ ' ' :: s) := by
  cases op with
  | lt => exact .less (.inl rfl) h.blank
  | le => exact .less (.inr rfl) (.mark (by decide) (by decide) rfl (.inl (by decide)) h.blank)
  | instanceOf | isIn =>
    refine lexed_parts (by decide) (by decide) ?_
    rw [startsWordOperator_append (by decide) rfl]
    exact h.blank
  | _ => exact lexed_symbol (by decide) (by decide) (.inl (by decide)) h

theorem lexed_assignOp (op : AssignOp) (h : Lexed E free false true s) :
    Lexed E free false false (op.symbol.toList ++ ' ' :: s) := by
  cases op <;> exact lexed_symbol (by decide) (by decide) (.inl (by decide)) h

end LeadsLexed

end Lead

/-- The printed text of an expression can be followed wherever an operand may start, and behind an
operator that is a word if it needs no parentheses there and no tag comes first. -/
def LeadsOperand (E : Parser Expr) (free : Bool) (level : Nat) (e : Expr) : Prop :=
  ∀ room, (room = false → Power.unary ≤ e.power ∧ (e.opensMarkup = false ∨ free = true)) →
    LeadsLexed E free room (e.print level)

namespace LeadsOperand

variable {E : Parser Expr} {free : Bool} {level : Nat}

theorem operand {e : Expr} (h : LeadsOperand E free level e) : LeadsLexed E free true (e.print level) :=
  h true (by simp)

/-- In parentheses, where the place needs them, a text can be followed anywhere. -/
theorem guarded {e : Expr} (h : LeadsOperand E free level e) (power : Nat) {room : Bool}
    (hroom : room = false → Power.unary ≤ power ∧ (e.opensMarkup = false ∨ free = true)) :
    LeadsLexed E free room (e.guarded power (e.print level)) := by
  unfold Expr.guarded
  split
  · exact h.operand.parens
  · refine h room fun hr => ?_
    obtain ⟨hpower, hopens⟩ := hroom hr
    exact ⟨by omega, hopens⟩

theorem guarded_operand {e : Expr} (h : LeadsOperand E free level e) (power : Nat) :
    LeadsLexed E free true (e.guarded power (e.print level)) :=
  h.guarded power (by simp)

theorem this : LeadsOperand E free level .this := by
  intro room _
  rw [Expr.print]
  exact .ofWord (by decide) (.inr (by decide))

theorem ident {name : String} (h : isName name = true) : LeadsOperand E free level (.ident name) := by
  intro room _
  rw [Expr.print]
  exact .ofName h

theorem lit {value : Literal} (h : value.WellFormed) : LeadsOperand E free level (.lit value) := by
  intro room _
  rw [Expr.print]
  cases value with
  | string lit =>
    obtain ⟨raw, hraw⟩ := IsSpelled.exists_raw h
    rw [Literal.print, StringLit.print, hraw]
    exact .ofLiteral (.string h hraw)
  | number text => exact .ofNumber h
  | bool b => cases b <;> exact .ofWord (by decide) (.inr (by decide))
  | null => exact .ofWord (by decide) (.inr (by decide))
  | template raw =>
    have htext : (Literal.template raw).print.toList =
        backquote :: (raw.toList ++ [backquote]) := by
      simp [Literal.print, backquote]
    refine .ofLiteral ?_
    rw [htext]
    exact .template h

/-- Arguments in brackets. -/
theorem row {args : List Argument} (h : ∀ a ∈ args, LeadsOperand E free level a.value) {c : Char}
    (hc : c = ')' ∨ c = ']') {s : List Char} (hs : Lexed E free false false s) :
    Lexed E free false true ((Print.commaList (Argument.printAll args level)).toList ++ c :: s) := by
  refine LeadsLexed.lexed_row ?_ hc hs
  induction args with
  | nil => simp [Argument.printAll]
  | cons a args ih =>
    obtain ⟨spread, value⟩ := a
    have hfirst : LeadsLexed E free true (Argument.print ⟨spread, value⟩ level) := by
      have hvalue : LeadsLexed E free true (value.print level) := (h ⟨spread, value⟩ (by simp)).operand
      rw [Argument.print, guarded_assignment]
      cases spread with
      | false => simpa [Print.textIf] using hvalue
      | true =>
        intro s hs
        have hmarks := hvalue s hs
        rw [String.toList_append, List.append_assoc]
        exact .mark (by decide) (by decide) rfl (.inl (by decide)) (.mark (by decide) (by decide) rfl (.inl (by decide))
          (.mark (by decide) (by decide) rfl (.inl (by decide)) hmarks))
    intro text htext
    rw [Argument.printAll, List.mem_cons] at htext
    rcases htext with rfl | htext
    · exact hfirst
    · exact ih (fun b hb => h b (by simp [hb])) text htext

theorem array {elems : List Argument} (h : ∀ a ∈ elems, LeadsOperand E free level a.value) :
    LeadsOperand E free level (.array elems) := by
  intro room _ s hs
  have htext : ((Expr.array elems).print level).toList ++ s =
      '[' :: ((Print.commaList (Argument.printAll elems level)).toList ++ ']' :: s) := by
    simp
  rw [htext]
  exact .mark (by decide) (by decide) rfl (.inl (by decide)) (row h (.inr rfl) hs.lexed)

/-- The parentheses of a call are marks, with the arguments as a row between them. -/
theorem call {callee : Expr} {args : List Argument} (h : LeadsOperand E free level callee)
    (hargs : ∀ a ∈ args, LeadsOperand E free level a.value) (optional : Bool) :
    LeadsOperand E free level (.call callee args optional) := by
  intro room hroom s hs
  have hrow : ∀ room, Lexed E free false room
      ('(' :: ((Print.commaList (Argument.printAll args level)).toList ++ ')' :: s)) := fun _ =>
    .mark (by decide) (by decide) rfl (.inl (by decide)) (row hargs (.inl rfl) hs.lexed)
  have hcallee := h.guarded Power.access fun hr => ⟨by decide, (hroom hr).2⟩
  cases optional with
  | false =>
    have htext : ((Expr.call callee args false).print level).toList ++ s =
        (callee.guarded Power.access (callee.print level)).toList ++
          '(' :: ((Print.commaList (Argument.printAll args level)).toList ++ ')' :: s) := by
      simp [Print.textIf]
    rw [htext]
    exact hcallee _ ⟨rfl, hrow false⟩
  | true =>
    have htext : ((Expr.call callee args true).print level).toList ++ s =
        (callee.guarded Power.access (callee.print level)).toList ++ '?' :: '.' ::
          '(' :: ((Print.commaList (Argument.printAll args level)).toList ++ ')' :: s) := by
      simp [Print.textIf]
    rw [htext]
    exact hcallee _ ⟨rfl, .mark (by decide) (by decide) rfl (.inl (by decide))
      (.mark (by decide) (by decide) rfl (.inl (by decide)) (hrow true))⟩

theorem member {object : Expr} {key : MemberKey} {optional : Bool}
    (h : LeadsOperand E free level object)
    (hkey : ∀ s, BehindOperand E free s → BehindOperand E free ((key.print optional level).toList ++ s)) :
    LeadsOperand E free level (.member object key optional) := by
  intro room hroom s hs
  rw [Expr.print, String.toList_append, List.append_assoc]
  exact h.guarded Power.access (fun hr => ⟨by decide, (hroom hr).2⟩) _ (hkey s hs)

theorem nameKey {name : String} (hname : isIdentifier name = true) (optional : Bool) {s : List Char}
    (hs : BehindOperand E free s) :
    BehindOperand E free (((MemberKey.ident name).print optional level).toList ++ s) := by
  have hword : Lexed E free false true (name.toList ++ s) := LeadsLexed.ofWord hname (.inl rfl) s hs
  rw [MemberKey.print, String.toList_append, List.append_assoc]
  cases optional with
  | false => exact ⟨rfl, .mark (by decide) (by decide) rfl (.inl (by decide)) hword⟩
  | true =>
    exact ⟨rfl, .mark (by decide) (by decide) rfl (.inl (by decide)) (.mark (by decide) (by decide) rfl (.inl (by decide)) hword)⟩

theorem computedKey {key : Expr} (h : LeadsOperand E free level key) {s : List Char}
    (hs : BehindOperand E free s) :
    BehindOperand E free (((MemberKey.computed key).print false level).toList ++ s) := by
  have htext : ((MemberKey.computed key).print false level).toList ++ s =
      '[' :: ((key.print level).toList ++ ']' :: s) := by
    simp [MemberKey.print, Print.textIf]
  rw [htext]
  exact ⟨rfl, .mark (by decide) (by decide) rfl (.inl (by decide))
    (h.operand _ (behind_closer (.inr rfl) hs.lexed).1)⟩

/-- Behind an operator that is a word no tag may come first, unless there is no colon. -/
theorem unary {op : UnaryOp} {arg : Expr} (h : LeadsOperand E free level arg)
    (hop : op.isWord = true → arg.opensMarkup = false ∨ free = true) :
    LeadsOperand E free level (.unary op arg) := by
  intro room _ s hs
  -- a sign leaves room for an element, a word does not
  have hsign : ∀ {c : Char}, leavesRoom c = true → (∀ t, startsArrowOrComment c t = false) →
      c ≠ ':' → op.isWord = false → op.symbol.toList = [c] →
        Lexed E free false room (((Expr.unary op arg).print level).toList ++ s) := by
    intro c hc harrow hcolon hword hsymbol
    have harg := h.guarded_operand Power.unary s hs
    obtain ⟨hpassed, hpart, hroom⟩ := passed_of_leavesRoom hc
    rw [Expr.print, String.toList_append, String.toList_append, hsymbol, List.append_assoc,
      List.append_assoc]
    refine .mark hpassed hpart (harrow _) (.inl hcolon) ?_
    rw [hroom, hword, Bool.false_or]
    cases op.isSign && arg.isSigned with
    | false => exact harg
    | true => exact harg.blank
  have hword : op.isWord = true → isIdentifier op.symbol = true →
      wordOperators.contains op.symbol = false →
        Lexed E free false room (((Expr.unary op arg).print level).toList ++ s) := by
    intro hword hname hnone
    have harg : Lexed E free false false ((arg.guarded Power.unary (arg.print level)).toList ++ s) :=
      h.guarded Power.unary (fun _ => ⟨Nat.le_refl _, hop hword⟩) s hs
    rw [Expr.print, String.toList_append, String.toList_append, hword, Bool.true_or,
      List.append_assoc, List.append_assoc]
    exact LeadsLexed.ofWord hname (.inr hnone) _ ⟨rfl, harg.blank⟩
  cases op with
  | not | minus | plus => exact hsign (by decide) (fun _ => rfl) (by decide) rfl rfl
  | typeOf | void | await => exact hword rfl (by decide) (by decide)

/-- An expression of little power stands in parentheses behind such an operator. -/
theorem ofWeak {e : Expr} (hpower : e.power < Power.unary)
    (h : LeadsLexed E free true (e.print level)) : LeadsOperand E free level e := by
  intro room hroom
  cases room with
  | true => exact h
  | false => exact absurd (hroom rfl).1 (by omega)

theorem binary {op : BinaryOp} {left right : Expr} (hleft : LeadsOperand E free level left)
    (hright : LeadsOperand E free level right) : LeadsOperand E free level (.binary op left right) := by
  have hpower : op.precedence < Power.unary := by cases op <;> decide
  refine ofWeak hpower ?_
  rw [Expr.print]
  exact (hleft.guarded_operand _).spaced (hright.guarded_operand _)
    fun s => LeadsLexed.lexed_binaryOp op

theorem cond (hfree : free = false) {test cons alt : Expr} (htest : LeadsOperand E free level test)
    (hcons : LeadsOperand E free level cons) (halt : LeadsOperand E free level alt) :
    LeadsOperand E free level (.cond test cons alt) := by
  have hpower : Power.conditional < Power.unary := by decide
  refine ofWeak hpower fun s hs => ?_
  have htext : ((Expr.cond test cons alt).print level).toList ++ s =
      (test.guarded (Power.conditional + 1) (test.print level)).toList ++ ' ' ::
        ("?".toList ++ ' ' :: ((cons.print level).toList ++ ' ' ::
          (":".toList ++ ' ' :: ((alt.print level).toList ++ s)))) := by
    simp
  rw [htext]
  have hbranch : BehindOperand E free (' ' :: (":".toList ++ ' ' :: ((alt.print level).toList ++ s))) :=
    ⟨rfl, (lexed_symbol (by decide) (by decide) (.inr hfree) (halt.operand s hs)).blank⟩
  exact htest.guarded_operand _ _
    ⟨rfl, (lexed_symbol (by decide) (by decide) (.inr hfree) (hcons.operand _ hbranch)).blank⟩

theorem assign {op : AssignOp} {target value : Expr} (htarget : LeadsOperand E free level target)
    (hvalue : LeadsOperand E free level value) : LeadsOperand E free level (.assign op target value) := by
  have hpower : Power.assignment < Power.unary := by decide
  refine ofWeak hpower ?_
  rw [Expr.print]
  exact (htarget.guarded_operand _).spaced (hvalue.guarded_operand _)
    fun s => LeadsLexed.lexed_assignOp op

/-- An element has to stand where there is room for it. -/
theorem jsx {el : Element} {c : Char} {t : List Char}
    (htext : (el.print level).toList = '<' :: c :: t) (hc : ¬(c = ' ' ∨ c = '='))
    (hread : ∀ s, run (element E) ((el.print level).toList ++ s) = some (el, s)) :
    LeadsOperand E free level (.jsx el) := by
  intro room hroom s hs
  have helement := hread s
  rw [Expr.print]
  rw [htext] at helement ⊢
  cases room with
  | true => exact .element hc (.inl ⟨rfl, rfl⟩) helement hs.lexed
  | false => exact .element hc (.inr (by simpa [Expr.opensMarkup] using (hroom rfl).2)) helement hs.lexed

end LeadsOperand

end TsxCompiler.Grammar

import TsxCompiler.Proofs.Printed
import TsxCompiler.Proofs.TypeTexts

/-!
# Texts without arrows

In a text without arrows and comments no annotation is followed by an arrow: types are read token by
token, and what is left of such a text behind a token is again one of them. So these texts form a
`TextClass`, in every dialect.
-/

namespace TsxCompiler.Grammar

open Peg Peg.Parser Text


/-! ## The texts -/

/-- Whether a character, with what follows it, starts an arrow or a comment. -/
def startsArrowOrComment (c : Char) (s : List Char) : Bool :=
  c == '=' && s.head? == some '>' || c == '/' && (s.head? == some '/' || s.head? == some '*')

/-- Whether a text has neither arrows nor comments outside quotes. The first argument is the quote
that is open where the text starts, if there is one. -/
def isArrowFreeIn : Option Char → List Char → Bool
  | _, [] => true
  | none, c :: s =>
    if isQuote c then isArrowFreeIn (some c) s
    else !startsArrowOrComment c s && isArrowFreeIn none s
  | some _, ['\\'] => true
  | some q, '\\' :: _ :: s => isArrowFreeIn (some q) s
  | some q, c :: s => isArrowFreeIn (if c = q then none else some q) s

/-- A text that starts outside quotes and has neither arrows nor comments there. -/
def ArrowFree (s : List Char) : Prop := isArrowFreeIn none s = true

theorem arrowFree_cons {c : Char} (hc : isQuote c = false) (s : List Char) :
    ArrowFree (c :: s) ↔ startsArrowOrComment c s = false ∧ ArrowFree s := by
  simp [ArrowFree, isArrowFreeIn, hc]

theorem isArrowFreeIn_quoted {q c : Char} (hc : c ≠ '\\') (s : List Char) :
    isArrowFreeIn (some q) (c :: s) = isArrowFreeIn (if c = q then none else some q) s := by
  rw [isArrowFreeIn]
  · rintro rfl -
    exact hc rfl
  · rintro x t rfl -
    exact hc rfl

/-- The body of a literal is passed over, whatever it holds. -/
theorem isArrowFreeIn_body {q : Char} {plain : Char → Bool} (hq : plain q = false) (hq' : q ≠ '\\')
    {body : List Char} (hbody : isBody plain body = true) (s : List Char) :
    isArrowFreeIn (some q) (body ++ q :: s) = isArrowFreeIn none s := by
  induction body using isBody.induct with
  | case1 => rw [List.nil_append, isArrowFreeIn_quoted hq', if_pos rfl]
  | case2 => simp [isBody] at hbody
  | case3 x body ih =>
    rw [isBody] at hbody
    simpa [isArrowFreeIn] using ih hbody
  | case4 c body h1 h2 ih =>
    rw [isBody] at hbody
    · simp only [Bool.and_eq_true] at hbody
      have hc : c ≠ '\\' := by
        rintro rfl
        cases body with
        | nil => exact h1 rfl rfl
        | cons x body => exact h2 x body rfl rfl
      have hne : c ≠ q := by
        rintro rfl
        simp [hbody.1] at hq
      rw [List.cons_append, isArrowFreeIn_quoted hc, if_neg hne, ih hbody.2]
    · exact h1
    · exact h2

/-- A literal in quotes does not matter for what follows it. -/
theorem arrowFree_quoted {q : Char} {plain : Char → Bool} (hquote : isQuote q = true)
    (hq : plain q = false) (hq' : q ≠ '\\') {body : List Char} (hbody : isBody plain body = true)
    (s : List Char) : ArrowFree (q :: (body ++ q :: s)) ↔ ArrowFree s := by
  simp [ArrowFree, isArrowFreeIn, hquote, isArrowFreeIn_body hq hq' hbody]

theorem arrowFree_string {lit : StringLit} {raw : String} (h : IsSpelled lit)
    (hraw : lit.raw = some raw) (s : List Char) : ArrowFree (raw.toList ++ s) ↔ ArrowFree s := by
  obtain ⟨q, body, hq, hbody, hspelled, -⟩ := h
  rw [hraw, Option.some.injEq] at hspelled
  have htext : raw.toList ++ s = q :: (body ++ q :: s) := by simp [hspelled]
  rw [htext]
  refine arrowFree_quoted ?_ (by simp [isStringChar]) ?_ hbody s
  all_goals rcases hq with rfl | rfl <;> decide

theorem arrowFree_template {raw : String} (h : isTemplateText raw = true) (s : List Char) :
    ArrowFree (backquote :: (raw.toList ++ backquote :: s)) ↔ ArrowFree s := by
  simp only [isTemplateText, Bool.and_eq_true] at h
  exact arrowFree_quoted (by decide) (by decide) (by decide) h.1 s

/-- Nothing is skipped where neither a blank nor a comment stands. -/
theorem skip_of_noComment {c : Char} {s : List Char} (hb : isBlank c = false)
    (h : c = '/' → startsArrowOrComment c s = false) : skip (c :: s) = c :: s := by
  by_cases hslash : c = '/'
  · have hstart := h hslash
    subst hslash
    cases s with
    | nil => exact skip_slash_end
    | cons x s =>
      simp [startsArrowOrComment] at hstart
      exact skip_slash hstart.1 hstart.2 s
  · exact skip_cons hb hslash s

theorem arrowFree_skip {s : List Char} (h : ArrowFree s) : ArrowFree (skip s) := by
  induction s with
  | nil => simpa using h
  | cons c s ih =>
    cases hb : isBlank c with
    | true =>
      rw [skip_blank hb]
      exact ih ((arrowFree_cons (isQuote_of_isPassed (isPassed_of_isBlank hb)) s).1 h).2
    | false =>
      rwa [skip_of_noComment hb]
      rintro rfl
      exact ((arrowFree_cons (by decide) s).1 h).1

/-! ## Tokens -/

theorem arrowFree_of_append {w s : List Char} (hw : w.all (fun c => !isQuote c) = true)
    (h : ArrowFree (w ++ s)) : ArrowFree s := by
  refine good_of_append (fun hc h => ?_) hw h
  exact ((arrowFree_cons (by simpa using hc) _).1 h).2

theorem arrowFree_of_passed {w s : List Char} (hw : w.all isPassed = true)
    (h : ArrowFree (w ++ s)) : ArrowFree s := by
  refine arrowFree_of_append ?_ h
  rw [List.all_eq_true] at hw ⊢
  intro c hc
  simp [isQuote_of_isPassed (hw c hc)]

theorem turns_arrowFree_sym {text : String} (ht : text.toList.all (fun c => !isQuote c) = true) :
    Turns ArrowFree ArrowFree (sym text) := by
  intro s u r h hs
  obtain ⟨t, rfl, rfl⟩ := run_sym_inv h
  exact arrowFree_skip (arrowFree_of_append ht hs)

theorem run_arrow_none {s : List Char} (h : ArrowFree s) : run (sym "=>") s = none := by
  cases hs : run (sym "=>") s with
  | none => rfl
  | some x =>
    obtain ⟨t, rfl, -⟩ := run_sym_inv hs
    have hstart : startsArrowOrComment '=' ('>' :: t) = false :=
      ((arrowFree_cons (by decide) ('>' :: t)).1 h).1
    simp [startsArrowOrComment] at hstart

/-- Every token leaves an arrow-free text. -/
theorem arrowFree_tokenTexts : TokenTexts ArrowFree ArrowFree ArrowFree where
  any_of_operand _ hs := hs
  any_of_behind _ hs := hs
  opening {text} ht := turns_arrowFree_sym <| by
    have hmarks : ∀ x ∈ openingMarks, x.toList.all (fun c => !isQuote c) = true := by decide
    exact hmarks text ht
  closing {text} ht := turns_arrowFree_sym <| by
    have hmarks : ∀ x ∈ [")", "]", ">"], x.toList.all (fun c => !isQuote c) = true := by decide
    exact hmarks text ht
  angle := turns_arrowFree_sym (by decide)
  braces hp := (turns_arrowFree_sym (by decide)).between hp (turns_arrowFree_sym (by decide))
  word s name r h hs := by
    obtain ⟨hname, t, rfl, -, rfl⟩ := run_word_inv h
    exact arrowFree_skip (arrowFree_of_passed (passed_of_isIdentifier hname) hs)
  string s lit r h hs := by
    obtain ⟨hlit, raw, t, hraw, rfl, rfl⟩ := run_stringLit_inv h
    exact arrowFree_skip ((arrowFree_string hlit hraw t).1 hs)
  number s text r h hs := by
    obtain ⟨htext, t, rfl, rfl⟩ := run_number_inv h
    exact arrowFree_skip (arrowFree_of_passed (passed_of_isNumeral htext) hs)
  arrow := run_arrow_none

/-! ## The class of texts -/

/-- In an arrow-free text nothing is an annotation with an arrow behind it. -/
theorem arrowFree_textClass (d : Dialect) : TextClass d ArrowFree where
  cons hc h := arrowFree_of_passed (w := [_]) (by simpa using hc) h
  less _ h := ((arrowFree_cons (by decide) _).1 h).2
  string hlit hraw h := (arrowFree_string hlit hraw _).1 h
  template hraw h := (arrowFree_template hraw _).1 h
  colon h := arrowFree_tokenTexts.run_ascription_arrow d ((arrowFree_cons (by decide) _).1 h).2

end TsxCompiler.Grammar

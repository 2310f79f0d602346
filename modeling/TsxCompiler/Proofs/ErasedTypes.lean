import TsxCompiler.Proofs.ExpressionModules

/-!
# Types leave no trace

A type is read by a grammar of its own that backtracks a good deal: parentheses may hold parameters
or a type, a row of members may go on or end, a name may have arguments. What a rule gives up for
want of text could be taken up again when more text follows. `Carries` says that this does not
happen: whatever a rule reads of a text it also reads of the longer text, it fails on both or on
none, and what it leaves of the one is what it leaves of the other, lengthened in the same way.

Texts are lengthened by a line break and a text that no type goes on with (`EndsType`). Inside a
lexeme they are simply put behind (`lineBehind`). Between lexemes blanks are skipped, so that the
line break is gone where nothing else is left (`nextBehind`).

* `run_typeExpr_line` — a type ends where it ended, before any such text.
* `parse_annotated` — an annotated declaration is the module that it is without its annotation.
-/

namespace TsxCompiler.Peg.Parser

variable {α β γ : Type} {g : List Char → List Char}

/-! ## Reading lengthened texts -/

/-- What the first parser reads of a text, the second reads of the lengthened one, and it leaves
what the first leaves, lengthened. -/
class Carries (g : List Char → List Char) (p q : Parser α) : Prop where
  run_eq : ∀ s, run q (g s) = (run p s).map fun x => (x.1, g x.2)

/-- A way to lengthen texts that keeps the order of their lengths. -/
class KeepsOrder (g : List Char → List Char) : Prop where
  length_lt_iff : ∀ s t, (g s).length < (g t).length ↔ s.length < t.length

instance (f : α → β) (p q : Parser α) [h : Carries g p q] : Carries g (p.map f) (q.map f) where
  run_eq s := by
    rw [run_map, run_map, h.run_eq]
    cases run p s <;> rfl

instance (b : β) (p q : Parser α) [Carries g p q] : Carries g (p.yielding b) (q.yielding b) :=
  inferInstanceAs (Carries g (p.map _) (q.map _))

instance (text : String) (p q : Parser α) [h : Carries g p q] :
    Carries g (p.label text) (q.label text) where
  run_eq s := by rw [run_label, run_label, h.run_eq]

instance (f : α → β → γ) (p p' : Parser α) (q q' : Parser β) [hp : Carries g p p']
    [hq : Carries g q q'] : Carries g (both f p q) (both f p' q') where
  run_eq s := by
    rw [run_both, run_both, hp.run_eq]
    cases run p s with
    | none => rfl
    | some x =>
      simp only [Option.map_some, Option.bind_some, hq.run_eq]
      cases run q x.2 <;> rfl

instance (p p' : Parser α) (q q' : Parser β) [Carries g p p'] [Carries g q q'] :
    Carries g (p.seq q) (p'.seq q') := inferInstanceAs (Carries g (both _ p q) (both _ p' q'))

instance (p p' : Parser α) (q q' : Parser β) [Carries g p p'] [Carries g q q'] :
    Carries g (p.thenSkip q) (p'.thenSkip q') :=
  inferInstanceAs (Carries g (both _ p q) (both _ p' q'))

instance (p p' : Parser α) (q q' : Parser β) [Carries g p p'] [Carries g q q'] :
    Carries g (p.skipThen q) (p'.skipThen q') :=
  inferInstanceAs (Carries g (both _ p q) (both _ p' q'))

instance (p p' q q' : Parser α) [hp : Carries g p p'] [hq : Carries g q q'] :
    Carries g (p.orElse q) (p'.orElse q') where
  run_eq s := by
    rw [run_orElse, run_orElse, hp.run_eq, hq.run_eq]
    cases run p s <;> rfl

instance (p p' : Parser α) [hp : Carries g p p'] : Carries g (choice p []) (choice p' []) := hp

instance (p p' q q' : Parser α) (more more' : List (Parser α)) [hp : Carries g p p']
    [hq : Carries g (choice q more) (choice q' more')] :
    Carries g (choice p (q :: more)) (choice p' (q' :: more')) where
  run_eq s := by
    rw [run_choice_cons, run_choice_cons, hp.run_eq, hq.run_eq]
    cases run p s <;> rfl

instance (p q : Parser α) [h : Carries g p q] : Carries g p.optional q.optional where
  run_eq s := by
    rw [run_optional, run_optional, h.run_eq]
    cases run p s <;> rfl

section Repetition

variable [KeepsOrder g]

instance (p q : Parser α) [h : Carries g p q] : Carries g (many p) (many q) where
  run_eq s := by
    induction hn : s.length using Nat.strongRecOn generalizing s with
    | _ n ih =>
      rw [run_many q, run_many p, h.run_eq]
      cases run p s with
      | none => rfl
      | some x =>
        simp only [Option.map_some, KeepsOrder.length_lt_iff]
        split
        · rw [ih x.2.length (by omega) x.2 rfl]
          cases run (many p) x.2 <;> rfl
        · rfl

instance (p q : Parser α) [h : Carries g p q] : Carries g (many1 p) (many1 q) where
  run_eq s := by
    rw [run_many1, run_many1, h.run_eq, Carries.run_eq (p := many p) (q := many q)]
    cases run p s <;> rfl

theorem runFollowers_carries (sep sep' : Parser β) (p p' : Parser α) [Carries g sep sep']
    [Carries g p p'] (s : List Char) :
    runFollowers sep' p' (g s) = ((runFollowers sep p s).1, g (runFollowers sep p s).2) := by
  have hboth : Carries g (sep.skipThen p) (sep'.skipThen p') := inferInstance
  induction hn : s.length using Nat.strongRecOn generalizing s with
  | _ n ih =>
    rw [runFollowers_eq sep', runFollowers_eq sep, hboth.run_eq]
    cases run (sep.skipThen p) s with
    | none => rfl
    | some x =>
      simp only [Option.map_some, KeepsOrder.length_lt_iff]
      split
      · rw [ih x.2.length (by omega) x.2 rfl]
      · rfl

instance (sep sep' : Parser β) (p p' : Parser α) [Carries g sep sep'] [hp : Carries g p p'] :
    Carries g (sepBy1 sep p) (sepBy1 sep' p') where
  run_eq s := by
    rw [run_sepBy1, run_sepBy1, hp.run_eq]
    cases run p s with
    | none => rfl
    | some x => simp [runFollowers_carries sep sep' p p']

instance (sep sep' : Parser β) (p p' : Parser α) [hsep : Carries g sep sep']
    [hp : Carries g p p'] : Carries g (sepByTrailing sep p) (sepByTrailing sep' p') where
  run_eq s := by
    rw [run_sepByTrailing, run_sepByTrailing, hp.run_eq]
    cases run p s with
    | none => rfl
    | some x =>
      simp only [Option.map_some, runFollowers_carries sep sep' p p', hsep.run_eq]
      cases run sep (runFollowers sep p x.2).2 <;> rfl

/-- A recursive rule is carried by its body. -/
theorem carries_fix {body : Parser α → Parser α}
    (h : ∀ X Y, Carries g X Y → Carries g (body X) (body Y)) : Carries g (fix body) (fix body) where
  run_eq s := by
    induction hn : s.length using Nat.strongRecOn generalizing s with
    | _ n ih =>
      have hbelow : Carries g (below s.length (fix body)) (below (g s).length (fix body)) := by
        refine ⟨fun t => ?_⟩
        rw [run_below, run_below]
        simp only [KeepsOrder.length_lt_iff]
        split
        · exact ih t.length (by omega) t rfl
        · rfl
      rw [run_fix, run_fix]
      exact (h _ _ hbelow).run_eq s

end Repetition

end TsxCompiler.Peg.Parser

namespace TsxCompiler.Grammar

open Peg Peg.Parser Text

variable {α : Type} {u : List Char}

/-! ## Inside a lexeme -/

/-- A text with a line break and more text behind it. -/
def lineBehind (u s : List Char) : List Char := s ++ '\n' :: u

/-- The punctuators of types. -/
def typeMarks : List String :=
  [",", ".", ";", ":", "?", "|", "&", "...", "=>", "(", ")", "[", "]", "\x7b", "\x7d", "<", ">"]

/-- A text that no type goes on with, and that closes no comment and no string. -/
class EndsType (u : List Char) : Prop where
  skip_eq : skip u = u
  noStar : '*' ∉ u
  noQuote : '"' ∉ u ∧ '\'' ∉ u
  noMark : ∀ text ∈ typeMarks, run (literal text) u = none
  noWord : run rawWord u = none
  noDigit : run digits u = none

instance : KeepsOrder (lineBehind u) where
  length_lt_iff s t := by
    simp only [lineBehind, List.length_append]
    omega

theorem carries_satisfy {test : Char → Bool} (h : test '\n' = false) :
    Carries (lineBehind u) (satisfy test) (satisfy test) where
  run_eq s := by
    cases s with
    | nil => simp [lineBehind, run_satisfy_cons, h]
    | cons c s =>
      rw [lineBehind, List.cons_append, run_satisfy_cons, run_satisfy_cons]
      split <;> rfl

theorem carries_char {wanted : Char} (h : wanted ≠ '\n') :
    Carries (lineBehind u) (char wanted) (char wanted) where
  run_eq s := by
    cases s with
    | nil => simp [lineBehind, run_char_cons, h.symm]
    | cons c s =>
      rw [lineBehind, List.cons_append, run_char_cons, run_char_cons]
      split <;> rfl

theorem carries_literal {text : String} (h : '\n' ∉ text.toList) :
    Carries (lineBehind u) (literal text) (literal text) := by
  unfold literal
  generalize text.toList = cs at h
  induction cs with
  | nil => exact ⟨fun s => rfl⟩
  | cons c cs ih =>
    simp only [List.mem_cons, not_or] at h
    have hchar : Carries (lineBehind u) (char c) (char c) := carries_char (Ne.symm h.1)
    refine ⟨fun s => ?_⟩
    rw [run_chars_cons, run_chars_cons, hchar.run_eq]
    cases run (char c) s with
    | none => rfl
    | some x => exact (ih h.2).run_eq x.2

instance : Carries (lineBehind u) rawWord rawWord := by
  have hstart : Carries (lineBehind u) (satisfy isWordStart) (satisfy isWordStart) :=
    carries_satisfy (by decide)
  have hpart : Carries (lineBehind u) (satisfy isWordPart) (satisfy isWordPart) :=
    carries_satisfy (by decide)
  unfold rawWord
  infer_instance

/-- A character that only the first half of a text can hold stands in it. -/
theorem exists_of_append_eq_append {q : Char} {s t body r : List Char} (ht : q ∉ t)
    (h : s ++ t = body ++ q :: r) : ∃ r', s = body ++ q :: r' := by
  rcases List.append_eq_append_iff.1 h with ⟨v, -, hv⟩ | ⟨v, hs, hv⟩
  · exact absurd (hv ▸ List.mem_append_right v List.mem_cons_self) ht
  · cases v with
    | nil =>
      rw [List.nil_append] at hv
      exact absurd (hv ▸ List.mem_cons_self) ht
    | cons c v =>
      simp only [List.cons_append, List.cons.injEq] at hv
      exact ⟨v, hv.1 ▸ hs⟩

/-- A string that is not closed stays open if its quote does not follow. -/
theorem carries_quotedString {q : Char} (hq : q ≠ '\\') (hu : q ∉ '\n' :: u) :
    Carries (lineBehind u) (quotedString q) (quotedString q) where
  run_eq s := by
    cases h : run (quotedString q) s with
    | some x =>
      obtain ⟨lit, r⟩ := x
      obtain ⟨body, hbody, rfl, -⟩ := run_quotedString_inv h
      rw [run_quotedString_append hq hbody] at h
      simp only [Option.some.injEq, Prod.mk.injEq, and_true] at h
      rw [lineBehind, List.cons_append, List.append_assoc, List.cons_append,
        run_quotedString_append hq hbody, h]
      rfl
    | none =>
      cases hlong : run (quotedString q) (lineBehind u s) with
      | none => rfl
      | some x =>
        -- The closing quote is none of the characters that were put behind.
        obtain ⟨body, hbody, htext, -⟩ := run_quotedString_inv (r := x.2) hlong
        have hsplit : s ++ '\n' :: u = (q :: body) ++ q :: x.2 := htext
        obtain ⟨r, rfl⟩ := exists_of_append_eq_append hu hsplit
        rw [List.cons_append, run_quotedString_append hq hbody] at h
        cases h

/-! ## Blanks and comments -/

/-- A mark whose first character does not occur is not found. -/
theorem run_skipUntil_none {text : String} {wanted : Char} {more : List Char}
    (ht : text.toList = wanted :: more) {s : List Char} (h : wanted ∉ s) :
    run (skipUntil (literal text)) s = none := by
  have hnone : ∀ s, wanted ∉ s → run (literal text) s = none := by
    intro s hs
    rw [literal, ht, run_chars_cons]
    cases s with
    | nil => rfl
    | cons c s => rw [run_char_cons, if_neg (by grind)]; rfl
  induction s with
  | nil => rw [run_skipUntil_nil, hnone [] h]; rfl
  | cons c s ih =>
    rw [run_skipUntil_cons, hnone (c :: s) h, ih (List.not_mem_of_not_mem_cons h)]
    rfl

/-- A comment that is not closed stays open. -/
instance [h : EndsType u] : Carries (lineBehind u) (skipUntil (literal "*/"))
    (skipUntil (literal "*/")) where
  run_eq s := by
    have hmark : Carries (lineBehind u) (literal "*/") (literal "*/") :=
      carries_literal (by decide)
    induction s with
    | nil =>
      have hmarkText : "*/".toList = ['*', '/'] := rfl
      have hnone : run (skipUntil (literal "*/")) ('\n' :: u) = none :=
        run_skipUntil_none hmarkText (by simp [h.noStar])
      rw [run_skipUntil_nil]
      exact hnone
    | cons c s ih =>
      have hcons := hmark.run_eq (c :: s)
      rw [lineBehind, List.cons_append] at hcons ⊢
      rw [run_skipUntil_cons, run_skipUntil_cons, hcons]
      cases run (literal "*/") (c :: s) with
      | some x => rfl
      | none => exact ih

/-- Behind some text a line break is no part of the blank or comment in front. -/
theorem run_triviaPiece_line [EndsType u] {s : List Char} (hs : s ≠ []) :
    run triviaPiece (lineBehind u s) =
      (run triviaPiece s).map fun x => (x.1, lineBehind u x.2) := by
  have hline : Carries (lineBehind u) (literal "//") (literal "//") := carries_literal (by decide)
  have hrest : Carries (lineBehind u) (satisfy (· != '\n')) (satisfy (· != '\n')) :=
    carries_satisfy rfl
  have hblock : Carries (lineBehind u) (literal "/*") (literal "/*") := carries_literal (by decide)
  obtain ⟨c, s, rfl⟩ := List.exists_cons_of_ne_nil hs
  have hblank : run ((satisfy isBlank).yielding ()) (lineBehind u (c :: s)) =
      (run ((satisfy isBlank).yielding ()) (c :: s)).map fun x => (x.1, lineBehind u x.2) := by
    rw [run_yielding, run_yielding, lineBehind, List.cons_append, run_satisfy_cons,
      run_satisfy_cons]
    split <;> rfl
  rw [triviaPiece, run_choice_cons _ _ _ (lineBehind u (c :: s)), run_choice_cons _ _ _ (c :: s),
    hblank]
  cases run ((satisfy isBlank).yielding ()) (c :: s) with
  | some x => rfl
  | none => exact Carries.run_eq (c :: s)

/-- A text with more text behind it, where the line break between them is skipped if nothing else
is left. -/
def nextBehind (u : List Char) : List Char → List Char
  | [] => u
  | c :: s => lineBehind u (c :: s)

instance : KeepsOrder (nextBehind u) where
  length_lt_iff s t := by
    cases s <;> cases t <;> simp only [nextBehind, lineBehind, List.length_append,
      List.length_cons, List.length_nil] <;> omega

/-- What is skipped of a text is skipped of the longer one, and the line break too if nothing else
is left. -/
theorem skip_line [h : EndsType u] (s : List Char) :
    skip (lineBehind u s) = nextBehind u (skip s) := by
  induction hn : s.length using Nat.strongRecOn generalizing s with
  | _ n ih =>
    cases s with
    | nil =>
      rw [skip_nil]
      exact (skip_blank (by decide) u).trans h.skip_eq
    | cons c s =>
      have hpiece := run_triviaPiece_line (u := u) (List.cons_ne_nil c s)
      cases hread : run triviaPiece (c :: s) with
      | none =>
        rw [hread] at hpiece
        rw [skip_of_none hread, skip_of_none hpiece]
        rfl
      | some x =>
        rw [hread] at hpiece
        have hlt : x.2.length < (c :: s).length := length_lt_of_run hread
        rw [skip_of_piece hread, skip_of_piece hpiece, ih x.2.length (by omega) x.2 rfl]

/-- A lexeme is carried if it starts neither at the end nor with the text that is put behind. -/
theorem carries_lexeme [EndsType u] {p : Parser α} [h : Carries (lineBehind u) p p]
    (hnil : run p [] = none) (hu : run p u = none) :
    Carries (nextBehind u) (lexeme p) (lexeme p) where
  run_eq s := by
    cases s with
    | nil => rw [run_lexeme, run_lexeme, hnil, nextBehind, hu]; rfl
    | cons c s =>
      rw [run_lexeme, run_lexeme, nextBehind, h.run_eq]
      cases run p (c :: s) with
      | none => rfl
      | some x => simp [skip_line]

/-! ## Between lexemes -/

theorem carries_sym (u : List Char) [h : EndsType u] (text : String) (ht : text ∈ typeMarks) :
    Carries (nextBehind u) (sym text) (sym text) := by
  have hmark : '\n' ∉ text.toList ∧ run (literal text) [] = none := by
    revert text
    decide
  have hliteral : Carries (lineBehind u) (literal text) (literal text) := carries_literal hmark.1
  have hlexeme : Carries (nextBehind u) (lexeme (literal text)) (lexeme (literal text)) :=
    carries_lexeme hmark.2 (h.noMark text ht)
  unfold sym
  infer_instance

instance [h : EndsType u] : Carries (nextBehind u) word word := by
  have hlexeme : Carries (nextBehind u) (lexeme rawWord) (lexeme rawWord) :=
    carries_lexeme run_rawWord_nil h.noWord
  unfold word
  infer_instance

instance [h : EndsType u] : Carries (nextBehind u) stringLit stringLit := by
  have hdouble : Carries (lineBehind u) (quotedString '"') (quotedString '"') :=
    carries_quotedString (by decide) (by simp [h.noQuote])
  have hsingle : Carries (lineBehind u) (quotedString '\'') (quotedString '\'') :=
    carries_quotedString (by decide) (by simp [h.noQuote])
  have hlexeme : Carries (nextBehind u)
      (lexeme ((quotedString '"').orElse (quotedString '\'')))
      (lexeme ((quotedString '"').orElse (quotedString '\''))) := by
    refine carries_lexeme rfl ?_
    rw [run_orElse, run_quotedString_of_notMem h.noQuote.1,
      run_quotedString_of_notMem h.noQuote.2]
    rfl
  unfold stringLit
  infer_instance

instance [h : EndsType u] : Carries (nextBehind u) number number := by
  have hdigit : Carries (lineBehind u) (satisfy Char.isDigit) (satisfy Char.isDigit) :=
    carries_satisfy rfl
  have hpoint : Carries (lineBehind u) (char '.') (char '.') := carries_char (by decide)
  have hdigits : Carries (lineBehind u) digits digits := by
    unfold digits
    infer_instance
  have hlexeme : Carries (nextBehind u)
      (lexeme (both (fun whole fraction => String.ofList (whole ++ fraction.getD [])) digits
        (both List.cons (char '.') digits).optional))
      (lexeme (both (fun whole fraction => String.ofList (whole ++ fraction.getD [])) digits
        (both List.cons (char '.') digits).optional)) :=
    carries_lexeme (by rw [run_both, run_digits_nil]; rfl) (by rw [run_both, h.noDigit]; rfl)
  unfold number
  infer_instance

/-! ## Types -/

section Types

variable [EndsType u]

instance (p q : Parser α) [Carries (nextBehind u) p q] :
    Carries (nextBehind u) (forget p) (forget q) :=
  inferInstanceAs (Carries (nextBehind u) (p.yielding ()) (q.yielding ()))

instance (p q : Parser α) [Carries (nextBehind u) p q] :
    Carries (nextBehind u) (inParens p) (inParens q) := by
  have hopen := carries_sym u "(" (by decide)
  have hclose := carries_sym u ")" (by decide)
  unfold inParens between
  infer_instance

instance (p q : Parser α) [Carries (nextBehind u) p q] :
    Carries (nextBehind u) (inBrackets p) (inBrackets q) := by
  have hopen := carries_sym u "[" (by decide)
  have hclose := carries_sym u "]" (by decide)
  unfold inBrackets between
  infer_instance

instance (p q : Parser α) [Carries (nextBehind u) p q] :
    Carries (nextBehind u) (inBraces p) (inBraces q) := by
  have hopen := carries_sym u "\x7b" (by decide)
  have hclose := carries_sym u "\x7d" (by decide)
  unfold inBraces between
  infer_instance

instance (p q : Parser α) [Carries (nextBehind u) p q] :
    Carries (nextBehind u) (inAngles p) (inAngles q) := by
  have hopen := carries_sym u "<" (by decide)
  have hclose := carries_sym u ">" (by decide)
  unfold inAngles between
  infer_instance

section Rules

variable {X Y : Parser Unit} [Carries (nextBehind u) X Y]

instance : Carries (nextBehind u) (typeReference X) (typeReference Y) := by
  have hcomma := carries_sym u "," (by decide)
  have hpoint := carries_sym u "." (by decide)
  unfold typeReference typeArgs
  infer_instance

instance : Carries (nextBehind u) (memberType X) (memberType Y) := by
  have hmark := carries_sym u "?" (by decide)
  have hcolon := carries_sym u ":" (by decide)
  unfold memberType
  infer_instance

instance : Carries (nextBehind u) (paramType X) (paramType Y) := by
  have hdots := carries_sym u "..." (by decide)
  have hmark := carries_sym u "?" (by decide)
  have hcolon := carries_sym u ":" (by decide)
  unfold paramType
  infer_instance

instance : Carries (nextBehind u) (functionType X) (functionType Y) := by
  have hcomma := carries_sym u "," (by decide)
  have harrow := carries_sym u "=>" (by decide)
  unfold functionType
  infer_instance

instance : Carries (nextBehind u) (primaryType X) (primaryType Y) := by
  have hcomma := carries_sym u "," (by decide)
  have hsemicolon := carries_sym u ";" (by decide)
  unfold primaryType parenType objectType tupleType literalType
  infer_instance

instance : Carries (nextBehind u) (typeBody X) (typeBody Y) := by
  have hopen := carries_sym u "[" (by decide)
  have hclose := carries_sym u "]" (by decide)
  have hunion := carries_sym u "|" (by decide)
  have hmeet := carries_sym u "&" (by decide)
  unfold typeBody arrayType
  infer_instance

end Rules

theorem carries_typeExpr : Carries (nextBehind u) typeExpr typeExpr :=
  carries_fix fun _ _ _ => inferInstance

/-- A type ends where it ended, before a line break and any text that no type goes on with. -/
theorem run_typeExpr_line {t : List Char} (h : run typeExpr t = some ((), [])) :
    run typeExpr (t ++ '\n' :: u) = some ((), u) := by
  have hread := carries_typeExpr (u := u).run_eq t
  rw [h] at hread
  cases t with
  | nil => exact absurd (length_lt_of_run h) (Nat.lt_irrefl 0)
  | cons c s => exact hread

end Types

/-- Characters that a type may start with. -/
def startsType (c : Char) : Bool :=
  isWordStart c || c.isDigit || ['|', '(', '\x7b', '[', '"', '\''].contains c

theorem run_typeExpr_none {c : Char} (h : startsType c = false) (s : List Char) :
    run typeExpr (c :: s) = none := by
  simp only [startsType, Bool.or_eq_false_iff, List.contains_eq_mem, List.mem_cons,
    List.not_mem_nil, or_false, not_or, decide_eq_false_iff_not] at h
  obtain ⟨⟨hword, hdigit⟩, hbar, hparen, hbrace, hbracket, hdouble, hsingle⟩ := h
  have hprimary : run (primaryType typeExpr) (c :: s) = none := by
    simp [primaryType, run_choice_cons, functionType, parenType, objectType, tupleType,
      literalType, typeReference, forget, run_yielding, run_seq, run_thenSkip, run_orElse,
      run_sepBy1, run_inParens_none hparen, run_inBraces_none hbrace, run_inBrackets_none hbracket,
      run_stringLit_none hdouble hsingle, run_number_none hdigit, run_word_none hword]
  rw [run_typeExpr]
  simp [typeBody, arrayType, forget, run_yielding, run_skipThen, run_seq, run_sepBy1,
    run_optional_none (run_sym_none "|" rfl hbar s), hprimary]

theorem isBlank_of_startsType {c : Char} (h : startsType c = true) : isBlank c = false := by
  cases hb : isBlank c with
  | false => rfl
  | true =>
    have hw := isWordStart_of_isBlank hb
    simp only [startsType, hw, Bool.false_or, Bool.or_eq_true, List.contains_eq_mem, List.mem_cons,
      List.not_mem_nil, or_false, decide_eq_true_eq] at h
    rcases h with hd | rfl | rfl | rfl | rfl | rfl | rfl
    · exact hb ▸ forall_isDigit (P := fun c => isBlank c = false) (by decide) hd
    all_goals exact absurd hb (by decide)

/-- Neither a blank nor a comment stands before a type. -/
theorem skip_of_run_typeExpr {s r : List Char} {a : Unit} (h : run typeExpr s = some (a, r)) :
    skip s = s := by
  cases s with
  | nil => exact skip_nil
  | cons c s =>
    cases hc : startsType c with
    | false =>
      rw [run_typeExpr_none hc] at h
      cases h
    | true =>
      refine skip_cons (isBlank_of_startsType hc) ?_ s
      rintro rfl
      exact absurd hc (by decide)

/-! ## Annotated declarations -/

variable {d : Dialect}

/-- `let x = 1;` as a module. -/
def declaredOne : Program :=
  ⟨[.stmt (.decl (.var .letVar [⟨.ident "x", some (.lit (.number "1"))⟩]))]⟩

instance : EndsType "= 1;".toList where
  skip_eq := by decide +kernel
  noStar := by decide
  noQuote := by decide
  noMark := by decide +kernel
  noWord := by decide +kernel
  noDigit := by decide +kernel

theorem run_initializer_one {B : Parser (List Stmt)} [Shrinks B] :
    run (initializer (expression d B)) "= 1;".toList = some (some (.lit (.number "1")), [';']) := by
  have hnumeral : IsNumeral "1" := ⟨['1'], by decide, .inl rfl⟩
  have hskip : skip [';'] = [';'] := skip_cons (by decide) (by decide) []
  have hprimary : run (levelRule d B 11) ("1".toList ++ [';']) =
      some (.lit (.number "1"), skip [';']) := run_primary_number hnumeral rfl
  rw [hskip] at hprimary
  have hvalue : run (expression d B) ("1".toList ++ [';']) = some (.lit (.number "1"), [';']) :=
    run_levelRule_of_le (Nat.zero_le 11) (Nat.le_refl 11) hprimary
      ⟨fun _ => run_unaryOp_none (by decide) (by decide) (by decide) (by decide) _,
        fun _ => run_newExpr_none (by decide) _⟩
      (halts_of_char (by decide) [])
  have hsign : run (sym "=") "= 1;".toList = some ((), "1".toList ++ [';']) := by decide +kernel
  refine run_optional_some ?_
  rw [run_skipThen, hsign]
  exact hvalue

/-- The declaration is read whatever stands between its name and its value, if that is read as an
annotation or as nothing. -/
theorem run_program_declaredOne {s : List Char} (hend : endsWord s = true)
    (hs : run (ascription d) (skip s) = some ((), "= 1;".toList)) :
    run (program d) ("let".toList ++ ' ' :: ("x".toList ++ s)) = some (declaredOne, []) := by
  have hx : isIdentifier "x" = true := by decide
  have hpattern : run (bindingPattern (expression d (blockOf (statement d)))) ("x".toList ++ s) =
      some (.ident "x", skip s) := by
    rw [run_bindingPattern_word hx hend, if_neg (by decide)]
  have hdeclarator : run (declarator d (expression d (blockOf (statement d)))) ("x".toList ++ s) =
      some (⟨.ident "x", some (.lit (.number "1"))⟩, [';']) := by
    rw [declarator, run_both, run_thenSkip, hpattern, Option.bind_some, hs, Option.map_some,
      Option.bind_some, run_initializer_one]
    rfl
  have hcomma : run (sym ",") [';'] = none := run_sym_none "," rfl (by decide) []
  have hterminator : run terminator [';'] = some ((), []) := by decide +kernel
  refine run_program_item (skip_identifier (by decide) _) ?_
  exact run_moduleItem_var .letVar (skip_identifier hx s) hdeclarator hcomma hterminator

theorem parse_declaredOne : Grammar.parse d "let x = 1;".toList = .ok declaredOne := by
  have htext : "let x = 1;".toList = "let".toList ++ ' ' :: ("x".toList ++ " = 1;".toList) := by
    decide
  have hskip : skip " = 1;".toList = "= 1;".toList := by decide +kernel
  have hnone : run (ascription d) "= 1;".toList = some ((), "= 1;".toList) :=
    run_ascription_none (by decide +kernel)
  rw [htext]
  exact grammarParse_of_run_program (run_program_declaredOne rfl (hskip.symm ▸ hnone))

/-- An annotation ends where its type does. -/
theorem run_ascription_line (hd : d.isTypeScript = true) [EndsType u] {t : List Char}
    (h : run typeExpr t = some ((), [])) :
    run (ascription d) (skip (':' :: ' ' :: (t ++ '\n' :: u))) = some ((), u) := by
  have htype : run typeExpr (t ++ '\n' :: u) = some ((), u) := run_typeExpr_line h
  have hblank : skip (' ' :: (t ++ '\n' :: u)) = t ++ '\n' :: u := by
    rw [skip_blank (by decide), skip_of_run_typeExpr htype]
  rw [skip_cons (by decide) (by decide)]
  exact run_ascription_type hd (hblank.symm ▸ htype)

/-- Types leave no trace: a declaration annotated with any type is the module that it is without
its annotation. -/
theorem parse_annotated (hd : d.isTypeScript = true) (type : String)
    (h : run typeExpr type.toList = some ((), [])) :
    Grammar.parse d ("let x: " ++ type ++ "\n= 1;").toList = Grammar.parse d "let x = 1;".toList ∧
      Grammar.parse d "let x = 1;".toList = .ok declaredOne := by
  have htext : ("let x: " ++ type ++ "\n= 1;").toList =
      "let".toList ++ ' ' :: ("x".toList ++ ':' :: ' ' ::
        (type.toList ++ '\n' :: "= 1;".toList)) := by
    simp
  refine ⟨?_, parse_declaredOne⟩
  rw [parse_declaredOne, htext]
  exact grammarParse_of_run_program (run_program_declaredOne rfl (run_ascription_line hd h))

/-- A type of functions, objects and arrays, with a comment behind it that the line break ends. -/
def memberedType : String := "(a: A<B>[], ...c?) => \x7b d?: 'e'; f: [1.5] \x7d | (g.H) // = 2;"

theorem parse_annotated_memberedType :
    run typeExpr memberedType.toList = some ((), []) ∧
      Grammar.parse ⟨.typeScript, true⟩ ("let x: " ++ memberedType ++ "\n= 1;").toList =
        Grammar.parse ⟨.typeScript, true⟩ "let x = 1;".toList ∧
      Grammar.parse ⟨.typeScript, true⟩ "let x = 1;".toList = .ok declaredOne := by
  have h : run typeExpr memberedType.toList = some ((), []) := by decide +kernel
  exact ⟨h, parse_annotated rfl memberedType h⟩

end TsxCompiler.Grammar

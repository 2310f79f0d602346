import TsxCompiler.Proofs.CleanText

/-!
# Quoted values

Values that no source text spells (module ids, texts of elements, the specifiers of helpers) are
pasted into code between double quotes. Two readers then have to find the closing quote where it was
put: the grammar and the tokens for display. Both do, whatever the value and whatever follows, since
each character of the value is written as one or more pieces that end no string
(`isBody_quoteBody`).

The value itself comes back character by character (`unescape_quoteChar`), except that a character
given by number is read as the letter `u` and its digits.

* `quote_staysClosed` — a quoted value is one literal and one token, in front of any text.
* `stringLit_quote_iff` — which values are read back as they were.
-/

namespace TsxCompiler

open Peg Peg.Parser
open Grammar (isBody isBody_induct isBody_cons_plain isStringChar run_quotedString_append
  run_lexeme)
open Text (quote quoteChar unicodeEscape unescape isControl)

/-! ## Pieces of quoted text -/

theorem isBody_mono {p q : Char → Bool} (h : ∀ c, p c = true → q c = true) {s : List Char}
    (hs : isBody p s = true) : isBody q s = true :=
  isBody_induct (motive := fun s => isBody q s = true) rfl (fun _ _ ih => ih)
    (fun c _ hc hp ih => isBody_cons_plain (h c hp) hc ih) hs

/-- Quoted text of the grammar holds its own quote only behind a backslash. -/
theorem isBody_ne_quote {quote : Char} {s : List Char} (h : isBody (isStringChar quote) s = true) :
    isBody (· != quote) s = true :=
  isBody_mono (fun c hc => by simp_all [isStringChar]) h

theorem isBody_append {p : Char → Bool} {a b : List Char} (ha : isBody p a = true)
    (hb : isBody p b = true) : isBody p (a ++ b) = true :=
  isBody_induct (motive := fun a => isBody p (a ++ b) = true) hb (fun _ _ ih => ih)
    (fun _ _ hc hp ih => isBody_cons_plain hp hc ih) ha

theorem isBody_of_forall {p : Char → Bool} {s : List Char}
    (h : ∀ c ∈ s, p c = true ∧ c ≠ '\\') : isBody p s = true := by
  induction s with
  | nil => rfl
  | cons c s ih =>
    obtain ⟨hc, hs⟩ := List.forall_mem_cons.1 h
    exact isBody_cons_plain hc.1 hc.2 (ih hs)

/-- What holds of the digits of a base holds of every digit of a number. -/
theorem forall_mem_toDigits {P : Char → Prop} {b : Nat} (hb : 1 < b)
    (h : ∀ d < b, P (Nat.digitChar d)) (n : Nat) : ∀ c ∈ Nat.toDigits b n, P c := by
  induction n using Nat.strongRecOn with
  | _ n ih =>
    rw [Nat.toDigits_eq_if hb]
    split
    · rename_i hn
      simpa using h n hn
    · rename_i hn
      have hlt : n / b < n := Nat.div_lt_self (by omega) hb
      intro c hc
      rcases List.mem_append.1 hc with hc | hc
      · exact ih (n / b) hlt c hc
      · rw [List.mem_singleton.1 hc]
        exact h (n % b) (Nat.mod_lt n (by omega))

/-! ## One character -/

/-- The digits of a character that is given by number, four of them or more. -/
def numberDigits (c : Char) : List Char :=
  List.replicate (4 - (Nat.toDigits 16 c.toNat).length) '0' ++ Nat.toDigits 16 c.toNat

theorem toList_unicodeEscape (c : Char) :
    (unicodeEscape c).toList = '\\' :: 'u' :: numberDigits c := by
  simp [unicodeEscape, numberDigits]

theorem four_le_length_numberDigits (c : Char) : 4 ≤ (numberDigits c).length := by
  rw [numberDigits, List.length_append, List.length_replicate]
  omega

/-- Such a digit is a plain character of every kind. -/
theorem forall_mem_numberDigits {P : Char → Prop} (h : ∀ d < 16, P (Nat.digitChar d)) (c : Char) :
    ∀ x ∈ numberDigits c, P x := by
  intro x hx
  rcases List.mem_append.1 hx with hx | hx
  · rw [List.eq_of_mem_replicate hx]
    exact h 0 (by decide)
  · exact forall_mem_toDigits (by decide) h c.toNat x hx

/-- The characters that a quoted value gives by number. -/
def isNumbered (c : Char) : Bool :=
  (c == '\u2028' || c == '\u2029' || isControl c) && c != '\n' && c != '\r' && c != '\t'

/-- The characters with an escape of their own, each with what stands behind the backslash. -/
def letterEscapes : List (Char × Char) :=
  [('"', '"'), ('\\', '\\'), ('\n', 'n'), ('\r', 'r'), ('\t', 't')]

/-- How a character is written between the quotes: by its letter, by its number, or as it is. -/
theorem quoteChar_cases (c : Char) :
    (∃ letter, (c, letter) ∈ letterEscapes ∧ (quoteChar c).toList = ['\\', letter]) ∨
      (isNumbered c = true ∧ (quoteChar c).toList = '\\' :: 'u' :: numberDigits c) ∨
      (c ≠ '"' ∧ c ≠ '\\' ∧ c ≠ '\u2028' ∧ c ≠ '\u2029' ∧ isControl c = false ∧
        (quoteChar c).toList = [c]) := by
  unfold quoteChar
  split
  · exact .inl ⟨'"', by simp_all [letterEscapes], rfl⟩
  split
  · exact .inl ⟨'\\', by simp_all [letterEscapes], rfl⟩
  split
  · exact .inl ⟨'n', by simp_all [letterEscapes], rfl⟩
  split
  · exact .inl ⟨'r', by simp_all [letterEscapes], rfl⟩
  split
  · exact .inl ⟨'t', by simp_all [letterEscapes], rfl⟩
  split
  · rename_i hline hreturn htab hnumbered
    refine .inr (.inl ⟨?_, toList_unicodeEscape c⟩)
    simpa [isNumbered, hline, hreturn, htab] using hnumbered
  · rename_i hquote hbackslash _ _ _ hplain
    simp only [Bool.or_eq_true, decide_eq_true_eq, not_or, Bool.not_eq_true] at hplain
    exact .inr (.inr ⟨hquote, hbackslash, hplain.1.1, hplain.1.2, hplain.2,
      by rw [Char.toString, String.toList_singleton]⟩)

/-- A character with an escape of its own is not given by number. -/
theorem not_isNumbered_of_letter {c letter : Char} (h : (c, letter) ∈ letterEscapes) :
    isNumbered c = false := by
  have hall : ∀ e ∈ letterEscapes, isNumbered e.1 = false := by decide
  exact hall (c, letter) h

/-- No piece of a quoted value ends the string. -/
theorem isBody_quoteChar (c : Char) : isBody (isStringChar '"') (quoteChar c).toList = true := by
  obtain ⟨letter, -, htext⟩ | ⟨-, htext⟩ | ⟨hquote, hbackslash, -, -, hcontrol, htext⟩ :=
    quoteChar_cases c
  · rw [htext]
    rfl
  · rw [htext, isBody]
    exact isBody_of_forall (forall_mem_numberDigits (by decide) c)
  · have hline : c ≠ '\n' := by
      rintro rfl
      exact absurd hcontrol (by decide)
    rw [htext]
    exact isBody_cons_plain (by simp [isStringChar, hquote, hbackslash, hline]) hbackslash rfl

/-- Nothing in a quoted value breaks a line or controls a terminal. -/
theorem forall_mem_quoteChar (c : Char) :
    ∀ x ∈ (quoteChar c).toList, isControl x = false ∧ x ≠ '\u2028' ∧ x ≠ '\u2029' := by
  obtain ⟨letter, hletter, htext⟩ | ⟨-, htext⟩ | ⟨-, -, hline, hparagraph, hcontrol, htext⟩ :=
    quoteChar_cases c
  · have hall : ∀ e ∈ letterEscapes,
        isControl e.2 = false ∧ e.2 ≠ '\u2028' ∧ e.2 ≠ '\u2029' := by decide
    rw [htext, List.forall_mem_cons, List.forall_mem_singleton]
    exact ⟨by decide, hall (c, letter) hletter⟩
  · rw [htext, List.forall_mem_cons, List.forall_mem_cons]
    exact ⟨by decide, by decide, forall_mem_numberDigits (by decide) c⟩
  · rw [htext, List.forall_mem_singleton]
    exact ⟨hcontrol, hline, hparagraph⟩

/-! ## Reading the value back -/

/-- A character that is no backslash stands for itself. -/
theorem unescape_cons {c : Char} (h : c ≠ '\\') (s : List Char) :
    unescape (c :: s) = c :: unescape s := by
  rw [unescape]
  · rintro rfl -
    exact h rfl
  · rintro x rest rfl -
    exact h rfl

theorem unescape_append {s : List Char} (h : ∀ c ∈ s, c ≠ '\\') (t : List Char) :
    unescape (s ++ t) = s ++ unescape t := by
  induction s with
  | nil => rfl
  | cons c s ih =>
    obtain ⟨hc, hs⟩ := List.forall_mem_cons.1 h
    rw [List.cons_append, unescape_cons hc, ih hs, List.cons_append]

/-- What a character of a value is read back as. -/
def reread (c : Char) : List Char :=
  if isNumbered c then 'u' :: numberDigits c else [c]

theorem unescape_quoteChar (c : Char) (s : List Char) :
    unescape ((quoteChar c).toList ++ s) = reread c ++ unescape s := by
  obtain ⟨letter, hletter, htext⟩ | ⟨hnumbered, htext⟩ |
    ⟨-, hbackslash, hline, hparagraph, hcontrol, htext⟩ := quoteChar_cases c
  · rw [htext, reread, not_isNumbered_of_letter hletter]
    simp only [letterEscapes, List.mem_cons, List.not_mem_nil, or_false, Prod.mk.injEq] at hletter
    rcases hletter with ⟨rfl, rfl⟩ | ⟨rfl, rfl⟩ | ⟨rfl, rfl⟩ | ⟨rfl, rfl⟩ | ⟨rfl, rfl⟩ <;>
      simp [unescape]
  · -- The escape is dropped in front of the letter, and the digits are read as they stand.
    rw [htext, reread, if_pos hnumbered, List.cons_append, List.cons_append, unescape]
    simp [unescape_append (forall_mem_numberDigits (by decide) c)]
  · have hplain : isNumbered c = false := by simp [isNumbered, hline, hparagraph, hcontrol]
    rw [htext, reread, hplain, List.singleton_append, unescape_cons hbackslash]
    rfl

/-- Only a value without numbered characters is read back as it was: each of them takes five
characters or more. -/
theorem flatMap_reread_eq_iff (s : List Char) :
    s.flatMap reread = s ↔ ∀ c ∈ s, isNumbered c = false := by
  have hone : ∀ c, 1 ≤ (reread c).length := by
    intro c
    unfold reread
    split <;> simp
  have hle : ∀ t : List Char, t.length ≤ (t.flatMap reread).length := by
    intro t
    induction t with
    | nil => simp
    | cons c t ih =>
      have := hone c
      simp only [List.flatMap_cons, List.length_append, List.length_cons]
      omega
  induction s with
  | nil => simp
  | cons c s ih =>
    rw [List.flatMap_cons, List.forall_mem_cons]
    cases hc : isNumbered c with
    | false =>
      rw [reread, hc]
      simpa using ih
    | true =>
      -- a number is longer than the character it stands for, and no other text gets shorter
      refine iff_of_false (fun heq => ?_) (by simp)
      have hlen := congrArg List.length heq
      have hdigits := four_le_length_numberDigits c
      have hrest := hle s
      rw [reread, if_pos hc, List.length_append, List.length_cons, List.length_cons] at hlen
      omega

/-! ## Whole values -/

/-- What stands between the quotes of a quoted value. -/
def quoteBody (value : String) : List Char :=
  value.toList.flatMap fun c => (quoteChar c).toList

theorem toList_quote (value : String) :
    (quote value).toList = '"' :: (quoteBody value ++ ['"']) := by
  simp [quote, quoteBody, String.toList_join, List.flatMap_map]

theorem isBody_quoteBody (value : String) : isBody (isStringChar '"') (quoteBody value) = true := by
  unfold quoteBody
  induction value.toList with
  | nil => rfl
  | cons c cs ih => exact isBody_append (isBody_quoteChar c) ih

theorem unescape_quoteBody (value : String) :
    unescape (quoteBody value) = value.toList.flatMap reread := by
  unfold quoteBody
  induction value.toList with
  | nil => rfl
  | cons c cs ih => rw [List.flatMap_cons, List.flatMap_cons, unescape_quoteChar, ih]

/-- The literal that a quoted value is read as, in front of any text. -/
theorem run_quotedString_quote (value : String) (rest : List Char) :
    run (Grammar.quotedString '"') ((quote value).toList ++ rest) =
      some (⟨String.ofList (value.toList.flatMap reread), some (quote value)⟩, rest) := by
  have hraw : String.ofList ('"' :: (quoteBody value ++ ['"'])) = quote value := by
    rw [← toList_quote, String.ofList_toList]
  rw [toList_quote, List.cons_append, List.append_assoc, List.singleton_append,
    run_quotedString_append (by decide) (isBody_quoteBody value), unescape_quoteBody, hraw]

theorem run_stringLit_quote (value : String) :
    run Grammar.stringLit (quote value).toList =
      some (⟨String.ofList (value.toList.flatMap reread), some (quote value)⟩, []) := by
  have hread := run_quotedString_quote value []
  rw [List.append_nil] at hread
  rw [Grammar.stringLit, run_label, run_lexeme, run_orElse, hread]
  simp

/-- The tokens of a quoted value in front of a text: the literal, and those of the text. -/
theorem tokenize_quote_append (value rest : String) :
    Token.tokenize (quote value ++ rest) =
      ⟨.string, quote value, 0, (quote value).utf8ByteSize⟩ ::
        Token.place (quote value).utf8ByteSize (Highlight.pieces rest.toList) := by
  have hcut : Highlight.cut '"' (quoteBody value ++ '"' :: rest.toList) =
      ⟨.string, quoteBody value ++ ['"'], rest.toList⟩ :=
    Highlight.cut_closed (by decide) (isBody_ne_quote (isBody_quoteBody value)) rest.toList
  have htext : String.ofList ('"' :: (quoteBody value ++ ['"'])) = quote value := by
    rw [← toList_quote, String.ofList_toList]
  rw [Token.tokenize_eq, String.toList_append, toList_quote, List.cons_append, List.append_assoc,
    List.singleton_append, Highlight.pieces, hcut, Token.place, htext, Nat.zero_add]

/-- A quoted value never breaks out of its quotes. Whatever the value and whatever follows, the rule
for double-quoted literals reads the quoted value and nothing else, the first token is a string with
just that text and the other tokens are those of what follows, and no character of it is a control
character or a separator of lines or paragraphs. -/
theorem quote_staysClosed (value rest : String) :
    (∃ lit, run (Grammar.quotedString '"') ((quote value).toList ++ rest.toList) =
        some (lit, rest.toList) ∧ lit.raw = some (quote value)) ∧
      Token.tokenize (quote value ++ rest) =
        ⟨.string, quote value, 0, (quote value).utf8ByteSize⟩ ::
          Token.place (quote value).utf8ByteSize (Highlight.pieces rest.toList) ∧
      ∀ c ∈ (quote value).toList, isControl c = false ∧ c ≠ '\u2028' ∧ c ≠ '\u2029' := by
  refine ⟨⟨_, run_quotedString_quote value rest.toList, rfl⟩, tokenize_quote_append value rest, ?_⟩
  rw [toList_quote, List.forall_mem_cons, List.forall_mem_append, List.forall_mem_singleton]
  refine ⟨by decide, fun x hx => ?_, by decide⟩
  obtain ⟨c, -, hc⟩ := List.mem_flatMap.1 hx
  exact forall_mem_quoteChar c x hc

/-- A quoted value is read as one whole literal, spelled as it was quoted. Its value is the one that
was quoted exactly if no character of it is given by number: the reader of escapes knows no numbers,
and takes the letter and the digits of each for themselves. -/
theorem stringLit_quote_iff (value : String) :
    ∃ lit, run Grammar.stringLit (quote value).toList = some (lit, []) ∧
      lit.raw = some (quote value) ∧
      lit.value = String.ofList (value.toList.flatMap reread) ∧
      (lit.value = value ↔ ∀ c ∈ value.toList, isNumbered c = false) := by
  refine ⟨_, run_stringLit_quote value, rfl, rfl, ?_⟩
  rw [← flatMap_reread_eq_iff, ← String.toList_inj, String.toList_ofList]

/-- So a value with a control character is read back as another one. -/
theorem not_stringLit_quote :
    ¬ ∃ lit, run Grammar.stringLit (quote "\x01").toList = some (lit, []) ∧ lit.value = "\x01" := by
  rintro ⟨lit, hread, hvalue⟩
  rw [run_stringLit_quote] at hread
  cases hread
  exact absurd hvalue (by decide)

end TsxCompiler

import TsxCompiler.Proofs.PrintedTree

/-!
# Entries of printed rows

Patterns, parameters, declarations and object literals are printed as rows, in brackets or braces or
behind a word, and each entry of a row is read as it is printed in front of what ends it
(`EntryText`): the comma before the next entry, or what closes the row, which stands behind a blank
if it is a brace (`ValueEnd`). A default is printed in one way wherever it is kept, behind an
element, behind the value of a key or in a shorthand, and is read in one way too
(`run_initializer_text`). A key without a colon behind it is tried and given up.

The texts belong to a class that braces may be taken from as well (`BraceClass`); what a row leaves
of a text of the class belongs to it again.
-/

namespace TsxCompiler.Grammar

open Peg Peg.Parser Text

variable {α : Type} {d : Dialect} {B : Parser (List Stmt)} {Good : List Char → Prop}

/-! ## Texts and their ends -/

/-- A class of texts that keeps its members when a brace is taken from the front. -/
structure BraceClass (d : Dialect) (Good : List Char → Prop) : Prop extends TextClass d Good where
  brace : ∀ {c s}, c = '\x7b' ∨ c = '\x7d' → Good (c :: s) → Good s

/-- Where a class keeps its members whatever is taken from the front, only the colons of conditionals
are left to look at. -/
theorem SuffixClosed.braceClass (hS : SuffixClosed Good)
    (hcolon : ∀ {s}, Good (' ' :: ':' :: ' ' :: s) →
      run ((ascription d).thenSkip (sym "=>")) (':' :: ' ' :: s) = none) : BraceClass d Good where
  cons {c s} _ := hS [c] s
  less {c s} _ := hS ['<'] (c :: s)
  string {lit raw s} _ _ := hS raw.toList s
  template {raw s} _ h := hS (backquote :: (raw.toList ++ [backquote])) s (by simpa using h)
  colon := hcolon
  brace {c s} _ := hS [c] s

/-- Characters that a value ends before: those that end an entry, the end of a statement, and the
brace that opens a body. -/
def endsValue (c : Char) : Bool :=
  [',', ')', ']', '\x7d', ';', '\x7b'].contains c

/-- What ends a value, possibly behind a blank. -/
structure ValueEnd (d : Dialect) (B : Parser (List Stmt)) (rest : List Char) : Prop where
  word : endsWord rest = true
  number : endsNumber rest = true
  quiet : Quiet d B (skip rest)
  halts : Halts d B 0 (skip rest)
  ends : ∃ c s, skip rest = c :: s ∧ endsValue c = true

theorem ne_of_endsValue {c x : Char} (hc : endsValue c = true) (hx : endsValue x = false) :
    c ≠ x := by
  rintro rfl
  simp [hc] at hx

theorem forall_endsValue {P : Char → Prop}
    (h : P ',' ∧ P ')' ∧ P ']' ∧ P '\x7d' ∧ P ';' ∧ P '\x7b') {c : Char} (hc : endsValue c = true) :
    P c := by
  obtain ⟨hcomma, hparen, hbracket, hbrace, hsemicolon, hopen⟩ := h
  have hmem : c ∈ [',', ')', ']', '\x7d', ';', '\x7b'] := by simpa [endsValue] using hc
  simp only [List.mem_cons, List.not_mem_nil, or_false] at hmem
  rcases hmem with rfl | rfl | rfl | rfl | rfl | rfl <;> assumption

theorem skip_of_endsValue {c : Char} (hc : endsValue c = true) (s : List Char) :
    skip (c :: s) = c :: s :=
  skip_cons (forall_endsValue (P := fun c => isBlank c = false) (by decide) hc)
    (ne_of_endsValue hc (by decide)) s

theorem valueEnd_cons {c : Char} (hc : endsValue c = true) (s : List Char) :
    ValueEnd d B (c :: s) := by
  have hskip := skip_of_endsValue hc s
  refine ⟨?_, ?_, ?_, ?_, ⟨c, s, hskip, hc⟩⟩
  · exact endsWord_cons (forall_endsValue (P := fun c => isWordPart c = false) (by decide) hc) s
  · refine forall_endsValue (P := fun c => endsNumber (c :: s) = true) ?_ hc
    simp [endsNumber]
  · rw [hskip]
    exact quiet_of_char (forall_endsValue (P := fun c => isWordStart c = false) (by decide) hc)
      (ne_of_endsValue hc (by decide)) (ne_of_endsValue hc (by decide))
      (run_sym_none "=>" rfl (ne_of_endsValue hc (by decide)) s)
  · rw [hskip]
    refine halts_of_char ?_ s
    exact forall_endsValue (P := fun c => ∀ i < 11, 0 ≤ i → startsTail i c = false) (by decide) hc

theorem valueEnd_blank {c : Char} (hc : endsValue c = true) (s : List Char) :
    ValueEnd d B (' ' :: c :: s) := by
  have h : ValueEnd d B (c :: s) := valueEnd_cons hc s
  have hskip : skip (' ' :: c :: s) = skip (c :: s) := skip_blank (by decide) _
  exact ⟨rfl, rfl, hskip ▸ h.quiet, hskip ▸ h.halts, hskip ▸ h.ends⟩

theorem ValueEnd.context {rest : List Char} (h : ValueEnd d B rest) : Context d B rest :=
  ⟨h.word, h.number, h.quiet⟩

/-- A punctuator that ends no value is not read there. -/
theorem ValueEnd.run_sym_none {rest : List Char} (h : ValueEnd d B rest) (text : String)
    {wanted : Char} {more : List Char} (ht : text.toList = wanted :: more)
    (hw : endsValue wanted = false) : run (sym text) (skip rest) = none := by
  obtain ⟨c, s, hs, hc⟩ := h.ends
  rw [hs]
  exact Grammar.run_sym_none text ht (ne_of_endsValue hc hw) s

/-- An expression is read in front of what ends it. -/
theorem Printed.reads_value [Shrinks B] {j : Nat} {e : Expr} {w : List Char}
    (h : Printed d B Good j e w) {rest : List Char} (hrest : ValueEnd d B rest)
    (hgood : Good (w ++ rest)) :
    run (expression d B) (w ++ rest) = some (e, skip rest) :=
  h.readsAt (Nat.zero_le j) hrest.context hgood hrest.halts

/-! ## Entries of rows -/

/-- The text of an entry: it is read as the entry in front of what ends it. -/
structure EntryText (d : Dialect) (B : Parser (List Stmt)) (Good : List Char → Prop) (p : Parser α)
    (a : α) (text : String) : Prop where
  drop : ∀ s, Good (text.toList ++ s) → Good s
  skip_append : ∀ s, skip (text.toList ++ s) = text.toList ++ s
  reads : ∀ rest, ValueEnd d B rest → Good (text.toList ++ rest) →
    run p (text.toList ++ rest) = some (a, skip rest)

section Rows

variable {p : Parser α} {text : α → String} {xs : List α}

theorem EntryText.good_rowTail (hG : TextClass d Good)
    (h : ∀ x ∈ xs, EntryText d B Good p x (text x)) {z : List Char}
    (hgood : Good (rowTail z (xs.map fun x => (text x).toList))) : Good z := by
  induction xs with
  | nil => exact hgood
  | cons x xs ih =>
    have hfirst := hG.cons (by decide) (hG.cons (by decide) hgood)
    exact ih (fun y hy => h y (by simp [hy])) ((h x (by simp)).drop _ hfirst)

/-- What a row leaves of a text. -/
theorem EntryText.good_row (hG : TextClass d Good)
    (h : ∀ x ∈ xs, EntryText d B Good p x (text x)) {z : List Char}
    (hgood : Good ((Print.commaList (xs.map text)).toList ++ z)) : Good z := by
  rw [commaList_append, List.map_map] at hgood
  cases xs with
  | nil => exact hgood
  | cons x xs =>
    exact good_rowTail hG (fun y hy => h y (by simp [hy])) ((h x (by simp)).drop _ hgood)

theorem valueEnd_rowTail {z : List Char} (hz : ValueEnd d B z) (ws : List (List Char)) :
    ValueEnd d B (rowTail z ws) := by
  cases ws with
  | nil => exact hz
  | cons w ws => exact valueEnd_cons (by decide) _

theorem EntryText.rowReads (hG : TextClass d Good)
    (h : ∀ x ∈ xs, EntryText d B Good p x (text x)) {z : List Char} (hz : ValueEnd d B z)
    (hgood : Good (rowText z (xs.map fun x => (text x).toList))) :
    RowReads p z (xs.map fun x => ((text x).toList, x)) := by
  induction xs with
  | nil => trivial
  | cons x xs ih =>
    have hx := h x (by simp)
    have htail := hx.drop _ hgood
    simp only [List.map_cons, RowReads, List.map_map, Function.comp_def]
    refine ⟨hx.reads _ (valueEnd_rowTail hz _) hgood, hx.skip_append _,
      ih (fun y hy => h y (by simp [hy])) ?_⟩
    cases xs with
    | nil => exact htail
    | cons y ys => exact hG.cons (by decide) (hG.cons (by decide) htail)

/-- A row of entries is read as they are, up to what ends the last one. -/
theorem run_entryRow (hG : TextClass d Good) (h : ∀ x ∈ xs, EntryText d B Good p x (text x))
    {z : List Char} (hz : ValueEnd d B z)
    (hgood : Good ((Print.commaList (xs.map text)).toList ++ z))
    (hcomma : run (sym ",") (skip z) = none) (hp : run p (skip z) = none) :
    run (sepByTrailing (sym ",") p) (skip ((Print.commaList (xs.map text)).toList ++ z)) =
      some (xs, skip z) := by
  rw [commaList_append, List.map_map] at hgood
  have hrow := run_row (EntryText.rowReads hG h hz hgood) hcomma hp
  rw [commaList_append]
  simpa [Function.comp_def] using hrow

/-- A row that is not empty. -/
theorem run_entryRow1 (hG : TextClass d Good) {x : α}
    (h : ∀ y ∈ x :: xs, EntryText d B Good p y (text y)) {z : List Char} (hz : ValueEnd d B z)
    (hgood : Good ((Print.commaList ((x :: xs).map text)).toList ++ z))
    (hcomma : run (sym ",") (skip z) = none) :
    run (sepBy1 (sym ",") p) ((Print.commaList ((x :: xs).map text)).toList ++ z) =
      some (x :: xs, skip z) := by
  rw [commaList_append, List.map_map] at hgood ⊢
  have hrow := EntryText.rowReads hG h hz hgood
  obtain ⟨hread, -, hrest⟩ := hrow
  have hfollow := runFollowers_rowTail hrest hcomma
  simp only [List.map_map, Function.comp_def] at hread hfollow
  rw [List.map_cons, rowText, run_sepBy1]
  simp only [Function.comp_def, hread, Option.map_some, hfollow]
  simp

/-- A row in brackets that are one character each. -/
theorem run_bracketRow (hG : TextClass d Good) {opening closing : String} {o c : Char}
    (ho : opening.toList = [o]) (hclosing : closing.toList = [c]) (hopen : isPassed o = true)
    (hc : endsValue c = true) (hne : c ≠ ',')
    (h : ∀ x ∈ xs, EntryText d B Good p x (text x)) {rest : List Char} (hp : run p (c :: rest) = none)
    (hgood : Good (o :: ((Print.commaList (xs.map text)).toList ++ c :: rest))) :
    run (between (sym opening) (sym closing) (sepByTrailing (sym ",") p))
        (o :: ((Print.commaList (xs.map text)).toList ++ c :: rest)) = some (xs, skip rest) := by
  have hend : ValueEnd d B (c :: rest) := valueEnd_cons hc rest
  have hskip := skip_of_endsValue hc rest
  have hrow := run_entryRow hG h hend (hG.cons hopen hgood)
    (hskip.symm ▸ run_sym_none "," rfl hne rest) (hskip.symm ▸ hp)
  rw [hskip] at hrow
  exact run_between_cons ho hclosing hrow

theorem bracesAround_append (texts : List String) (rest : List Char) :
    (Print.bracesAround texts).toList ++ rest =
      '\x7b' :: (if texts.isEmpty then '\x7d' :: rest
        else ' ' :: ((Print.commaList texts).toList ++ ' ' :: '\x7d' :: rest)) := by
  unfold Print.bracesAround
  split
  · rfl
  · simp

theorem good_bracesAround (hG : BraceClass d Good) (h : ∀ x ∈ xs, EntryText d B Good p x (text x))
    {rest : List Char} (hgood : Good ((Print.bracesAround (xs.map text)).toList ++ rest)) :
    Good rest := by
  rw [bracesAround_append] at hgood
  have hin := hG.brace (.inl rfl) hgood
  split at hin
  · exact hG.brace (.inr rfl) hin
  · have hrow := EntryText.good_row hG.toTextClass h (hG.cons (by decide) hin)
    exact hG.brace (.inr rfl) (hG.cons (by decide) hrow)

/-- A row in braces. A blank stands on either side of the entries, and none where there are none. -/
theorem run_bracesAround (hG : BraceClass d Good) (h : ∀ x ∈ xs, EntryText d B Good p x (text x))
    (hp : ∀ s, run p ('\x7d' :: s) = none) {rest : List Char}
    (hgood : Good ((Print.bracesAround (xs.map text)).toList ++ rest)) :
    run (inBraces (sepByTrailing (sym ",") p)) ((Print.bracesAround (xs.map text)).toList ++ rest) =
      some (xs, skip rest) := by
  have hskip : skip ('\x7d' :: rest) = '\x7d' :: rest := skip_of_endsValue (by decide) rest
  rw [bracesAround_append] at hgood ⊢
  have hin := hG.brace (.inl rfl) hgood
  refine run_between_cons rfl rfl ?_
  split
  · rename_i hempty
    obtain rfl : xs = [] := by simpa using hempty
    rw [hskip, run_sepByTrailing, hp]
    rfl
  · rename_i hne
    rw [if_neg hne] at hin
    have hblank : skip (' ' :: '\x7d' :: rest) = '\x7d' :: rest := by
      rw [skip_blank (by decide), hskip]
    have hrow := run_entryRow hG.toTextClass h (valueEnd_blank (by decide) rest)
      (hG.cons (by decide) hin) (hblank.symm ▸ run_sym_none "," rfl (by decide) rest)
      (hblank.symm ▸ hp rest)
    rwa [hblank, ← skip_blank (show isBlank ' ' = true by decide)] at hrow

end Rows

/-! ## Defaults -/

/-- The text of a default, if there is one. -/
def initializerText (level : Nat) : Option Expr → String
  | some value => " = " ++ value.guarded Power.assignment (value.print level)
  | none => ""

section Initializers

variable {value : Option Expr} {level : Nat}

theorem initializerText_some (e : Expr) (level : Nat) (rest : List Char) :
    (initializerText level (some e)).toList ++ rest =
      ' ' :: '=' :: ' ' :: ((e.print level).toList ++ rest) := by
  rw [initializerText, guarded_assignment, String.toList_append, List.append_assoc]
  rfl

theorem good_initializerText (hG : TextClass d Good)
    (h : ∀ e ∈ value, PrintsWell d B Good level e) {rest : List Char}
    (hgood : Good ((initializerText level value).toList ++ rest)) : Good rest := by
  cases value with
  | none => exact hgood
  | some e =>
    rw [initializerText_some] at hgood
    exact (h e rfl).drop _
      (hG.cons (by decide) (hG.cons (by decide) (hG.cons (by decide) hgood)))

theorem endsWord_initializerText {rest : List Char} (hrest : endsWord rest = true) :
    endsWord ((initializerText level value).toList ++ rest) = true := by
  cases value with
  | none => exact hrest
  | some e =>
    rw [initializerText_some]
    rfl

/-- A default is read back, or nothing where there is none. -/
theorem run_initializer_text [Shrinks B] (hG : TextClass d Good)
    (h : ∀ e ∈ value, PrintsWell d B Good level e) {rest : List Char} (hrest : ValueEnd d B rest)
    (hgood : Good ((initializerText level value).toList ++ rest)) :
    run (initializer (expression d B)) (skip ((initializerText level value).toList ++ rest)) =
      some (value, skip rest) := by
  cases value with
  | none =>
    refine run_optional_none ?_
    rw [run_skipThen]
    show (run (sym "=") (skip rest)).bind _ = none
    rw [hrest.run_sym_none "=" rfl (by decide)]
    rfl
  | some e =>
    rw [initializerText_some] at hgood ⊢
    have hread := (h e rfl).reads_value hrest
      (hG.cons (by decide) (hG.cons (by decide) (hG.cons (by decide) hgood)))
    have hvalue : run ((sym "=").skipThen (expression d B))
        ('=' :: ' ' :: ((e.print level).toList ++ rest)) = some (e, skip rest) := by
      simp [run_skipThen, run_sym, run_chars_cons, run_char_cons,
        skip_blank (show isBlank ' ' = true by decide), (h e rfl).skip_append, hread]
    rw [skip_blank (by decide), skip_cons (by decide) (by decide)]
    exact run_optional_some hvalue

/-- A mark that is neither a default nor the end of a value does not stand behind a pattern. -/
theorem run_sym_initializerText {rest : List Char} (hrest : ValueEnd d B rest) (text : String)
    {wanted : Char} {more : List Char} (ht : text.toList = wanted :: more)
    (hw : endsValue wanted = false) (hne : wanted ≠ '=') :
    run (sym text) (skip ((initializerText level value).toList ++ rest)) = none := by
  cases value with
  | none => exact hrest.run_sym_none text ht hw
  | some e =>
    rw [initializerText_some, skip_blank (by decide), skip_cons (by decide) (by decide)]
    exact run_sym_none text ht hne.symm _

/-- Neither a `?` nor an annotation stands behind a pattern. -/
theorem run_marks_initializerText {rest : List Char} (hrest : ValueEnd d B rest) :
    run (optionalMark d) (skip ((initializerText level value).toList ++ rest)) =
        some ((), skip ((initializerText level value).toList ++ rest)) ∧
      run (ascription d) (skip ((initializerText level value).toList ++ rest)) =
        some ((), skip ((initializerText level value).toList ++ rest)) := by
  have hmark : run (sym "?") (skip ((initializerText level value).toList ++ rest)) = none :=
    run_sym_initializerText hrest "?" rfl (by decide) (by decide)
  refine ⟨?_, run_ascription_none (run_sym_initializerText hrest ":" rfl (by decide) (by decide))⟩
  unfold optionalMark whenTyped
  split
  · rw [forget, run_yielding, run_optional_none hmark]
    rfl
  · rfl

end Initializers

/-! ## Property names -/

/-- The text of a property name: it is read as the name, whatever follows it. If it can be read as the
name of a binding, then as a whole, and it is no keyword but itself. -/
structure KeyText (d : Dialect) (B : Parser (List Stmt)) (Good : List Char → Prop)
    (key : PropertyKey) (text : String) : Prop where
  drop : ∀ s, Good (text.toList ++ s) → Good s
  starts : ∃ c s, text.toList = c :: s ∧ startsMember c = true
  reads : ∀ rest, endsWord rest = true → endsNumber rest = true → Good (text.toList ++ rest) →
    run (propertyKey (expression d B)) (text.toList ++ rest) = some (key, skip rest)
  names : ∀ rest, endsWord rest = true → ∀ name r,
    run identifier (text.toList ++ rest) = some (name, r) → r = skip rest
  keywords : ∀ rest, endsWord rest = true → ∀ word, key ≠ .ident word →
    run (keyword word) (text.toList ++ rest) = none

theorem isBlank_of_startsMember {c : Char} (h : startsMember c = true) : isBlank c = false := by
  cases hb : isBlank c with
  | false => rfl
  | true =>
    have hw := isWordStart_of_isBlank hb
    simp only [startsMember, hw, Bool.false_or, Bool.or_eq_true, List.contains_eq_mem,
      List.mem_cons, List.not_mem_nil, or_false, decide_eq_true_eq] at h
    rcases h with hd | rfl | rfl | rfl
    · exact hb ▸ forall_isDigit (P := fun c => isBlank c = false) (by decide) hd
    all_goals exact absurd hb (by decide)

theorem ne_of_startsMember {c x : Char} (hc : startsMember c = true) (hx : startsMember x = false) :
    c ≠ x := by
  rintro rfl
  simp [hc] at hx

namespace KeyText

variable {key : PropertyKey} {text : String}

theorem skip_append (h : KeyText d B Good key text) (s : List Char) :
    skip (text.toList ++ s) = text.toList ++ s := by
  obtain ⟨c, t, ht, hc⟩ := h.starts
  rw [ht]
  exact skip_cons (isBlank_of_startsMember hc) (ne_of_startsMember hc (by decide)) (t ++ s)

/-- A punctuator that no name starts with is not read there. -/
theorem run_sym_none (h : KeyText d B Good key text) (mark : String) {wanted : Char}
    {more : List Char} (ht : mark.toList = wanted :: more) (hw : startsMember wanted = false)
    (s : List Char) : run (sym mark) (text.toList ++ s) = none := by
  obtain ⟨c, t, htext, hc⟩ := h.starts
  rw [htext]
  exact Grammar.run_sym_none mark ht (ne_of_startsMember hc hw) (t ++ s)

variable (hG : TextClass d Good)
include hG

theorem string {lit : StringLit} (h : IsSpelled lit) :
    KeyText d B Good (.string lit) lit.print := by
  obtain ⟨raw, hraw⟩ := h.exists_raw
  have hprint : lit.print = raw := by simp [StringLit.print, hraw]
  rw [hprint]
  obtain ⟨quote, body, hbody, hquote⟩ := h.exists_quote hraw
  have hstart : isWordStart quote = false := by rcases hquote with rfl | rfl <;> decide
  refine ⟨fun s hs => hG.string h hraw hs, ⟨quote, body, hbody, ?_⟩, fun s _ _ _ => ?_,
    fun s _ name r hr => ?_, fun s _ word _ => ?_⟩
  · rcases hquote with rfl | rfl <;> decide
  · rw [propertyKey, run_choice_cons, run_map, run_stringLit_append h hraw]
    rfl
  · simp [hbody, run_identifier_none hstart] at hr
  · rw [hbody]
    exact run_keyword_none hstart word _

theorem number {text : String} (h : IsNumeral text) : KeyText d B Good (.number text) text := by
  obtain ⟨c, cs, hc, hdigit⟩ : ∃ c cs, text.toList = c :: cs ∧ c.isDigit = true := by
    obtain ⟨whole, hwhole, htext⟩ := h
    cases whole with
    | nil => exact absurd hwhole (by decide)
    | cons c whole =>
      simp only [isDigits, List.all_cons, Bool.and_eq_true] at hwhole
      rcases htext with htext | ⟨fraction, -, htext⟩
      · exact ⟨c, whole, htext, hwhole.2.1⟩
      · exact ⟨c, whole ++ '.' :: fraction, htext, hwhole.2.1⟩
  refine ⟨fun s => hG.append (passed_of_isNumeral h), ⟨c, cs, hc, by simp [startsMember, hdigit]⟩,
    fun s _ hs _ => ?_, fun s _ name r hr => ?_, fun s _ word _ => ?_⟩
  · have hstring : run stringLit (text.toList ++ s) = none := by
      rw [hc]
      refine run_stringLit_none ?_ ?_ _ <;> (rintro rfl; exact absurd hdigit (by decide))
    rw [propertyKey, run_choice_cons, run_choice_cons, run_map, run_map, hstring,
      run_number_append h hs]
    rfl
  · simp [hc, run_identifier_none (isWordStart_of_isDigit hdigit)] at hr
  · rw [hc]
    exact run_keyword_none (isWordStart_of_isDigit hdigit) word _

theorem computed [Shrinks B] {e : Expr} {level : Nat} (h : PrintsWell d B Good level e) :
    KeyText d B Good (.computed e) ((PropertyKey.computed e).print level) := by
  have htext : ∀ s, ((PropertyKey.computed e).print level).toList ++ s =
      '[' :: ((e.print level).toList ++ ']' :: s) := by
    simp [PropertyKey.print]
  have hgood : ∀ {s}, Good (((PropertyKey.computed e).print level).toList ++ s) →
      Good ((e.print level).toList ++ ']' :: s) := by
    intro s hs
    rw [htext] at hs
    exact hG.cons (by decide) hs
  refine ⟨fun s hs => hG.cons (by decide) (h.drop _ (hgood hs)), ⟨'[', _, by simpa using htext [],
    rfl⟩, fun s _ _ hs => ?_, fun s _ name r hr => ?_, fun s _ word _ => ?_⟩
  · have hread := h.reads_value (valueEnd_cons (by decide) s) (hgood hs)
    rw [← h.skip_append, skip_of_endsValue (by decide)] at hread
    rw [htext, propertyKey, run_choice_cons, run_choice_cons, run_choice_cons, run_map, run_map,
      run_map, run_stringLit_none (by decide) (by decide), run_number_none (by decide), inBrackets,
      run_between_cons rfl rfl hread]
    rfl
  · simp [htext, run_identifier_none (show isWordStart '[' = false by decide)] at hr
  · rw [htext]
    exact run_keyword_none (by decide) word _

theorem word {name : String} (h : isIdentifier name = true) :
    KeyText d B Good (.ident name) name := by
  obtain ⟨c, cs, hc, hstart⟩ := exists_of_isIdentifier h
  exact ⟨fun s => hG.append (passed_of_isIdentifier h),
    ⟨c, cs, hc, by simp [startsMember, hstart]⟩, fun s hs _ _ => run_propertyKey_word h hs,
    fun s hs found r hr => by
      rw [run_identifier, run_rawWord_append h hs, Option.bind_some] at hr
      split at hr
      · cases hr
      · exact (congrArg Prod.snd (Option.some.inj hr)).symm,
    fun s hs found hne => run_keyword_other h hs fun heq => hne (congrArg _ heq)⟩

end KeyText

/-! ## Patterns -/

/-- Characters that a pattern may start with. -/
def startsPattern (c : Char) : Bool :=
  isWordStart c || c == '[' || c == '\x7b'

/-- The text of a pattern: it is read as the pattern, whatever follows it. -/
structure PatternText (d : Dialect) (B : Parser (List Stmt)) (Good : List Char → Prop) (p : Pattern)
    (text : String) : Prop where
  drop : ∀ s, Good (text.toList ++ s) → Good s
  starts : ∃ c s, text.toList = c :: s ∧ startsPattern c = true
  reads : ∀ rest, endsWord rest = true → Good (text.toList ++ rest) →
    run (bindingPattern (expression d B)) (text.toList ++ rest) = some (p, skip rest)

theorem isBlank_of_startsPattern {c : Char} (h : startsPattern c = true) : isBlank c = false := by
  cases hb : isBlank c with
  | false => rfl
  | true =>
    have hw := isWordStart_of_isBlank hb
    simp only [startsPattern, hw, Bool.false_or, Bool.or_eq_true, beq_iff_eq] at h
    rcases h with rfl | rfl <;> exact absurd hb (by decide)

theorem ne_of_startsPattern {c x : Char} (hc : startsPattern c = true)
    (hx : startsPattern x = false) : c ≠ x := by
  rintro rfl
  simp [hc] at hx

theorem print_withDefault (p : Pattern) (value : Option Expr) (level : Nat) :
    (withDefault p value).print level = p.print level ++ initializerText level value := by
  cases value with
  | none => exact (String.append_empty).symm
  | some value =>
    rw [withDefault, Pattern.print, initializerText, String.append_assoc]

theorem print_shorthand (name : String) (value : Option Expr) (level : Nat) :
    (PatternProperty.shorthand name value).print level = name ++ initializerText level value := by
  cases value with
  | none => exact (String.append_empty).symm
  | some value =>
    rw [PatternProperty.print, initializerText, String.append_assoc]

theorem print_declarator (target : Pattern) (value : Option Expr) (level : Nat) :
    (Declarator.mk target value).print level = target.print level ++ initializerText level value := by
  cases value with
  | none => exact (String.append_empty).symm
  | some value =>
    rw [Declarator.print, initializerText, String.append_assoc]

namespace PatternText

variable {p : Pattern} {text : String} {value : Option Expr} {level : Nat}

theorem skip_append (h : PatternText d B Good p text) (s : List Char) :
    skip (text.toList ++ s) = text.toList ++ s := by
  obtain ⟨c, t, ht, hc⟩ := h.starts
  rw [ht]
  exact skip_cons (isBlank_of_startsPattern hc) (ne_of_startsPattern hc (by decide)) (t ++ s)

theorem run_dots_none (h : PatternText d B Good p text) (s : List Char) :
    run (sym "...") (text.toList ++ s) = none := by
  obtain ⟨c, t, ht, hc⟩ := h.starts
  rw [ht]
  exact run_sym_none "..." rfl (ne_of_startsPattern hc (by decide)) (t ++ s)

/-- A pattern behind three dots. -/
theorem run_rest (hG : TextClass d Good) (h : PatternText d B Good p text) {rest : List Char}
    (hrest : ValueEnd d B rest) (hgood : Good (("..." ++ text).toList ++ rest)) :
    run ((sym "...").skipThen (bindingPattern (expression d B))) (("..." ++ text).toList ++ rest) =
      some (p, skip rest) := by
  rw [String.toList_append, List.append_assoc] at hgood ⊢
  have hin : Good (text.toList ++ rest) := hG.append (by decide) hgood
  show run _ ('.' :: '.' :: '.' :: (text.toList ++ rest)) = _
  rw [run_skipThen, Printed.run_dots_append, Option.bind_some, h.skip_append]
  exact h.reads rest hrest.word hin

/-- A pattern with its default, if it has one. -/
theorem run_withDefault [Shrinks B] (hG : TextClass d Good) (h : PatternText d B Good p text)
    (hvalue : ∀ e ∈ value, PrintsWell d B Good level e) {rest : List Char}
    (hrest : ValueEnd d B rest)
    (hgood : Good (text.toList ++ ((initializerText level value).toList ++ rest))) :
    run (bindingPattern (expression d B))
        (text.toList ++ ((initializerText level value).toList ++ rest)) =
          some (p, skip ((initializerText level value).toList ++ rest)) ∧
      run (initializer (expression d B)) (skip ((initializerText level value).toList ++ rest)) =
        some (value, skip rest) :=
  ⟨h.reads _ (endsWord_initializerText hrest.word) hgood,
    run_initializer_text hG hvalue hrest (h.drop _ hgood)⟩

end PatternText

/-! ## Entries of patterns -/

section Entries

variable {p : Pattern} {text : String} {value : Option Expr} {level : Nat}
  (hG : TextClass d Good)
include hG

theorem good_dots {s : List Char} (h : PatternText d B Good p text)
    (hgood : Good (("..." ++ text).toList ++ s)) : Good s := by
  rw [String.toList_append, List.append_assoc] at hgood
  exact h.drop s (hG.append (by decide) hgood)

omit hG in
theorem skip_dots (text : String) (s : List Char) :
    skip (("..." ++ text).toList ++ s) = ("..." ++ text).toList ++ s := by
  rw [String.toList_append]
  exact skip_cons (by decide) (by decide) _

/-- An entry that is a pattern behind three dots. -/
theorem entryText_dots (h : PatternText d B Good p text) {q : Parser α} {a : α}
    (hread : ∀ s r, run ((sym "...").skipThen (bindingPattern (expression d B))) s = some (p, r) →
      ∀ rest, r = skip rest → ValueEnd d B rest → run q s = some (a, r)) :
    EntryText d B Good q a ("..." ++ text) where
  drop _ := good_dots hG h
  skip_append := skip_dots text
  reads rest hrest hgood := hread _ _ (h.run_rest hG hrest hgood) rest rfl hrest

/-- An entry that is a pattern with its default. -/
theorem entryText_withDefault [Shrinks B] (h : PatternText d B Good p text)
    (hvalue : ∀ e ∈ value, PrintsWell d B Good level e) {q : Parser α} {a : α}
    (hread : ∀ rest, ValueEnd d B rest →
      run (bindingPattern (expression d B))
          (text.toList ++ ((initializerText level value).toList ++ rest)) =
        some (p, skip ((initializerText level value).toList ++ rest)) →
      run (initializer (expression d B)) (skip ((initializerText level value).toList ++ rest)) =
        some (value, skip rest) →
      run q (text.toList ++ ((initializerText level value).toList ++ rest)) =
        some (a, skip rest)) :
    EntryText d B Good q a (text ++ initializerText level value) where
  drop s hs := by
    rw [String.toList_append, List.append_assoc] at hs
    exact good_initializerText hG hvalue (h.drop _ hs)
  skip_append s := by
    rw [String.toList_append, List.append_assoc]
    exact h.skip_append _
  reads rest hrest hgood := by
    rw [String.toList_append, List.append_assoc] at hgood ⊢
    obtain ⟨hpattern, hinit⟩ := h.run_withDefault hG hvalue hrest hgood
    exact hread rest hrest hpattern hinit

theorem entryText_rest (h : PatternText d B Good p text) :
    EntryText d B Good (patternElement (expression d B) (bindingPattern (expression d B)))
      (.rest p) ("..." ++ text) := by
  refine entryText_dots hG h fun s r hs _ _ _ => ?_
  rw [patternElement, run_orElse, run_map, hs]
  rfl

theorem entryText_element [Shrinks B] (h : PatternText d B Good p text)
    (hvalue : ∀ e ∈ value, PrintsWell d B Good level e) :
    EntryText d B Good (patternElement (expression d B) (bindingPattern (expression d B)))
      (withDefault p value) (text ++ initializerText level value) := by
  refine entryText_withDefault hG h hvalue fun rest hrest hpattern hinit => ?_
  rw [patternElement, run_orElse, run_map, run_skipThen, h.run_dots_none, run_both, hpattern,
    Option.bind_some, hinit]
  rfl

theorem entryText_restProperty (h : PatternText d B Good p text) :
    EntryText d B Good (patternProperty (expression d B) (bindingPattern (expression d B)))
      (.rest p) ("..." ++ text) := by
  refine entryText_dots hG h fun s r hs _ _ _ => ?_
  rw [patternProperty, run_choice_cons, run_map, hs]
  rfl

/-- A name with its default. It is tried as a key first, and given up for want of a colon. -/
theorem entryText_shorthand [Shrinks B] {name : String} (hname : isName name = true)
    (hvalue : ∀ e ∈ value, PrintsWell d B Good level e) :
    EntryText d B Good (patternProperty (expression d B) (bindingPattern (expression d B)))
      (.shorthand name value) (name ++ initializerText level value) := by
  have hword : isIdentifier name = true := isIdentifier_of_isName hname
  refine ⟨fun s hs => ?_, fun s => ?_, fun rest hrest hgood => ?_⟩
  · rw [String.toList_append, List.append_assoc] at hs
    exact good_initializerText hG hvalue (hG.append (passed_of_isIdentifier hword) hs)
  · rw [String.toList_append, List.append_assoc]
    exact skip_identifier hword _
  · rw [String.toList_append, List.append_assoc] at hgood ⊢
    have hend : endsWord ((initializerText level value).toList ++ rest) = true :=
      endsWord_initializerText hrest.word
    have hcolon : run (sym ":") (skip ((initializerText level value).toList ++ rest)) = none :=
      run_sym_initializerText hrest ":" rfl (by decide) (by decide)
    have hinit := run_initializer_text hG hvalue hrest
      (hG.append (passed_of_isIdentifier hword) hgood)
    have hdots : run (sym "...") (name.toList ++ ((initializerText level value).toList ++ rest)) =
        none := by
      obtain ⟨c, cs, hc, hstart⟩ := exists_of_isIdentifier hword
      rw [hc]
      exact run_sym_none "..." rfl (ne_of_isWordStart hstart (by decide)) _
    simp [patternProperty, run_choice_cons, run_map, run_skipThen, run_both, run_seq, run_thenSkip,
      hdots, run_propertyKey_word hword hend, hcolon, run_identifier_append hname hend, hinit]

/-- A key with a pattern behind the colon, and with its default. -/
theorem entryText_keyed [Shrinks B] {key : PropertyKey} {keyText : String}
    (hkey : KeyText d B Good key keyText) (h : PatternText d B Good p text)
    (hvalue : ∀ e ∈ value, PrintsWell d B Good level e) :
    EntryText d B Good (patternProperty (expression d B) (bindingPattern (expression d B)))
      (.keyed key (withDefault p value))
      (keyText ++ ": " ++ (text ++ initializerText level value)) := by
  have htext : ∀ s, (keyText ++ ": " ++ (text ++ initializerText level value)).toList ++ s =
      keyText.toList ++ ':' :: ' ' :: (text.toList ++
        ((initializerText level value).toList ++ s)) := by
    intro s
    simp
  have hgood : ∀ {s}, Good ((keyText ++ ": " ++ (text ++ initializerText level value)).toList ++ s) →
      Good (text.toList ++ ((initializerText level value).toList ++ s)) := by
    intro s hs
    rw [htext] at hs
    exact hG.cons (by decide) (hG.cons (by decide) (hkey.drop _ hs))
  refine ⟨fun s hs => good_initializerText hG hvalue (h.drop _ (hgood hs)), fun s => ?_,
    fun rest hrest hs => ?_⟩
  · rw [htext]
    exact hkey.skip_append _
  · have hin := hgood hs
    rw [htext] at hs ⊢
    have hread := hkey.reads _ rfl rfl hs
    rw [skip_cons (by decide) (by decide)] at hread
    obtain ⟨hpattern, hinit⟩ := h.run_withDefault hG hvalue hrest hin
    simp [patternProperty, run_choice_cons, run_map, run_skipThen, run_both, run_seq, run_thenSkip,
      hkey.run_sym_none "..." rfl (by decide), hread, run_sym, run_chars_cons, run_char_cons,
      skip_blank (show isBlank ' ' = true by decide), h.skip_append, hpattern, hinit]

end Entries

/-! ## Rows of patterns -/

theorem printAll_patterns (ps : List Pattern) (level : Nat) :
    Pattern.printAll ps level = ps.map fun p => p.print level := by
  induction ps with
  | nil => rfl
  | cons p ps ih => rw [Pattern.printAll, ih, List.map_cons]

theorem printAll_properties (props : List PatternProperty) (level : Nat) :
    PatternProperty.printAll props level = props.map fun p => p.print level := by
  induction props with
  | nil => rfl
  | cons p props ih => rw [PatternProperty.printAll, ih, List.map_cons]

section Patterns

variable [Shrinks B] {level : Nat}

theorem patternText_ident (hG : TextClass d Good) {name : String} (h : isName name = true) :
    PatternText d B Good (.ident name) name := by
  have hword : isIdentifier name = true := isIdentifier_of_isName h
  obtain ⟨c, cs, hc, hstart⟩ := exists_of_isIdentifier hword
  refine ⟨fun s => hG.append (passed_of_isIdentifier hword),
    ⟨c, cs, hc, by simp [startsPattern, hstart]⟩, fun rest hend _ => ?_⟩
  simp only [isName, Bool.and_eq_true, Bool.not_eq_true'] at h
  rw [run_bindingPattern_word hword hend, h.2]
  rfl

/-- The elements are a row in brackets; a closing bracket is no element. -/
theorem patternText_array (hG : TextClass d Good) {elems : List Pattern}
    (h : ∀ e ∈ elems, EntryText d B Good
      (patternElement (expression d B) (bindingPattern (expression d B))) e (e.print level)) :
    PatternText d B Good (.array elems) ((Pattern.array elems).print level) := by
  have htext : ∀ s, ((Pattern.array elems).print level).toList ++ s =
      '[' :: ((Print.commaList (elems.map fun e => e.print level)).toList ++ ']' :: s) := by
    simp [Pattern.print, printAll_patterns]
  refine ⟨fun s hs => ?_, ⟨'[', _, by simpa using htext [], rfl⟩, fun rest _ hgood => ?_⟩
  · rw [htext] at hs
    exact hG.cons (by decide) (EntryText.good_row hG h (hG.cons (by decide) hs))
  · have hnone : run (patternElement (expression d B) (bindingPattern (expression d B)))
        (']' :: rest) = none := by
      simp [patternElement, run_orElse, run_map, run_skipThen, run_both,
        run_sym_none "..." rfl (show ']' ≠ '.' by decide),
        run_bindingPattern_none (c := ']') (by decide) (by decide) (by decide)]
    rw [htext] at hgood ⊢
    rw [run_bindingPattern, patternBody, run_choice_cons, arrayPattern, run_map, inBrackets,
      run_bracketRow hG rfl rfl (by decide) (by decide) (by decide) h hnone hgood]
    rfl

theorem patternText_object (hG : BraceClass d Good) {props : List PatternProperty}
    (h : ∀ x ∈ props, EntryText d B Good
      (patternProperty (expression d B) (bindingPattern (expression d B))) x (x.print level)) :
    PatternText d B Good (.object props) ((Pattern.object props).print level) := by
  have hnone : ∀ rest, run (patternProperty (expression d B) (bindingPattern (expression d B)))
      ('\x7d' :: rest) = none := by
    intro rest
    simp [patternProperty, run_choice_cons, run_map, run_skipThen, run_both, run_seq, run_thenSkip,
      run_sym_none "..." rfl (show '\x7d' ≠ '.' by decide),
      run_propertyKey_none (show startsMember '\x7d' = false by decide),
      run_identifier_none (show isWordStart '\x7d' = false by decide)]
  rw [Pattern.print, printAll_properties]
  have hstart := bracesAround_append (props.map fun x => x.print level)
  refine ⟨fun s => good_bracesAround hG h, ⟨'\x7b', _, by simpa using hstart [], rfl⟩,
    fun rest _ hgood => ?_⟩
  have harray : run (arrayPattern (expression d B) (bindingPattern (expression d B)))
      ((Print.bracesAround (props.map fun x => x.print level)).toList ++ rest) = none := by
    rw [hstart, arrayPattern, run_map, run_inBrackets_none (by decide)]
    rfl
  rw [run_bindingPattern, patternBody, run_choice_cons, harray, run_choice_cons, objectPattern,
    run_map, run_bracesAround hG h hnone hgood]
  rfl

end Patterns

end TsxCompiler.Grammar

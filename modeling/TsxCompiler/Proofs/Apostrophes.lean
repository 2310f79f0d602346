import TsxCompiler.Proofs.DeepElements

/-!
# Apostrophes between tags

The scan before reading knows strings, but not the text between two tags. An apostrophe in such a
text starts a string for it, which ends at the next apostrophe or with the line. So a line with an
odd number of them hides a closing tag behind the last one, and the scan goes on with an element
open that is closed: it comes to its limit after so many lines, however shallow they are.

* `Grammar.run_program_lines` — the grammar reads the lines, with any apostrophes;
* `Nesting.scanFrom_line` — a line that hides its closing tag leaves the scan one level deeper;
* `parse_elementLines` — so the tag behind so many lines as the limit has levels is turned away.
-/

namespace TsxCompiler

open Text

/-! ## Lines with an element -/

/-- Characters of a text between tags in which the scan sees nothing, or an apostrophe. -/
def isProse (c : Char) : Bool :=
  ! (['<', '\x7b', '(', '[', ')', ']', '\x7d', '/', '\\', '"', '\x60', '\n'].contains c)

/-- A line that gives a name to an element with a text between its tags. -/
structure ElementLine where
  name : String
  tag : String
  content : String
  isName_name : Grammar.isName name = true
  isIdentifier_tag : isIdentifier tag = true
  alphabetic_tag : tag.toList.head?.any isAlphabetic = true
  isProse_content : content.toList.all isProse = true
  content_ne_nil : content.toList ≠ []

namespace ElementLine

variable (line : ElementLine)

def element : Element := ⟨some line.tag, [], [.text line.content], false⟩

def item : Item := .stmt (.decl (.var .const [⟨.ident line.name, some (.jsx line.element)⟩]))

/-- What stands before the element. -/
def head : List Char := "const".toList ++ ' ' :: (line.name.toList ++ [' ', '=', ' '])

def text : List Char := line.head ++ (taggedText line.tag line.content.toList ++ ['\n'])

/-- Whether the scan is inside a string where the text ends. -/
def hidesTag : Bool := line.content.toList.count '\'' % 2 == 1

end ElementLine

def linesText (lines : List ElementLine) : List Char := lines.flatMap ElementLine.text

def linesModule (lines : List ElementLine) : Program := ⟨lines.map ElementLine.item⟩

@[simp] theorem linesText_cons (line : ElementLine) (lines : List ElementLine) :
    linesText (line :: lines) = line.text ++ linesText lines := rfl

end TsxCompiler

/-! ## Reading -/

namespace TsxCompiler.Grammar

open Peg Peg.Parser Text

variable {d : Dialect}

/-- A word that is no operator ends every level. -/
theorem halts_word {B : Parser (List Stmt)} {w : String} {rest : List Char}
    (hw : isIdentifier w = true) (hend : endsWord rest = true)
    (hop : w ∉ ["as", "in", "instanceof"]) : Halts d B 0 (w.toList ++ rest) := by
  simp only [List.mem_cons, List.not_mem_nil, or_false, not_or] at hop
  obtain ⟨has, hin, hinstance⟩ := hop
  have hrelational : run (levelTail d B 6) (w.toList ++ rest) = none := by
    simp [levelTail, levelOp, run_forget_none, run_seq, run_relationalOp_word hw hend, hin,
      hinstance]
  have hcast := run_levelTail_cast_word (d := d) (B := B) hw hend has
  obtain ⟨c, cs, hc, hstart⟩ := exists_of_isIdentifier hw
  rw [hc, List.cons_append] at hrelational hcast ⊢
  refine halts_of_char_except [6, 9] (by simp [hrelational, hcast]) fun i hi _ hmem => ?_
  have hne : ∀ x, isWordStart x = false → c ≠ x := fun x hx => ne_of_isWordStart hstart hx
  simp only [List.mem_cons, List.not_mem_nil, or_false, not_or] at hmem
  obtain rfl | rfl | rfl | rfl | rfl | rfl | rfl | rfl | rfl : i = 0 ∨ i = 1 ∨ i = 2 ∨ i = 3 ∨
      i = 4 ∨ i = 5 ∨ i = 7 ∨ i = 8 ∨ i = 10 := by omega
  all_goals
    simp [startsTail, hne '?' (by decide), hne '|' (by decide), hne '&' (by decide),
      hne '+' (by decide), hne '-' (by decide), hne '=' (by decide), hne '!' (by decide),
      hne '*' (by decide), hne '/' (by decide), hne '%' (by decide), hne '.' (by decide),
      hne '[' (by decide), hne '(' (by decide)]

theorem halts_linesText {B : Parser (List Stmt)} (lines : List ElementLine) :
    Halts d B 0 (linesText lines) := by
  cases lines with
  | nil => exact halts_nil
  | cons line lines =>
    rw [linesText_cons, ElementLine.text, ElementLine.head, List.append_assoc, List.append_assoc]
    exact halts_word (by decide) (endsWord_cons (by decide) _) (by decide)

theorem skip_linesText (lines : List ElementLine) : skip (linesText lines) = linesText lines := by
  cases lines with
  | nil => exact skip_nil
  | cons line lines =>
    rw [linesText_cons, ElementLine.text, ElementLine.head, List.append_assoc, List.append_assoc]
    exact skip_identifier (by decide) _

/-- No punctuator stands where the next line starts. -/
theorem run_sym_linesText (lines : List ElementLine) (text : String) {x : Char} {more : List Char}
    (ht : text.toList = x :: more) (hx : isWordStart x = false) :
    run (sym text) (linesText lines) = none := by
  cases lines with
  | nil =>
    show run (sym text) [] = none
    rw [run_sym, ht, run_chars_cons]
    rfl
  | cons line lines =>
    rw [linesText_cons, ElementLine.text, ElementLine.head, List.append_assoc, List.append_assoc]
    exact run_sym_word ht hx (by decide) _

theorem isChildChar_of_isProse {c : Char} (h : isProse c = true) : isChildChar c = true := by
  simp only [isProse, Bool.not_eq_true', List.contains_eq_mem, List.mem_cons,
    decide_eq_false_iff_not, not_or] at h
  simp [isChildChar, h.1, h.2.1]

variable (line : ElementLine)

theorem run_element_line {E : Parser Expr} [Shrinks E] (rest : List Char) :
    run (element E) (taggedText line.tag line.content.toList ++ rest) =
      some (line.element, rest) := by
  have hprose := List.all_eq_true.1 line.isProse_content
  have hplain : line.content.toList.all isChildChar = true :=
    List.all_eq_true.2 fun c hc => isChildChar_of_isProse (hprose c hc)
  exact run_element_text line.isIdentifier_tag hplain line.content_ne_nil rest

variable (hd : d.markup = true)
include hd

/-- The element behind the sign of equality is the value, and the next line is no part of it. -/
theorem run_declarator_line {B : Parser (List Stmt)} [Shrinks B] (lines : List ElementLine) :
    run (declarator d (expression d B)) (line.name.toList ++ ' ' :: '=' :: ' ' ::
      (taggedText line.tag line.content.toList ++ '\n' :: linesText lines)) =
        some (⟨.ident line.name, some (.jsx line.element)⟩, linesText lines) := by
  have hname := Bool.and_eq_true_iff.1 line.isName_name
  have hskip : ∀ t, skip (' ' :: '=' :: t) = '=' :: t := by
    intro t
    rw [skip_blank (by decide), skip_cons (by decide) (by decide)]
  have hpattern : ∀ t, run (bindingPattern (expression d B)) (line.name.toList ++ ' ' :: '=' :: t) =
      some (.ident line.name, '=' :: t) := by
    intro t
    rw [run_bindingPattern_word hname.1 (endsWord_cons (by decide) _), hskip,
      if_neg (by simpa using hname.2)]
  have hascription : ∀ t, run (ascription d) ('=' :: t) = some ((), '=' :: t) :=
    fun t => run_ascription_none (run_sym_none ":" rfl (by decide) t)
  -- the element ends the line, and a declaration behind it does not go on with it
  have hvalue : run (expression d B)
      (taggedText line.tag line.content.toList ++ '\n' :: linesText lines) =
        some (.jsx line.element, linesText lines) := by
    have hbreak : skip ('\n' :: linesText lines) = linesText lines := by
      rw [skip_blank (by decide), skip_linesText]
    have hread := run_expression_element hd
      (run_element_line line (E := expression d B) ('\n' :: linesText lines))
      (by rw [hbreak]; exact halts_linesText lines)
    rwa [hbreak] at hread
  have htag : ∀ t, skip (' ' :: (taggedText line.tag line.content.toList ++ t)) =
      taggedText line.tag line.content.toList ++ t := by
    intro t
    rw [skip_blank (by decide)]
    exact skip_cons (by decide) (by decide) _
  have hinitializer : run (initializer (expression d B)) ('=' :: ' ' ::
      (taggedText line.tag line.content.toList ++ '\n' :: linesText lines)) =
        some (some (.jsx line.element), linesText lines) := by
    refine run_optional_some ?_
    simp [run_skipThen, run_sym, run_chars_cons, run_char_cons, htag, hvalue]
  rw [declarator, run_both, run_thenSkip, hpattern, Option.bind_some, hascription, Option.map_some,
    Option.bind_some, hinitializer]
  rfl

theorem run_moduleItem_line (lines : List ElementLine) :
    run (moduleItem d) (line.text ++ linesText lines) = some (line.item, linesText lines) := by
  have htext : line.text ++ linesText lines = "const".toList ++ ' ' :: (line.name.toList ++
      ' ' :: '=' :: ' ' ::
        (taggedText line.tag line.content.toList ++ '\n' :: linesText lines)) := by
    simp [ElementLine.text, ElementLine.head]
  have hname := Bool.and_eq_true_iff.1 line.isName_name
  have hterminator : run terminator (linesText lines) = some ((), linesText lines) := by
    rw [terminator, run_yielding, run_optional_none (run_sym_linesText lines ";" rfl (by decide))]
    rfl
  rw [htext]
  exact run_moduleItem_var .const (skip_identifier hname.1 _) (run_declarator_line line hd lines)
    (run_sym_linesText lines "," rfl (by decide)) hterminator

/-- Every list of such lines is a module. -/
theorem run_program_lines (lines : List ElementLine) :
    run (program d) (linesText lines) = some (linesModule lines, []) := by
  refine run_program_items ?_
  rw [skip_linesText]
  induction lines with
  | nil => exact run_many_none run_moduleItem_nil
  | cons line lines ih =>
    rw [linesText_cons, run_many_step (run_moduleItem_line line hd lines), ih]
    rfl

end TsxCompiler.Grammar

/-! ## Counting -/

namespace TsxCompiler.Nesting

open Text Grammar

/-- Characters that open and close nothing and hide nothing. -/
def isLevel (c : Char) : Bool :=
  isFlat c && ! ([')', ']', '\x7d'].contains c)

theorem isLevel_of_isWordPart {c : Char} (h : isWordPart c = true) : isLevel c = true := by
  have hall : ([')', ']', '\x7d'].all fun x => !isWordPart x) = true := by decide
  rw [List.all_eq_true] at hall
  simp only [isLevel, isFlat_of_isWordPart h, Bool.true_and, Bool.not_eq_true',
    List.contains_eq_mem, decide_eq_false_iff_not]
  intro hmem
  simpa [h] using hall c hmem

theorem all_isLevel_of_isIdentifier {w : String} (h : isIdentifier w = true) :
    w.toList.all isLevel = true := by
  have hall := all_of_isIdentifier h
  rw [List.all_eq_true] at hall ⊢
  exact fun c hc => isLevel_of_isWordPart (hall c hc)

variable {depth : Nat}

theorem step_level {c : Char} (h : isLevel c = true) (prev next : Option Char) :
    step ⟨.code, depth, prev⟩ c next = ⟨.code, depth, if isBlank c then prev else some c⟩ := by
  simp only [isLevel, isFlat, Bool.and_eq_true, Bool.not_eq_true', List.contains_eq_mem,
    List.mem_cons, List.not_mem_nil, or_false, not_or, decide_eq_false_iff_not] at h
  obtain ⟨⟨hparen, hbracket, hbrace, hangle, hslash, hsingle, hdouble, hback⟩, hparen', hbracket',
    hbrace'⟩ := h
  simp [step, stepCode, depthAfter, hparen, hbracket, hbrace, hangle, hslash, hsingle, hdouble,
    hback, hparen', hbracket', hbrace']

theorem scanFrom_level {w : List Char} (h : w.all isLevel = true) (hdepth : depth ≤ maxDepth)
    (prev : Option Char) (rest : List Char) (index : Nat) :
    ∃ last, scanFrom ⟨.code, depth, prev⟩ index (w ++ rest) =
      scanFrom ⟨.code, depth, last⟩ (index + w.length) rest := by
  induction w generalizing prev index with
  | nil => exact ⟨prev, rfl⟩
  | cons c w ih =>
    rw [List.all_cons, Bool.and_eq_true] at h
    obtain ⟨last, hlast⟩ := ih h.2 (if isBlank c then prev else some c) (index + 1)
    refine ⟨last, ?_⟩
    rw [List.cons_append, scanFrom_cons (step_level h.1 _ _) hdepth, hlast, List.length_cons,
      Nat.add_right_comm, Nat.add_assoc]

/-! ## Text between tags -/

/-- What the scan is inside of behind so many apostrophes. -/
def proseMode (odd : Bool) : Mode := if odd then .quoted '\'' else .code

/-- An apostrophe starts a string or ends it. -/
theorem step_prose {c : Char} (h : isProse c = true) (depth : Nat) (odd : Bool)
    (prev next : Option Char) :
    ∃ last, step ⟨proseMode odd, depth, prev⟩ c next =
      ⟨proseMode (odd ^^ (c == '\'')), depth, last⟩ := by
  simp only [isProse, Bool.not_eq_true', List.contains_eq_mem, List.mem_cons, List.not_mem_nil,
    or_false, not_or, decide_eq_false_iff_not] at h
  obtain ⟨hangle, hbrace, hparen, hbracket, hparen', hbracket', hbrace', hslash, hescape, hdouble,
    hback, hbreak⟩ := h
  by_cases hquote : c = '\''
  · subst hquote
    cases odd with
    | false => exact ⟨some '\'', rfl⟩
    | true => exact ⟨prev, rfl⟩
  · rw [beq_eq_false_iff_ne.2 hquote, Bool.xor_false]
    cases odd with
    | false =>
      refine ⟨_, step_level ?_ prev next⟩
      simp [isLevel, isFlat, hangle, hbrace, hparen, hbracket, hparen', hbracket', hbrace', hslash,
        hdouble, hback, hquote]
    | true =>
      refine ⟨prev, ?_⟩
      simp [step, proseMode, hescape, hquote, hbreak]

theorem parity_cons (c : Char) (w : List Char) :
    ((c == '\'') ^^ (w.count '\'' % 2 == 1)) = ((c :: w).count '\'' % 2 == 1) := by
  rw [List.count_cons]
  by_cases hquote : (c == '\'') = true
  · rcases Nat.mod_two_eq_zero_or_one (w.count '\'') with h | h <;>
      simp [hquote, h, Nat.add_mod]
  · simp [hquote]

theorem scanFrom_prose {w : List Char} (h : w.all isProse = true) (hdepth : depth ≤ maxDepth)
    (odd : Bool) (prev : Option Char) (rest : List Char) (index : Nat) :
    ∃ last, scanFrom ⟨proseMode odd, depth, prev⟩ index (w ++ rest) =
      scanFrom ⟨proseMode (odd ^^ (w.count '\'' % 2 == 1)), depth, last⟩ (index + w.length) rest := by
  induction w generalizing odd prev index with
  | nil => exact ⟨prev, by simp⟩
  | cons c w ih =>
    rw [List.all_cons, Bool.and_eq_true] at h
    obtain ⟨next, hstep⟩ := step_prose h.1 depth odd prev (w ++ rest).head?
    obtain ⟨last, hlast⟩ := ih h.2 (odd ^^ (c == '\'')) next (index + 1)
    have hparity : (odd ^^ (c == '\'') ^^ (w.count '\'' % 2 == 1)) =
        (odd ^^ ((c :: w).count '\'' % 2 == 1)) := by
      rw [Bool.xor_assoc, parity_cons]
    refine ⟨last, ?_⟩
    rw [List.cons_append, scanFrom_cons hstep hdepth, hlast, hparity, List.length_cons,
      Nat.add_right_comm, Nat.add_assoc]

/-- Inside a string a closing tag is not seen, and the string ends with the line. -/
theorem scanFrom_hiddenTag {tag : String} (htag : isIdentifier tag = true)
    (hdepth : depth ≤ maxDepth) (prev : Option Char) (rest : List Char) (index : Nat) :
    scanFrom ⟨.quoted '\'', depth, prev⟩ index (closingText tag ++ '\n' :: rest) =
      scanFrom ⟨.code, depth, prev⟩ (index + (closingText tag).length + 1) rest := by
  have hplain : ∀ c ∈ closingText tag, c ∉ ['\\', '\'', '\n'] := by
    have hall := all_of_isIdentifier htag
    rw [List.all_eq_true] at hall
    intro c hc hmem
    simp only [closingText, List.mem_cons, List.mem_append, List.not_mem_nil, or_false] at hc
    rcases hc with rfl | rfl | hc | rfl
    · simp at hmem
    · simp at hmem
    · have hpart := hall c hc
      simp only [List.mem_cons, List.not_mem_nil, or_false] at hmem
      rcases hmem with rfl | rfl | rfl <;> exact absurd hpart (by decide)
    · simp at hmem
  have hbreak : ∀ next, step ⟨.quoted '\'', depth, prev⟩ '\n' next = ⟨.code, depth, prev⟩ :=
    fun _ => rfl
  -- nothing in the tag ends the literal, so the line break does
  generalize closingText tag = w at hplain
  induction w generalizing index with
  | nil => exact scanFrom_cons (hbreak _) hdepth index
  | cons c w ih =>
    have hc := hplain c (by simp)
    simp only [List.mem_cons, List.not_mem_nil, or_false, not_or] at hc
    have hstep : ∀ next, step ⟨.quoted '\'', depth, prev⟩ c next = ⟨.quoted '\'', depth, prev⟩ := by
      intro next
      simp [step, hc.1, hc.2.1, hc.2.2]
    rw [List.cons_append, scanFrom_cons (hstep _) hdepth,
      ih (index + 1) fun x hx => hplain x (by simp [hx]), List.length_cons, Nat.add_right_comm index 1,
      ← Nat.add_assoc index]

/-- In code a closing tag takes back the level that its element opened. -/
theorem scanFrom_seenTag {tag : String} (htag : isIdentifier tag = true)
    (hdepth : depth + 1 ≤ maxDepth) (prev : Option Char) (rest : List Char) (index : Nat) :
    ∃ last, scanFrom ⟨.code, depth + 1, prev⟩ index (closingText tag ++ '\n' :: rest) =
      scanFrom ⟨.code, depth, last⟩ (index + (closingText tag).length + 1) rest := by
  have hlower : depth ≤ maxDepth := by omega
  have htext : closingText tag ++ '\n' :: rest =
      '<' :: '/' :: ((tag.toList ++ ['>', '\n']) ++ rest) := by
    simp [closingText]
  have hopen : step ⟨.code, depth + 1, prev⟩ '<' (some '/') = ⟨.tagClose, depth, prev⟩ := rfl
  have hslash : ∀ next, step ⟨.tagClose, depth, prev⟩ '/' next = ⟨.code, depth, prev⟩ :=
    fun _ => rfl
  have hlevel : (tag.toList ++ ['>', '\n']).all isLevel = true := by
    rw [List.all_append, all_isLevel_of_isIdentifier htag]
    decide
  obtain ⟨last, hlast⟩ := scanFrom_level hlevel hlower prev rest (index + 1 + 1)
  refine ⟨last, ?_⟩
  rw [htext, scanFrom_cons hopen hlower, scanFrom_cons (hslash _) hlower, hlast]
  congr 1
  simp only [closingText, List.length_append, List.length_cons, List.length_nil]
  omega

theorem scanFrom_closing {tag : String} (htag : isIdentifier tag = true)
    (hdepth : depth + 1 ≤ maxDepth) (odd : Bool) (prev : Option Char) (rest : List Char)
    (index : Nat) :
    ∃ last, scanFrom ⟨proseMode odd, depth + 1, prev⟩ index (closingText tag ++ '\n' :: rest) =
      scanFrom ⟨.code, depth + odd.toNat, last⟩ (index + (closingText tag).length + 1) rest := by
  cases odd with
  | false => exact scanFrom_seenTag htag hdepth prev rest index
  | true => exact ⟨prev, scanFrom_hiddenTag htag hdepth prev rest index⟩

/-! ## Lines -/

variable (line : ElementLine)

/-- The scan comes to the tag of a line behind a sign of equality. -/
theorem scanFrom_head (hdepth : depth ≤ maxDepth) (prev : Option Char) (rest : List Char)
    (index : Nat) :
    scanFrom ⟨.code, depth, prev⟩ index (line.head ++ rest) =
      scanFrom ⟨.code, depth, some '='⟩ (index + line.head.length) rest := by
  have hname := (Bool.and_eq_true_iff.1 line.isName_name).1
  have htext : line.head ++ rest =
      "const ".toList ++ line.name.toList ++ [' '] ++ '=' :: ' ' :: rest := by
    simp [ElementLine.head]
  have hlevel : ("const ".toList ++ line.name.toList ++ [' ']).all isLevel = true := by
    rw [List.all_append, List.all_append, all_isLevel_of_isIdentifier hname]
    decide
  obtain ⟨last, hlast⟩ := scanFrom_level hlevel hdepth prev ('=' :: ' ' :: rest) index
  rw [htext, hlast, scanFrom_cons (step_level (by decide) _ _) hdepth,
    scanFrom_cons (step_level (by decide) _ _) hdepth]
  show scanFrom ⟨.code, depth, some '='⟩ _ _ = _
  congr 1
  simp only [ElementLine.head, List.length_append, List.length_cons, List.length_nil]
  have hconst : "const ".toList.length = "const".toList.length + 1 := rfl
  omega

theorem step_tag (rest : List Char) :
    step ⟨.code, depth, some '='⟩ '<' (line.tag.toList ++ rest).head? =
      ⟨.code, depth + 1, some '<'⟩ := by
  obtain ⟨c, cs, hc, hstart⟩ := exists_of_isIdentifier line.isIdentifier_tag
  have halphabetic : isAlphabetic c = true := by simpa [hc] using line.alphabetic_tag
  have hslash : c ≠ '/' := ne_of_isWordStart hstart (by decide)
  have hopens : opensTag (some '=') c = true := by simp [opensTag, halphabetic]
  simp [step, stepCode, depthAfter, hc, hslash, hopens, show isBlank '<' = false by decide]

/-- A line leaves the scan one level deeper if it hides its closing tag. -/
theorem scanFrom_line (hdepth : depth < maxDepth) (prev : Option Char) (rest : List Char)
    (index : Nat) :
    ∃ last, scanFrom ⟨.code, depth, prev⟩ index (line.text ++ rest) =
      scanFrom ⟨.code, depth + line.hidesTag.toNat, last⟩ (index + line.text.length) rest := by
  have htext : line.text ++ rest = line.head ++ '<' :: (line.tag.toList ++ (['>'] ++
      (line.content.toList ++ (closingText line.tag ++ '\n' :: rest)))) := by
    simp [ElementLine.text, taggedText]
  have hname : (line.tag.toList ++ ['>']).all isLevel = true := by
    rw [List.all_append, all_isLevel_of_isIdentifier line.isIdentifier_tag]
    decide
  obtain ⟨a, ha⟩ := scanFrom_level hname hdepth (some '<')
    (line.content.toList ++ (closingText line.tag ++ '\n' :: rest)) (index + line.head.length + 1)
  obtain ⟨b, hb⟩ := scanFrom_prose line.isProse_content hdepth false a
    (closingText line.tag ++ '\n' :: rest)
    (index + line.head.length + 1 + (line.tag.toList ++ ['>']).length)
  obtain ⟨last, hlast⟩ := scanFrom_closing line.isIdentifier_tag hdepth line.hidesTag b rest
    (index + line.head.length + 1 + (line.tag.toList ++ ['>']).length + line.content.toList.length)
  rw [Bool.false_xor] at hb
  rw [List.append_assoc] at ha
  refine ⟨last, ?_⟩
  rw [htext, scanFrom_head line (Nat.le_of_lt hdepth), scanFrom_cons (step_tag line _) hdepth]
  refine (ha.trans (hb.trans hlast)).trans ?_
  congr 1
  simp only [ElementLine.text, taggedText, closingText, List.length_append, List.length_cons,
    List.length_nil]
  omega

/-- Where the limit is reached, the next tag is too much. -/
theorem scanFrom_line_excess (prev : Option Char) (rest : List Char) (index : Nat) :
    scanFrom ⟨.code, maxDepth, prev⟩ index (line.text ++ rest) = some (index + line.head.length) := by
  have htext : line.text ++ rest = line.head ++ '<' :: (line.tag.toList ++
      ('>' :: (line.content.toList ++ (closingText line.tag ++ '\n' :: rest)))) := by
    simp [ElementLine.text, taggedText]
  rw [htext, scanFrom_head line (Nat.le_refl _), scanFrom, step_tag]
  simp

theorem countP_hidesTag_cons (line : ElementLine) (lines : List ElementLine) :
    (line :: lines).countP ElementLine.hidesTag =
      line.hidesTag.toNat + lines.countP ElementLine.hidesTag := by
  rw [List.countP_cons]
  cases line.hidesTag <;> simp [Nat.add_comm]

/-- As long as the limit is reached by no line but the last, nothing is too deep. -/
theorem scanFrom_lines_none {lines : List ElementLine}
    (h : depth + lines.dropLast.countP ElementLine.hidesTag < maxDepth) (prev : Option Char)
    (index : Nat) : scanFrom ⟨.code, depth, prev⟩ index (linesText lines) = none := by
  induction lines generalizing depth prev index with
  | nil => rfl
  | cons line lines ih =>
    have hdepth : depth < maxDepth := by omega
    obtain ⟨last, hlast⟩ := scanFrom_line line hdepth prev (linesText lines) index
    rw [linesText_cons, hlast]
    cases lines with
    | nil => rfl
    | cons next lines =>
      rw [List.dropLast_cons_cons, countP_hidesTag_cons] at h
      exact ih (by omega) last _

/-- The first tag behind so many lines that hide theirs is the one that is too much. -/
theorem scanFrom_lines_some {lines : List ElementLine} (hne : lines ≠ []) (hdepth : depth ≤ maxDepth)
    (h : maxDepth ≤ depth + lines.dropLast.countP ElementLine.hidesTag) (prev : Option Char)
    (index : Nat) :
    ∃ before line after, lines = before ++ line :: after ∧
      depth + before.countP ElementLine.hidesTag = maxDepth ∧
      scanFrom ⟨.code, depth, prev⟩ index (linesText lines) =
        some (index + (linesText before).length + line.head.length) := by
  induction lines generalizing depth prev index with
  | nil => exact absurd rfl hne
  | cons line lines ih =>
    -- the line whose own tag is one too deep, or the next ones with one more tag left open
    by_cases hfull : depth = maxDepth
    · subst hfull
      exact ⟨[], line, lines, rfl, rfl, scanFrom_line_excess line prev _ index⟩
    · cases lines with
      | nil =>
        have hzero : ([line].dropLast).countP ElementLine.hidesTag = 0 := rfl
        omega
      | cons next lines =>
        rw [List.dropLast_cons_cons, countP_hidesTag_cons] at h
        have hbit : line.hidesTag.toNat ≤ 1 := Bool.toNat_le _
        have hless : depth < maxDepth := by omega
        obtain ⟨last, hlast⟩ := scanFrom_line line hless prev (linesText (next :: lines)) index
        obtain ⟨before, found, after, hsplit, hcount, hscan⟩ :=
          ih (by simp) (show depth + line.hidesTag.toNat ≤ maxDepth by omega) (by omega) last
            (index + line.text.length)
        refine ⟨line :: before, found, after, by rw [hsplit]; rfl, ?_, ?_⟩
        · rw [countP_hidesTag_cons]
          omega
        · rw [linesText_cons, hlast, hscan, linesText_cons, List.length_append, ← Nat.add_assoc]

theorem excess_lines_some {lines : List ElementLine}
    (h : maxDepth ≤ lines.dropLast.countP ElementLine.hidesTag) :
    ∃ before line after, lines = before ++ line :: after ∧
      before.countP ElementLine.hidesTag = maxDepth ∧
      excess (linesText lines) = some ((linesText before).length + line.head.length) := by
  have hne : lines ≠ [] := by
    rintro rfl
    exact absurd h (by decide)
  obtain ⟨before, line, after, hsplit, hcount, hscan⟩ :=
    scanFrom_lines_some hne (Nat.zero_le _) (show maxDepth ≤ 0 + _ by omega) none 0
  rw [Nat.zero_add] at hcount hscan
  exact ⟨before, line, after, hsplit, hcount, (excess_eq_scanFrom _).trans hscan⟩

end TsxCompiler.Nesting

/-! ## Modules -/

namespace TsxCompiler

open Text Grammar

/-- All opening brackets of a text together with the elements around any place of its module are
not more than the limit. So no more than that are open at once. -/
structure OpensAtMost (limit : Nat) (text : List Char) (p : Program) : Prop where
  brackets : text.countP isOpeningBracket ≤ limit
  elements : ∀ n e, p.ElementInside n e → text.countP isOpeningBracket + (n + 1) ≤ limit

theorem OpensAtMost.mono {limit limit' : Nat} {text : List Char} {p : Program}
    (h : OpensAtMost limit text p) (hle : limit ≤ limit') : OpensAtMost limit' text p where
  brackets := Nat.le_trans h.brackets hle
  elements n e he := Nat.le_trans (h.elements n e he) hle

theorem countP_isOpeningBracket_word {w : String} (h : isIdentifier w = true) :
    w.toList.countP isOpeningBracket = 0 := by
  have hall := all_of_isIdentifier h
  rw [List.all_eq_true] at hall
  rw [List.countP_eq_zero]
  intro c hc hbracket
  have hpart := hall c hc
  simp only [isOpeningBracket, List.contains_eq_mem, List.mem_cons, List.not_mem_nil, or_false,
    decide_eq_true_eq] at hbracket
  rcases hbracket with rfl | rfl | rfl <;> exact absurd hpart (by decide)

theorem countP_isOpeningBracket_text (line : ElementLine) :
    line.text.countP isOpeningBracket = 0 := by
  have hname := countP_isOpeningBracket_word (Bool.and_eq_true_iff.1 line.isName_name).1
  have htag := countP_isOpeningBracket_word line.isIdentifier_tag
  have hprose : line.content.toList.countP isOpeningBracket = 0 := by
    rw [List.countP_eq_zero]
    intro c hc hbracket
    have hplain := List.all_eq_true.1 line.isProse_content c hc
    simp only [isOpeningBracket, List.contains_eq_mem, List.mem_cons, List.not_mem_nil, or_false,
      decide_eq_true_eq] at hbracket
    rcases hbracket with rfl | rfl | rfl <;> exact absurd hplain (by decide)
  simp [ElementLine.text, ElementLine.head, taggedText, closingText, List.countP_append, hname,
    htag, hprose, isOpeningBracket]

/-- No brackets and no element inside another one. -/
theorem opensAtMost_lines (lines : List ElementLine) :
    OpensAtMost 1 (linesText lines) (linesModule lines) := by
  have hzero : (linesText lines).countP isOpeningBracket = 0 := by
    induction lines with
    | nil => rfl
    | cons line lines ih =>
      rw [linesText_cons, List.countP_append, countP_isOpeningBracket_text, ih]
  -- an element of the module is that of a line, and nothing but text is inside it
  have hinside : ∀ n e, (linesModule lines).ElementInside n e →
      n = 0 ∧ ∃ line ∈ lines, e = line.element := by
    intro n e he
    induction he with
    | outer h =>
      obtain ⟨item, hitem, hnode⟩ := List.mem_flatMap.1 h
      obtain ⟨line, hline, rfl⟩ := List.mem_map.1 hitem
      refine ⟨rfl, line, hline, ?_⟩
      simpa [ElementLine.item, ElementLine.element, Item.nodes, Stmt.nodes, Decl.nodes,
        Declarator.nodesAll, Declarator.nodes, Pattern.nodes, Expr.nodes, Element.nodes,
        Child.nodes] using hnode
    | inner _ h ih =>
      obtain ⟨-, line, -, rfl⟩ := ih
      simp [ElementLine.element, Element.innerNodes, Child.nodes] at h
  refine ⟨by omega, fun n e he => ?_⟩
  have hn := (hinside n e he).1
  omega

/-- The error at the first tag that the scan finds too deep. -/
theorem parse_lines_error (d : Dialect) {lines : List ElementLine}
    (h : Nesting.maxDepth ≤ lines.dropLast.countP ElementLine.hidesTag) :
    ∃ before line after, lines = before ++ line :: after ∧
      before.countP ElementLine.hidesTag = Nesting.maxDepth ∧
      Program.parse d (String.ofList (linesText lines)) =
        .error (.ofOffset (linesText lines) ((linesText before).length + line.head.length)
          "nesting deeper than 128 levels") := by
  obtain ⟨before, line, after, hsplit, hcount, hexcess⟩ := Nesting.excess_lines_some h
  refine ⟨before, line, after, hsplit, hcount, ?_⟩
  have htext : (String.ofList (linesText lines)).toList = linesText lines := String.toList_ofList
  rw [parse_of_excess (htext.symm ▸ hexcess), htext]

/-- Lines with an element each are a shallow module to the grammar. The module is accepted if fewer
lines than the limit has levels hide their closing tags, the last line apart. Otherwise it is refused
at the tag of the line behind so many that do. -/
theorem parse_elementLines {d : Dialect} (hd : d.markup = true) (lines : List ElementLine) :
    Grammar.parse d (linesText lines) = .ok (linesModule lines) ∧
    OpensAtMost 1 (linesText lines) (linesModule lines) ∧
    (lines.dropLast.countP ElementLine.hidesTag < Nesting.maxDepth →
      Program.parse d (String.ofList (linesText lines)) = .ok (linesModule lines)) ∧
    (Nesting.maxDepth ≤ lines.dropLast.countP ElementLine.hidesTag →
      ∃ before line after, lines = before ++ line :: after ∧
        before.countP ElementLine.hidesTag = Nesting.maxDepth ∧
        Program.parse d (String.ofList (linesText lines)) =
          .error (.ofOffset (linesText lines) ((linesText before).length + line.head.length)
            "nesting deeper than 128 levels")) := by
  have hread := Grammar.run_program_lines hd lines
  refine ⟨grammarParse_of_run_program hread, opensAtMost_lines lines, fun hfew => ?_,
    parse_lines_error d⟩
  refine parse_of_run_program ?_ ?_
  · rw [String.toList_ofList, Nesting.excess_eq_scanFrom]
    exact Nesting.scanFrom_lines_none (by omega) none 0
  · rwa [String.toList_ofList]

/-- `const a = <p>Don't</p>` -/
def dontLine : ElementLine where
  name := "a"
  tag := "p"
  content := "Don't"
  isName_name := by decide
  isIdentifier_tag := by decide
  alphabetic_tag := by decide
  isProse_content := by decide
  content_ne_nil := by decide

theorem maxDepth_le_dontLines : Nesting.maxDepth ≤
    (List.replicate (Nesting.maxDepth + 1) dontLine).dropLast.countP ElementLine.hidesTag := by
  rw [List.dropLast_replicate, List.countP_replicate, if_pos (by decide)]
  exact Nat.le_refl _

theorem parse_elementLines_dont :
    (⟨.typeScript, true⟩ : Dialect).markup = true ∧
    Program.parse ⟨.typeScript, true⟩
        "const a = <p>Don't</p>\nconst a = <p>Don't</p>\n" =
      .ok (linesModule [dontLine, dontLine]) ∧
    ∃ before line after, List.replicate (Nesting.maxDepth + 1) dontLine = before ++ line :: after ∧
      before.countP ElementLine.hidesTag = Nesting.maxDepth ∧
      Program.parse ⟨.typeScript, true⟩
          (String.ofList (linesText (List.replicate (Nesting.maxDepth + 1) dontLine))) =
        .error (.ofOffset (linesText (List.replicate (Nesting.maxDepth + 1) dontLine))
          ((linesText before).length + line.head.length) "nesting deeper than 128 levels") :=
  ⟨rfl, (parse_elementLines rfl [dontLine, dontLine]).2.2.1 (by decide),
    (parse_elementLines rfl _).2.2.2 maxDepth_le_dontLines⟩

/-- The nesting limit refuses a module with one element open at a time. -/
theorem not_parse_of_opensAtMost :
    ¬ ∀ (d : Dialect) (text : String) (p : Program), Grammar.parse d text.toList = .ok p →
      OpensAtMost Nesting.maxDepth text.toList p → Program.parse d text = .ok p := by
  intro hparse
  have hread := Grammar.run_program_lines (d := ⟨.typeScript, true⟩) rfl
    (List.replicate (Nesting.maxDepth + 1) dontLine)
  obtain ⟨before, line, after, -, -, herror⟩ :=
    parse_lines_error ⟨.typeScript, true⟩ maxDepth_le_dontLines
  have hok := hparse ⟨.typeScript, true⟩
    (String.ofList (linesText (List.replicate (Nesting.maxDepth + 1) dontLine)))
    (linesModule (List.replicate (Nesting.maxDepth + 1) dontLine))
    (by rw [String.toList_ofList]; exact grammarParse_of_run_program hread)
    (by rw [String.toList_ofList]; exact (opensAtMost_lines _).mono (by decide))
  rw [herror] at hok
  cases hok

end TsxCompiler

import Mathlib.Data.List.Induction
import Mathlib.Data.List.TakeWhile
import TsxCompiler.Proofs.NestingScan
import TsxCompiler.Proofs.TokenRules

/-!
# What the nesting scan counts in a text without tags

The scan goes through a text character by character and remembers what it is inside of. Here the
same is said without a scan: comments and literals are parts of the text with an end of their own,
what stands outside of them is code (`Outside`), and the depth goes up and down with the brackets of
the code. In a text that has no tags the scan stops at the first bracket that opens one level too
many, and at nothing else.

* `scanFrom_covered` — the scan comes out of a comment or a literal as it went in;
* `Outside.excess_cases` — the scan and the depth go together through the code;
* `excess_eq_firstTooDeep` — where the scan stops.
-/

namespace TsxCompiler.Nesting

open Text Highlight

/-! ## Code, literals and comments -/

def isClosingBracket (c : Char) : Bool := [')', ']', '\x7d'].contains c

/-- The depth behind a character of code. -/
def bracketDepth (depth : Nat) (c : Char) : Nat :=
  if isOpeningBracket c then depth + 1 else if isClosingBracket c then depth - 1 else depth

/-- What follows the quote of a literal: it goes up to the first such quote that is not escaped, or
to the end of the text. A literal that is no template also stops at a line break that is not
escaped. -/
structure IsLiteralBody (quote : Char) (body behind : List Char) : Prop where
  first : ∀ front rest, body = front ++ rest → EndsString quote front → rest = []
  oneLine : quote ≠ '\x60' → ∀ front rest, body = front ++ '\n' :: rest → escapesNext front = true
  ends : EndsString quote body ∨
    (quote ≠ '\x60' ∧ escapesNext body = false ∧ behind.head? = some '\n') ∨ behind = []

def IsLiteral (text behind : List Char) : Prop :=
  ∃ quote body, isQuote quote = true ∧ text = quote :: body ∧ IsLiteralBody quote body behind

/-- A comment or a literal, given the text behind it. -/
def IsCovered (text behind : List Char) : Prop :=
  IsLineComment text behind ∨ IsBlockComment text behind ∨ IsLiteral text behind

/-- Whether a text starts with a comment or a literal. -/
def startsCovered : List Char → Bool
  | [] => false
  | c :: rest => c == '/' && (rest.head? == some '/' || rest.head? == some '*') || isQuote c

/-- The places of a text outside of its comments and literals: what stands before the place, how
many brackets are open there and what is left of the text. -/
inductive Outside (text : List Char) : List Char → Nat → List Char → Prop
  | start : Outside text [] 0 text
  | code {before rest : List Char} {depth : Nat} {c : Char} :
    Outside text before depth (c :: rest) → startsCovered (c :: rest) = false →
      Outside text (before ++ [c]) (bracketDepth depth c) rest
  | covered {before part rest : List Char} {depth : Nat} :
    Outside text before depth (part ++ rest) → IsCovered part rest →
      Outside text (before ++ part) depth rest

/-- A bracket of the code that opens one level too many, with so many characters before it. -/
def OpensTooDeep (text : List Char) (index : Nat) : Prop :=
  ∃ before depth c rest, Outside text before depth (c :: rest) ∧ isOpeningBracket c = true ∧
    before.length = index ∧ maxDepth < depth + 1

theorem Outside.text_eq {text before rest : List Char} {depth : Nat}
    (h : Outside text before depth rest) : text = before ++ rest := by
  induction h with
  | start => rfl
  | code _ _ ih => simpa using ih
  | covered _ _ ih => simpa using ih

/-! ## The scan passes comments and literals -/

section Passing

variable {depth : Nat} (hdepth : depth ≤ maxDepth) (prev : Option Char)

include hdepth

/-- A character that only changes the mode. -/
theorem scanFrom_enter {before : Mode} (after : Mode) {c : Char} {rest : List Char}
    (h : step ⟨before, depth, prev⟩ c rest.head? = ⟨after, depth, prev⟩) (index : Nat) :
    scanFrom ⟨before, depth, prev⟩ index (c :: rest) =
      scanFrom ⟨after, depth, prev⟩ (index + 1) rest :=
  scanFrom_cons h hdepth index

/-- At a line break the scan is back in code, and the line break changes nothing there. -/
theorem scanFrom_lineEnd {mode : Mode}
    (hmode : mode = .lineComment ∨ ∃ quote, mode = .quoted quote ∧ quote ≠ '\x60')
    {rest : List Char} (hrest : rest.head? = some '\n' ∨ rest = []) (index : Nat) :
    scanFrom ⟨mode, depth, prev⟩ index rest = scanFrom ⟨.code, depth, prev⟩ index rest := by
  cases rest with
  | nil => rfl
  | cons c rest =>
    obtain rfl : c = '\n' := by simpa using hrest
    have hleave : step ⟨mode, depth, prev⟩ '\n' rest.head? = ⟨.code, depth, prev⟩ := by
      rcases hmode with rfl | ⟨quote, rfl, hquote⟩
      · simp [step]
      · simp [step, hquote]
    rw [scanFrom_cons (step_newline _) hdepth, scanFrom_cons hleave hdepth]

theorem scanFrom_lineComment {w : List Char} (hw : '\n' ∉ w) (rest : List Char) (index : Nat) :
    scanFrom ⟨.lineComment, depth, prev⟩ index (w ++ rest) =
      scanFrom ⟨.lineComment, depth, prev⟩ (index + w.length) rest := by
  induction w generalizing index with
  | nil => rfl
  | cons c w ih =>
    simp only [List.mem_cons, not_or] at hw
    have hstep : step ⟨.lineComment, depth, prev⟩ c (w ++ rest).head? =
        ⟨.lineComment, depth, prev⟩ := by
      simp [step, Ne.symm hw.1]
    rw [List.cons_append, scanFrom_cons hstep hdepth, ih hw.2, List.length_cons]
    congr 1
    omega

/-- The scan leaves a comment at its first end mark. By induction over the comment, where a star in
front of a slash is the end of it. -/
theorem scanFrom_blockComment {body behind : List Char}
    (h : IsUpToFirst EndsComment body behind) (index : Nat) :
    scanFrom ⟨.blockComment, depth, prev⟩ index (body ++ behind) =
      scanFrom ⟨.code, depth, prev⟩ (index + body.length) behind := by
  induction body generalizing index with
  | nil =>
    obtain rfl := h.ends.resolve_left not_endsComment_nil
    rfl
  | cons c body ih =>
    by_cases hend : c = '*' ∧ ['/'] <+: body
    · -- The end of the comment, and so of the body.
      obtain ⟨rfl, more, rfl⟩ := hend
      obtain rfl : more = [] := h.first ['*', '/'] more rfl List.suffix_rfl
      rw [show ('*' :: (['/'] ++ []) : List Char) ++ behind = '*' :: '/' :: behind from rfl,
        scanFrom_enter hdepth prev .blockClose (by simp [step]),
        scanFrom_enter hdepth prev .code rfl]
      rfl
    · -- otherwise the character belongs to no end mark, and the rest is up to the first one too
      have hcons : ∀ front, front <+: body → (EndsComment (c :: front) ↔ EndsComment front) := by
        intro front hfront
        refine endsComment_cons ?_
        rintro ⟨rfl, rfl⟩
        exact hend ⟨rfl, hfront⟩
      have hbody : IsUpToFirst EndsComment body behind := by
        refine ⟨fun front rest heq hends => ?_, h.ends.imp_left (hcons body List.prefix_rfl).1⟩
        exact h.first (c :: front) rest (by rw [heq]; rfl) ((hcons front ⟨rest, heq.symm⟩).2 hends)
      have hnext : ¬ (c = '*' ∧ (body ++ behind).head? = some '/') := by
        rintro ⟨rfl, hhead⟩
        cases body with
        | nil =>
          rw [hbody.ends.resolve_left not_endsComment_nil] at hhead
          simp at hhead
        | cons d body =>
          obtain rfl : d = '/' := by simpa using hhead
          exact hend ⟨rfl, body, rfl⟩
      have hstep : step ⟨.blockComment, depth, prev⟩ c (body ++ behind).head? =
          ⟨.blockComment, depth, prev⟩ := by
        simp only [step, Bool.and_eq_true, decide_eq_true_eq, if_neg hnext]
      rw [List.cons_append, scanFrom_cons hstep hdepth, ih hbody, List.length_cons]
      congr 1
      omega

/-- Inside of a literal the scan knows whether the next character is escaped. -/
theorem scanFrom_quoted {quote : Char} {front : List Char}
    (hopen : ∀ start rest, front = start ++ rest → ¬ EndsString quote start)
    (hline : quote ≠ '\x60' → ∀ start rest, front = start ++ '\n' :: rest →
      escapesNext start = true)
    (rest : List Char) (index : Nat) :
    scanFrom ⟨.quoted quote, depth, prev⟩ index (front ++ rest) =
      scanFrom ⟨if escapesNext front then .escaped quote else .quoted quote, depth, prev⟩
        (index + front.length) rest := by
  -- by induction from the back, where it is known whether the last character is escaped
  induction front using List.reverseRecOn generalizing rest with
  | nil => rfl
  | append_singleton front c ih =>
    have hescapes : escapesNext (front ++ [c]) = (c == '\\' && !escapesNext front) := by
      simp [escapesNext]
    have ih := ih (fun start rest h => hopen start (rest ++ [c]) (by simp [h]))
      (fun hquote start rest h => hline hquote start (rest ++ [c]) (by simp [h])) (c :: rest)
    rw [List.append_assoc, List.singleton_append, ih, hescapes, List.length_append,
      List.length_singleton, ← Nat.add_assoc]
    cases hfront : escapesNext front with
    | true =>
      rw [if_pos rfl, scanFrom_enter hdepth prev (.quoted quote) rfl]
      simp
    | false =>
      by_cases hslash : c = '\\'
      · rw [if_neg (by simp), scanFrom_enter hdepth prev (.escaped quote)
          (by simp [step, hslash])]
        simp [hslash]
      · have hquote : c ≠ quote := by
          rintro rfl
          exact hopen (front ++ [c]) [] (by simp) ⟨front, rfl, hfront⟩
        have hbreak : ¬ (c = '\n' ∧ quote ≠ '\x60') := by
          rintro ⟨rfl, hq⟩
          rw [hline hq front [] rfl] at hfront
          cases hfront
        have hstep : step ⟨.quoted quote, depth, prev⟩ c rest.head? =
            ⟨.quoted quote, depth, prev⟩ := by
          simp only [step, hslash, if_false]
          rw [if_neg]
          simpa [hquote] using hbreak
        rw [if_neg (by simp), scanFrom_cons hstep hdepth]
        simp [hslash]

/-- The scan leaves a literal at its closing quote, at the end of a line that may not be part of it,
or at the end of the text. -/
theorem scanFrom_literalBody {quote : Char} {body behind : List Char} (hquote : quote ≠ '\\')
    (h : IsLiteralBody quote body behind) (index : Nat) :
    scanFrom ⟨.quoted quote, depth, prev⟩ index (body ++ behind) =
      scanFrom ⟨.code, depth, prev⟩ (index + body.length) behind := by
  by_cases hends : EndsString quote body
  · obtain ⟨front, rfl, hfront⟩ := hends
    have hopen : ∀ start rest, front = start ++ rest → ¬ EndsString quote start := by
      intro start rest heq hstart
      have := h.first start (rest ++ [quote]) (by simp [heq]) hstart
      simp at this
    have hline : quote ≠ '\x60' →
        ∀ start rest, front = start ++ '\n' :: rest → escapesNext start = true :=
      fun hq start rest heq => h.oneLine hq start (rest ++ [quote]) (by simp [heq])
    rw [List.append_assoc, scanFrom_quoted hdepth prev hopen hline, hfront, List.singleton_append,
      if_neg (by simp), scanFrom_enter hdepth prev .code (by simp [step, hquote])]
    simp [Nat.add_assoc]
  · have hopen : ∀ start rest, body = start ++ rest → ¬ EndsString quote start := by
      intro start rest heq hstart
      obtain rfl := h.first start rest heq hstart
      exact hends (by simpa [heq] using hstart)
    rw [scanFrom_quoted hdepth prev hopen h.oneLine]
    rcases h.ends.resolve_left hends with ⟨hq, hescapes, hhead⟩ | rfl
    · rw [hescapes, if_neg (by simp)]
      exact scanFrom_lineEnd hdepth prev (.inr ⟨quote, rfl, hq⟩) (.inl hhead) _
    · rfl

/-- The scan comes out of a comment or a literal as it went in, but for the character it has seen
last. -/
theorem scanFrom_covered {part rest : List Char} (h : IsCovered part rest) (index : Nat) :
    ∃ prev', scanFrom ⟨.code, depth, prev⟩ index (part ++ rest) =
      scanFrom ⟨.code, depth, prev'⟩ (index + part.length) rest := by
  rcases h with h | ⟨body, rfl, hbody⟩ | ⟨quote, body, hquote, rfl, hbody⟩
  · -- a line comment, which leaves the line break to the code behind it
    obtain ⟨body, rfl⟩ := h.opener
    have hline : '\n' ∉ '/' :: body := fun hmem =>
      h.oneLine (List.mem_append_right _ (List.mem_of_ne_of_mem (by decide) hmem))
    refine ⟨prev, ?_⟩
    rw [List.append_assoc, List.cons_append, scanFrom_enter hdepth prev .lineComment
      (by simp [step, stepCode])]
    refine (scanFrom_lineComment hdepth prev hline rest (index + 1)).trans ?_
    rw [scanFrom_lineEnd hdepth prev (.inl rfl) h.ends]
    simp [Nat.add_comm, Nat.add_left_comm]
  · refine ⟨prev, ?_⟩
    rw [List.cons_append, scanFrom_enter hdepth prev .blockOpen
      (by simp [step, stepCode]), List.cons_append,
      scanFrom_enter hdepth prev .blockComment rfl,
      scanFrom_blockComment hdepth prev hbody]
    simp [Nat.add_comm, Nat.add_left_comm]
  · refine ⟨some quote, ?_⟩
    have hslash : quote ≠ '/' := by
      rintro rfl
      exact absurd hquote (by decide)
    have hcases : quote = '\'' ∨ quote = '"' ∨ quote = '\x60' := by
      simpa [isQuote, or_assoc] using hquote
    have hstep : step ⟨.code, depth, prev⟩ quote (body ++ rest).head? =
        ⟨.quoted quote, depth, some quote⟩ := by
      simp [step, stepCode, hslash, hcases, or_assoc]
    rw [List.cons_append, scanFrom_cons hstep hdepth,
      scanFrom_literalBody hdepth _ (ne_backslash_of_isQuote hquote) hbody, List.length_cons]
    congr 1
    omega

end Passing

/-! ## Every comment and literal has an end -/

theorem exists_isUpToFirst (Ends : List Char → Prop) (s : List Char) :
    ∃ body behind, s = body ++ behind ∧ IsUpToFirst Ends body behind := by
  induction s generalizing Ends with
  | nil => exact ⟨[], [], rfl, isUpToFirst_nil⟩
  | cons c s ih =>
    by_cases hnil : Ends []
    · exact ⟨[], c :: s, rfl, fun front rest h _ => (List.append_eq_nil_iff.1 h.symm).2, .inl hnil⟩
    · obtain ⟨body, behind, rfl, hbody⟩ := ih fun body => Ends (c :: body)
      refine ⟨c :: body, behind, rfl, ?_, hbody.ends⟩
      intro front rest h hends
      cases front with
      | nil => exact absurd hends hnil
      | cons d front =>
        obtain ⟨rfl, hbody'⟩ := List.cons.inj h
        exact hbody.first front rest hbody' hends

/-- Every text behind a quote starts with the body of a literal: the part up to the closing quote or,
but for templates, to the first line break that is not escaped. -/
theorem exists_isLiteralBody (quote : Char) (s : List Char) :
    ∃ body behind, s = body ++ behind ∧ IsLiteralBody quote body behind := by
  obtain ⟨body, behind, rfl, hbody⟩ := exists_isUpToFirst
    (fun body => EndsString quote body ∨ quote ≠ '\x60' ∧ EndsString '\n' body) s
  have hfirst : ∀ front rest, body = front ++ rest → EndsString quote front → rest = [] :=
    fun front rest heq h => hbody.first front rest heq (.inl h)
  -- A line break that is not escaped ends what was found, so it is the last character of it.
  have hline : quote ≠ '\x60' → ∀ front rest, body = front ++ '\n' :: rest →
      escapesNext front = false → rest = [] := by
    intro hq front rest heq hfront
    exact hbody.first (front ++ ['\n']) rest (by simp [heq]) (.inr ⟨hq, front, rfl, hfront⟩)
  by_cases hbreak : quote ≠ '\x60' ∧ EndsString '\n' body
  · obtain ⟨hq, front, rfl, hfront⟩ := hbreak
    refine ⟨front, '\n' :: behind, by simp, ?_, ?_, .inr (.inl ⟨hq, hfront, rfl⟩)⟩
    · intro start rest heq hstart
      have := hfirst start (rest ++ ['\n']) (by simp [heq]) hstart
      simp at this
    · intro _ start rest heq
      rw [← Bool.not_eq_false]
      intro hstart
      have := hline hq start (rest ++ ['\n']) (by simp [heq]) hstart
      simp at this
  · refine ⟨body, behind, rfl, hfirst, ?_, ?_⟩
    · intro hq front rest heq
      rw [← Bool.not_eq_false]
      intro hfront
      obtain rfl := hline hq front rest heq hfront
      exact hbreak ⟨hq, front, heq, hfront⟩
    · rcases hbody.ends with (h | h) | h
      · exact .inl h
      · exact absurd h hbreak
      · exact .inr (.inr h)

/-- A text that starts like a comment or a literal starts with a whole one. -/
theorem exists_isCovered {s : List Char} (h : startsCovered s = true) :
    ∃ part rest, s = part ++ rest ∧ part ≠ [] ∧ IsCovered part rest := by
  cases s with
  | nil => simp [startsCovered] at h
  | cons c s =>
    simp only [startsCovered, Bool.or_eq_true, Bool.and_eq_true, beq_iff_eq,
      List.head?_eq_some_iff] at h
    rcases h with ⟨rfl, ⟨s, rfl⟩ | ⟨s, rfl⟩⟩ | hquote
    · have hsplit := List.takeWhile_append_dropWhile (p := (· != '\n')) (l := s)
      refine ⟨'/' :: '/' :: s.takeWhile (· != '\n'), s.dropWhile (· != '\n'), by simp [hsplit],
        by simp, .inl ⟨⟨_, rfl⟩, ?_, ?_⟩⟩
      · intro hmem
        have hmem := List.mem_of_ne_of_mem (by decide) (List.mem_of_ne_of_mem (by decide) hmem)
        simpa using List.mem_takeWhile_imp hmem
      · have hhead := List.head?_dropWhile_not (· != '\n') s
        cases hrest : s.dropWhile (· != '\n') with
        | nil => exact .inr rfl
        | cons c rest =>
          rw [hrest] at hhead
          exact .inl (by simpa using hhead)
    · obtain ⟨body, behind, rfl, hbody⟩ := exists_isUpToFirst EndsComment s
      exact ⟨'/' :: '*' :: body, behind, rfl, by simp, .inr (.inl ⟨body, rfl, hbody⟩)⟩
    · obtain ⟨body, behind, rfl, hbody⟩ := exists_isLiteralBody c s
      exact ⟨c :: body, behind, rfl, by simp, .inr (.inr ⟨c, body, hquote, rfl, hbody⟩)⟩

/-- From every place outside, the end of the text is reached. -/
theorem Outside.exists_end {text before rest : List Char} {depth : Nat}
    (h : Outside text before depth rest) : ∃ before' depth', Outside text before' depth' [] := by
  induction hn : rest.length using Nat.strongRecOn generalizing before depth rest with
  | _ n ih =>
    cases rest with
    | nil => exact ⟨before, depth, h⟩
    | cons c rest =>
      cases hc : startsCovered (c :: rest) with
      | false => exact ih rest.length (by simp [← hn]) (h.code hc) rfl
      | true =>
        obtain ⟨part, more, heq, hne, hpart⟩ := exists_isCovered hc
        have hlength := congrArg List.length heq
        have hpos := List.length_pos_iff.2 hne
        rw [List.length_append] at hlength
        rw [heq] at h
        exact ih more.length (by omega) (h.covered hpart) rfl

/-! ## The scan and the code -/

/-- A text without tags. -/
structure TagFree (text : List Char) : Prop where
  opening : '<' ∉ text
  closing : ¬ ['/', '>'] <:+: text

theorem startsCovered_cons_eq_false {c : Char} {rest : List Char} :
    startsCovered (c :: rest) = false ↔
      ¬ (c = '/' ∧ rest.head? = some '/') ∧ ¬ (c = '/' ∧ rest.head? = some '*') ∧
        isQuote c = false := by
  by_cases hc : c = '/' <;> simp [startsCovered, hc, and_assoc]

theorem startsCovered_of_isOpeningBracket {c : Char} (h : isOpeningBracket c = true)
    (rest : List Char) : startsCovered (c :: rest) = false := by
  have hcases : c = '(' ∨ c = '[' ∨ c = '\x7b' := by simpa [isOpeningBracket] using h
  rw [startsCovered_cons_eq_false]
  rcases hcases with rfl | rfl | rfl <;> exact ⟨by simp, by simp, rfl⟩

/-- The depth leaves the limit at an opening bracket only. -/
theorem of_lt_bracketDepth {depth : Nat} {c : Char} (hdepth : depth ≤ maxDepth)
    (h : maxDepth < bracketDepth depth c) : isOpeningBracket c = true ∧ maxDepth < depth + 1 := by
  unfold bracketDepth at h
  split at h
  · exact ⟨‹_›, h⟩
  · split at h <;> omega

/-- A character of code moves the scan by its bracket alone. -/
theorem step_code (depth : Nat) (prev : Option Char) {c : Char} {rest : List Char}
    (hcode : startsCovered (c :: rest) = false) (hopening : c ≠ '<')
    (hclosing : ¬ (c = '/' ∧ rest.head? = some '>')) :
    ∃ prev', step ⟨.code, depth, prev⟩ c rest.head? = ⟨.code, bracketDepth depth c, prev'⟩ := by
  obtain ⟨hline, hblock, hquote⟩ := startsCovered_cons_eq_false.1 hcode
  have hnoQuote : ¬ ((c = '\'' ∨ c = '"') ∨ c = '\x60') := by
    simpa [isQuote, or_assoc, and_assoc] using hquote
  have hdepth : depthAfter depth prev c rest.head? = bracketDepth depth c := by
    simp [depthAfter, bracketDepth, isOpeningBracket, isClosingBracket, hopening, hclosing,
      or_assoc]
  refine ⟨if isBlank c then prev else some c, ?_⟩
  simp [step, stepCode, hline, hblock, hnoQuote, hopening, hdepth]

/-- At a place outside, either the scan has stopped before it, at a bracket that opens too deep, or
it stands at this place with the depth of the place. -/
theorem Outside.excess_cases {text : List Char} (htext : TagFree text) {before rest : List Char}
    {depth : Nat} (h : Outside text before depth rest) :
    (∃ index, excess text = some index ∧ index < before.length ∧ OpensTooDeep text index) ∨
      depth ≤ maxDepth ∧
        ∃ prev, excess text = scanFrom ⟨.code, depth, prev⟩ before.length rest := by
  induction h with
  | start => exact .inr ⟨Nat.zero_le _, none, excess_eq_scanFrom text⟩
  | @code before rest depth c h hcode ih =>
    rcases ih with ⟨index, hexcess, hlt, hdeep⟩ | ⟨hdepth, prev, hexcess⟩
    · exact .inl ⟨index, hexcess, by rw [List.length_append]; omega, hdeep⟩
    · have heq := h.text_eq
      have hopening : c ≠ '<' := by
        rintro rfl
        exact htext.opening (by simp [heq])
      have hclosing : ¬ (c = '/' ∧ rest.head? = some '>') := by
        rintro ⟨rfl, hhead⟩
        cases rest with
        | nil => simp at hhead
        | cons d rest =>
          obtain rfl : d = '>' := by simpa using hhead
          exact htext.closing ⟨before, rest, by simp [heq]⟩
      -- in a text without tags only brackets change the depth
      obtain ⟨prev', hstep⟩ := step_code depth prev hcode hopening hclosing
      rw [scanFrom, hstep] at hexcess
      by_cases hdeep : bracketDepth depth c > maxDepth
      · simp only [hdeep, if_true] at hexcess
        obtain ⟨hc, hopens⟩ := of_lt_bracketDepth hdepth hdeep
        exact .inl ⟨before.length, hexcess, by simp, before, depth, c, rest, h, hc, rfl, hopens⟩
      · simp only [hdeep, if_false] at hexcess
        exact .inr ⟨Nat.not_lt.1 hdeep, prev', by simpa using hexcess⟩
  | @covered before part rest depth h hpart ih =>
    rcases ih with ⟨index, hexcess, hlt, hdeep⟩ | ⟨hdepth, prev, hexcess⟩
    · exact .inl ⟨index, hexcess, by rw [List.length_append]; omega, hdeep⟩
    · obtain ⟨prev', hscan⟩ := scanFrom_covered hdepth prev hpart before.length
      exact .inr ⟨hdepth, prev', by rw [hexcess, hscan, List.length_append]⟩

/-- Behind a bracket that opens too deep the scan has stopped, at the latest at this bracket. -/
theorem OpensTooDeep.excess {text : List Char} (htext : TagFree text) {index : Nat}
    (h : OpensTooDeep text index) :
    ∃ first, excess text = some first ∧ first ≤ index ∧ OpensTooDeep text first := by
  obtain ⟨before, depth, c, rest, hout, hc, rfl, hdeep⟩ := h
  have hcode := startsCovered_of_isOpeningBracket hc rest
  have hdepth : bracketDepth depth c = depth + 1 := by simp [bracketDepth, hc]
  rcases (hout.code hcode).excess_cases htext with ⟨first, hexcess, hlt, hfirst⟩ | ⟨hle, -⟩
  · rw [List.length_append, List.length_singleton] at hlt
    exact ⟨first, hexcess, by omega, hfirst⟩
  · omega

/-- In a text without tags the scan stops at the first bracket outside of literals and comments at
which more brackets are open than the limit allows; where there is none, it does not stop. -/
theorem excess_eq_firstTooDeep {text : List Char} (htext : TagFree text) :
    (∀ index, excess text = some index ↔
      OpensTooDeep text index ∧ ∀ other, OpensTooDeep text other → index ≤ other) ∧
      (excess text = none ↔ ∀ index, ¬ OpensTooDeep text index) := by
  obtain ⟨before, depth, hend⟩ := (Outside.start : Outside text [] 0 text).exists_end
  -- the text is walked to its end, so a bracket that the scan stops at was met on the way
  have hstops : ∀ {index}, excess text = some index → OpensTooDeep text index := by
    intro index hindex
    rcases hend.excess_cases htext with ⟨first, hexcess, -, hdeep⟩ | ⟨-, prev, hexcess⟩
    · rw [hindex] at hexcess
      cases hexcess
      exact hdeep
    · rw [hindex] at hexcess
      cases hexcess
  refine ⟨fun index => ⟨fun hindex => ⟨hstops hindex, fun other hother => ?_⟩, ?_⟩, ?_, ?_⟩
  · obtain ⟨first, hexcess, hle, -⟩ := hother.excess htext
    rw [hindex] at hexcess
    cases hexcess
    exact hle
  · rintro ⟨hdeep, hleast⟩
    obtain ⟨first, hexcess, hle, hfirst⟩ := hdeep.excess htext
    rw [hexcess, Nat.le_antisymm hle (hleast first hfirst)]
  · intro hnone index hdeep
    obtain ⟨first, hexcess, -⟩ := hdeep.excess htext
    rw [hnone] at hexcess
    cases hexcess
  · intro hnever
    cases hexcess : excess text with
    | none => rfl
    | some index => exact absurd (hstops hexcess) (hnever index)

/-- One bracket more than the limit, behind brackets in a string with an escaped quote, in a string
that the line breaks off, in a template and in comments. -/
def bracketSample : List Char :=
  "'(\\'(' \"(\n\x60(\n(\x60 /*(/*/ //(\n".toList ++ List.replicate (maxDepth + 1) '('

theorem excess_eq_firstTooDeep_sample :
    TagFree bracketSample ∧ excess bracketSample = some 155 ∧ OpensTooDeep bracketSample 155 ∧
      ∀ other, OpensTooDeep bracketSample other → 155 ≤ other := by
  have hbare : bracketSample.contains '<' = false ∧ bracketSample.contains '>' = false := by decide
  simp only [List.contains_eq_mem, decide_eq_false_iff_not] at hbare
  have hfree : TagFree bracketSample :=
    ⟨hbare.1, fun hclosing => hbare.2 (hclosing.subset (by simp))⟩
  have hexcess : excess bracketSample = some 155 := by decide +kernel
  exact ⟨hfree, hexcess, ((excess_eq_firstTooDeep hfree).1 155).1 hexcess⟩

end TsxCompiler.Nesting

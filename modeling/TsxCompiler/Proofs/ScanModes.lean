import TsxCompiler.Source.Nesting

/-!
# The nesting scan character by character

The scan jumps over strings, comments and the marks of closing tags. A machine that reads one
character at a time, and knows what it is inside of, comes to the same places: what a jump passes
over changes neither the depth nor the character that was seen last (`excess_eq_scanFrom`). Texts
are put together character by character, so what the scan makes of them is proved of the machine.
-/

namespace TsxCompiler.Nesting

open Text

/-- What the scan is inside of. -/
inductive Mode where
  | code
  | lineComment
  /-- The star of an opening comment mark. -/
  | blockOpen
  | blockComment
  /-- The slash of a closing comment mark. -/
  | blockClose
  | quoted (quote : Char)
  /-- The character behind a backslash. -/
  | escaped (quote : Char)
  /-- The slash of a closing tag. -/
  | tagClose
deriving DecidableEq, Repr

/-- What the scan knows when it comes to a character. -/
structure State where
  mode : Mode
  depth : Nat
  /-- The last character of code that was not a blank; for a string, its quote. -/
  prev : Option Char
deriving DecidableEq, Repr

/-- The scan before the first character. -/
def State.start : State := ⟨.code, 0, none⟩

/-- The scan after a character of code, given the one behind it. -/
def stepCode (s : State) (c : Char) (next : Option Char) : State :=
  if c = '/' && next = some '/' then { s with mode := .lineComment }
  else if c = '/' && next = some '*' then { s with mode := .blockOpen }
  else if c = '\'' || c = '"' || c = '\x60' then { s with mode := .quoted c, prev := some c }
  else if c = '<' && next = some '/' then { s with mode := .tagClose, depth := s.depth - 1 }
  else
    { s with
      depth := depthAfter s.depth s.prev c next
      prev := if isBlank c then s.prev else some c }

/-- The scan after one character, given the one behind it. A line break ends a line comment and a
quoted string, so that the apostrophe of a text cannot hide the rest of it. -/
def step (s : State) (c : Char) (next : Option Char) : State :=
  match s.mode with
  | .code => stepCode s c next
  | .lineComment => if c = '\n' then { s with mode := .code } else s
  | .blockOpen => { s with mode := .blockComment }
  | .blockComment => if c = '*' && next = some '/' then { s with mode := .blockClose } else s
  | .blockClose => { s with mode := .code }
  | .quoted quote =>
    if c = '\\' then { s with mode := .escaped quote }
    else if c = quote || (c = '\n' && quote != '\x60') then { s with mode := .code }
    else s
  | .escaped quote => { s with mode := .quoted quote }
  | .tagClose => { s with mode := .code }

/-- Goes on from a state; `index` characters have been read. -/
def scanFrom (s : State) (index : Nat) : List Char → Option Nat
  | [] => none
  | c :: rest =>
    let after := step s c rest.head?
    if after.depth > maxDepth then some index else scanFrom after (index + 1) rest

/-! ## Jumps -/

variable {chars : Array Char} {depth : Nat} {prev : Option Char} {i : Nat}

theorem drop_eq_cons (h : i < chars.size) :
    chars.toList.drop i = chars[i] :: chars.toList.drop (i + 1) := by
  rw [List.drop_eq_getElem_cons (by simpa using h)]
  simp

theorem head?_drop_succ : (chars.toList.drop (i + 1)).head? = chars[i + 1]? := by
  rw [List.head?_drop]
  simp

theorem drop_eq_nil (h : chars.size ≤ i) : chars.toList.drop i = [] :=
  List.drop_eq_nil_of_le (by simpa using h)

/-- One step of the machine inside of a text. -/
theorem scanFrom_drop {s after : State} (h : i < chars.size)
    (hstep : step s chars[i] chars[i + 1]? = after) (hdepth : after.depth ≤ maxDepth) :
    scanFrom s i (chars.toList.drop i) = scanFrom after (i + 1) (chars.toList.drop (i + 1)) := by
  rw [drop_eq_cons h, scanFrom, head?_drop_succ, hstep]
  simp [Nat.not_lt.2 hdepth]

/-- A character that only ends what the machine is inside of. -/
theorem scanFrom_passed {mode after : Mode} (h : i < chars.size)
    (hstep : ∀ c next, step ⟨mode, depth, prev⟩ c next = ⟨after, depth, prev⟩)
    (hdepth : depth ≤ maxDepth) :
    scanFrom ⟨mode, depth, prev⟩ i (chars.toList.drop i) =
      scanFrom ⟨after, depth, prev⟩ (i + 1) (chars.toList.drop (i + 1)) :=
  scanFrom_drop h (hstep _ _) hdepth

theorem scanFrom_nil (s : State) (h : chars.size ≤ i) :
    scanFrom s i (chars.toList.drop i) = none := by
  rw [drop_eq_nil h, scanFrom]

theorem step_newline (next : Option Char) :
    step ⟨.code, depth, prev⟩ '\n' next = ⟨.code, depth, prev⟩ := by
  simp [step, stepCode, depthAfter, isBlank, inRanges]

/-- A line comment goes on to the line break. -/
theorem scanFrom_seekBreak (hdepth : depth ≤ maxDepth) (i : Nat) :
    scanFrom ⟨.lineComment, depth, prev⟩ i (chars.toList.drop i) =
      scanFrom ⟨.code, depth, prev⟩ (seek chars (fun c _ => c == '\n') i)
        (chars.toList.drop (seek chars (fun c _ => c == '\n') i)) := by
  fun_induction seek chars (fun c _ => c == '\n') i with
  | case1 i h hstop =>
    -- The machine reads the line break here, the scan does so as code.
    have hbreak : chars[i] = '\n' := by simpa using hstop
    have hends : step ⟨.lineComment, depth, prev⟩ chars[i] chars[i + 1]? = ⟨.code, depth, prev⟩ := by
      simp [step, hbreak]
    rw [scanFrom_drop h hends hdepth, scanFrom_drop h (hbreak ▸ step_newline _) hdepth]
  | case2 i h hstop ih =>
    have hgoes : chars[i] ≠ '\n' := by simpa using hstop
    have hstays : step ⟨.lineComment, depth, prev⟩ chars[i] chars[i + 1]? =
        ⟨.lineComment, depth, prev⟩ := by
      simp [step, hgoes]
    rw [scanFrom_drop h hstays hdepth, ih]
  | case3 i h => rw [scanFrom_nil _ (by omega), scanFrom_nil _ (by omega)]

/-- A comment in marks goes on to the end of the closing one, which may lie behind the text. -/
theorem scanFrom_seekMark (hdepth : depth ≤ maxDepth) (i : Nat) :
    scanFrom ⟨.blockComment, depth, prev⟩ i (chars.toList.drop i) =
      scanFrom ⟨.code, depth, prev⟩ (seek chars (fun c next => c == '*' && next == some '/') i + 2)
        (chars.toList.drop (seek chars (fun c next => c == '*' && next == some '/') i + 2)) := by
  fun_induction seek chars (fun c next => c == '*' && next == some '/') i with
  | case1 i h hstop =>
    have hmark : chars[i] = '*' ∧ chars[i + 1]? = some '/' := by simpa using hstop
    have hcloses : step ⟨.blockComment, depth, prev⟩ chars[i] chars[i + 1]? =
        ⟨.blockClose, depth, prev⟩ := by
      simp [step, hmark]
    obtain ⟨hnext, -⟩ := Array.getElem?_eq_some_iff.1 hmark.2
    rw [scanFrom_drop h hcloses hdepth, scanFrom_passed hnext (fun _ _ => rfl) hdepth]
  | case2 i h hstop ih =>
    have hstays : step ⟨.blockComment, depth, prev⟩ chars[i] chars[i + 1]? =
        ⟨.blockComment, depth, prev⟩ := by
      simp_all [step]
    rw [scanFrom_drop h hstays hdepth, ih]
  | case3 i h => rw [scanFrom_nil _ (by omega), scanFrom_nil _ (by omega)]

/-- A string goes on to its quote or, if it is no template, to the end of the line. -/
theorem scanFrom_skipString (quote : Char) (hdepth : depth ≤ maxDepth) (i : Nat) :
    scanFrom ⟨.quoted quote, depth, prev⟩ i (chars.toList.drop i) =
      scanFrom ⟨.code, depth, prev⟩ (skipString chars quote i)
        (chars.toList.drop (skipString chars quote i)) := by
  fun_induction skipString chars quote i with
  | case1 i h hslash ih =>
    have hescapes : step ⟨.quoted quote, depth, prev⟩ chars[i] chars[i + 1]? =
        ⟨.escaped quote, depth, prev⟩ := by
      simp [step, hslash]
    rw [scanFrom_drop h hescapes hdepth, ← ih]
    -- Nothing has to stand behind the backslash.
    by_cases hnext : i + 1 < chars.size
    · rw [scanFrom_passed hnext (fun _ _ => rfl) hdepth]
    · rw [scanFrom_nil _ (by omega), scanFrom_nil _ (by omega)]
  | case2 i h hslash hbreak =>
    have hbreak : chars[i] = '\n' ∧ quote ≠ '\x60' := by simpa using hbreak
    have hends : step ⟨.quoted quote, depth, prev⟩ chars[i] chars[i + 1]? = ⟨.code, depth, prev⟩ := by
      simp [step, hbreak]
    rw [scanFrom_drop h hends hdepth, scanFrom_drop h (hbreak.1 ▸ step_newline _) hdepth]
  | case3 i h hslash _ hquote =>
    have hends : step ⟨.quoted quote, depth, prev⟩ chars[i] chars[i + 1]? = ⟨.code, depth, prev⟩ := by
      simp_all [step]
    rw [scanFrom_drop h hends hdepth]
  | case4 i h hslash hbreak hquote ih =>
    have hstays : step ⟨.quoted quote, depth, prev⟩ chars[i] chars[i + 1]? =
        ⟨.quoted quote, depth, prev⟩ := by
      simp_all [step]
    rw [scanFrom_drop h hstays hdepth, ih]
  | case5 i h => rw [scanFrom_nil _ (by omega), scanFrom_nil _ (Nat.le_refl _)]

/-! ## The whole scan -/

/-- From code on, the scan with jumps and the machine stop at the same place. -/
theorem scan_eq_scanFrom (hdepth : depth ≤ maxDepth) :
    scan chars depth prev i = scanFrom ⟨.code, depth, prev⟩ i (chars.toList.drop i) := by
  fun_induction scan chars depth prev i with
  -- a line comment, a block comment, a string and a closing tag are each passed at once
  | case1 depth prev i h hline ih =>
    have hstep : step ⟨.code, depth, prev⟩ chars[i] chars[i + 1]? = ⟨.lineComment, depth, prev⟩ := by
      show stepCode _ _ _ = _
      rw [stepCode, if_pos hline]
    have hseek : seek chars (fun c _ => c == '\n') i = seek chars (fun c _ => c == '\n') (i + 1) := by
      rw [seek, dif_pos h, if_neg (by simp_all)]
    rw [ih hdepth, scanFrom_drop h hstep hdepth, scanFrom_seekBreak hdepth, hseek]
  | case2 depth prev i h hline hblock ih =>
    have hstep : step ⟨.code, depth, prev⟩ chars[i] chars[i + 1]? = ⟨.blockOpen, depth, prev⟩ := by
      show stepCode _ _ _ = _
      rw [stepCode, if_neg hline, if_pos hblock]
    have hnext : i + 1 < chars.size := by
      have hstar : chars[i + 1]? = some '*' := by simp_all
      exact (Array.getElem?_eq_some_iff.1 hstar).1
    rw [ih hdepth, scanFrom_drop h hstep hdepth, scanFrom_passed hnext (fun _ _ => rfl) hdepth,
      scanFrom_seekMark hdepth]
  | case3 depth prev i h hline hblock hquote ih =>
    have hstep : step ⟨.code, depth, prev⟩ chars[i] chars[i + 1]? =
        ⟨.quoted chars[i], depth, some chars[i]⟩ := by
      show stepCode _ _ _ = _
      rw [stepCode, if_neg hline, if_neg hblock, if_pos hquote]
    rw [ih hdepth, scanFrom_drop h hstep hdepth, scanFrom_skipString _ hdepth]
  | case4 depth prev i h hline hblock hquote htag ih =>
    have hstep : step ⟨.code, depth, prev⟩ chars[i] chars[i + 1]? = ⟨.tagClose, depth - 1, prev⟩ := by
      show stepCode _ _ _ = _
      rw [stepCode, if_neg hline, if_neg hblock, if_neg hquote, if_pos htag]
    have hnext : i + 1 < chars.size := by
      have hslash : chars[i + 1]? = some '/' := by simp_all
      exact (Array.getElem?_eq_some_iff.1 hslash).1
    have hlower : depth - 1 ≤ maxDepth := by omega
    rw [ih hlower, scanFrom_drop h hstep hlower, scanFrom_passed hnext (fun _ _ => rfl) hlower]
  -- a bracket too deep is reported at once by both; any other character is one step of code
  | case5 depth prev i h hline hblock hquote htag hdeep =>
    have hstep : (step ⟨.code, depth, prev⟩ chars[i] chars[i + 1]?).depth > maxDepth := by
      show (stepCode _ _ _).depth > _
      rwa [stepCode, if_neg hline, if_neg hblock, if_neg hquote, if_neg htag]
    rw [drop_eq_cons h, scanFrom, head?_drop_succ, if_pos hstep]
  | case6 depth prev i h hline hblock hquote htag hdeep ih =>
    have hstep : step ⟨.code, depth, prev⟩ chars[i] chars[i + 1]? =
        ⟨.code, depthAfter depth prev chars[i] chars[i + 1]?,
          if isBlank chars[i] then prev else some chars[i]⟩ := by
      show stepCode _ _ _ = _
      rw [stepCode, if_neg hline, if_neg hblock, if_neg hquote, if_neg htag]
    rw [scanFrom_drop h hstep (Nat.not_lt.1 hdeep)]
    exact ih (Nat.not_lt.1 hdeep)
  | case7 depth prev i h => rw [scanFrom_nil _ (by omega)]

/-- The machine finds the first bracket or tag that opens one level too many. -/
theorem excess_eq_scanFrom (text : List Char) : excess text = scanFrom .start 0 text := by
  rw [excess, scan_eq_scanFrom (Nat.zero_le _)]
  simp [State.start]

end TsxCompiler.Nesting

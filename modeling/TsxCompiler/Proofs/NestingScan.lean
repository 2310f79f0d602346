import TsxCompiler.Proofs.Primaries
import TsxCompiler.Proofs.ScanModes

/-!
# What the nesting scan sees of a text

A word moves the scan on without a change of depth, and leaves it behind a character that no tag
follows. Of two scans of one text the one that starts lower stays lower (`scanFrom_below`), also if
it starts behind such a character and the other does not.
-/

namespace TsxCompiler

def isOpeningBracket (c : Char) : Bool := ['(', '[', '\x7b'].contains c

namespace Nesting

open Text Grammar

/-! ## Words -/

theorem scanFrom_cons {s after : State} {c : Char} {rest : List Char}
    (h : step s c rest.head? = after) (hdepth : after.depth ≤ maxDepth) (index : Nat) :
    scanFrom s index (c :: rest) = scanFrom after (index + 1) rest := by
  rw [scanFrom, h]
  simp [Nat.not_lt.2 hdepth]

/-- A word changes nothing but the character that was seen last. -/
theorem scanFrom_word {w : List Char} (hw : w.all isWordPart = true) {s : State}
    (hmode : s.mode = .code) (hdepth : s.depth ≤ maxDepth) (rest : List Char) (index : Nat) :
    scanFrom s index (w ++ rest) =
      scanFrom { s with prev := w.getLast?.or s.prev } (index + w.length) rest := by
  induction w generalizing s index with
  | nil => simp
  | cons c w ih =>
    simp only [List.all_cons, Bool.and_eq_true] at hw
    have hne : ∀ x, isWordPart x = false → c ≠ x := by
      rintro x hx rfl
      simp [hw.1] at hx
    have hblank : isBlank c = false := by
      rw [← Bool.not_eq_true]
      intro h
      simp [isWordPart_of_isBlank h] at hw
    have hstep : step s c (w ++ rest).head? = { s with prev := some c } := by
      simp [step, hmode, stepCode, depthAfter, hblank, hne '/' (by decide), hne '\'' (by decide),
        hne '"' (by decide), hne '\x60' (by decide), hne '<' (by decide), hne '(' (by decide),
        hne '[' (by decide), hne '\x7b' (by decide), hne ')' (by decide), hne ']' (by decide),
        hne '\x7d' (by decide)]
    rw [List.cons_append, scanFrom_cons hstep hdepth,
      ih hw.2 (s := { s with prev := some c }) hmode hdepth]
    congr 1
    · cases w <;> simp [List.getLast?_cons]
    · simp only [List.length_cons]
      omega

/-- A blank changes nothing. -/
theorem scanFrom_blank {s : State} (hmode : s.mode = .code) (hdepth : s.depth ≤ maxDepth)
    (rest : List Char) (index : Nat) :
    scanFrom s index (' ' :: rest) = scanFrom s (index + 1) rest := by
  obtain ⟨mode, depth, prev⟩ := s
  obtain rfl : mode = .code := hmode
  refine scanFrom_cons ?_ hdepth index
  simp [step, stepCode, depthAfter, show isBlank ' ' = true by decide]

/-- Behind a word no tag is counted. -/
theorem opensTag_word {p : Char} (hp : isWordPart p = true) (next : Char) :
    opensTag (some p) next = false := by
  have hall : ("([\x7b,=>?:;&|!".toList.all fun x => !isWordPart x) = true := by decide
  rw [List.all_eq_true] at hall
  simp only [opensTag, Bool.and_eq_false_iff, List.contains_eq_mem, decide_eq_false_iff_not]
  left
  intro hmem
  simpa [hp] using hall p hmem

/-- So no tag is counted where a whole word was seen last. -/
theorem opensTag_identifier {word : String} (h : isIdentifier word = true) (before : Option Char)
    (next : Char) : opensTag (word.toList.getLast?.or before) next = false := by
  obtain ⟨c, cs, hc, -⟩ := exists_of_isIdentifier h
  have hall := all_of_isIdentifier h
  rw [List.all_eq_true] at hall
  have hne : word.toList ≠ [] := by simp [hc]
  rw [List.getLast?_eq_some_getLast hne, Option.some_or]
  exact opensTag_word (hall _ (List.getLast_mem hne)) next

/-! ## Two scans of one text -/

/-- A scan is in the same mode as another, not deeper, and counts no tag that the other does not. -/
structure State.Below (s t : State) : Prop where
  mode : s.mode = t.mode
  depth : s.depth ≤ t.depth
  prev : s.prev = t.prev ∨ ∀ next, opensTag s.prev next = false

variable {s t : State}

/-- A lower scan takes no more tags for opening ones, and counts the same brackets. -/
theorem depthAfter_below (h : s.Below t) (c : Char) (next : Option Char) :
    depthAfter s.depth s.prev c next ≤ depthAfter t.depth t.prev c next := by
  have hdepth := h.depth
  have htag : next.any (opensTag s.prev) = true → next.any (opensTag t.prev) = true := by
    intro hnext
    rcases h.prev with hprev | hnone
    · rwa [← hprev]
    · obtain ⟨x, -, hx⟩ := (Option.any_eq_true _ _).1 hnext
      simp [hnone] at hx
  unfold depthAfter
  split
  · omega
  split
  · omega
  by_cases hs : (c = '<' && next.any (opensTag s.prev)) = true
  · have ht : (c = '<' && next.any (opensTag t.prev)) = true := by
      rw [Bool.and_eq_true] at hs ⊢
      exact ⟨hs.1, htag hs.2⟩
    rw [if_pos hs, if_pos ht]
    omega
  · rw [if_neg hs]
    split <;> omega

theorem stepCode_below (h : s.Below t) (c : Char) (next : Option Char) :
    (stepCode s c next).Below (stepCode t c next) := by
  unfold stepCode
  split
  · exact ⟨rfl, h.depth, h.prev⟩
  split
  · exact ⟨rfl, h.depth, h.prev⟩
  split
  · exact ⟨rfl, h.depth, .inl rfl⟩
  split
  · exact ⟨rfl, Nat.sub_le_sub_right h.depth 1, h.prev⟩
  refine ⟨h.mode, depthAfter_below h c next, ?_⟩
  dsimp only
  split
  · exact h.prev
  · exact .inl rfl

/-- Lower scans stay lower: the modes change alike, as the depth has no part in them. -/
theorem step_below (h : s.Below t) (c : Char) (next : Option Char) :
    (step s c next).Below (step t c next) := by
  have hmode := h.mode
  unfold step
  rw [← hmode]
  cases hm : s.mode with
  | code => exact stepCode_below h c next
  | blockOpen | blockClose | escaped quote | tagClose => exact ⟨rfl, h.depth, h.prev⟩
  | lineComment | blockComment =>
    dsimp only
    split
    · exact ⟨rfl, h.depth, h.prev⟩
    · exact h
  | quoted quote =>
    dsimp only
    split
    · exact ⟨rfl, h.depth, h.prev⟩
    split
    · exact ⟨rfl, h.depth, h.prev⟩
    · exact h

/-- Where the upper scan finds nothing too deep, the lower one finds nothing either. -/
theorem scanFrom_below (h : s.Below t) {text : List Char} {index : Nat}
    (ht : scanFrom t index text = none) (index' : Nat) : scanFrom s index' text = none := by
  induction text generalizing s t index index' with
  | nil => rfl
  | cons c text ih =>
    have hstep := step_below h c text.head?
    rw [scanFrom] at ht
    split at ht
    · cases ht
    · rename_i hdepth
      have hle := hstep.depth
      rw [scanFrom_cons rfl (by omega)]
      exact ih hstep ht _

end Nesting

end TsxCompiler

import Mathlib.Data.List.Induction
import TsxCompiler.Text.Position

/-!
# Lines and columns

A position is looked up by halving the table of line starts. Read from left to right it is simpler:
each character moves the position on by one column or to the next line (`Position.advance`). The two
agree (`LineIndex.position_eq`). What is below the looked-up offset in the table belongs to the text
before the place and what is above it to the text behind (`lineStarts_split`), and halving finds
where the one turns into the other (`narrow_eq`), whatever the entries are.

* `LineIndex.position_eq` — the search against reading from left to right.
* `Position.ofOffset_line`, `Position.ofOffset_column` — line and column as counts of characters.
* `Position.ofOffset_lt` — positions follow the order of the offsets.
-/

namespace TsxCompiler.Text

/-! ## Reading from left to right -/

namespace Position

/-- The position of the first character of a text. -/
def start : Position := ⟨1, 1⟩

/-- The position after reading one more character: a line break opens the next line. -/
def advance (p : Position) (c : Char) : Position :=
  if c = '\n' then ⟨p.line + 1, 1⟩ else ⟨p.line, p.column + 1⟩

/-- The position of the character that has `offset` characters before it. -/
def ofOffset (text : List Char) (offset : Nat) : Position :=
  (text.take offset).foldl advance start

/-- Positions in the order of reading: by line, and by column on one line. -/
instance : LT Position where
  lt p q := p.line < q.line ∨ (p.line = q.line ∧ p.column < q.column)

theorem lt_iff {p q : Position} :
    p < q ↔ p.line < q.line ∨ (p.line = q.line ∧ p.column < q.column) := Iff.rfl

theorem lt_trans {p q r : Position} (hpq : p < q) (hqr : q < r) : p < r := by
  rw [lt_iff] at *
  omega

theorem lt_irrefl (p : Position) : ¬ p < p := by
  rw [lt_iff]
  omega

/-- One more character moves a position on. -/
theorem lt_advance (p : Position) (c : Char) : p < p.advance c := by
  rw [lt_iff, advance]
  split
  · exact .inl (Nat.lt_succ_self p.line)
  · exact .inr ⟨rfl, Nat.lt_succ_self p.column⟩

theorem ofOffset_succ {text : List Char} {offset : Nat} (h : offset < text.length) :
    ofOffset text (offset + 1) = (ofOffset text offset).advance text[offset] := by
  rw [ofOffset, List.take_succ_eq_append_getElem h, List.foldl_append]
  rfl

/-- Of two offsets of a text the smaller one has the earlier position. -/
theorem ofOffset_lt {text : List Char} {a b : Nat} (hab : a < b) (hb : b ≤ text.length) :
    ofOffset text a < ofOffset text b := by
  induction b with
  | zero => omega
  | succ b ih =>
    have hstep : ofOffset text b < ofOffset text (b + 1) := by
      rw [ofOffset_succ (by omega)]
      exact lt_advance _ _
    rcases Nat.lt_succ_iff_lt_or_eq.1 hab with hlt | rfl
    · exact lt_trans (ih hlt (by omega)) hstep
    · exact hstep

/-- So a position of a text belongs to one offset only. -/
theorem ofOffset_inj {text : List Char} {a b : Nat} (ha : a ≤ text.length) (hb : b ≤ text.length)
    (h : ofOffset text a = ofOffset text b) : a = b := by
  rcases Nat.lt_trichotomy a b with hlt | heq | hlt
  · exact absurd (h ▸ ofOffset_lt hlt hb) (lt_irrefl _)
  · exact heq
  · exact absurd (h ▸ ofOffset_lt hlt ha) (lt_irrefl _)

theorem line_foldl_advance (p : Position) (s : List Char) :
    (s.foldl advance p).line = p.line + s.count '\n' := by
  induction s generalizing p with
  | nil => rfl
  | cons c s ih =>
    rw [List.foldl_cons, ih, advance, List.count_cons]
    by_cases hc : c = '\n'
    · simp only [hc, if_true, beq_self_eq_true]
      omega
    · simp [hc]

/-- The line is told by the line breaks before the place. -/
theorem ofOffset_line (text : List Char) (offset : Nat) :
    (ofOffset text offset).line = 1 + (text.take offset).count '\n' :=
  line_foldl_advance start (text.take offset)

/-- The column is told by the characters behind the last line break before the place. -/
theorem ofOffset_column (text : List Char) (offset : Nat) :
    (ofOffset text offset).column =
      1 + ((text.take offset).reverse.takeWhile (· != '\n')).length := by
  suffices h : ∀ s : List Char, (s.reverse.foldr (fun c p => advance p c) start).column =
      1 + (s.reverse.takeWhile (· != '\n')).length by
    rw [ofOffset, ← List.foldr_reverse]
    exact h _
  -- Seen from its end, a text starts with its last line.
  intro s
  generalize s.reverse = t
  induction t with
  | nil => rfl
  | cons c t ih =>
    rw [List.foldr_cons, advance, List.takeWhile_cons]
    by_cases hc : c = '\n'
    · simp [hc]
    · simp only [hc, if_false, ih, bne_iff_ne, ne_eq, not_false_eq_true, if_true, List.length_cons]
      omega

end Position

/-! ## The search -/

/-- The first `n` entries of the table, and only those, are at most `key`. -/
def TurnsAt (xs : Array Nat) (key n : Nat) : Prop :=
  ∀ j (hj : j < xs.size), xs[j] ≤ key ↔ j < n

theorem turnsAt_append {xs : Array Nat} {ys zs : List Nat} {key : Nat} (h : xs.toList = ys ++ zs)
    (hys : ∀ k ∈ ys, k ≤ key) (hzs : ∀ k ∈ zs, key < k) : TurnsAt xs key ys.length := by
  obtain ⟨entries⟩ := xs
  obtain rfl : entries = ys ++ zs := h
  intro j hj
  rw [List.getElem_toArray, List.getElem_append]
  split
  · rename_i hlt
    exact iff_of_true (hys _ (List.getElem_mem hlt)) hlt
  · rename_i hge
    exact iff_of_false (Nat.not_le.2 (hzs _ (List.getElem_mem _))) hge

/-- Halving ends at the last entry that is at most `key`: it starts from one of those and never
drops the last of them from the entries that are left. -/
theorem narrow_eq {xs : Array Nat} {key n : Nat} (hturns : TurnsAt xs key n) (base : Fin xs.size)
    (size : Nat) (h : base + size ≤ xs.size) (hbase : base < n) (hlast : n ≤ base + size) :
    (narrow xs key base size h).val + 1 = n := by
  fun_induction narrow xs key base size h with
  | case1 base size h hsize hmid hlt ih =>
    have hge : ¬ base + size / 2 < n := fun hmem =>
      absurd ((hturns _ hmid).2 hmem) (Nat.not_le.2 hlt)
    exact ih hbase (by omega)
  | case2 base size h hsize hmid hlt ih =>
    have hmem := (hturns _ hmid).1 (Nat.not_lt.1 hlt)
    exact ih hmem (by dsimp only; omega)
  | case3 base size h hsize =>
    omega

/-- Found or not, the search tells the last line start that is at most `key`. -/
theorem LineIndex.line_eq {index : LineIndex} {key n : Nat} (hpos : 0 < n)
    (hsize : n ≤ index.lineStarts.size) (hturns : TurnsAt index.lineStarts key n) :
    index.line key + 1 = n := by
  obtain ⟨xs⟩ := index
  dsimp only at hsize hturns
  have hxs : 0 < xs.size := by omega
  have hbase := narrow_eq hturns ⟨0, hxs⟩ xs.size (by simp) hpos (by simpa using hsize)
  have hle := (hturns _ (narrow xs key ⟨0, hxs⟩ xs.size (by simp)).isLt).2 (by omega)
  unfold line binarySearch
  rw [dif_pos hxs]
  dsimp only
  by_cases heq : xs[narrow xs key ⟨0, hxs⟩ xs.size (by simp)] = key
  · rw [if_pos heq]
    exact hbase
  · have hlt : xs[narrow xs key ⟨0, hxs⟩ xs.size (by simp)] < key := Nat.lt_of_le_of_ne hle heq
    rw [if_neg heq, if_pos hlt]
    exact hbase

/-! ## The table -/

namespace LineIndex

/-- The offsets behind the line breaks of a text with `n` characters before it. -/
def breaks (n : Nat) (text : List Char) : List Nat :=
  (text.zipIdx n).filterMap fun (c, offset) => if c = '\n' then some (offset + 1) else none

theorem breaks_append (n : Nat) (s t : List Char) :
    breaks n (s ++ t) = breaks n s ++ breaks (n + s.length) t := by
  simp [breaks, List.zipIdx_append, List.filterMap_append]

theorem breaks_singleton (n : Nat) (c : Char) :
    breaks n [c] = if c = '\n' then [n + 1] else [] := by
  by_cases hc : c = '\n' <;> simp [breaks, hc]

theorem bounds_of_mem_breaks {n k : Nat} {text : List Char} (h : k ∈ breaks n text) :
    n < k ∧ k ≤ n + text.length := by
  obtain ⟨⟨c, offset⟩, hmem, hk⟩ := List.mem_filterMap.1 h
  have hle := List.le_snd_of_mem_zipIdx hmem
  have hlt := List.snd_lt_add_of_mem_zipIdx hmem
  dsimp only at hk hle hlt
  split at hk
  · cases hk
    omega
  · cases hk

theorem lineStarts_ofText (text : List Char) :
    (ofText text).lineStarts.toList = 0 :: breaks 0 text := by
  suffices h : ∀ (row : List (Char × Nat)) (starts : Array Nat),
      (row.foldl (fun starts (c, offset) =>
        if c = '\n' then starts.push (offset + 1) else starts) starts).toList =
      starts.toList ++ row.filterMap fun (c, offset) =>
        if c = '\n' then some (offset + 1) else none from h text.zipIdx #[0]
  intro row
  induction row with
  | nil => simp
  | cons entry row ih =>
    intro starts
    rw [List.foldl_cons, ih, List.filterMap_cons]
    by_cases hc : entry.1 = '\n' <;> simp [hc]

/-- The line starts up to a place are those of the text before it, and the others are further on. -/
theorem lineStarts_split {text : List Char} {offset : Nat} (h : offset ≤ text.length) :
    (ofText text).lineStarts.toList =
      (0 :: breaks 0 (text.take offset)) ++ breaks offset (text.drop offset) := by
  have hbreaks := breaks_append 0 (text.take offset) (text.drop offset)
  rw [List.take_append_drop, List.length_take_of_le h, Nat.zero_add] at hbreaks
  rw [lineStarts_ofText, hbreaks, List.cons_append]

/-- Reading from left to right counts the line starts and measures from the last of them. -/
theorem foldl_advance_eq (s : List Char) :
    s.foldl Position.advance Position.start =
      ⟨(breaks 0 s).length + 1, s.length - (breaks 0 s).getLastD 0 + 1⟩ := by
  induction s using List.reverseRecOn with
  | nil => rfl
  | append_singleton s c ih =>
    have hlast : (breaks 0 s).getLastD 0 ≤ s.length := by
      cases hb : (breaks 0 s).getLast? with
      | none => simp [List.getLastD_eq_getLast?, hb]
      | some k =>
        have := (bounds_of_mem_breaks (List.mem_of_getLast? hb)).2
        simp only [List.getLastD_eq_getLast?, hb, Option.getD_some]
        omega
    rw [List.foldl_append, ih, breaks_append, breaks_singleton]
    by_cases hc : c = '\n'
    · simp [Position.advance, hc]
    · simp only [List.foldl_cons, List.foldl_nil, Position.advance, hc, if_false, List.append_nil,
        List.length_append, List.length_cons, List.length_nil, Position.mk.injEq, true_and]
      omega

/-- The position that is looked up is the one that reading from left to right arrives at. -/
theorem position_eq {text : List Char} {offset : Nat} (h : offset ≤ text.length) :
    (ofText text).position offset = Position.ofOffset text offset := by
  have hsplit := lineStarts_split h
  have hbefore : ∀ k ∈ 0 :: breaks 0 (text.take offset), k ≤ offset := by
    intro k hk
    rcases List.mem_cons.1 hk with rfl | hk
    · omega
    · have := (bounds_of_mem_breaks hk).2
      rw [List.length_take_of_le h] at this
      omega
  have hbehind : ∀ k ∈ breaks offset (text.drop offset), offset < k :=
    fun k hk => (bounds_of_mem_breaks hk).1
  have hturns := turnsAt_append hsplit hbefore hbehind
  have hsize := congrArg List.length hsplit
  rw [Array.length_toList, List.length_append] at hsize
  have hline := line_eq (by simp) (by omega) hturns
  have hlast : (ofText text).lineStarts.getD (breaks 0 (text.take offset)).length 0 =
      (breaks 0 (text.take offset)).getLastD 0 := by
    have hget := List.getLast?_eq_getElem? (l := 0 :: breaks 0 (text.take offset))
    rw [List.getLast?_cons, List.length_cons, Nat.add_sub_cancel] at hget
    rw [Array.getD_eq_getD_getElem?, ← Array.getElem?_toList, hsplit,
      List.getElem?_append_left (by simp), ← hget, List.getLastD_eq_getLast?, Option.getD_some]
  rw [List.length_cons, Nat.add_right_cancel_iff] at hline
  rw [position, hline, hlast, Position.ofOffset, foldl_advance_eq, List.length_take_of_le h]

end LineIndex

end TsxCompiler.Text

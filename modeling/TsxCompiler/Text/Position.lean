/-!
# Positions in a text

A diagnostic names a place by line and column, both counted from one, and by the number of
characters before it. The lines of a text start at offsets that are found once; the line of a place
is looked up among them.
-/

namespace TsxCompiler.Text

/-- A line and a column, both counted from one. -/
structure Position where
  line : Nat
  column : Nat
deriving DecidableEq, Repr

/-! ## Searching -/

/-- Halves the `size` entries from `base` on until one is left, going to the upper half unless it
starts above `key`. -/
def narrow (xs : Array Nat) (key : Nat) (base : Fin xs.size) (size : Nat)
    (h : base + size ≤ xs.size) : Fin xs.size :=
  if hsize : 1 < size then
    have hmid : base + size / 2 < xs.size := by omega
    if key < xs[base + size / 2] then narrow xs key base (size - size / 2) (by omega)
    else narrow xs key ⟨base + size / 2, hmid⟩ (size - size / 2) (by dsimp only; omega)
  else base
termination_by size

/-- Where `key` stands among growing entries, or else where it would have to be inserted. -/
def binarySearch (xs : Array Nat) (key : Nat) : Except Nat Nat :=
  if hpos : 0 < xs.size then
    let base := narrow xs key ⟨0, hpos⟩ xs.size (by simp)
    if xs[base] = key then .ok base
    else .error (if xs[base] < key then base + 1 else base)
  else .error 0

/-! ## Lines -/

/-- The offset at which each line of a text starts. -/
structure LineIndex where
  lineStarts : Array Nat

namespace LineIndex

/-- The first line starts with the text, every other one behind a line break. -/
def ofText (text : List Char) : LineIndex :=
  ⟨text.zipIdx.foldl (fun starts (c, offset) =>
    if c = '\n' then starts.push (offset + 1) else starts) #[0]⟩

/-- The last line that starts at an offset or before it, counted from zero. -/
def line (index : LineIndex) (offset : Nat) : Nat :=
  match binarySearch index.lineStarts offset with
  | .ok line => line
  | .error next => next - 1

/-- The position of the character that has `offset` characters before it. -/
def position (index : LineIndex) (offset : Nat) : Position :=
  let line := index.line offset
  ⟨line + 1, offset - index.lineStarts.getD line 0 + 1⟩

end LineIndex

end TsxCompiler.Text

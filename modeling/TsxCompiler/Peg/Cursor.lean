/-!
# Cursors

A parser stands at a cursor: the characters it has not read yet, together with their number. The
number decides how far failures have come and bounds the recursion of the grammar.
-/

namespace TsxCompiler.Peg

/-- The characters still to be read and how many they are. -/
structure Cursor where
  rest : List Char
  left : Nat
  left_eq : left = rest.length

namespace Cursor

/-- The cursor at the start of a text. -/
def ofList (text : List Char) : Cursor := ⟨text, text.length, rfl⟩

/-- Two cursors before the same characters are the same. -/
@[ext] theorem ext {a b : Cursor} (h : a.rest = b.rest) : a = b := by
  obtain ⟨ra, la, ha⟩ := a
  obtain ⟨rb, lb, hb⟩ := b
  subst ha hb
  cases h
  rfl

@[simp] theorem ofList_rest (text : List Char) : (ofList text).rest = text := rfl

@[simp] theorem ofList_left (text : List Char) : (ofList text).left = text.length := rfl

@[simp] theorem eq_ofList_rest (c : Cursor) : ofList c.rest = c := ext rfl

/-- The next character and the cursor after it. -/
def next? (c : Cursor) : Option (Char × Cursor) :=
  match h : c.rest with
  | [] => none
  | x :: xs => some (x, ⟨xs, c.left - 1, by simp [c.left_eq, h]⟩)

theorem next?_nil {c : Cursor} (h : c.rest = []) : c.next? = none := by
  unfold next?
  split
  · rfl
  · simp_all

theorem next?_cons {c : Cursor} {x : Char} {xs : List Char} (h : c.rest = x :: xs) :
    c.next? = some (x, ofList xs) := by
  unfold next?
  split
  · simp_all
  · simp_all only [List.cons.injEq, Option.some.injEq, Prod.mk.injEq, true_and]
    ext
    simp

end Cursor

end TsxCompiler.Peg

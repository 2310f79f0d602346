import TsxCompiler.Text.Shown

/-!
# Failures and how they are ranked

A parser that does not match leaves a failure behind, and so does one that matched but could have
gone on differently. Of all of them the one furthest into the text is reported; failures at the
same place pool what they expected.

Places are counted from the end of the text: `left` characters remain there, so a smaller number
is further on.
-/

namespace TsxCompiler.Peg

/-- What a failing rule was reading. Failures of different rules at one place have no common name. -/
inductive Label where
  | unnamed
  | named (text : String)
  | mixed
deriving DecidableEq, Repr

namespace Label

/-- The label of two failures pooled together. -/
def join : Label → Label → Label
  | unnamed, l => l
  | l, unnamed => l
  | named a, named b => if a = b then named a else mixed
  | _, _ => mixed

/-- A name fills a label that has none of its own. -/
def orNamed (text : String) : Label → Label
  | named own => named own
  | _ => named text

end Label

/-- A place where the text could not be read, and why. -/
structure Failure where
  /-- Characters left at the place the failure is ranked by. -/
  left : Nat
  /-- Characters left at the place it is reported at. -/
  start : Nat
  /-- A message of its own, when the text was read but refused. -/
  reason : Option String
  /-- Characters that would have been accepted; `none` is the end of the text. -/
  expected : List (Option Char)
  /-- The character that stands there; `none` is the end of the text. -/
  found : Option Char
  label : Label
deriving DecidableEq, Repr

namespace Failure

/-- A character (or the end of the text) that no rule wanted. -/
def unexpected (left : Nat) (found : Option Char) (expected : List (Option Char)) : Failure :=
  { left, start := left, reason := none, expected, found, label := .unnamed }

/-- Text that was read up to `left` but refused as a whole. -/
def refused (start left : Nat) (message : String) : Failure :=
  { left, start, reason := some message, expected := [], found := none, label := .unnamed }

/-- The further of two failures; at the same place the first one leads and takes over what the
second expected. -/
def furthest (x y : Failure) : Failure :=
  if x.left < y.left then x
  else if y.left < x.left then y
  else { x with
    expected := x.expected ++ y.expected.filter (fun e => !x.expected.contains e)
    label := x.label.join y.label }

/-- Two remembered failures as one; at the same place the later one leads. -/
def merge : Option Failure → Option Failure → Option Failure
  | none, y => y
  | x, none => x
  | some x, some y => some (furthest y x)

/-- A failure with what is remembered beside it; at the same place the failure leads. -/
def withMet (x : Failure) : Option Failure → Failure
  | none => x
  | some y => furthest x y

/-- Names the rule that was being read, unless a rule inside it has a name. -/
def labelled (text : String) (x : Failure) : Failure :=
  { x with label := x.label.orNamed text }

/-- A found or expected character as a message shows it. -/
def describeChar : Option Char → String
  | some c => Text.showChar c
  | none => "end of input"

/-- Sorted and without repetitions. -/
def sortedTexts (texts : List String) : List String :=
  (texts.mergeSort (fun a b => a ≤ b)).eraseDups

/-- The message for a failure: its own, or what was found and either the rule being read or the
characters that would have done. -/
def message (x : Failure) : String :=
  match x.reason with
  | some text => text
  | none =>
    let found := "unexpected " ++ describeChar x.found
    match x.label with
    | .named rule => found ++ " while parsing " ++ rule
    | _ =>
      if x.expected.isEmpty then found
      else found ++ ", expected " ++ ", ".intercalate (sortedTexts (x.expected.map describeChar))

end Failure

end TsxCompiler.Peg

import TsxCompiler.Peg.Cursor
import TsxCompiler.Peg.Failure

/-!
# Parsers

A parser reads from a cursor and either yields a value and the cursor after it, or fails. Choice is
ordered and a failed branch is read again from its start, so the values follow the rules of a
parsing expression grammar. Beside its value a parser hands on the best failure it met on the way:
when the text goes wrong later, that is what the reader may have meant.

* primitive parsers: `satisfy`, `char`, `literal`, `atEnd`, `succeed`
* in sequence: `both`, `seq`, `skipThen`, `thenSkip`, `between`
* in choice: `orElse`, `choice`, `optional`
* on results: `map`, `check`, `label`, `peek`
-/

namespace TsxCompiler.Peg

/-- How reading ended. -/
inductive Outcome (α : Type) where
  /-- A value, the cursor after it and the best failure met on the way. -/
  | ok (value : α) (next : Cursor) (met : Option Failure)
  | fail (failure : Failure)

/-- Reads a value from a cursor. -/
abbrev Parser (α : Type) := Cursor → Outcome α

namespace Outcome

variable {α β : Type}

/-- What was read and what is left of the text, without the failures. -/
def read? : Outcome α → Option (α × List Char)
  | ok value next _ => some (value, next.rest)
  | fail _ => none

end Outcome

namespace Parser

variable {α β γ : Type}

/-! ## Primitive parsers -/

/-- Reads nothing. -/
def succeed (value : α) : Parser α := fun c =>
  .ok value c none

/-- Reads one character that the test accepts. -/
def satisfy (test : Char → Bool) : Parser Char := fun c =>
  match c.next? with
  | some (x, next) => if test x then .ok x next none else .fail (.unexpected c.left (some x) [])
  | none => .fail (.unexpected c.left none [])

/-- Reads any one character. -/
def anyChar : Parser Char := satisfy fun _ => true

/-- Reads the given character. -/
def char (wanted : Char) : Parser Char := fun c =>
  match c.next? with
  | some (x, next) =>
    if x = wanted then .ok x next none
    else .fail (.unexpected c.left (some x) [some wanted])
  | none => .fail (.unexpected c.left none [some wanted])

/-- Reads the given characters in order; it fails at the first one that differs. -/
def chars : List Char → Parser Unit
  | [] => succeed ()
  | wanted :: rest => fun c =>
    match char wanted c with
    | .ok _ next _ => chars rest next
    | .fail f => .fail f

/-- Reads the given text. -/
def literal (text : String) : Parser Unit := chars text.toList

/-- Reads the end of the text. -/
def atEnd : Parser Unit := fun c =>
  match c.next? with
  | some (x, _) => .fail (.unexpected c.left (some x) [none])
  | none => .ok () c none

/-! ## Results -/

/-- Changes the value that was read. -/
def map (f : α → β) (p : Parser α) : Parser β := fun c =>
  match p c with
  | .ok value next met => .ok (f value) next met
  | .fail failure => .fail failure

/-- Reads a value and replaces it. -/
def yielding (value : β) (p : Parser α) : Parser β := p.map fun _ => value

/-- Reads a value that may be refused with a message. The refusal is ranked by where the value ends
and reported where it starts. -/
def check (accept : α → Except String β) (p : Parser α) : Parser β := fun c =>
  match p c with
  | .ok value next met =>
    match accept value with
    | .ok accepted => .ok accepted next met
    | .error message => .fail (.refused c.left next.left message)
  | .fail failure => .fail failure

/-- Names the rule for messages. -/
def label (text : String) (p : Parser α) : Parser α := fun c =>
  match p c with
  | .ok value next met => .ok value next (met.map (Failure.labelled text))
  | .fail failure => .fail (failure.labelled text)

/-- Reads a value and stays where it was. -/
def peek (p : Parser α) : Parser α := fun c =>
  match p c with
  | .ok value _ met => .ok value c met
  | .fail failure => .fail failure

/-! ## Sequence -/

/-- Reads one value after the other. -/
def both (f : α → β → γ) (p : Parser α) (q : Parser β) : Parser γ := fun c =>
  match p c with
  | .ok a mid met =>
    match q mid with
    | .ok b next met' => .ok (f a b) next (Failure.merge met met')
    | .fail failure => .fail (failure.withMet met)
  | .fail failure => .fail failure

/-- Reads a pair of values. -/
def seq (p : Parser α) (q : Parser β) : Parser (α × β) := both Prod.mk p q

/-- Reads both and keeps the first. -/
def thenSkip (p : Parser α) (q : Parser β) : Parser α := both (fun a _ => a) p q

/-- Reads both and keeps the second. -/
def skipThen (p : Parser α) (q : Parser β) : Parser β := both (fun _ b => b) p q

/-- Reads a value between an opening and a closing part. -/
def between (opening : Parser α) (closing : Parser β) (p : Parser γ) : Parser γ :=
  (opening.skipThen p).thenSkip closing

/-! ## Choice -/

/-- Reads the first alternative, or else the second. -/
def orElse (p q : Parser α) : Parser α := fun c =>
  match p c with
  | .ok value next met => .ok value next met
  | .fail first =>
    match q c with
    | .ok value next met => .ok value next met
    | .fail second => .fail (first.furthest second)

/-- Reads the first alternative that matches. When none does, alternatives that failed at the same
place are led by the last of them. -/
def choice (p : Parser α) : List (Parser α) → Parser α
  | [] => p
  | q :: rest => fun c =>
    match p c with
    | .ok value next met => .ok value next met
    | .fail first =>
      match choice q rest c with
      | .ok value next met => .ok value next met
      | .fail others => .fail (others.furthest first)

/-- Reads a value if there is one. -/
def optional (p : Parser α) : Parser (Option α) := fun c =>
  match p c with
  | .ok value next met => .ok (some value) next met
  | .fail failure => .ok none c (some failure)

end Parser

end TsxCompiler.Peg

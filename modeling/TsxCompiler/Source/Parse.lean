import TsxCompiler.Grammar.Module
import TsxCompiler.Source.Nesting
import TsxCompiler.Text.Position

/-!
# Reading a module

From source text to the program tree, or to the one diagnostic that says where the text went wrong.
-/

namespace TsxCompiler

/-- Why a text is not a module, and where. `offset` counts the characters before the place. -/
structure ParseError where
  message : String
  line : Nat
  column : Nat
  offset : Nat
deriving DecidableEq, Repr

namespace ParseError

/-- A message about the place that has `offset` characters before it. -/
def ofOffset (text : List Char) (offset : Nat) (message : String) : ParseError :=
  let position := (Text.LineIndex.ofText text).position offset
  ⟨message, position.line, position.column, offset⟩

/-- The place and the message on one line. -/
def display (e : ParseError) : String :=
  toString e.line ++ ":" ++ toString e.column ++ ": " ++ e.message

end ParseError

/-- What the grammar makes of a text, whatever its nesting. -/
def Grammar.parse (d : Dialect) (text : List Char) : Except ParseError Program :=
  match Grammar.program d (Peg.Cursor.ofList text) with
  | .ok program _ _ => .ok program
  | .fail failure => .error (.ofOffset text (text.length - failure.start) failure.message)

/-- Reads a module. -/
def Program.parse (d : Dialect) (text : String) : Except ParseError Program :=
  let chars := text.toList
  match Nesting.excess chars with
  | some offset =>
    .error (.ofOffset chars offset
      ("nesting deeper than " ++ toString Nesting.maxDepth ++ " levels"))
  | none => Grammar.parse d chars

end TsxCompiler

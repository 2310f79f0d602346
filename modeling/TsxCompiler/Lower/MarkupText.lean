import TsxCompiler.Text.Split

/-!
# Text between tags

Text in markup is laid out over lines. Its lines are trimmed where they meet, lines that are only
blanks vanish, and the rest are joined by one blank.
-/

namespace TsxCompiler.MarkupText

open Text

/-- The blanks that a line may be padded with. -/
def isPadding (c : Char) : Bool :=
  c == ' ' || c == '\t'

/-- One line without the carriage returns at its end and without its padding, which stays at the
outer ends of the text. -/
def trimLine (isFirst isLast : Bool) (line : List Char) : List Char :=
  let line := dropTrailing (· == '\r') line
  let line := if isFirst then line else line.dropWhile isPadding
  if isLast then line else dropTrailing isPadding line

/-- The lines of a text, trimmed. -/
def trimLines (isFirst : Bool) : List (List Char) → List (List Char)
  | [] => []
  | [line] => [trimLine isFirst true line]
  | line :: rest => trimLine isFirst false line :: trimLines false rest

/-- The text that is shown, or nothing when there are only blanks in lines. -/
def normalize (raw : List Char) : Option (List Char) :=
  match (trimLines true (splitAt '\n' raw)).filter (fun line => !line.isEmpty) with
  | [] => none
  | lines => some (joinWith [' '] lines)

end TsxCompiler.MarkupText

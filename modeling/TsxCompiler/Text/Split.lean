/-!
# Splitting and joining

Cutting a text at every occurrence of a character, and trimming its ends.
-/

namespace TsxCompiler.Text

/-- The parts of a text between the occurrences of `sep`; there is always at least one. -/
def splitAt (sep : Char) : List Char → List (List Char)
  | [] => [[]]
  | c :: rest =>
    if c = sep then [] :: splitAt sep rest
    else
      match splitAt sep rest with
      | [] => [[c]]
      | part :: parts => (c :: part) :: parts

/-- The parts of a text between the occurrences of `sep`, as texts. -/
def parts (sep : Char) (text : String) : List String :=
  (splitAt sep text.toList).map String.ofList

/-- A text without the characters at its end that the test accepts. -/
def dropTrailing (test : Char → Bool) (text : List Char) : List Char :=
  (text.reverse.dropWhile test).reverse

/-- The parts of a text with one separator between each two of them. -/
def joinWith (sep : List Char) : List (List Char) → List Char
  | [] => []
  | [part] => part
  | part :: rest => part ++ sep ++ joinWith sep rest

end TsxCompiler.Text

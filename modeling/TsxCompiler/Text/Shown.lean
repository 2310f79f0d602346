import TsxCompiler.Text.CharClass

/-!
# Characters and texts inside messages

A message quotes what it talks about so that every character can be seen: blanks and quotes are
escaped by letter, characters that have no glyph of their own by number.
-/

namespace TsxCompiler.Text

/-- The digits of `n` in base sixteen, in lower case and without leading zeros. -/
def hexDigits (n : Nat) : String :=
  String.ofList (Nat.toDigits 16 n)

/-- One character between quotes of the given kind. -/
def showInside (quote c : Char) : String :=
  if c = quote || c = '\\' then String.ofList ['\\', c]
  else if c = Char.ofNat 0 then "\\0"
  else if c = '\t' then "\\t"
  else if c = '\r' then "\\r"
  else if c = '\n' then "\\n"
  else if isPrintable c then c.toString
  else "\\u\x7b" ++ hexDigits c.toNat ++ "\x7d"

/-- A character in single quotes. -/
def showChar (c : Char) : String :=
  "'" ++ showInside '\'' c ++ "'"

/-- A text in double quotes. -/
def showText (s : String) : String :=
  "\"" ++ String.join (s.toList.map (showInside '"')) ++ "\""

end TsxCompiler.Text

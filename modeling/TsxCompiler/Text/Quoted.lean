import TsxCompiler.Text.Shown

/-!
# Quoted string literals

`quote` writes a value as a double-quoted literal and `unescape` reads the value back from what
stands between the quotes.
-/

namespace TsxCompiler.Text

/-- `\u` and the code point in four hexadecimal digits. -/
def unicodeEscape (c : Char) : String :=
  let digits := Nat.toDigits 16 c.toNat
  "\\u" ++ String.ofList (List.replicate (4 - digits.length) '0' ++ digits)

/-- One character of a double-quoted literal. Line and paragraph separators end a line in some
readers, so they are escaped together with the control characters. -/
def quoteChar (c : Char) : String :=
  if c = '"' then "\\\""
  else if c = '\\' then "\\\\"
  else if c = '\n' then "\\n"
  else if c = '\r' then "\\r"
  else if c = '\t' then "\\t"
  else if c = '\u2028' || c = '\u2029' || isControl c then unicodeEscape c
  else c.toString

/-- The double-quoted literal for a value. -/
def quote (value : String) : String :=
  "\"" ++ String.join (value.toList.map quoteChar) ++ "\""

/-- The value of the text between the quotes of a literal: `\n`, `\t`, `\r` and `\0` have their
usual meaning, an escaped line break vanishes, and any other escaped character is itself. A
backslash that escapes nothing stays. -/
def unescape : List Char → List Char
  | [] => []
  | ['\\'] => ['\\']
  | '\\' :: c :: rest =>
    if c = 'n' then '\n' :: unescape rest
    else if c = 't' then '\t' :: unescape rest
    else if c = 'r' then '\r' :: unescape rest
    else if c = '0' then Char.ofNat 0 :: unescape rest
    else if c = '\n' then unescape rest
    else c :: unescape rest
  | c :: rest => c :: unescape rest

end TsxCompiler.Text

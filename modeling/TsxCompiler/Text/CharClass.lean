import TsxCompiler.Text.CodePoints
import TsxCompiler.Text.Uppercase

/-!
# Character classes

The character classes that source text is read by. Each follows the Unicode property of the same
name; below `0x80` the answer is spelled out, so that facts about punctuation and ASCII letters
never reach the tables.
-/

namespace TsxCompiler.Text

/-- Whether `n` is a member of one of the arithmetic runs `lo, lo + step, …, hi`. -/
def inRuns (runs : List (Nat × Nat × Nat)) (n : Nat) : Bool :=
  runs.any fun r => r.1 ≤ n && n ≤ r.2.1 && (n - r.1) % r.2.2 == 0

/-- The property Alphabetic. -/
def isAlphabetic (c : Char) : Bool :=
  if c.toNat < 0x80 then c.isAlpha else inRanges alphabeticRanges c.toNat

/-- The general category N. -/
def isNumeric (c : Char) : Bool :=
  if c.toNat < 0x80 then c.isDigit else inRanges numericRanges c.toNat

/-- Alphabetic or a number of any kind. -/
def isAlphanumeric (c : Char) : Bool :=
  isAlphabetic c || isNumeric c

/-- The general categories L and N. -/
def isLetterOrNumber (c : Char) : Bool :=
  isAlphanumeric c && !inRanges alphabeticMarkRanges c.toNat

/-- The property Uppercase. -/
def isUppercase (c : Char) : Bool :=
  if c.toNat < 0x80 then c.isUpper else inRuns uppercaseRuns c.toNat

/-- The property Cased. -/
def isCased (c : Char) : Bool :=
  if c.toNat < 0x80 then c.isAlpha else inRanges casedRanges c.toNat

/-- The property Case_Ignorable. -/
def isCaseIgnorable (c : Char) : Bool :=
  if c.toNat < 0x80 then ['\'', '.', ':', '^', '\x60'].contains c
  else inRanges caseIgnorableRanges c.toNat

/-- The property White_Space. -/
def isBlank (c : Char) : Bool :=
  inRanges [(0x9, 0xd), (0x20, 0x20), (0x85, 0x85), (0xa0, 0xa0), (0x1680, 0x1680),
    (0x2000, 0x200a), (0x2028, 0x2029), (0x202f, 0x202f), (0x205f, 0x205f), (0x3000, 0x3000)] c.toNat

/-- The general category Cc. -/
def isControl (c : Char) : Bool :=
  c.toNat < 0x20 || (0x7f ≤ c.toNat && c.toNat < 0xa0)

/-- Whether a character stands for itself when a diagnostic shows it. -/
def isPrintable (c : Char) : Bool :=
  if c.toNat < 0x80 then !isControl c else !inRanges unprintableRanges c.toNat

/-! ## Identifiers -/

/-- A character that an identifier may start with. -/
def isWordStart (c : Char) : Bool :=
  isAlphabetic c || c == '_' || c == '$'

/-- A character that an identifier may go on with. -/
def isWordPart (c : Char) : Bool :=
  isAlphanumeric c || c == '_' || c == '$'

/-- Whether a text has the shape of an identifier, reserved or not. -/
def isIdentifier (name : String) : Bool :=
  match name.toList with
  | [] => false
  | c :: rest => isWordStart c && rest.all isWordPart

end TsxCompiler.Text

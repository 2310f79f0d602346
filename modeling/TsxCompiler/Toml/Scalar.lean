import TsxCompiler.Data.Datum
import TsxCompiler.Peg.Repetition

/-!
# Single values of a settings file

Strings, numbers, truth values and dates as TOML writes them. A date is kept as the text it stands
for.
-/

namespace TsxCompiler.Toml

open Peg Peg.Parser

/-! ## Characters -/

/-- A space or a tab. -/
def isSpace (c : Char) : Bool := c == ' ' || c == '\t'

/-- A character that may stand in a comment or a string: no control character but the tab. -/
def isTextChar (c : Char) : Bool := c == '\t' || (0x20 ≤ c.toNat && c.toNat != 0x7f)

/-- Spaces and tabs, as many as there are. -/
def spaces : Parser Unit := (many (satisfy isSpace)).yielding ()

/-- A line break, with or without a carriage return. -/
def lineBreak : Parser Unit := (literal "\n").orElse (literal "\r\n")

/-- A comment up to the end of its line. -/
def comment : Parser Unit := ((char '#').seq (many (satisfy isTextChar))).yielding ()

/-- Spaces, line breaks and comments between the values of an array. -/
def filler : Parser Unit :=
  (many (choice ((satisfy isSpace).yielding ())
    [lineBreak, (comment.seq lineBreak).yielding ()])).yielding ()

/-! ## Strings -/

/-- The value of a hexadecimal digit. -/
def hexValue (c : Char) : Nat :=
  if c.isDigit then c.toNat - '0'.toNat
  else if c.isUpper then c.toNat - 'A'.toNat + 10
  else c.toNat - 'a'.toNat + 10

/-- A hexadecimal digit. -/
def isHex (c : Char) : Bool := c.isDigit || ('a' ≤ c && c ≤ 'f') || ('A' ≤ c && c ≤ 'F')

/-- The number that digits of a base stand for. -/
def numberOf (base : Nat) (digits : List Char) : Nat :=
  digits.foldl (fun n c => n * base + hexValue c) 0

/-- The given number of characters in a row that the test accepts. -/
def exactly (test : Char → Bool) : Nat → Parser (List Char)
  | 0 => succeed []
  | n + 1 => both List.cons (satisfy test) (exactly test n)

/-- A character by its code point. -/
def codePoint (digits : Nat) : Parser Char :=
  (exactly isHex digits).check fun text =>
    let n := numberOf 16 text
    if n < 0xd800 || (0xe000 ≤ n && n < 0x110000) then .ok (Char.ofNat n)
    else .error "no character"

/-- What follows a backslash. -/
def escapedChar : Parser Char :=
  choice ((char 'b').yielding '\x08')
    [ (char 't').yielding '\t', (char 'n').yielding '\n', (char 'f').yielding '\x0c',
      (char 'r').yielding '\r', char '"', char '\\', (char 'u').skipThen (codePoint 4),
      (char 'U').skipThen (codePoint 8) ]

/-- A backslash and the character it stands for. -/
def escaped : Parser Char := (char '\\').skipThen escapedChar

/-- A string on one line, with escapes. -/
def basicString : Parser String :=
  (between (char '"') (char '"')
    (many ((satisfy fun c => isTextChar c && c != '"' && c != '\\').orElse escaped))).map
    String.ofList

/-- A string on one line, as it stands. -/
def literalString : Parser String :=
  (between (char '\'') (char '\'') (many (satisfy fun c => isTextChar c && c != '\''))).map
    String.ofList

/-- A backslash at the end of a line: the line break and the blanks behind it vanish. -/
def joinedLines : Parser (List Char) :=
  (((char '\\').seq spaces).seq
    (lineBreak.seq (many (((satisfy isSpace).yielding ()).orElse lineBreak)))).yielding []

/-- One or two quotes that do not close a string of several lines. -/
def innerQuotes (quote : Char) : Parser (List Char) :=
  let two := (char quote).seq (char quote)
  let notClosing (p : Parser (List Char)) :=
    p.thenSkip (peek (satisfy (· != quote)))
  (notClosing (two.yielding [quote, quote])).orElse (notClosing ((char quote).yielding [quote]))

/-- The end of a string of several lines; up to two quotes in front of it belong to the string. -/
def closingQuotes (quote : Char) : Parser (List Char) :=
  let closing := chars [quote, quote, quote]
  choice ((chars [quote, quote]).skipThen closing |>.yielding [quote, quote])
    [(chars [quote]).skipThen closing |>.yielding [quote], closing.yielding []]

/-- A string of several lines. A line break right behind the opening quotes does not count. -/
def multiLine (quote : Char) (piece : Parser (List Char)) : Parser String :=
  both (fun pieces tail => String.ofList (pieces.flatten ++ tail))
    (((chars [quote, quote, quote]).seq (optional lineBreak)).skipThen
      (many (choice piece [lineBreak.yielding ['\n'], innerQuotes quote])))
    (closingQuotes quote)

/-- A string of several lines, with escapes. -/
def multiLineBasic : Parser String :=
  multiLine '"' (choice ((satisfy fun c => isTextChar c && c != '"' && c != '\\').map ([·]))
    [joinedLines, escaped.map ([·])])

/-- A string of several lines, as it stands. -/
def multiLineLiteral : Parser String :=
  multiLine '\'' ((satisfy fun c => isTextChar c && c != '\'').map ([·]))

/-- A string of any of the four kinds. -/
def string : Parser String :=
  choice multiLineBasic [basicString, multiLineLiteral, literalString]

/-! ## Numbers -/

/-- Digits that follow others; an underscore may stand before each. -/
def moreDigits (test : Char → Bool) : Parser (List Char) :=
  many ((optional (char '_')).skipThen (satisfy test))

/-- Digits with underscores between them. -/
def digits (test : Char → Bool) : Parser (List Char) :=
  both List.cons (satisfy test) (moreDigits test)

/-- Whether a minus sign stands here; a plus sign says nothing. -/
def sign : Parser Bool :=
  (optional (satisfy fun c => c == '+' || c == '-')).map (· == some '-')

/-- A whole number without needless zeros in front. -/
def wholeDigits : Parser (List Char) :=
  (both List.cons (satisfy fun c => c.isDigit && c != '0') (moreDigits Char.isDigit)).orElse
    ((satisfy Char.isDigit).map ([·]))

/-- An integer of the machine's range. -/
def inRange (n : Int) : Except String Int :=
  if -9223372036854775808 ≤ n && n ≤ 9223372036854775807 then .ok n else .error "out of range"

/-- A signed number. -/
def signed (negative : Bool) (n : Nat) : Int := if negative then -(n : Int) else n

/-- An integer in a base other than ten. -/
def basedInteger (mark : String) (base : Nat) (test : Char → Bool) : Parser Int :=
  ((literal mark).skipThen (digits test)).check fun text => inRange (numberOf base text)

/-- An integer. -/
def integer : Parser Int :=
  choice (basedInteger "0x" 16 isHex)
    [ basedInteger "0o" 8 (fun c => '0' ≤ c && c ≤ '7'),
      basedInteger "0b" 2 (fun c => c == '0' || c == '1'),
      (sign.seq wholeDigits).check fun (negative, text) =>
        inRange (signed negative (numberOf 10 text)) ]

/-- The exponent of a number. -/
def exponent : Parser Int :=
  ((satisfy fun c => c == 'e' || c == 'E').skipThen (sign.seq (digits Char.isDigit))).map
    fun (negative, text) => signed negative (numberOf 10 text)

/-- The digits behind the point and the exponent; at least one of them is there. -/
def fractionOrExponent : Parser (List Char × Int) :=
  (exponent.map fun e => ([], e)).orElse
    (((char '.').skipThen (digits Char.isDigit)).seq ((optional exponent).map (·.getD 0)))

/-- A number with a point or an exponent. Too large a positive number is refused. -/
def decimal : Parser Number :=
  ((sign.seq wholeDigits).seq fractionOrExponent).check
    fun ((negative, whole), (fraction, exponent)) =>
      match Number.ofDecimal
          ⟨negative, numberOf 10 (whole ++ fraction), exponent - fraction.length⟩ with
      | .infinite false => .error "out of range"
      | x => .ok x

/-- Infinity, or what is no number. -/
def specialNumber : Parser Number :=
  both (fun negative x => match x with | .infinite _ => .infinite negative | y => y) sign
    (((literal "inf").yielding (Number.infinite false)).orElse
      ((literal "nan").yielding Number.notANumber))

/-! ## Dates -/

/-- A number of exactly so many digits, up to a bound. -/
def bounded (count low high : Nat) : Parser (List Char) :=
  (exactly Char.isDigit count).check fun text =>
    if low ≤ numberOf 10 text && numberOf 10 text ≤ high then .ok text else .error "out of range"

/-- The number of days of a month. -/
def daysIn (year month : Nat) : Nat :=
  if month = 2 then
    if (year % 4 = 0 && year % 100 != 0) || year % 400 = 0 then 29 else 28
  else if [4, 6, 9, 11].contains month then 30 else 31

/-- A date: year, month and day. -/
def date : Parser (List Char) :=
  ((exactly Char.isDigit 4).seq (((char '-').skipThen (bounded 2 1 12)).seq
    ((char '-').skipThen (bounded 2 1 31)))).check fun (year, month, day) =>
      if numberOf 10 day ≤ daysIn (numberOf 10 year) (numberOf 10 month) then
        .ok (year ++ '-' :: month ++ '-' :: day)
      else .error "no such day"

/-- The fraction of a second, to nine places and without zeros at its end. -/
def secondFraction : Parser (List Char) :=
  ((char '.').skipThen (many1 (satisfy Char.isDigit))).map fun text =>
    match ((text.take 9).reverse.dropWhile (· == '0')).reverse with
    | [] => []
    | kept => '.' :: kept

/-- A time of day. -/
def time : Parser (List Char) :=
  both (fun clock fraction => clock ++ fraction.getD [])
    (both (fun hour rest => hour ++ ':' :: rest) (bounded 2 0 23)
      (both (fun minute second => minute ++ ':' :: second)
        ((char ':').skipThen (bounded 2 0 59)) ((char ':').skipThen (bounded 2 0 60))))
    (optional secondFraction)

/-- The distance from universal time. -/
def offset : Parser (List Char) :=
  ((satisfy fun c => c == 'Z' || c == 'z').yielding ['Z']).orElse
    (both (fun s (hour, minute) =>
        let s := if numberOf 10 hour + numberOf 10 minute = 0 then '+' else s
        s :: hour ++ ':' :: minute)
      (satisfy fun c => c == '+' || c == '-')
      ((bounded 2 0 23).seq ((char ':').skipThen (bounded 2 0 59))))

/-- A date, a time or both, as a text in one spelling. -/
def dateTime : Parser String :=
  ((both (fun day rest => day ++ rest.getD []) date
    (optional (both (fun clock shift => 'T' :: clock ++ shift.getD [])
      ((satisfy fun c => c == 'T' || c == 't' || c == ' ').skipThen time)
      (optional offset)))).orElse time).map String.ofList

/-- A value that is neither an array nor a table. -/
def scalar : Parser Datum :=
  choice (string.map Datum.string)
    [ dateTime.map Datum.string, decimal.map Datum.number, specialNumber.map Datum.number,
      integer.map Datum.int, (literal "true").yielding (Datum.bool true),
      (literal "false").yielding (Datum.bool false) ]

end TsxCompiler.Toml

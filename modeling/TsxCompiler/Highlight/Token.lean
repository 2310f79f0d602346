import TsxCompiler.Text.CharClass

/-!
# Tokens for display

Code is cut into tokens, each of one class, for display only. The lexer takes the longest front of
the text that a rule matches; what no rule takes is a plain token of one character. Comments and
strings are matched by their openers only, and a scan of the text behind tells by how many bytes the
end of the token is to be moved on. Places in the code are counted in bytes.
-/

namespace TsxCompiler

/-- What a token is shown as. -/
inductive TokenClass where
  | keyword
  | string
  | comment
  | identifier
  | punctuation
  | plain
deriving DecidableEq, Repr

namespace TokenClass

/-- All classes. -/
def all : List TokenClass := [keyword, string, comment, identifier, punctuation, plain]

/-- The name of a class in a theme. -/
def name : TokenClass → String
  | keyword => "keyword"
  | string => "string"
  | comment => "comment"
  | identifier => "identifier"
  | punctuation => "punctuation"
  | plain => "plain"

/-- The class of a name. -/
def ofName? (name : String) : Option TokenClass :=
  all.find? fun c => c.name == name

end TokenClass

namespace Highlight

/-- The words that are shown as keywords. -/
def keywords : List String :=
  ["as", "async", "await", "break", "case", "catch", "class", "const", "continue", "debugger",
    "default", "delete", "do", "else", "enum", "export", "extends", "false", "finally", "for",
    "from", "function", "if", "implements", "import", "in", "instanceof", "interface", "let",
    "new", "null", "of", "return", "static", "super", "switch", "this", "throw", "true", "try",
    "type", "typeof", "undefined", "var", "void", "while", "with", "yield"]

/-- A character of a word. -/
def isWordChar (c : Char) : Bool :=
  Text.isLetterOrNumber c || c == '_' || c == '$'

/-- A character of a run of punctuation. The slash is none, as it may open a comment. -/
def isPunctuation (c : Char) : Bool :=
  "!%&*+,-.:;<=>?@^|~()\x7b\x7d[]#".toList.contains c

/-- A character that opens and closes a string. -/
def isQuote (c : Char) : Bool := c == '\'' || c == '"' || c == '\x60'

/-- The first byte of a character in UTF-8, for characters of more than one byte. -/
def firstByte (c : Char) : Nat :=
  if c.toNat < 0x800 then 0xC0 + c.toNat / 0x40
  else if c.toNat < 0x10000 then 0xE0 + c.toNat / 0x1000
  else 0xF0 + c.toNat / 0x40000

/-- Whether a word may seem to go on with a character, judged by the character's first byte. Of the
first bytes of longer characters, six start no letter and no number. -/
def seemsToContinue (c : Char) : Bool :=
  0x80 ≤ c.toNat && !([0xCC, 0xEE, 0xF1, 0xF2, 0xF3, 0xF4].contains (firstByte c))

/-- The class of a word in front of a text. A keyword that the text seems to continue is shown as
an identifier. -/
def wordClass (word rest : List Char) : TokenClass :=
  if keywords.contains (String.ofList word) && !(rest.head?.any seemsToContinue) then .keyword
  else .identifier

/-! ## Bytes -/

/-- The number of bytes of a text. -/
def bytes : List Char → Nat
  | [] => 0
  | c :: cs => c.utf8Size + bytes cs

/-- Splits a text behind a number of bytes. There is no such place inside of a character, nor behind
the end of the text. -/
def splitBytes : Nat → List Char → Option (List Char × List Char)
  | 0, cs => some ([], cs)
  | _ + 1, [] => none
  | n + 1, c :: cs =>
    if c.utf8Size ≤ n + 1 then
      (splitBytes (n + 1 - c.utf8Size) cs).map fun (taken, rest) => (c :: taken, rest)
    else none

/-- The byte at which the first `*/` of a text starts, if `i` bytes come before the text. -/
def findClose (i : Nat) : List Char → Option Nat
  | [] => none
  | '*' :: '/' :: _ => some i
  | c :: cs => findClose (i + c.utf8Size) cs

/-- The bytes of a comment behind its opener: up to the end of the first `*/`, or all. -/
def blockCommentBytes (rest : List Char) : Nat :=
  match findClose 0 rest with
  | some close => close + 2
  | none => bytes rest

/-- The byte behind the first quote of a text that no backslash escapes, if `i` bytes come before the
text. -/
def findQuote (quote : Char) (escaped : Bool) (i : Nat) : List Char → Option Nat
  | [] => none
  | c :: cs =>
    if escaped then findQuote quote false (i + c.utf8Size) cs
    else if c == '\\' then findQuote quote true (i + c.utf8Size) cs
    else if c == quote then some (i + c.utf8Size)
    else findQuote quote false (i + c.utf8Size) cs

/-- The bytes of a string behind its opening quote: up to the end of the closing one, or all. -/
def stringBytes (quote : Char) (rest : List Char) : Nat :=
  (findQuote quote false 0 rest).getD (bytes rest)

/-! ## Rules -/

/-- What the rule for the front of a text makes of it. -/
structure Match where
  tokenClass : TokenClass
  /-- The bytes that the rule matches behind the first character. -/
  matched : Nat
  /-- The bytes by which the end of the token is moved on. -/
  bump : Nat := 0

/-- A match of all characters of one kind. -/
def matchRun (tokenClass : TokenClass) (p : Char → Bool) (cs : List Char) : Match :=
  ⟨tokenClass, bytes (cs.takeWhile p), 0⟩

/-- The longest match of a text that starts with a character. -/
def longestMatch (c : Char) (cs : List Char) : Match :=
  if c == '/' then
    match cs with
    | '/' :: _ => matchRun .comment (· != '\n') cs
    | '*' :: body => ⟨.comment, 1, blockCommentBytes body⟩
    | _ => ⟨.punctuation, 0, 0⟩
  else if isQuote c then ⟨.string, 0, stringBytes c cs⟩
  else if isWordChar c then
    matchRun (wordClass (c :: cs.takeWhile isWordChar) (cs.dropWhile isWordChar)) isWordChar cs
  else if isPunctuation c then matchRun .punctuation isPunctuation cs
  else if Text.isBlank c then matchRun .plain Text.isBlank cs
  else ⟨.plain, 0, 0⟩

theorem length_splitBytes {n : Nat} {cs taken rest : List Char}
    (h : splitBytes n cs = some (taken, rest)) : rest.length ≤ cs.length := by
  fun_induction splitBytes n cs generalizing taken with
  | case1 cs =>
    cases h
    exact Nat.le_refl _
  | case2 => cases h
  | case3 n c cs hsize ih =>
    obtain ⟨⟨taken', rest'⟩, hsplit, heq⟩ := Option.map_eq_some_iff.1 h
    cases heq
    exact Nat.le_succ_of_le (ih hsplit)
  | case4 => cases h

end Highlight

/-- A piece of code of one class. The bytes from `start` to before `stop` are its text. -/
structure Token where
  tokenClass : TokenClass
  text : String
  start : Nat
  stop : Nat
deriving DecidableEq, Repr

namespace Token

/-- The tokens of a text that `start` bytes come before. Each ends as many bytes behind its first
character as its match and its bump say; should this be inside of a character, there is no token. -/
def lex (start : Nat) : List Char → List Token
  | [] => []
  | c :: cs =>
    let m := Highlight.longestMatch c cs
    match h : Highlight.splitBytes (m.matched + m.bump) cs with
    | none => []
    | some (taken, rest) =>
      have := Highlight.length_splitBytes h
      let stop := start + (c.utf8Size + (m.matched + m.bump))
      ⟨m.tokenClass, String.ofList (c :: taken), start, stop⟩ :: lex stop rest
termination_by cs => cs.length
decreasing_by simp only [List.length_cons]; omega

/-- The tokens of a piece of code. -/
def tokenize (code : String) : List Token :=
  lex 0 code.toList

end Token

end TsxCompiler

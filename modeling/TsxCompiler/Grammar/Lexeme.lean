import TsxCompiler.Peg.Repetition
import TsxCompiler.Text.Quoted
import TsxCompiler.Tree.Syntax

/-!
# Lexemes

Punctuation, keywords, names and literals. A lexeme also reads the blanks and comments behind it,
so that the rules above never see any; what stands before the first lexeme of a module is skipped
once.
-/

namespace TsxCompiler.Grammar

open Peg Peg.Parser Text

variable {α : Type}

/-! ## Blanks and comments -/

/-- A blank, a line comment without its line break, or a block comment. -/
def triviaPiece : Parser Unit :=
  choice ((satisfy isBlank).yielding ())
    [ ((literal "//").seq (many (satisfy (· != '\n')))).yielding (),
      ((literal "/*").seq (skipUntil (literal "*/"))).yielding () ]

/-- Blanks and comments, as many as there are. -/
def trivia : Parser Unit := (many triviaPiece).yielding ()

/-- Reads what `p` reads and the blanks and comments behind it. -/
def lexeme (p : Parser α) : Parser α := p.thenSkip trivia

/-! ## Punctuation and words -/

/-- Words that name nothing. -/
def reservedWords : List String :=
  ["break", "case", "catch", "class", "const", "continue", "debugger", "default", "delete", "do",
    "else", "export", "extends", "false", "finally", "for", "function", "if", "import", "in",
    "instanceof", "new", "null", "return", "super", "switch", "this", "throw", "true", "try",
    "typeof", "var", "void", "while", "with", "yield"]

/-- Whether a word is reserved. -/
def isReserved (name : String) : Bool := reservedWords.contains name

/-- A punctuator such as `=>` or `(`. -/
def sym (text : String) : Parser Unit := (lexeme (literal text)).label text

/-- Reads a value in parentheses. -/
def inParens (p : Parser α) : Parser α := between (sym "(") (sym ")") p

/-- Reads a value in square brackets. -/
def inBrackets (p : Parser α) : Parser α := between (sym "[") (sym "]") p

/-- Reads a value in braces. -/
def inBraces (p : Parser α) : Parser α := between (sym "\x7b") (sym "\x7d") p

/-- Reads a value in angle brackets. -/
def inAngles (p : Parser α) : Parser α := between (sym "<") (sym ">") p

/-- A word, reserved or not, without what follows it. -/
def rawWord : Parser String :=
  both (fun c cs => String.ofList (c :: cs)) (satisfy isWordStart) (many (satisfy isWordPart))

/-- A word where a property may be named: reserved words are as good as others. -/
def word : Parser String := (lexeme rawWord).label "property name"

/-- The name of a binding. -/
def identifier : Parser String :=
  (lexeme (rawWord.check fun name =>
    if isReserved name then .error ("unexpected keyword '" ++ name ++ "'") else .ok name)).label
    "identifier"

/-- A keyword. It is read as a whole word, so `constant` does not start with `const`. -/
def keyword (text : String) : Parser Unit :=
  (lexeme (rawWord.check fun name =>
    if name = text then .ok () else .error ("expected '" ++ text ++ "'"))).label text

/-- An optional `;`. -/
def terminator : Parser Unit := (sym ";").optional.yielding ()

/-! ## Literals -/

/-- A backslash and the character it escapes. -/
def escapePair : Parser (List Char) := both (fun a b => [a, b]) (char '\\') anyChar

/-- The text between two quotes, as written. A line break ends it unless it is escaped. -/
def quotedBody (quote : Char) : Parser (List Char) :=
  (many (escapePair.orElse
    ((satisfy fun c => c != quote && c != '\\' && c != '\n').map fun c => [c]))).map List.flatten

/-- A string in quotes of one kind. -/
def quotedString (quote : Char) : Parser StringLit :=
  (((char quote).skipThen (quotedBody quote)).thenSkip (char quote)).map fun body =>
    { value := String.ofList (unescape body)
      raw := some (String.ofList (quote :: (body ++ [quote]))) }

/-- A string literal. -/
def stringLit : Parser StringLit :=
  (lexeme ((quotedString '"').orElse (quotedString '\''))).label "string"

/-- The backquote. -/
def backquote : Char := Char.ofNat 0x60

/-- Whether a template has a place for a substitution. -/
def hasSubstitution : List Char → Bool
  | '$' :: '{' :: _ => true
  | _ :: rest => hasSubstitution rest
  | [] => false

/-- A template literal, as the text between its backquotes. -/
def template : Parser String :=
  (lexeme ((((char backquote).skipThen
      ((many (escapePair.orElse
        ((satisfy fun c => c != backquote && c != '\\').map fun c => [c]))).map
        List.flatten)).thenSkip (char backquote)).check fun body =>
    if hasSubstitution body then .error "template literal substitutions are not supported"
    else .ok (String.ofList body))).label "template literal"

/-- One decimal digit or more. -/
def digits : Parser (List Char) := many1 (satisfy Char.isDigit)

/-- A decimal number, as written. -/
def number : Parser String :=
  (lexeme (both (fun whole fraction => String.ofList (whole ++ fraction.getD []))
    digits (both List.cons (char '.') digits).optional)).label "number"

end TsxCompiler.Grammar

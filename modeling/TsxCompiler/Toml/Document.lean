import TsxCompiler.Toml.Scalar
import TsxCompiler.Toml.Table

/-!
# Settings files

Reads a settings file in TOML to plain data, or finds that it is none.
-/

namespace TsxCompiler.Toml

open Peg Peg.Parser

/-- A character of a key without quotes. -/
def isKeyChar (c : Char) : Bool := c.isAlphanum || c == '_' || c == '-'

/-- One part of a key. -/
def simpleKey : Parser String :=
  choice ((many1 (satisfy isKeyChar)).map String.ofList) [basicString, literalString]

/-- A dotted key: the parts that lead to it and the last part. -/
structure Key where
  path : List String
  last : String

/-- The parts of a key. -/
def Key.parts (k : Key) : List String := k.path ++ [k.last]

/-- The depth that neither keys nor values reach. -/
def depthLimit : Nat := 80

/-- A key of one part or several. -/
def key : Parser Key :=
  (sepBy1 (char '.') (between spaces spaces simpleKey)).check fun parts =>
    if parts.length < depthLimit then .ok ⟨parts.dropLast, parts.getLastD ""⟩
    else .error "too deep"

/-- A key and its value. -/
def assignment (value : Parser Datum) : Parser (Key × Datum) :=
  (key.thenSkip (char '=')).seq (between spaces spaces value)

/-- Values in brackets; they may stand on lines of their own. -/
def array (value : Parser Datum) : Parser Datum :=
  (between (char '[') (filler.seq (char ']'))
    (sepByTrailing (char ',') (between filler filler value))).map Datum.list

/-- Puts a value under a dotted key. -/
def Table.add (t : Table) (entry : Key × Datum) : Option Table :=
  t.assign entry.1.path entry.1.last entry.2

/-- A table of assignments, as data. -/
def assemble (assignments : List (Key × Datum)) : Option OptionBag := do
  let t ← assignments.foldlM Table.add (Table.fresh .header)
  return fieldsToBag t.fields

/-- Assignments in braces, on one line. -/
def inlineTable (value : Parser Datum) : Parser Datum :=
  (between ((char '\x7b').seq spaces) (spaces.seq (char '\x7d'))
    (sepBy (char ',') (assignment value))).check fun assignments =>
      match assemble assignments with
      | some bag => .ok (.table bag)
      | none => .error "key given twice"

/-- A value inside which arrays and tables stand at most so deep. -/
def valueWithin : Nat → Parser Datum
  | 0 => scalar
  | depth + 1 => fun c =>
    choice scalar [array (valueWithin depth), inlineTable (valueWithin depth)] c

/-- Any value. -/
def value : Parser Datum := valueWithin (depthLimit - 1)

/-- A line of a file. -/
inductive Line where
  | blank
  | header (key : Key)
  | repeatedHeader (key : Key)
  | assign (key : Key) (datum : Datum)

/-- A line without what is behind it. -/
def line : Parser Line :=
  ((spaces.skipThen (optional (choice
    (between (literal "[[") (literal "]]") key |>.map Line.repeatedHeader)
    [ between (char '[') (char ']') key |>.map Line.header,
      (assignment value).map fun (k, datum) => Line.assign k datum ]))).thenSkip
    (spaces.seq (optional comment))).map (·.getD .blank)

/-- The lines of a file; a byte order mark may stand in front. -/
def lines : Parser (List Line) :=
  ((optional (char (Char.ofNat 0xfeff))).skipThen (sepBy lineBreak line)).thenSkip atEnd

/-- The tables of a file up to some line, and the header that its assignments belong to. -/
structure Assembly where
  root : Table
  current : List String

/-- Adds a line to the tables. -/
def Assembly.add (a : Assembly) : Line → Option Assembly
  | .blank => some a
  | .header k => do
    return ⟨← a.root.modifyAt false (Table.openTable k.last) k.path, k.parts⟩
  | .repeatedHeader k => do
    return ⟨← a.root.modifyAt false (Table.pushTable k.last) k.path, k.parts⟩
  | .assign k datum => do
    return ⟨← a.root.modifyAt false (Table.assign k.path k.last datum) a.current, a.current⟩

/-- The data of a file, or nothing if the text is no settings file. -/
def parse (text : String) : Option OptionBag := do
  let (lines, _) ← (lines (Cursor.ofList text.toList)).read?
  let a ← lines.foldlM Assembly.add ⟨Table.fresh .header, []⟩
  return fieldsToBag a.root.fields

end TsxCompiler.Toml

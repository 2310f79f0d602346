/-!
# Paths to settings

A setting is named by a path such as `passes[0].options.level`: names, joined by points, and indexes
into lists, where a negative index counts from the end.
-/

namespace TsxCompiler

/-- One step from a setting to a part of it. -/
inductive KeyStep where
  | field (name : String)
  | index (index : Int)
deriving DecidableEq, Repr

/-- The way to a setting: the first name and the steps behind it. -/
structure KeyPath where
  first : String
  steps : List KeyStep
deriving DecidableEq, Repr

/-- Why a text is no path. -/
inductive KeyFault where
  /-- It does not start with a name. -/
  | noName
  /-- What follows a part is neither a point and a name nor an index in brackets. -/
  | noStep
  /-- There is no number in the brackets. -/
  | noIndex
  /-- The number in the brackets is too large. -/
  | hugeIndex
deriving DecidableEq, Repr

/-- The text for the fault. -/
def KeyFault.message : KeyFault → String
  | noName => "IsA"
  | noStep => "Char"
  | noIndex => "Digit"
  | hugeIndex => "Map on Result"

namespace KeyPath

/-- A character of a name. -/
def isNameChar (c : Char) : Bool := c.isAlphanum || c == ' ' || c == '_' || c == '-'

/-- A blank inside the brackets of an index. -/
def isIndexBlank (c : Char) : Bool := c == ' ' || c == '\t'

/-- A sign and what is behind it. -/
def takeSign : List Char → Bool × List Char
  | '-' :: rest => (true, rest)
  | cs => (false, cs)

/-- The number of decimal digits. -/
def decimalValue (digits : List Char) : Nat :=
  digits.foldl (fun n c => n * 10 + (c.toNat - '0'.toNat)) 0

/-- Reads an index and its closing bracket. -/
def takeIndex (cs : List Char) : Except KeyFault (Int × List Char) :=
  let (negative, cs) := takeSign (cs.dropWhile isIndexBlank)
  let digits := cs.takeWhile Char.isDigit
  let value : Int := if negative then -(decimalValue digits : Int) else decimalValue digits
  if digits.isEmpty then .error .noIndex
  else if value < -9223372036854775808 || 9223372036854775807 < value then .error .hugeIndex
  else
    match (cs.dropWhile Char.isDigit).dropWhile isIndexBlank with
    | ']' :: rest => .ok (value, rest)
    | _ => .error .noStep

/-- Reads one step. -/
def takeStep : List Char → Except KeyFault (KeyStep × List Char)
  | '.' :: rest =>
    let name := rest.takeWhile isNameChar
    if name.isEmpty then .error .noStep
    else .ok (.field (String.ofList name), rest.dropWhile isNameChar)
  | '[' :: rest => return (.index (← takeIndex rest).1, (← takeIndex rest).2)
  | _ => .error .noStep

/-- Reads steps up to the end of the text. Every step is at least a character long, so there are no
more of them than characters. -/
def takeSteps : Nat → List Char → Except KeyFault (List KeyStep)
  | _, [] => .ok []
  | 0, _ => .error .noStep
  | fuel + 1, cs => do
    let (step, rest) ← takeStep cs
    return step :: (← takeSteps fuel rest)

/-- Reads a path. -/
def parse (text : String) : Except KeyFault KeyPath :=
  let cs := text.toList
  let name := cs.takeWhile isNameChar
  if name.isEmpty then .error .noName
  else return ⟨String.ofList name, ← takeSteps cs.length (cs.dropWhile isNameChar)⟩

end KeyPath

end TsxCompiler

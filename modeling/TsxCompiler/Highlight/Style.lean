/-!
# Styles

A style is the text written before and after a token. Styles are described by a color and a few
attributes, and written as escape sequences for a terminal.
-/

namespace TsxCompiler

/-- The texts written around a token. -/
structure Style where
  opening : String
  closing : String
deriving DecidableEq, Repr

/-- The style that writes nothing. -/
def Style.plain : Style := ⟨"", ""⟩

/-- A foreground color. -/
inductive Color where
  /-- One of the sixteen terminal colors. -/
  | indexed (index : Nat)
  | rgb (red green blue : Nat)
deriving DecidableEq, Repr

namespace Color

/-- The names of the terminal colors. -/
def names : List (String × Nat) :=
  [("black", 0), ("dark_red", 1), ("dark_green", 2), ("dark_yellow", 3), ("dark_blue", 4),
    ("dark_magenta", 5), ("dark_cyan", 6), ("grey", 7), ("gray", 7), ("dark_grey", 8),
    ("dark_gray", 8), ("red", 9), ("green", 10), ("yellow", 11), ("blue", 12), ("magenta", 13),
    ("cyan", 14), ("white", 15)]

/-- The value of a hexadecimal digit. -/
def hexDigit? (c : Char) : Option Nat :=
  if c.isDigit then some (c.toNat - '0'.toNat)
  else if 'a' ≤ c && c ≤ 'f' then some (c.toNat - 'a'.toNat + 10)
  else if 'A' ≤ c && c ≤ 'F' then some (c.toNat - 'A'.toNat + 10)
  else none

/-- A channel in two characters: two hexadecimal digits, or a plus sign and one. -/
def channel? (high low : Char) : Option Nat :=
  if high == '+' then hexDigit? low
  else return 16 * (← hexDigit? high) + (← hexDigit? low)

/-- Three channels in six characters. -/
def ofChannels? : List Char → Option Color
  | [a, b, c, d, e, f] => return .rgb (← channel? a b) (← channel? c d) (← channel? e f)
  | _ => none

/-- A color name in lower case, with underscores for hyphens. -/
def normalize (name : List Char) : String :=
  String.ofList (name.map fun c => if c == '-' then '_' else c.toLower)

/-- The color of a name or of a `#rrggbb` text. -/
def ofName? (name : String) : Option Color :=
  match name.toList with
  | '#' :: channels => ofChannels? channels
  | chars => (names.lookup (normalize chars)).map indexed

end Color

/-- The escape sequence with the given parameters. -/
def escape (parameters : String) : String := "\x1b[" ++ parameters ++ "m"

/-- The escape sequence that sets a color. -/
def Color.sequence : Color → String
  | indexed index => escape ("38;5;" ++ toString index)
  | rgb red green blue =>
    escape ("38;2;" ++ toString red ++ ";" ++ toString green ++ ";" ++ toString blue)

/-- A style as settings describe it. -/
structure StyleSpec where
  color : Option String
  bold : Bool
  italic : Bool
  dim : Bool
deriving DecidableEq, Repr

/-- What is wrong with the style of a token class. -/
inductive StyleError where
  | unknownColor (name : String)
  | notATokenClass
deriving DecidableEq, Repr

/-- The message for the cause. -/
def StyleError.message : StyleError → String
  | unknownColor name => "unknown color '" ++ name ++ "'"
  | notATokenClass => "not a token class"

namespace StyleSpec

/-- The spec without any effect. -/
def plain : StyleSpec := ⟨none, false, false, false⟩

/-- The spec of a color alone. -/
def ofColor (name : String) : StyleSpec := { plain with color := some name }

/-- The sequences in front of a token of a given color. -/
def sequences (spec : StyleSpec) (color : Option Color) : String :=
  (match color with | some c => c.sequence | none => "") ++
    (if spec.bold then escape "1" else "") ++ (if spec.italic then escape "3" else "") ++
    (if spec.dim then escape "2" else "")

/-- The style of a spec. A spec without effect writes nothing. -/
def toStyle (spec : StyleSpec) : Except StyleError Style := do
  let color ← match spec.color with
    | none => pure none
    | some name =>
      match Color.ofName? name with
      | some color => pure (some color)
      | none => throw (.unknownColor name)
  let opening := spec.sequences color
  return if opening.isEmpty then .plain else ⟨opening, escape "0"⟩

end StyleSpec

/-- A character of the parameters of an escape sequence. -/
def isParameterChar (c : Char) : Bool := c.isDigit || c == ';' || c == ':'

/-- What is left of a text behind an escape sequence at its front, the escape character read. -/
def afterSequence? : List Char → Option (List Char)
  | '[' :: rest =>
    match rest.dropWhile isParameterChar with
    | 'm' :: rest => some rest
    | _ => none
  | _ => none

theorem length_dropWhile_le {α : Type} (p : α → Bool) (xs : List α) :
    (xs.dropWhile p).length ≤ xs.length :=
  (List.dropWhile_sublist p).length_le

theorem afterSequence?_length {cs rest : List Char} (h : afterSequence? cs = some rest) :
    rest.length < cs.length := by
  unfold afterSequence? at h
  split at h
  · rename_i tail
    split at h
    · rename_i rest' heq
      have := length_dropWhile_le isParameterChar tail
      rw [heq] at this
      cases h
      simp only [List.length_cons] at *
      omega
    · cases h
  · cases h

/-- A text without its escape sequences. -/
def stripChars : List Char → List Char
  | [] => []
  | c :: cs =>
    if c == '\x1b' then
      match h : afterSequence? cs with
      | some rest =>
        have := afterSequence?_length h
        stripChars rest
      | none => c :: stripChars cs
    else c :: stripChars cs
termination_by cs => cs.length
decreasing_by all_goals simp only [List.length_cons]; omega

/-- A text without its escape sequences. -/
def stripMarkers (text : String) : String := String.ofList (stripChars text.toList)

end TsxCompiler

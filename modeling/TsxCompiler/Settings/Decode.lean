import TsxCompiler.Settings.Error
import TsxCompiler.Settings.Layer
import TsxCompiler.Text.Shown

/-!
# Reading values out of settings

Truth values and texts may be written in several ways. A section is a table of named fields; a list
of the fields in their order will do as well.
-/

namespace TsxCompiler.Setting

variable {α : Type}

/-- What kind of value a message says it found. -/
def describe : Setting → String
  | .scalar _ .nil => "unit value"
  | .scalar _ (.bool value) => "boolean `" ++ toString value ++ "`"
  | .scalar _ (.int value) => "integer `" ++ toString value ++ "`"
  | .scalar _ (.number value) => "floating point `" ++ value.displayWithPoint ++ "`"
  | .scalar _ (.string value) => "string " ++ Text.showText value
  | .list .. => "sequence"
  | .table .. => "map"

/-- The file of a value. -/
def file : Setting → Option String
  | .scalar file _ => file
  | .list file _ => file
  | .table file _ => file

/-- The truth value of a word. -/
def wordTruth? : String → Option Bool
  | "1" | "true" | "on" | "yes" => some true
  | "0" | "false" | "off" | "no" => some false
  | _ => none

/-- A truth value: itself, a number other than zero, or one of eight words in any case. -/
def toBool (s : Setting) : Except SettingsError Bool :=
  match s with
  | .scalar _ (.bool value) => .ok value
  | .scalar _ (.int value) => .ok (value != 0)
  | .scalar _ (.number value) => .ok (!value.isZero)
  | .scalar file (.string value) =>
    match wordTruth? (Text.lower value) with
    | some truth => .ok truth
    | none => .error (.wrongKind ("string " ++ Text.showText (Text.lower value)) "a boolean" "" file)
  | other => .error (.wrongKind other.describe "a boolean" "" other.file)

/-- A text: itself, or a truth value or number written out. -/
def toText (s : Setting) : Except SettingsError String :=
  match s with
  | .scalar _ (.string value) => .ok value
  | .scalar _ (.bool value) => .ok (toString value)
  | .scalar _ (.int value) => .ok (toString value)
  | .scalar _ (.number value) => .ok value.display
  | other => .error (.wrongKind other.describe "a string" "" other.file)

/-- A value that may be left unset. -/
def toOption (read : Setting → Except SettingsError α) :
    Setting → Except SettingsError (Option α)
  | .scalar _ .nil => .ok none
  | s => some <$> read s

/-- The items of a list, each read at its index. -/
def readItems (read : Setting → Except SettingsError α) :
    Nat → List Setting → Except SettingsError (List α)
  | _, [] => .ok []
  | index, s :: rest => do
    let value ← (read s).mapError (.inItem index)
    return value :: (← readItems read (index + 1) rest)

/-- A list. -/
def toList (read : Setting → Except SettingsError α) : Setting → Except SettingsError (List α)
  | .list _ items => readItems read 0 items
  | other => .error (.wrongShape other.describe "a sequence")

/-- The fields of a table, each read under its name. -/
def readFields (read : Setting → Except SettingsError α) :
    List (String × Setting) → Except SettingsError (List (String × α))
  | [] => .ok []
  | (name, s) :: rest => do
    let value ← (read s).mapError (.inField name)
    return (name, value) :: (← readFields read rest)

/-- A table of values of one kind, in the order of their names. -/
def toTable (read : Setting → Except SettingsError α) :
    Setting → Except SettingsError (List (String × α))
  | .table _ fields => readFields read fields
  | other => .error (.wrongShape other.describe "a map")

mutual

/-- Plain data. A number that is not finite has no place there. -/
def toDatum : Setting → Datum
  | .scalar _ .nil => .null
  | .scalar _ (.bool value) => .bool value
  | .scalar _ (.int value) => .int value
  | .scalar _ (.number (.finite negative size)) => .number (.finite negative size)
  | .scalar _ (.number _) => .null
  | .scalar _ (.string value) => .string value
  | .list _ items => .list (itemsToData items)
  | .table _ fields => .table (fieldsToBag fields)

def itemsToData : List Setting → List Datum
  | [] => []
  | s :: rest => toDatum s :: itemsToData rest

def fieldsToBag : List (String × Setting) → List (String × Datum)
  | [] => []
  | (name, s) :: rest => (name, toDatum s) :: fieldsToBag rest

end

/-- An option bag; one that is unset is empty. -/
def toBag : Setting → Except SettingsError OptionBag
  | .table _ fields => .ok (fieldsToBag fields)
  | .scalar _ .nil => .ok []
  | other => .error (.wrongShape other.describe "a map")

/-! ## Sections -/

/-- The parts of a section. -/
inductive Parts where
  | named (fields : List (String × Setting))
  | inOrder (items : List Setting)

/-- A section: its name in messages and how many fields it has. -/
structure Shape where
  name : String
  size : Nat

/-- The parts of what has to be a section. -/
def toParts (shape : Shape) : Setting → Except SettingsError Parts
  | .table _ fields => .ok (.named fields)
  | .list _ items => .ok (.inOrder items)
  | other => .error (.wrongShape other.describe ("struct " ++ shape.name))

namespace Parts

/-- Reads a field by its place or name, if it is there. -/
def read? (parts : Parts) (index : Nat) (name : String)
    (read : Setting → Except SettingsError α) : Except SettingsError (Option α) :=
  match parts with
  | named fields =>
    match fields.lookup name with
    | some s => some <$> (read s).mapError (.inField name)
    | none => .ok none
  | inOrder items =>
    match items[index]? with
    | some s => some <$> (read s).mapError (.inItem index)
    | none => .ok none

/-- Insists on a field. -/
def require (parts : Parts) (shape : Shape) (index : Nat) (name : String) :
    Option α → Except SettingsError α
  | some value => .ok value
  | none =>
    match parts with
    | named _ => .error (.missingField name)
    | inOrder _ =>
      .error (.tooShort index
        ("struct " ++ shape.name ++ " with " ++ toString shape.size ++
          (if shape.size = 1 then " element" else " elements")))

end Parts

end TsxCompiler.Setting

import TsxCompiler.Number.Double
import TsxCompiler.Text.Shown

/-!
# Data in option bags

Options are plain data: what a settings file can say about a pass. A bag lists its options in the
order of their names.
-/

namespace TsxCompiler

/-- A piece of plain data. -/
inductive Datum where
  | null
  | bool (value : Bool)
  | int (value : Int)
  | number (value : Number)
  | string (value : String)
  | list (items : List Datum)
  | table (fields : List (String × Datum))
deriving Inhabited, Repr

/-- Options by name, in the order of the names. -/
abbrev OptionBag := List (String × Datum)

/-- A bag with an option set, in its place by name. -/
def OptionBag.insert (name : String) (value : Datum) : OptionBag → OptionBag
  | [] => [(name, value)]
  | (key, old) :: rest =>
    if name < key then (name, value) :: (key, old) :: rest
    else if name = key then (name, value) :: rest
    else (key, old) :: OptionBag.insert name value rest

/-- What kind of data a message says it found. -/
def Datum.describe : Datum → String
  | .null => "null"
  | .bool value => "boolean `" ++ toString value ++ "`"
  | .int value => "integer `" ++ toString value ++ "`"
  | .number value => "floating point `" ++ value.compact ++ "`"
  | .string value => "string " ++ Text.showText value
  | .list _ => "sequence"
  | .table _ => "map"

end TsxCompiler

import TsxCompiler.Settings.Settings
import TsxCompiler.Toml.Document

/-!
# Loading settings

The defaults come first, then files in order, and single values last.
-/

namespace TsxCompiler

/-- A file of settings. One that does not exist has no text. -/
structure SettingsFile where
  path : String
  text : Option String
  /-- Whether the file has to exist. -/
  required : Bool
deriving DecidableEq, Repr

/-- A single value and the key it is for. -/
structure Override where
  key : String
  value : Scalar

/-- What is set when nobody says otherwise. -/
def Settings.defaults : OptionBag :=
  [ ("highlight", .table [("enabled", .bool true),
      ("styles", .table
        [ ("comment", .table [("fg", .string "dark_grey"), ("italic", .bool true)]),
          ("keyword", .table [("fg", .string "blue")]),
          ("punctuation", .table [("fg", .string "dark_cyan")]),
          ("string", .table [("fg", .string "green")]) ])]),
    ("module", .table [("type", .string "commonjs")]),
    ("parser", .table [("markup", .bool true), ("syntax", .string "typescript")]),
    ("passes", .list [.table [("name", .string "react-refresh"),
      ("options", .table [("skipEnvCheck", .bool true)])]]),
    ("transform", .table
      [ ("external_helpers", .bool true), ("helpers_module", .string "@swc/helpers"),
        ("jsx", .string "classic"), ("jsx_pragma", .string "React.createElement"),
        ("jsx_pragma_frag", .string "React.Fragment"), ("skip_env_checks", .bool false) ]) ]

/-- Lays a file over settings. -/
def SettingsFile.addTo (root : Setting) (f : SettingsFile) : Except SettingsError Setting :=
  match f.text with
  | none => if f.required then .error (.missingFile f.path) else .ok root
  | some text =>
    match Toml.parse text with
    | none => .error (.malformed f.path)
    | some bag => .ok (root.addLayer (some f.path) bag)

/-- The path of a single value. -/
def Override.path (o : Override) : Except SettingsError (KeyPath × Scalar) :=
  match KeyPath.parse o.key with
  | .ok path => .ok (path, o.value)
  | .error fault => .error (.malformedKey fault)

/-- All layers in one. Keys of single values are looked at before any file. -/
def Setting.ofLayers (files : List SettingsFile) (overrides : List Override) :
    Except SettingsError Setting := do
  let overrides ← overrides.mapM Override.path
  let root ← files.foldlM SettingsFile.addTo (Setting.emptyTable.addLayer none Settings.defaults)
  return overrides.foldl (fun root (path, value) => root.putPath path (.scalar none value)) root

/-- Loads settings. -/
def Settings.load (files : List SettingsFile) (overrides : List Override) :
    Except ConfigError Settings :=
  match do Settings.ofSetting (← Setting.ofLayers files overrides) with
  | .ok settings => .ok settings
  | .error cause => .error (.settings cause)

end TsxCompiler

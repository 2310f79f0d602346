import TsxCompiler.Data.Datum
import TsxCompiler.Settings.KeyPath
import TsxCompiler.Text.Lowercase

/-!
# Layers of settings

Settings come in layers, each laid over the ones before it: tables are merged field by field, and
anything else is replaced. Names are compared in lower case. Every value remembers the file it is
from.
-/

namespace TsxCompiler

/-- A value that is neither a list nor a table. -/
inductive Scalar where
  | nil
  | bool (value : Bool)
  | int (value : Int)
  | number (value : Number)
  | string (value : String)
deriving Repr

/-- A value with the file it is from. -/
inductive Setting where
  | scalar (file : Option String) (value : Scalar)
  | list (file : Option String) (items : List Setting)
  | table (file : Option String) (fields : List (String × Setting))
deriving Repr

namespace Setting

/-- The value that stands where nothing has been set. -/
def missing : Setting := .scalar none .nil

/-- A table without fields. -/
def emptyTable : Setting := .table none []

/-- Puts a field in its place by name. -/
def insertField (name : String) (value : Setting) :
    List (String × Setting) → List (String × Setting)
  | [] => [(name, value)]
  | (key, old) :: rest =>
    if name < key then (name, value) :: (key, old) :: rest
    else if name = key then (name, value) :: rest
    else (key, old) :: insertField name value rest

/-- The fields of a table; anything else has none. -/
def fields : Setting → List (String × Setting)
  | .table _ fields => fields
  | _ => []

/-- The items of a list; anything else has none. -/
def items : Setting → List Setting
  | .list _ items => items
  | _ => []

/-- Sets a field. What is no table becomes one. -/
def setField (root : Setting) (name : String) (value : Setting) : Setting :=
  match root with
  | .table file fields => .table file (insertField name value fields)
  | _ => .table none [(name, value)]

/-- The field of a name. -/
def field? (root : Setting) (name : String) : Option Setting := root.fields.lookup name

/-- Replaces an item. What is no list becomes one, and a list that is too short is filled up. -/
def setItem (root : Setting) (index : Nat) (value : Setting) : Setting :=
  match root with
  | .list file items =>
    .list file ((items ++ List.replicate (index + 1 - items.length) missing).set index value)
  | _ => .list none ((List.replicate (index + 1) missing).set index value)

mutual

/-- Lays a value over the field of a name. -/
def put : Setting → String → Setting → Setting
  | root, name, .table _ incoming =>
    root.setField (Text.lower name)
      (putAll ((root.field? (Text.lower name)).getD emptyTable) incoming)
  | root, name, .scalar file value => root.setField (Text.lower name) (.scalar file value)
  | root, name, .list file items => root.setField (Text.lower name) (.list file items)

/-- Lays fields over a table one by one. -/
def putAll : Setting → List (String × Setting) → Setting
  | root, [] => root
  | root, (name, value) :: rest => putAll (put root name value) rest

end

/-- The place of an index in a list of some length. -/
def place (index : Int) (length : Nat) : Nat :=
  (if index < 0 then length + index else index).toNat

/-- Lays a value over what some steps lead to. Whatever is in the way is replaced. -/
def putAt (value : Setting) : Setting → List KeyStep → Setting
  | _, [] => value
  | root, [.field name] => root.put name value
  | root, .field name :: steps =>
    let key := Text.lower name
    root.setField key (putAt value ((root.field? key).getD missing) steps)
  | root, .index i :: steps =>
    let spot := place i root.items.length
    root.setItem spot (putAt value (root.items.getD spot missing) steps)

/-- Lays a value over what a path leads to. -/
def putPath (root : Setting) (path : KeyPath) (value : Setting) : Setting :=
  putAt value root (.field path.first :: path.steps)

/-- Lays a value over what a name leads to, which may be a path. -/
def putKey (root : Setting) (name : String) (value : Setting) : Setting :=
  match KeyPath.parse name with
  | .ok path => root.putPath path value
  | .error _ => root.put name value

mutual

/-- Data from a file. -/
def ofDatum (file : Option String) : Datum → Setting
  | .null => .scalar file .nil
  | .bool value => .scalar file (.bool value)
  | .int value => .scalar file (.int value)
  | .number value => .scalar file (.number value)
  | .string value => .scalar file (.string value)
  | .list items => .list file (ofData file items)
  | .table fields => .table file (ofBag file fields)

def ofData (file : Option String) : List Datum → List Setting
  | [] => []
  | d :: rest => ofDatum file d :: ofData file rest

def ofBag (file : Option String) : List (String × Datum) → List (String × Setting)
  | [] => []
  | (name, d) :: rest => (name, ofDatum file d) :: ofBag file rest

end

/-- Lays the data of a file over settings. -/
def addLayer (root : Setting) (file : Option String) (bag : OptionBag) : Setting :=
  (ofBag file bag).foldl (fun root (name, value) => root.putKey name value) root

end Setting

end TsxCompiler

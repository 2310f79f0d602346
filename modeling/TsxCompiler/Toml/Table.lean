import TsxCompiler.Data.Datum

/-!
# Tables of a settings file

A file builds its tables piece by piece. A table is opened once, by its header or by dotted keys,
and whatever would open it again or put something else in its place is refused.
-/

namespace TsxCompiler.Toml

/-- How a table came about. -/
inductive Origin where
  /-- By its own header. -/
  | header
  /-- On the way to a deeper header. -/
  | passing
  /-- By dotted keys. -/
  | dotted
deriving DecidableEq, Repr

/-- What stands under a key. -/
inductive Node where
  | value (datum : Datum)
  | table (origin : Origin) (fields : List (String × Node))
  /-- Tables under one repeated header. -/
  | tables (items : List (List (String × Node)))

/-- A table under construction. -/
structure Table where
  origin : Origin
  fields : List (String × Node)

namespace Table

/-- A table without fields. -/
def fresh (origin : Origin) : Table := ⟨origin, []⟩

/-- What stands under a key of the table. -/
def get? (t : Table) (key : String) : Option Node := t.fields.lookup key

/-- Puts something under a key. -/
def set (t : Table) (key : String) (node : Node) : Table :=
  if t.fields.any (·.1 == key) then
    { t with fields := t.fields.map fun (k, old) => (k, if k == key then node else old) }
  else { t with fields := t.fields ++ [(key, node)] }

/-- Changes the table that a path leads to. Missing tables on the way are made; of repeated tables
the last is taken. Dotted keys do not lead into a table that has a header. -/
def modifyAt (isDotted : Bool) (f : Table → Option Table) : List String → Table → Option Table
  | [], t => f t
  | key :: path, t =>
    match t.get? key with
    | none => do
      let child ← modifyAt isDotted f path (fresh (if isDotted then .dotted else .passing))
      return t.set key (.table child.origin child.fields)
    | some (.value _) => none
    | some (.table origin fields) =>
      if isDotted && origin == .header then none
      else do
        let child ← modifyAt isDotted f path ⟨origin, fields⟩
        return t.set key (.table child.origin child.fields)
    | some (.tables items) =>
      match items.getLast? with
      | none => none
      | some fields => do
        let child ← modifyAt isDotted f path ⟨.header, fields⟩
        return t.set key (.tables (items.dropLast ++ [child.fields]))

/-- Puts a value under a new key. A table of dotted keys takes no other keys, and no other table
takes dotted ones. -/
def insert (isDotted : Bool) (key : String) (datum : Datum) (t : Table) : Option Table :=
  if (t.origin == .dotted) != isDotted then none
  else
    match t.get? key with
    | some _ => none
    | none => some (t.set key (.value datum))

/-- Puts a value under a key, which a path of dotted keys may lead to. -/
def assign (path : List String) (key : String) (datum : Datum) (t : Table) : Option Table :=
  t.modifyAt true (insert (!path.isEmpty) key datum) path

/-- Opens the table of a header, unless it has been opened before. -/
def openTable (key : String) (t : Table) : Option Table :=
  match t.get? key with
  | none => some (t.set key (.table .header []))
  | some (.table .passing fields) => some (t.set key (.table .header fields))
  | some _ => none

/-- Opens one more table of a repeated header. -/
def pushTable (key : String) (t : Table) : Option Table :=
  match t.get? key with
  | none => some (t.set key (.tables [[]]))
  | some (.tables items) => some (t.set key (.tables (items ++ [[]])))
  | some _ => none

end Table

mutual

/-- What a finished node stands for. -/
def Node.toDatum : Node → Datum
  | .value datum => datum
  | .table _ fields => .table (fieldsToBag fields)
  | .tables items => .list (itemsToData items)

/-- Finished fields in the order of their names. -/
def fieldsToBag : List (String × Node) → OptionBag
  | [] => []
  | (key, node) :: rest => OptionBag.insert key node.toDatum (fieldsToBag rest)

def itemsToData : List (List (String × Node)) → List Datum
  | [] => []
  | fields :: rest => .table (fieldsToBag fields) :: itemsToData rest

end

end TsxCompiler.Toml

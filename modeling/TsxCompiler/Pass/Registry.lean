import TsxCompiler.Pass.Refresh
import TsxCompiler.Settings.Error

/-!
# The registry of passes

Passes are known by name. An entry makes a pass from its options, or says what is wrong with them.
Entries are listed in the order of their names.
-/

namespace TsxCompiler

/-- How a pass is made from its options. -/
abbrev PassMaker := OptionBag → Except OptionError Transform

/-- A registered pass. -/
structure RegistryEntry where
  name : String
  description : String
  make : PassMaker

/-- The registered passes, in the order of their names. -/
structure Registry where
  entries : List RegistryEntry

namespace Registry

/-- The registry without passes. -/
def empty : Registry := ⟨[]⟩

/-- Puts an entry in its place by name, instead of an older one of that name. -/
def insertEntry (entry : RegistryEntry) : List RegistryEntry → List RegistryEntry
  | [] => [entry]
  | old :: rest =>
    if entry.name < old.name then entry :: old :: rest
    else if entry.name = old.name then entry :: rest
    else old :: insertEntry entry rest

/-- Registers a pass; an older one of that name is replaced. -/
def register (r : Registry) (name description : String) (make : PassMaker) : Registry :=
  ⟨insertEntry ⟨name, description, make⟩ r.entries⟩

/-- The entry of a name. -/
def find? (r : Registry) (name : String) : Option RegistryEntry :=
  r.entries.find? fun entry => entry.name == name

/-- Whether a pass is registered. -/
def has (r : Registry) (name : String) : Bool := (r.find? name).isSome

/-- The registered passes with their descriptions. -/
def list (r : Registry) : List (String × String) :=
  r.entries.map fun entry => (entry.name, entry.description)

/-- Makes a registered pass. -/
def resolve (r : Registry) (name : String) (options : OptionBag) : Except ConfigError Pass :=
  match r.find? name with
  | none => .error (.unknownPass name)
  | some entry =>
    match entry.make options with
    | .ok transform => .ok ⟨name, options, transform⟩
    | .error cause => .error (.invalidOptions name cause)

/-- The pass without options that changes nothing. -/
def makeIdentity : PassMaker
  | [] => .ok Transform.identity
  | (name, _) :: _ => .error (.unexpected name)

/-- The pass that registers components. -/
def makeRefresh : PassMaker := fun options =>
  return Refresh.transform (← Refresh.Options.ofBag options)

/-- The passes that come with the program. -/
def builtins : Registry :=
  (empty.register "identity" "Returns the program unchanged" makeIdentity).register
    "react-refresh" "Registers components with the fast-refresh runtime" makeRefresh

end Registry

end TsxCompiler

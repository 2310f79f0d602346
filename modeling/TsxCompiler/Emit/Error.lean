/-!
# Why a program cannot be emitted
-/

namespace TsxCompiler

/-- Why a program cannot be emitted. -/
inductive EmitError where
  /-- A pragma that is no dotted path of identifiers. -/
  | invalidPragma (pragma : String)
  /-- A name that is exported twice. -/
  | duplicateExport (name : String)
deriving DecidableEq, Repr

/-- The message for the cause. -/
def EmitError.message : EmitError → String
  | invalidPragma pragma => "invalid JSX pragma '" ++ pragma ++ "'"
  | duplicateExport name => "duplicate export '" ++ name ++ "'"

end TsxCompiler

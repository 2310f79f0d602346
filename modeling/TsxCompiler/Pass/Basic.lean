import TsxCompiler.Data.Datum
import TsxCompiler.Tree.Syntax

/-!
# Passes

A pass takes a whole module and hands back a module, or says why it will not. It sees the values of
the run beside it.
-/

namespace TsxCompiler

/-- The values of one run. -/
structure RunContext where
  runId : String
  /-- Turns off the environment guards that passes may have. -/
  skipEnvChecks : Bool
  /-- The environment the code is for. -/
  env : Option String
  sourceName : String
deriving DecidableEq, Repr

/-- Whether the code is for development. -/
def RunContext.isDevelopment (ctx : RunContext) : Bool :=
  ctx.env == some "development"

/-- Why a pass refused a module. -/
structure PassError where
  message : String
deriving DecidableEq, Repr

/-- What a pass does. -/
abbrev Transform := Program → RunContext → Except PassError Program

/-- A pass by name, with the options it was made from. -/
structure Pass where
  name : String
  options : OptionBag
  apply : Transform

/-- Leaves the module as it is. -/
def Transform.identity : Transform := fun program _ => .ok program

/-- The pass that leaves the module as it is. -/
def Pass.identity : Pass := ⟨"identity", [], Transform.identity⟩

/-- What is wrong with the options of a pass. -/
inductive OptionError where
  /-- Data of the wrong kind. -/
  | wrongKind (found expected : String)
  /-- One option under two spellings; the first of them names it. -/
  | repeated (name : String)
  /-- A name that is none of the known ones. -/
  | unknown (name : String) (known : List String)
  /-- An option for a pass that has none. -/
  | unexpected (name : String)
  /-- An option that the pass will not have. -/
  | rejected (name : String)
deriving DecidableEq, Repr

/-- The message for the cause. -/
def OptionError.message : OptionError → String
  | wrongKind found expected => "invalid type: " ++ found ++ ", expected " ++ expected
  | repeated name => "duplicate field `" ++ name ++ "`"
  | unknown name known =>
    "unknown field `" ++ name ++ "`, expected one of " ++
      ", ".intercalate (known.map fun k => "`" ++ k ++ "`")
  | unexpected name => "unexpected option '" ++ name ++ "'"
  | rejected name => "rejected '" ++ name ++ "'"

end TsxCompiler

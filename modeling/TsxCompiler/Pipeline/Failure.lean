import TsxCompiler.Emit.Error
import TsxCompiler.Settings.Error
import TsxCompiler.Source.Parse

/-!
# Why a run failed
-/

namespace TsxCompiler

/-- Why a run failed. -/
inductive Failure where
  | config (cause : ConfigError)
  | parse (cause : ParseError)
  /-- A pass refused the module; the index counts the passes before it. -/
  | pass (index : Nat) (name : String) (cause : PassError)
  | emit (cause : EmitError)
deriving DecidableEq, Repr

/-- The text a failure is reported by. -/
def Failure.display : Failure → String
  | config cause => "configuration error: " ++ cause.message
  | parse cause => "parse error at " ++ cause.display
  | pass index name cause =>
    "pass #" ++ toString index ++ " '" ++ name ++ "' failed: " ++ cause.message
  | emit cause => "generation error: " ++ cause.message

end TsxCompiler

import TsxCompiler.Dialect
import TsxCompiler.Emit.Emit
import TsxCompiler.Settings.Error

/-!
# Choices by name

Settings name a language, a module format and a markup mode; a name that stands for none of them is
reported.
-/

namespace TsxCompiler

/-- The language of a name. -/
def Language.choose (name : String) : Except ConfigError Language :=
  match Language.ofName? name with
  | some language => .ok language
  | none => .error (.unknownLanguage name)

/-- The module format of a name. -/
def ModuleFormat.choose (name : String) : Except ConfigError ModuleFormat :=
  match ModuleFormat.ofName? name with
  | some format => .ok format
  | none => .error (.unknownFormat name)

/-- The markup mode of a name; the pragma is for the mode that lowers markup. -/
def MarkupMode.choose (name : String) (pragma : Pragma) : Except ConfigError MarkupMode :=
  match name with
  | "classic" => .ok (.classic pragma)
  | "preserve" => .ok .preserve
  | _ => .error (.unknownMarkupMode name)

end TsxCompiler

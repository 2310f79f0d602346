import TsxCompiler.Lower.CommonJs
import TsxCompiler.Lower.Markup
import TsxCompiler.Print.Module

/-!
# Emitting a module

Markup is lowered or kept, imports and exports are lowered or kept, and what is left is printed.
-/

namespace TsxCompiler

/-- How modules reach each other in the output. -/
inductive ModuleFormat where
  | commonJs
  | esModule
deriving DecidableEq, Repr

namespace ModuleFormat

/-- The name the format is shown by. -/
def name : ModuleFormat → String
  | commonJs => "commonjs"
  | esModule => "esmodule"

/-- The format that a name in the settings stands for. -/
def ofName? : String → Option ModuleFormat
  | "commonjs" | "cjs" => some commonJs
  | "esmodule" | "es6" | "esm" => some esModule
  | _ => none

end ModuleFormat

/-- What becomes of markup. -/
inductive MarkupMode where
  /-- Calls of the pragma. -/
  | classic (pragma : Pragma)
  /-- Markup as it was written. -/
  | preserve
deriving DecidableEq, Repr

/-- The shape of the output. -/
structure EmitOptions where
  format : ModuleFormat
  markup : MarkupMode
  /-- Whether helpers are required instead of written out. -/
  externalHelpers : Bool
  helpersModule : String
deriving DecidableEq, Repr

/-- CommonJS with lowered markup and external helpers. -/
def EmitOptions.standard : EmitOptions :=
  ⟨.commonJs, .classic .standard, true, "@swc/helpers"⟩

/-- A statement as a line at the top level. -/
def Stmt.topLine (s : Stmt) : String := s.asLine s.print 0

/-- The lines that make a helper available. -/
def Helper.prologue (isExternal : Bool) (helpersModule : String) (helper : Helper) : String :=
  if isExternal then
    (Stmt.declare .const helper.name
      (requireCall (helpersModule ++ "/_/" ++ helper.name))).topLine
  else String.join (helper.definition.map (· ++ "\n"))

/-- The directive at the top of a CommonJS module. -/
def useStrict : Stmt := .expr (.lit (.string ⟨"use strict", some "\"use strict\""⟩))

/-- The mark of a module that had export syntax. -/
def esModuleMarker : Stmt :=
  .expr (.apply (.dot (.ident "Object") "defineProperty")
    [.ident "exports", .ofString "__esModule",
      .object [.keyed (.ident "value") (.ofBool true)]])

/-- The text of a lowered module. -/
def CommonJsModule.print (options : EmitOptions) (m : CommonJsModule) : String :=
  useStrict.topLine ++ (if m.hasExports then esModuleMarker.topLine else "") ++
    String.join (m.helpers.map
      (Helper.prologue options.externalHelpers options.helpersModule)) ++
    String.join (m.body.map Stmt.topLine)

/-- The text of a module in the chosen shape. -/
def Program.emit (options : EmitOptions) (p : Program) : Except EmitError String := do
  let p ← match options.markup with
    | .classic pragma => p.lowerMarkup pragma
    | .preserve => pure p
  match options.format with
  | .esModule => return p.print
  | .commonJs => return (← p.toCommonJs options.externalHelpers).print options

end TsxCompiler

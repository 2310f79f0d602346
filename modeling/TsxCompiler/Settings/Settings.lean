import TsxCompiler.Highlight.Theme
import TsxCompiler.Pass.Registry
import TsxCompiler.Pipeline.Engine
import TsxCompiler.Settings.Choice
import TsxCompiler.Settings.Decode

/-!
# Settings

What can be set, how it is read out of the layers, and the configuration of a run that it stands
for.
-/

namespace TsxCompiler

/-- How sources are read. -/
structure ParserSettings where
  language : String
  markup : Option Bool
  /-- The markup switch for ECMAScript. -/
  jsx : Option Bool
  /-- The markup switch for TypeScript. -/
  tsx : Option Bool
deriving DecidableEq, Repr

/-- How modules are transformed and emitted. -/
structure TransformSettings where
  externalHelpers : Bool
  helpersModule : String
  markup : String
  pragma : Pragma
  skipEnvChecks : Bool
  env : Option String
deriving DecidableEq, Repr

/-- A pass and its options. -/
structure PassSettings where
  name : String
  options : OptionBag

/-- How output is shown. -/
structure HighlightSettings where
  enabled : Bool
  styles : List (String × StyleSpec)
deriving DecidableEq, Repr

/-- Everything that can be set. -/
structure Settings where
  parser : ParserSettings
  format : String
  transform : TransformSettings
  passes : List PassSettings
  highlight : HighlightSettings

/-! ## Meaning -/

namespace ParserSettings

/-- The switch of a language. -/
def switch (s : ParserSettings) : Language → Option Bool
  | .ecmaScript => s.jsx
  | .typeScript => s.tsx

/-- The language with the other switch. -/
def other : Language → Language
  | .ecmaScript => .typeScript
  | .typeScript => .ecmaScript

/-- The dialect. The language's own switch goes before the general one, and the switch of the other
language is refused. -/
def dialect (s : ParserSettings) : Except ConfigError Dialect := do
  let language ← Language.choose s.language
  if (s.switch (other language)).isSome then
    throw (.markupFlagMismatch (other language).markupFlag language.name language.markupFlag)
  return ⟨language, ((s.switch language).or s.markup).getD false⟩

end ParserSettings

namespace TransformSettings

/-- What becomes of markup. -/
def markupMode (s : TransformSettings) : Except ConfigError MarkupMode :=
  MarkupMode.choose s.markup s.pragma

/-- The environment: the one that is set, or else that of the process. An empty name is none. -/
def environment (s : TransformSettings) (processEnv : Option String) : Option String :=
  (s.env.or processEnv).filter fun env => !env.isEmpty

end TransformSettings

/-- The theme for output. -/
def HighlightSettings.theme (s : HighlightSettings) : Except ConfigError Theme :=
  if s.enabled then Theme.ofSpecs s.styles else .ok .plain

namespace Settings

/-- The module format. -/
def moduleFormat (s : Settings) : Except ConfigError ModuleFormat := ModuleFormat.choose s.format

/-- The configuration of a run. Problems are looked for in the passes, the dialect, the module
format and the markup mode, in this order. -/
def config (registry : Registry) (s : Settings) : Except ConfigError Config := do
  let passes ← s.passes.mapM fun p => registry.resolve p.name p.options
  let dialect ← s.parser.dialect
  let format ← s.moduleFormat
  let markup ← s.transform.markupMode
  return ⟨dialect, passes,
    ⟨format, markup, s.transform.externalHelpers, s.transform.helpersModule⟩⟩

end Settings

/-! ## Reading -/

open Setting

/-- Reads how sources are read. -/
def ParserSettings.ofSetting (s : Setting) : Except SettingsError ParserSettings := do
  let shape : Shape := ⟨"ParserSettings", 4⟩
  let parts ← s.toParts shape
  let language ← parts.read? 0 "syntax" toText
  let markup ← parts.read? 1 "markup" (toOption toBool)
  let jsx ← parts.read? 2 "jsx" (toOption toBool)
  let tsx ← parts.read? 3 "tsx" (toOption toBool)
  return ⟨← parts.require shape 0 "syntax" language, markup.join, jsx.join, tsx.join⟩

/-- Reads the name of the module format. -/
def readFormat (s : Setting) : Except SettingsError String := do
  let shape : Shape := ⟨"ModuleSettings", 1⟩
  let parts ← s.toParts shape
  let format ← parts.read? 0 "type" toText
  parts.require shape 0 "type" format

/-- Reads how modules are transformed. -/
def TransformSettings.ofSetting (s : Setting) : Except SettingsError TransformSettings := do
  let shape : Shape := ⟨"TransformSettings", 7⟩
  let parts ← s.toParts shape
  let externalHelpers ← parts.read? 0 "external_helpers" toBool
  let helpersModule ← parts.read? 1 "helpers_module" toText
  let markup ← parts.read? 2 "jsx" toText
  let element ← parts.read? 3 "jsx_pragma" toText
  let fragment ← parts.read? 4 "jsx_pragma_frag" toText
  let skipEnvChecks ← parts.read? 5 "skip_env_checks" toBool
  let env ← parts.read? 6 "env" (toOption toText)
  return ⟨← parts.require shape 0 "external_helpers" externalHelpers,
    ← parts.require shape 1 "helpers_module" helpersModule,
    ← parts.require shape 2 "jsx" markup,
    ⟨← parts.require shape 3 "jsx_pragma" element,
      ← parts.require shape 4 "jsx_pragma_frag" fragment⟩,
    ← parts.require shape 5 "skip_env_checks" skipEnvChecks, env.join⟩

/-- Reads a pass. -/
def PassSettings.ofSetting (s : Setting) : Except SettingsError PassSettings := do
  let shape : Shape := ⟨"PassSettings", 2⟩
  let parts ← s.toParts shape
  let name ← parts.read? 0 "name" toText
  let options ← parts.read? 1 "options" toBag
  return ⟨← parts.require shape 0 "name" name, options.getD []⟩

/-- Reads a style. -/
def StyleSpec.ofSetting (s : Setting) : Except SettingsError StyleSpec := do
  let parts ← s.toParts ⟨"StyleSpec", 4⟩
  let color ← parts.read? 0 "fg" (toOption toText)
  let bold ← parts.read? 1 "bold" toBool
  let italic ← parts.read? 2 "italic" toBool
  let dim ← parts.read? 3 "dim" toBool
  return ⟨color.join, bold.getD false, italic.getD false, dim.getD false⟩

/-- Reads how output is shown. -/
def HighlightSettings.ofSetting (s : Setting) : Except SettingsError HighlightSettings := do
  let shape : Shape := ⟨"HighlightSettings", 2⟩
  let parts ← s.toParts shape
  let enabled ← parts.read? 0 "enabled" toBool
  let styles ← parts.read? 1 "styles" (toTable StyleSpec.ofSetting)
  return ⟨← parts.require shape 0 "enabled" enabled, styles.getD []⟩

/-- Reads all settings. -/
def Settings.ofSetting (s : Setting) : Except SettingsError Settings := do
  let shape : Shape := ⟨"Settings", 5⟩
  let parts ← s.toParts shape
  let parser ← parts.read? 0 "parser" ParserSettings.ofSetting
  let format ← parts.read? 1 "module" readFormat
  let transform ← parts.read? 2 "transform" TransformSettings.ofSetting
  let passes ← parts.read? 3 "passes" (toList PassSettings.ofSetting)
  let highlight ← parts.read? 4 "highlight" HighlightSettings.ofSetting
  return ⟨← parts.require shape 0 "parser" parser, ← parts.require shape 1 "module" format,
    ← parts.require shape 2 "transform" transform, passes.getD [],
    ← parts.require shape 4 "highlight" highlight⟩

end TsxCompiler

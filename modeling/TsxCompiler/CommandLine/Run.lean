import TsxCompiler.CommandLine.Arguments
import TsxCompiler.CommandLine.Demo
import TsxCompiler.Pipeline.Compile
import TsxCompiler.Settings.Load
import TsxCompiler.Text.Split

/-!
# The command line

From arguments, files and standard input to what is printed and how the process ends.
-/

namespace TsxCompiler

/-- Why a path leads to no file. -/
inductive PathError where
  | missing
  /-- The path goes on behind a file. -/
  | notDirectory
  | isDirectory
  | nameTooLong
deriving DecidableEq, Repr

/-- The message for the cause. -/
def PathError.message : PathError → String
  | missing => "No such file or directory (os error 2)"
  | notDirectory => "Not a directory (os error 20)"
  | isDirectory => "Is a directory (os error 21)"
  | nameTooLong => "File name too long (os error 36)"

/-- What a command can see of the world. -/
structure Surroundings where
  /-- The text of the file that a path leads to. -/
  readFile : String → Except PathError String
  stdin : String
  /-- The environment that the process runs in. -/
  processEnv : Option String
  /-- The id of the run when none is given. -/
  freshId : String

/-- How a command ends. -/
inductive Ending where
  /-- With something printed. -/
  | printed (text : String)
  | stopped (why : Stop)
  | badSettings (cause : ConfigError)
  | badSource (cause : PathError)
  | failed (cause : Failure)
deriving DecidableEq, Repr

namespace Ending

/-- The exit code. -/
def code : Ending → Nat
  | printed _ | stopped .help | stopped .version => 0
  | stopped .misuse => 2
  | badSettings _ | badSource _ | failed _ => 1

/-- How the command is used, on one line. -/
def usage : String := "Usage: tsx-refresh [OPTIONS] [PATH]\n"

/-- What is printed. -/
def stdout : Ending → String
  | printed text => text
  | stopped .version => "tsx-refresh 0.1.0\n"
  | stopped .help => usage
  | _ => ""

/-- What is reported. -/
def stderr : Ending → String
  | badSettings cause => "Error: " ++ cause.message ++ "\n"
  | badSource cause => "Error: failed to read source: " ++ cause.message ++ "\n"
  | failed cause => "Error: " ++ cause.display ++ "\n"
  | stopped .misuse => usage
  | _ => ""

end Ending

namespace Arguments

/-- The values that arguments set. -/
def overrides (a : Arguments) : List Override :=
  ((a.format.map fun v => ⟨"module.type", .string v⟩).toList ++
    (a.language.map fun v => ⟨"parser.syntax", .string v⟩).toList ++
    (a.env.map fun v => ⟨"transform.env", .string v⟩).toList ++
    (if a.inlineHelpers then [⟨"transform.external_helpers", .bool false⟩] else []) ++
    (if a.noColor then [⟨"highlight.enabled", .bool false⟩] else []))

/-- Whether a part of a path leads from a directory to itself. -/
def isIdlePart (part : String) : Bool := part == "" || part == "."

/-- A path without the parts that lead nowhere. -/
def plainPath (path : String) : String :=
  "/".intercalate ((Text.parts '/' path).filter fun part => !isIdlePart part)

/-- A path with the usual ending on its last name, if it ends in a name. -/
def withEnding? (path : String) : Option String :=
  match (Text.parts '/' path).reverse.dropWhile isIdlePart with
  | [] | ".." :: _ => none
  | name :: before => some ("/".intercalate ((name ++ ".toml") :: before).reverse)

/-- The paths where the settings of a path are looked for: the path itself comes first. -/
def settingsPaths (path : String) : List String := path :: (withEnding? path).toList

/-- The settings file of a path: the first file among its paths. -/
def settingsFile (w : Surroundings) (path : String) : SettingsFile :=
  let found := (settingsPaths path).findSome? fun candidate =>
    (w.readFile candidate).toOption.map fun text => (candidate, text)
  match found with
  | some (candidate, text) => ⟨plainPath candidate, some text, true⟩
  | none => ⟨path, none, true⟩

/-- The options that settings give a pass. -/
def configuredOptions (s : Settings) (name : String) : OptionBag :=
  ((s.passes.find? fun p => p.name == name).map PassSettings.options).getD []

/-- Settings after the arguments that have no key of their own. Passes named by arguments keep the
options that they have in the settings. -/
def adjust (a : Arguments) (s : Settings) : Settings :=
  let s := if a.noMarkup then
    { s with parser := ⟨s.parser.language, some false, none, none⟩ } else s
  if a.passes.isEmpty then s
  else { s with passes := a.passes.map fun name => ⟨name, configuredOptions s name⟩ }

/-- The settings that arguments ask for. -/
def settings (a : Arguments) (w : Surroundings) : Except ConfigError Settings :=
  (Settings.load (a.config.map (settingsFile w)).toList a.overrides).map a.adjust

/-- The source that arguments name, with its name. -/
def source (a : Arguments) (w : Surroundings) : Except PathError (String × String) :=
  match a.path with
  | none => .ok ("<demo>", demoSource)
  | some "-" => .ok ("<stdin>", w.stdin)
  | some path => (w.readFile path).map fun text => (path, text)

/-- The passes with their descriptions. -/
def passList : String :=
  "Available passes:\n\n" ++ String.join (Registry.builtins.list.map fun (name, description) =>
    "  " ++ name ++ "\n    " ++ description ++ "\n\n")

/-- Carries out what arguments ask for. Settings are loaded before the source is read. -/
def execute (a : Arguments) (w : Surroundings) : Ending :=
  if a.listPasses then .printed passList
  else
    match a.settings w with
    | .error cause => .badSettings cause
    | .ok settings =>
      match a.source w with
      | .error cause => .badSource cause
      | .ok (name, text) =>
        let request : Request := ⟨name, text, settings, a.runId.getD w.freshId⟩
        match (Engine.standard.compile Registry.builtins w.processEnv request).outcome with
        | .ok shown => .printed shown
        | .error cause => .failed cause

end Arguments

/-- Carries out a command line. -/
def runCommand (args : List String) (w : Surroundings) : Ending :=
  match Arguments.parse args with
  | .ok a => a.execute w
  | .error why => .stopped why

end TsxCompiler

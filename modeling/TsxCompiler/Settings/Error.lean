import TsxCompiler.Highlight.Style
import TsxCompiler.Pass.Basic
import TsxCompiler.Settings.KeyPath

/-!
# What can be wrong with a configuration

Every problem is a cause of its own; the wording is in one place.
-/

namespace TsxCompiler

/-- Why settings could not be loaded. -/
inductive SettingsError where
  /-- A value of the wrong kind, with its key, and its file if it is from one. -/
  | wrongKind (found expected key : String) (file : Option String)
  /-- Something that is not built as a section, a list or a table has to be. -/
  | wrongShape (found expected : String)
  /-- A section given as a list that is too short. -/
  | tooShort (length : Nat) (expected : String)
  /-- A field that has to be there. -/
  | missingField (name : String)
  /-- A file that does not exist. -/
  | missingFile (path : String)
  /-- A text that is no settings file. -/
  | malformed (file : String)
  /-- A key that is no path. -/
  | malformedKey (fault : KeyFault)
deriving DecidableEq, Repr

namespace SettingsError

/-- The message for the cause. -/
def message : SettingsError → String
  | wrongKind found expected key file =>
    "invalid type: " ++ found ++ ", expected " ++ expected ++ " for key `" ++ key ++ "`" ++
      (match file with | some f => " in " ++ f | none => "")
  | wrongShape found expected => "invalid type: " ++ found ++ ", expected " ++ expected
  | tooShort length expected => "invalid length " ++ toString length ++ ", expected " ++ expected
  | missingField name => "missing field `" ++ name ++ "`"
  | missingFile path => "configuration file \"" ++ path ++ "\" not found"
  | malformed file => "malformed settings in " ++ file
  | malformedKey fault => fault.message

/-- The error seen from the table that holds the value under a name. -/
def inField (name : String) : SettingsError → SettingsError
  | wrongKind found expected key file =>
    let dot := if key.isEmpty || key.toList.head? == some '[' then "" else "."
    wrongKind found expected (name ++ dot ++ key) file
  | e => e

/-- The error seen from the list that holds the value at an index. -/
def inItem (index : Nat) : SettingsError → SettingsError
  | wrongKind found expected key file =>
    wrongKind found expected ("[" ++ toString index ++ "]" ++ key) file
  | e => e

end SettingsError

/-- What can be wrong with a configuration. -/
inductive ConfigError where
  | unknownLanguage (name : String)
  | unknownFormat (name : String)
  | unknownMarkupMode (name : String)
  /-- The markup switch of the other language was used. -/
  | markupFlagMismatch (flag language expected : String)
  | unknownPass (name : String)
  | invalidOptions (pass : String) (cause : OptionError)
  | invalidStyle (tokenClass : String) (cause : StyleError)
  | settings (cause : SettingsError)
deriving DecidableEq, Repr

/-- The message for the cause. -/
def ConfigError.message : ConfigError → String
  | unknownLanguage name =>
    "unknown syntax '" ++ name ++ "' (expected 'ecmascript' or 'typescript')"
  | unknownFormat name =>
    "unknown module type '" ++ name ++ "' (expected 'commonjs' or 'esmodule')"
  | unknownMarkupMode name =>
    "unknown jsx mode '" ++ name ++ "' (expected 'classic' or 'preserve')"
  | markupFlagMismatch flag language expected =>
    "'" ++ flag ++ "' is not a markup flag for " ++ language ++ " syntax (use '" ++ expected ++ "')"
  | unknownPass name => "pass '" ++ name ++ "' is not registered"
  | invalidOptions pass cause =>
    "invalid options for pass '" ++ pass ++ "': " ++ cause.message
  | invalidStyle tokenClass cause =>
    "invalid highlight style for '" ++ tokenClass ++ "': " ++ cause.message
  | settings cause => "failed to load settings: " ++ cause.message

end TsxCompiler

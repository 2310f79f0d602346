/-!
# Arguments

What can be said on the command line, and how it is read: long and short options, values behind an
equals sign or in the next argument, and `--` in front of what is no option.
-/

namespace TsxCompiler

/-- What was said on the command line. -/
structure Arguments where
  path : Option String
  config : Option String
  format : Option String
  language : Option String
  noMarkup : Bool
  passes : List String
  runId : Option String
  env : Option String
  inlineHelpers : Bool
  noColor : Bool
  listPasses : Bool
  verbose : Bool
deriving DecidableEq, Repr

/-- Why arguments do not lead to a run. -/
inductive Stop where
  | help
  | version
  /-- They make no sense. -/
  | misuse
deriving DecidableEq, Repr

/-- An option with a value. -/
inductive ValueOption where
  | config
  | format
  | language
  | pass
  | runId
  | env
deriving DecidableEq, Repr

/-- An option without a value. -/
inductive Switch where
  | noMarkup
  | inlineHelpers
  | noColor
  | listPasses
  | verbose
  | help
  | version
deriving DecidableEq, Repr

/-- Any option. -/
inductive Flag where
  | valued (option : ValueOption)
  | switch (switch : Switch)
deriving DecidableEq, Repr

/-- The option of a long name. -/
def Flag.ofLong? : String → Option Flag
  | "config" => some (.valued .config)
  | "module" => some (.valued .format)
  | "syntax" => some (.valued .language)
  | "pass" => some (.valued .pass)
  | "run-id" => some (.valued .runId)
  | "env" => some (.valued .env)
  | "no-markup" => some (.switch .noMarkup)
  | "inline-helpers" => some (.switch .inlineHelpers)
  | "no-color" => some (.switch .noColor)
  | "list-passes" => some (.switch .listPasses)
  | "verbose" => some (.switch .verbose)
  | "help" => some (.switch .help)
  | "version" => some (.switch .version)
  | _ => none

/-- The option of a short name. -/
def Flag.ofShort? : Char → Option Flag
  | 'c' => some (.valued .config)
  | 'v' => some (.switch .verbose)
  | 'h' => some (.switch .help)
  | 'V' => some (.switch .version)
  | _ => none

namespace Arguments

/-- What holds when nothing is said. -/
def blank : Arguments :=
  ⟨none, none, none, none, false, [], none, none, false, false, false, false⟩

/-- A value that may be given once. -/
def once (old : Option String) (value : String) : Except Stop (Option String) :=
  if old.isSome then .error .misuse else .ok (some value)

/-- A switch that may be thrown once. -/
def throwOnce (old : Bool) : Except Stop Bool := if old then .error .misuse else .ok true

/-- Gives an option its value. Passes add up; a settings file has to have a name. -/
def give (a : Arguments) (value : String) : ValueOption → Except Stop Arguments
  | .config =>
    if value.isEmpty then .error .misuse else return { a with config := ← once a.config value }
  | .format => return { a with format := ← once a.format value }
  | .language => return { a with language := ← once a.language value }
  | .pass => .ok { a with passes := a.passes ++ [value] }
  | .runId => return { a with runId := ← once a.runId value }
  | .env => return { a with env := ← once a.env value }

/-- Throws a switch. -/
def turnOn (a : Arguments) : Switch → Except Stop Arguments
  | .noMarkup => return { a with noMarkup := ← throwOnce a.noMarkup }
  | .inlineHelpers => return { a with inlineHelpers := ← throwOnce a.inlineHelpers }
  | .noColor => return { a with noColor := ← throwOnce a.noColor }
  | .listPasses => return { a with listPasses := ← throwOnce a.listPasses }
  | .verbose => return { a with verbose := ← throwOnce a.verbose }
  | .help => .error .help
  | .version => .error .version

/-- Takes an argument that is no option. -/
def takePath (a : Arguments) (path : String) : Except Stop Arguments :=
  return { a with path := ← once a.path path }

/-- Reads a long option, its dashes dropped. An option without its value waits for it. -/
def takeLong (a : Arguments) (text : List Char) :
    Except Stop (Arguments × Option ValueOption) :=
  let name := String.ofList (text.takeWhile (· != '='))
  match Flag.ofLong? name, text.dropWhile (· != '=') with
  | some (.valued option), '=' :: value => return (← a.give (String.ofList value) option, none)
  | some (.valued option), _ => .ok (a, some option)
  | some (.switch _), '=' :: _ => .error .misuse
  | some (.switch s), _ => return (← a.turnOn s, none)
  | none, _ => .error .misuse

/-- Reads a row of short options, the dash dropped. What follows an option with a value is the
value. -/
def takeShorts (a : Arguments) : List Char → Except Stop (Arguments × Option ValueOption)
  | [] => .ok (a, none)
  | c :: rest =>
    match Flag.ofShort? c with
    | some (.switch s) => do takeShorts (← a.turnOn s) rest
    | some (.valued option) =>
      match rest with
      | [] => .ok (a, some option)
      | '=' :: value => return (← a.give (String.ofList value) option, none)
      | value => return (← a.give (String.ofList value) option, none)
    | none => .error .misuse

/-- Reads arguments. An option that waits for its value takes the next argument, which must not
look like an option. -/
def takeAll : Arguments → Option ValueOption → List String → Except Stop Arguments
  | a, none, [] => .ok a
  | _, some _, [] => .error .misuse
  | a, waiting, arg :: rest =>
    match arg.toList, waiting with
    | ['-', '-'], none => rest.foldlM takePath a
    | '-' :: '-' :: text, none => do
      let (a, waiting) ← a.takeLong text
      takeAll a waiting rest
    | '-' :: c :: text, none => do
      let (a, waiting) ← a.takeShorts (c :: text)
      takeAll a waiting rest
    | '-' :: _ :: _, some _ => .error .misuse
    | _, some option => do takeAll (← a.give arg option) none rest
    | _, none => do takeAll (← a.takePath arg) none rest

/-- Reads a command line. -/
def parse (args : List String) : Except Stop Arguments := takeAll blank none args

end Arguments

end TsxCompiler

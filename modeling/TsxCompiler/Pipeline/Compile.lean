import TsxCompiler.Settings.Settings

/-!
# From settings to shown code

One request is a source and the settings for it. The answer is the emitted code in the colors of
the theme.
-/

namespace TsxCompiler

/-- A source and what is to be done with it. -/
structure Request where
  sourceName : String
  text : String
  settings : Settings
  runId : String

/-- What became of a request. -/
structure Report where
  /-- The run, unless the configuration was at fault. -/
  run : Option Run
  outcome : Except Failure String

/-- The values of the run that a request asks for. -/
def Request.context (r : Request) (processEnv : Option String) : RunContext :=
  ⟨r.runId, r.settings.transform.skipEnvChecks, r.settings.transform.environment processEnv,
    r.sourceName⟩

/-- Serves a request. Configuration and theme are looked at before the source. -/
def Engine.compile (engine : Engine) (registry : Registry) (processEnv : Option String)
    (r : Request) : Report :=
  match do return (← r.settings.config registry, ← r.settings.highlight.theme) with
  | .error cause => ⟨none, .error (.config cause)⟩
  | .ok (config, theme) =>
    let run := engine.run config (r.context processEnv) r.text
    ⟨some run, run.outcome.map fun code => theme.render (Token.tokenize code)⟩

end TsxCompiler

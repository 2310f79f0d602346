import TsxCompiler.Emit.Emit
import TsxCompiler.Pass.Basic
import TsxCompiler.Pipeline.Failure

/-!
# Runs

A run reads a module, applies the passes in order and emits what the last of them left. The first
failure ends it.
-/

namespace TsxCompiler

/-- What a run is to do: how to read, which passes to apply, and how to emit. -/
structure Config where
  dialect : Dialect
  passes : List Pass
  emit : EmitOptions

/-- TypeScript with markup to CommonJS, without passes. -/
def Config.standard : Config := ⟨.tsx, [], .standard⟩

/-- The reader and the emitter of a run. -/
structure Engine where
  parse : Dialect → String → Except ParseError Program
  emit : EmitOptions → Program → Except EmitError String

/-- The engine that reads and emits modules. -/
def Engine.standard : Engine := ⟨Program.parse, Program.emit⟩

/-- What became of a run. -/
structure Run where
  /-- The passes that were applied, in order; one that refused the module is the last. -/
  applied : List Pass
  outcome : Except Failure String

/-- A module after some of the passes, with the passes that were applied to it. -/
structure Chain where
  applied : List Pass
  outcome : Except Failure Program

/-- Calls passes in order, the first of them at the given index, up to one that refuses. -/
def Pass.callAll {m : Type → Type} [Monad m] (call : Pass → Program → m (Except PassError Program)) :
    Nat → List Pass → Program → m (Except Failure Program)
  | _, [], program => return .ok program
  | index, pass :: rest, program => do
    match ← call pass program with
    | .error cause => return .error (.pass index pass.name cause)
    | .ok next => Pass.callAll call (index + 1) rest next

/-- Applies a pass and puts it on record. -/
def Pass.call (ctx : RunContext) (pass : Pass) (program : Program) :
    StateM (List Pass) (Except PassError Program) := do
  modify (· ++ [pass])
  return pass.apply program ctx

/-- Applies passes in order, the first of them at the given index, up to one that refuses. -/
def Pass.applyAll (ctx : RunContext) (index : Nat) (passes : List Pass) (program : Program) :
    Chain :=
  let (outcome, applied) := (Pass.callAll (Pass.call ctx) index passes program).run []
  ⟨applied, outcome⟩

/-- Runs a configuration on a text. -/
def Engine.run (engine : Engine) (config : Config) (ctx : RunContext) (text : String) : Run :=
  match engine.parse config.dialect text with
  | .error cause => ⟨[], .error (.parse cause)⟩
  | .ok program =>
    let chain := Pass.applyAll ctx 0 config.passes program
    ⟨chain.applied, do
      let program ← chain.outcome
      match engine.emit config.emit program with
      | .ok code => .ok code
      | .error cause => .error (.emit cause)⟩

end TsxCompiler

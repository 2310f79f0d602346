import TsxCompiler.CommandLine.Run

/-!
# The program

Reads what the command line names, carries it out and prints the outcome.
-/

open TsxCompiler

/-- Why a file on disk could not be read. -/
def pathError : IO.Error → PathError
  | .inappropriateType _ code _ => if code = 21 then .isDirectory else .notDirectory
  | .invalidArgument .. => .nameTooLong
  | _ => .missing

/-- The text of a file on disk. -/
def readDisk (path : String) : IO (Except PathError String) := do
  try return .ok (← IO.FS.readFile path)
  catch e => return .error (pathError e)

/-- Reads standard input up to its end. -/
partial def readAll (stream : IO.FS.Stream) (text : String) : IO String := do
  let line ← stream.getLine
  if line.isEmpty then return text else readAll stream (text ++ line)

/-- The paths that arguments may lead to. -/
def namedPaths : Except Stop Arguments → List String
  | .ok a => a.path.toList ++ a.config.toList.flatMap Arguments.settingsPaths
  | .error _ => []

def main (args : List String) : IO UInt32 := do
  let parsed := Arguments.parse args
  let files ← (namedPaths parsed).mapM fun path => return (path, ← readDisk path)
  let wantsInput := match parsed with
    | .ok a => a.path == some "-"
    | .error _ => false
  let stdin ← if wantsInput then readAll (← IO.getStdin) "" else pure ""
  let ending := runCommand args
    ⟨fun path => (files.lookup path).getD (.error .missing), stdin, ← IO.getEnv "NODE_ENV",
      toString (← IO.monoMsNow)⟩
  (← IO.getStdout).putStr ending.stdout
  (← IO.getStderr).putStr ending.stderr
  return UInt32.ofNat ending.code

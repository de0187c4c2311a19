import Recast.Command.Run

/-!
# The program

Reads the files that a command line can be about, runs it, and writes what it leaves behind.
-/

namespace Recast

/-- The reading of one file from the disk. -/
def readDisk (path : String) : IO (Except ReadError String) := do
  try
    let bytes ← IO.FS.readBinFile path
    match String.fromUTF8? bytes with
    | some text => return .ok text
    | none => return .error .notText
  catch e =>
    return .error <| match e with
      | .noFileOrDirectory .. => .notFound
      | .inappropriateType .. => .isDirectory
      | .permissionDenied .. => .denied
      | e => .other (toString e)

/-- The files at the given paths, read once. -/
def readFiles (paths : List String) : IO Files := do
  let found ← paths.mapM fun path => return (path, ← readDisk path)
  return { read := fun path => (found.lookup path).getD (.error .notFound) }

/-- Runs a command line against the disk. -/
def runOnDisk (args : List String) : IO Outcome := do
  let dir := (← IO.currentDir).toString
  let named ← IO.getEnv "REFMINE_CONFIG_PATH"
  let logDirectives ← IO.getEnv "RUST_LOG"
  let noStyles ← IO.getEnv "NO_COLOR"
  let forceStyles ← IO.getEnv "CLICOLOR_FORCE"
  let paths := match Invocation.ofArguments args with
    | .ok inv => inv.paths dir named
    | .error _ => []
  return runCommand args
    { files := ← readFiles paths, dir, namedConfig := named, logDirectives, noStyles, forceStyles }

end Recast

/-- Runs the command line. -/
def main (args : List String) : IO UInt32 := do
  let outcome ← Recast.runOnDisk args
  IO.print outcome.stdout
  for line in outcome.errors do
    IO.eprintln line
  return outcome.code.toUInt32

import GuestThreads.Command

/-!
# The command line

Reads the files that the command asks for and prints what it says.
-/

namespace GuestThreads

/-- Read a file from disk. -/
def readFile (path : String) : IO (Except Cause Bytes) := do
  try
    let bytes ← IO.FS.readBinFile path
    return .ok bytes.data.toList
  catch e =>
    match e with
    | .inappropriateType .. => return .error (.isDirectory path)
    | _ => return .error (.noSuchFile path)

/-- The paths that a command may read. -/
def filesOf (arguments : List String) : List String :=
  match Command.Options.parse arguments with
  | .ok o => [o.config, o.wasm].filter (· ≠ "")
  | .error _ => []

end GuestThreads

open GuestThreads in
/-- Run the command. -/
def main (arguments : List String) : IO UInt32 := do
  let contents ← (filesOf arguments).mapM fun path => return (path, ← readFile path)
  let read : FileReader := fun path => (contents.lookup path).getD (.error (.noSuchFile path))
  let outcome := Command.execute read arguments
  outcome.stdout.forM IO.println
  outcome.stderr.forM IO.eprintln
  return outcome.exit.toUInt32

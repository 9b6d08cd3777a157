import GuestThreads.Bytes
import GuestThreads.Fault

/-!
# Files

The files that a command can read, by path. A path made of dots and slashes alone is a directory.
-/

namespace GuestThreads

/-- How to read the file at a path. -/
abbrev FileReader := String → Except Cause Bytes

structure Files where
  contents : List (String × Bytes) := []

def Files.read (files : Files) : FileReader := fun path =>
  match files.contents.lookup path with
  | some bytes => .ok bytes
  | none =>
    if path ≠ "" && path.all (fun c => c = '.' || c = '/') then .error (.isDirectory path)
    else .error (.noSuchFile path)

end GuestThreads

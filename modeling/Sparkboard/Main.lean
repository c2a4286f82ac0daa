import Sparkboard.Command.Run
import Std.Time.DateTime.Timestamp
/-!
# The program

Reads the files that the command line names into a file tree, runs the command on it, and repeats on
the disk what it changed.
-/

namespace Sparkboard.Main

/-- Puts what stands under a path on the disk under the same path of a tree.  A directory can be
opened but not read; then the error names no file. -/
def observe (t : FileTree) (path : String) : IO FileTree := do
  try
    let bytes ← IO.FS.readBinFile path
    return t.add path (.file bytes.toList)
  catch
    | .inappropriateType none .. => return t.add path .directory
    | _ => return t

def clock : IO Instant := do
  let nanos : Int := (← Std.Time.Timestamp.now).toNanosecondsSinceUnixEpoch.val
  return ⟨nanos.fdiv 1000000000, (nanos.fmod 1000000000).toNat⟩

def repeatChange (files : FileTree) : Command.FileChange → IO Unit
  | .directory path => IO.FS.createDirAll path
  | .file path =>
    match files.read path with
    | .ok bytes => IO.FS.writeBinFile path ⟨bytes.toArray⟩
    | .error _ => pure ()

end Sparkboard.Main

def main (args : List String) : IO UInt32 := do
  let paths :=
    match Sparkboard.Command.Request.parse args with
    | .ok request => request.paths
    | .error _ => []
  let files ← paths.foldlM Sparkboard.Main.observe .empty
  let report := Sparkboard.Command.run args files (← Sparkboard.Main.clock)
  report.changes.forM (Sparkboard.Main.repeatChange report.files)
  IO.print report.out
  IO.eprint report.err
  return report.code.toUInt32

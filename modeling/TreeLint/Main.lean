import TreeLint.Builtin.Host
import TreeLint.Files.Changes
import TreeLint.Files.Listing

/-! The command line. The files come as a listing on the standard input, and those that get fixed
are written where they stand. -/

open TreeLint

def TreeLint.Command.readDisk : IO Disk := do
  match Listing.disk? (← (← IO.getStdin).readToEnd) with
  | some disk => return disk
  | none => throw (IO.userError "the standard input is not a listing of files")

def main (arguments : List String) : IO UInt32 := do
  let disk ←
    match Host.builtin.arguments arguments with
    | .ok _ => Command.readDisk
    | .error _ => pure (.ofWork .empty)
  let (result, after) := Command.execute .builtin (← (← IO.getStdout).isTty) arguments disk
  for (path, text) in disk.changes after do
    IO.FS.writeFile path text
  match result with
  | .error failure =>
    IO.eprintln s!"Error: {failure.message}"
    return 1
  | .ok answer =>
    IO.print answer.output
    return answer.code.toUInt32

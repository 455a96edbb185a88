/-
The program on the command line.

It reads the files that a command names, runs the command on what they contain, writes the database
back if there is one, and prints.  The exit code is 1 for a command that fails and 2 for arguments
that give no command.  A command sees the time at which it starts and no other, so that of all time
budgets only one of zero is used up.
-/
import RecordRules.CommandLine.Command
import Std.Time.DateTime.Timestamp

namespace RecordRules
namespace CommandLine

def readContent (path : String) : IO (Option Content) := do
  try
    let bytes ← IO.FS.readBinFile path
    return some (((String.fromUTF8? bytes).map Content.ofText).getD .other)
  catch
    | .noFileOrDirectory .. => return none
    | _ => return some .other

/-- A file can be made at a path where there is none. -/
def canMake (path : String) : IO Bool := do
  try
    IO.FS.writeFile path ""
    IO.FS.removeFile path
    return true
  catch _ => return false

def addFile (w : Workspace) (path : String) : IO Workspace := do
  match ← readContent path with
  | some c => return (w.put path c).withFolders path
  | none => return w

/-- The files that a command names, and the folders around its database. -/
def openWorkspace (c : Command) : IO Workspace := do
  let w ← c.paths.foldlM addFile .empty
  match c.database? with
  | none => return w
  | some path =>
    if (w.content? path).isSome then return w
    else if ← canMake path then return w.withFolders path
    else return w.put path .other

def saveDatabase (c : Command) (w : Workspace) : IO Unit := do
  match c.database? with
  | none => return
  | some path =>
    match w.content? path with
    | some (.table t) => IO.FS.writeFile path (Content.tableText t)
    | _ => return

def currentTime : IO Int := do
  return (← Std.Time.Timestamp.now).toMillisecondsSinceUnixEpoch.val

def runCommand (c : Command) : IO UInt32 := do
  let w ← openWorkspace c
  let (result, w) := c.run (.steady (← currentTime) 0) w
  saveDatabase c w
  match result with
  | .ok output =>
    IO.println output.shown
    return 0
  | .error e =>
    IO.eprintln s!"Error: {e.message}"
    return 1

end CommandLine
end RecordRules

open RecordRules.CommandLine in
/-- Runs the command that the arguments give. -/
def main (arguments : List String) : IO UInt32 := do
  match Command.ofArguments? arguments with
  | some c => runCommand c
  | none =>
    IO.eprintln "usage: apply -s FILE -m MODULE --record RECORD [options]"
    IO.eprintln "       ref build MODULE FIELD"
    IO.eprintln "       ref parse ADDRESS [-s FILE]"
    return 2

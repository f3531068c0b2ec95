/-
Module: WardleyMaps.Main
Purpose: The program: reads the files that a command needs, runs it, and writes what it changed.
Main exports: main
-/
import Std.Time.Zoned
import WardleyMaps.Command.Run

namespace WardleyMaps

/-!
The command itself is a function on a directory. Here the directory is filled with what stands on
disk at the paths that the command may follow, and afterwards what differs is written to disk.
-/

/-- How the program is called. -/
def usageText : String :=
  "usage: wardleysync [-h] [-v] [--trace] COMMAND ...\n\n"
    ++ "  parse FILE [--json] [--strict]              read a map and report its contents\n"
    ++ "  move FILE NAME VISIBILITY MATURITY [--pixels] [--write]\n"
    ++ "                                              move one declaration\n"
    ++ "  evolve FILE NAME MATURITY [--write]         evolve a component\n"
    ++ "  settings [--path]                           show the settings\n"

/-- What stands on disk at a path from the root. -/
def standing (path : Path) : IO (Option Node) := do
  let place := (← IO.currentDir) / ("/" ++ String.ofList (List.intercalate ['/'] path))
  if ← place.isDir then return some .folder
  if ← place.pathExists then return some (.file (← IO.FS.readBinFile place).toList)
  return none

/-- Add what stands on disk along a path. -/
def addPath (d : Directory) (t : Text) : IO Directory := do
  let route := d.route t
  (List.range (route.length + 1)).foldlM
    (fun d count => do
      let path := Directory.follow (route.take count)
      match d.node? path, ← standing path with
      | none, some node => return d.set path node
      | _, _ => return d)
    d

/-- The directory that a command needs. -/
def directoryFor (command : Command) : IO Directory := do
  let here := Directory.follow (Directory.names (← IO.currentDir).toString.toList)
  let d ← addPath { here, nodes := [] } settingsFile
  let d ← match command.file? with
    | some file => addPath d file
    | none => pure d
  match SettingsStore.load d with
  | .ok s => addPath d s.logging.logFile
  | .error _ => return d

/-- Write to disk what a command changed. -/
def writeChanges (before after : Directory) : IO Unit := do
  for (path, node) in after.nodes do
    if before.node? path ≠ some node then
      let place := (← IO.currentDir) / ("/" ++ String.ofList (List.intercalate ['/'] path))
      match node with
      | .folder => IO.FS.createDirAll place
      | .file bytes => IO.FS.writeBinFile place (ByteArray.mk bytes.toArray)

/-- The time of day in square brackets, down to milliseconds. -/
def timeStamp : IO Text := do
  let now ← Std.Time.PlainDateTime.now
  let part (width n : Nat) : String :=
    let digits := toString n
    String.ofList (List.replicate (width - digits.length) '0') ++ digits
  let hour := part 2 now.time.hour.val.toNat
  let minute := part 2 now.time.minute.val.toNat
  let second := part 2 now.time.second.val.toNat
  let milli := part 3 (now.time.nanosecond.val.toNat / 1000000)
  return (s!"[{hour}:{minute}:{second}.{milli}] ").toList

end WardleyMaps

open WardleyMaps in
/-- Read the command line, run the command and end with its code. -/
def main (args : List String) : IO UInt32 := do
  match Invocation.read (args.map String.toList) with
  | .error usage =>
      match usage with
      | .help => IO.print usageText
      | .wrong => IO.eprint usageText
      return usage.code.toUInt32
  | .ok invocation =>
      let directory ← directoryFor invocation.command
      let outcome := invocation.run (← timeStamp) directory
      writeChanges directory outcome.world.directory
      IO.print (String.ofList outcome.output)
      IO.eprint (String.ofList outcome.world.console)
      match outcome.result with
      | .ok code => return code.toUInt32
      | .error fault =>
          IO.eprintln s!"{fault.kind}: {fault.message}"
          return 1

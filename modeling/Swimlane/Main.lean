import Swimlane.Command.Run

/-!
# The program

Reads the files that a command line names, carries the command out, and writes what it prints and
changes.
-/

namespace Swimlane.Main

/-- Where a path leads from a working directory. -/
def destination (home : List String) (path : String) : List String :=
  (FileTree.parts path).foldl FileTree.move (({ home } : FileTree).start path)

/-- The path up to each of its names. -/
def stages (path : String) : List String :=
  let names := FileTree.parts path
  let stage (n : Nat) : String := String.intercalate "/" (names.take (n + 1))
  ((List.range names.length).map stage).filter (· != "")

/-- The paths that a command reads or writes. -/
def paths : Command → List String
  | .render file output _ _ config => file :: (output.toList ++ config.toList)
  | .ast file _ config => file :: config.toList
  | .check path _ config => path :: config.toList

/-- The path of the text that a command is about. -/
def subject : Command → String
  | .render file .. | .ast file .. | .check file .. => file

/-- The entry under a path, if there is one that can be read. -/
def loadEntry (path : String) : IO (Option Entry) := do
  let full := (← IO.currentDir) / path
  if ← full.isDir then return some .directory
  else if ← full.pathExists then
    try return some (.file (← IO.FS.readBinFile full)) catch _ => return none
  else return none

/-- The entries on the way to a path. -/
def loadPath (home : List String) (path : String) : IO (List (List String × Entry)) := do
  let mut entries := []
  for stage in stages path do
    if let some entry ← loadEntry stage then entries := (destination home stage, entry) :: entries
  return entries

/-- The entries below a directory. Links are left out. -/
partial def loadBelow (place : List String) (path : String) : IO (List (List String × Entry)) := do
  let mut entries := []
  for item in ← ((← IO.currentDir) / path).readDir do
    if (← item.path.symlinkMetadata).type == .symlink then continue
    let inner := place ++ [item.fileName]
    let innerPath := FileTree.join path [item.fileName]
    if let some entry ← loadEntry innerPath then
      entries := (inner, entry) :: entries
      if let .directory := entry then entries := (← loadBelow inner innerPath) ++ entries
  return entries

/-- The files that a command can see, each once. -/
def loadTree (command : Command) : IO FileTree := do
  let home := (FileTree.parts (← IO.currentDir).toString).filter (· != "")
  let mut entries := []
  for path in paths command do
    entries := (← loadPath home path) ++ entries
  if let .check path .. := command then
    if let some .directory ← loadEntry path then
      entries := (← loadBelow (destination home path) path) ++ entries
  return { entries := entries.eraseDupsBy (·.1 == ·.1), home }

/-- All that is left to read on a stream. -/
partial def readAll (stream : IO.FS.Stream) (seen : ByteArray) : IO ByteArray := do
  let block ← stream.read 65536
  if block.isEmpty then return seen else readAll stream (seen ++ block)

/-- What a command finds. -/
def loadWorld (command : Command) : IO World := do
  let input ←
    if isStandardInput (subject command) then readAll (← IO.getStdin) .empty else pure .empty
  let plain := (← IO.getEnv "NO_COLOR").isSome
  return {
    files := ← loadTree command
    input
    paint := !plain && (← (← IO.getStdout).isTty)
    threshold := (← IO.getEnv "SWIMLANE_LOG").map Log.thresholdOf }

/-- A report as a line. -/
def reportLine : Report → String
  | .failure f => f.kind.code ++ ": " ++ f.text
  | .diagnostic d source =>
    d.kind.code ++ ": " ++ source.name ++ ":" ++ toString d.line ++ ": " ++ d.message

/-- Writes the file that a command leaves behind. -/
def store (command : Command) (t : Transcript) : IO Unit := do
  if let .render _ (some output) .. := command then
    if t.exitCode = 0 then
      if let some content := t.files.read? output then IO.FS.writeBinFile output content

end Swimlane.Main

open Swimlane in
/-- Carries out a command line. -/
def main (args : List String) : IO UInt32 := do
  let parsed := Arguments.parse args
  let world ← match parsed with
    | .ok a => Main.loadWorld a.command
    | .error _ => pure {}
  let t := runLine world args
  for entry in t.log do IO.eprintln entry.text
  for report in t.reports do IO.eprintln (Main.reportLine report)
  IO.print t.output
  match parsed with
  | .ok a => Main.store a.command t
  | .error e => if e.exitCode ≠ 0 then IO.eprint usageText
  return t.exitCode.toUInt32

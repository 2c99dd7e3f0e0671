import NotebookTree.Command.Run

/-!
# The command line

Reads the files that the arguments name, runs the command on them, and writes what it leaves.

Reference: `main`, as the command that is installed runs it.
-/

namespace NotebookTree.Command

/-- The file at a path, if there is one that can be read. -/
def readAt (path : String) : IO Folder := do
  try return [(pathNames path, ← IO.FS.readBinFile path)]
  catch _ => return []

/-- Makes the file for log entries, if it can be made. -/
def makeLogFile (args : List String) : IO Unit := do
  match Request.ofArguments args with
  | .ok r => match r.logFile with
    | some path =>
      try discard (IO.FS.Handle.mk path .append)
      catch _ => return
    | none => return
  | .error _ => return

/-- Writes the files that are new or have changed. -/
def writeChanged (before after : Folder) : IO Unit :=
  after.forM (fun f => do
    if before.lookup f.1 != some f.2 then IO.FS.writeBinFile (joinNames f.1) f.2)

end NotebookTree.Command

open NotebookTree Command in
/-- Runs the command. Times of log entries are told in milliseconds since an arbitrary start. -/
def main (args : List String) : IO UInt32 := do
  makeLogFile args
  let files := (← args.mapM readAt).flatten
  let stamp := ⟨toString (← IO.monoMsNow), ""⟩
  let report := run ⟨(← IO.currentDir).toString, stamp, 80⟩ files args
  IO.print report.output
  IO.eprint report.sinks.console
  writeChanged files report.sinks.files
  match report.answer with
  | .ok n => return n.toUInt32
  | .error f =>
    IO.eprintln (f.className ++ ": " ++ f.message)
    return 1

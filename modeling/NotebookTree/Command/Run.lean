import NotebookTree.Command.Request
import NotebookTree.Log.Setup
import NotebookTree.Notebook.Source
import NotebookTree.Output.Bundle
import NotebookTree.Terminal.Engine
import NotebookTree.Value.Plain
import NotebookTree.Walk.CellRule
import NotebookTree.Walk.Listing

/-!
# Running the command

A run reads its arguments, sets up where log entries go, does its task, and tells what stands on the
output, on the console and in the files afterwards. Faults that the library reports, and those of
wrong values, end a run with a message and an answer; any other fault is passed on. So is every
fault of setting up, which comes before the part of `main` that catches faults.

The engines for Markdown and for drawing are parameters here, and so is how many open brackets of
JSON there is room for. Of the stack nothing else is counted but how deep trees are walked.

## Main definitions

* `Command.Report`: what a run leaves.
* `Command.TreeRequest.tree`: the tree that a request asks for.
* `Command.treeText`, `Command.outputsText`: the texts of the two tasks, `_handle_tree` and
  `_handle_outputs`.
* `Command.runWithin`, `Command.run`: a run, `main`.

Reference: `_prepare_tree`, `_print_tree`, `_handle_tree`, `_handle_outputs`, `main`.
-/

namespace NotebookTree.Command

variable [Markdown.Engine] [Terminal.Engine]

/-- What a run leaves: its answer, or the fault that it passes on. -/
structure Report where
  answer : Except Fault Nat
  output : String
  sinks : Log.Sinks

/-- Where a run takes place: where the folder of the files lies, what is written for the time of log
entries, and how wide the terminal is. -/
structure Place where
  home : String
  stamp : Log.Stamp
  width : Nat

/-- The deepest tree that is walked. -/
def depthLimit : Nat := 1000

/-- A text with blanks behind it that make it at least `width` long. -/
def padEnd (width : Nat) (s : String) : String :=
  s ++ String.ofList (List.replicate (width - s.length) ' ')

/-- A text with blanks in front of it that make it at least `width` long. -/
def padStart (width : Nat) (s : String) : String :=
  String.ofList (List.replicate (width - s.length) ' ') ++ s

/-! ## Trees -/

/-- The settings that a request for a tree makes. -/
def TreeRequest.settings (r : TreeRequest) : Except Fault Value := do
  let markdown ← if r.extensions.isEmpty then pure .null
    else Settings.make .markdownSettings [("plugins", .tuple (r.extensions.map .text))]
  Settings.make .parseSettings
    [("parse_markdown", .bool r.readsMarkdown), ("markdown_options", markdown)]

/-- The rules that a request for a tree makes, in the order in which they are applied. -/
def TreeRequest.rules (r : TreeRequest) : List CellRule :=
  (if r.removesOutputs then [.removeOutputs] else [])
    ++ (if r.keptTags.isEmpty then [] else [.keepTagged (r.keptTags.map .text)])
    ++ (if r.removedTags.isEmpty then [] else [.removeTagged (r.removedTags.map .text)])
    ++ (if r.removesEmpty then [.removeEmpty] else [])

/-- A line of a listing, indented as deep as it lies. -/
def indented (l : Nat × String) : String :=
  String.ofList (List.replicate (2 * l.1) ' ') ++ l.2

/-- The text of a listing, plain if it is not to be drawn or there is no engine to draw it. -/
def listingText (width : Nat) (drawn : Bool) (lines : List (Nat × String)) :
    Except Fault String := do
  if !(drawn && Terminal.Engine.installed) then return unlines (lines.map indented)
  match ← Terminal.Outline.ofLines Terminal.Engine.keep lines with
  | some outline => Terminal.Engine.printOutline width outline
  | none => return ""

/-- The tree of the notebook that a request names, with rules applied to it. -/
def TreeRequest.treeWith (r : TreeRequest) (rules : List CellRule) (files : Folder) :
    Walk Unit Item := do
  let settings ← Walk.ofExcept r.settings
  let notebook ← Walk.ofLogged (Notebook.readAtPath files settings r.notebook)
  let root ← Walk.changeStore (fun s => s.load notebook)
  CellRule.applyAll depthLimit rules false root

/-- The tree that a request asks for. -/
def TreeRequest.tree (r : TreeRequest) (files : Folder) : Walk Unit Item :=
  r.treeWith r.rules files

/-- The tree that a request asks for, shown as it asks for. -/
def TreeRequest.work (r : TreeRequest) (width : Nat) (files : Folder) : Walk Unit String := do
  let root ← r.tree files
  match r.layout with
  | .json => return (← Walk.ofExcept (((← Walk.getStore).view root).json (some 2))) ++ "\n"
  | layout =>
    let lines ← Walk.listing depthLimit root r.reverse
    Walk.ofExcept (listingText width (layout == .drawn)
      (lines.map (fun l => (l.depth, l.label.plainText))))

/-- The text of a request for a tree, and the log entries of the work. -/
def treeText (width : Nat) (files : Folder) (r : TreeRequest) :
    Except Fault String × List Log.Entry :=
  let (result, scene) := (r.work width files).run {} ()
  (result, scene.log)

/-! ## Outputs -/

/-- A row about an output: the index of its cell, its type, the type of content to show it by, and
the category of that. -/
structure OutputRow where
  cell : Nat
  type : String
  best : String
  category : String

/-- The row about a node of a cell, if it is an output. -/
def OutputRow.of? (cell : Nat) (node : Value) : Except Fault (Option OutputRow) := do
  if !(← node.isOutput) then return none
  let best := (← Output.bestType node).getD ""
  let category := if best.isEmpty then "" else (Mime.category best).word
  return some ⟨cell, (node.type?.getD .null).plainText, best, category⟩

/-- The rows about the outputs of a notebook. -/
def outputRows (root : Value) : Except Fault (List OutputRow) := do
  let cells := root.children?.getD []
  let rows ← cells.zipIdx.mapM (fun c =>
    (c.1.children?.getD []).filterMapM (OutputRow.of? c.2))
  return rows.flatten

/-- A row on a line of its own. -/
def OutputRow.line (r : OutputRow) : String :=
  padStart 4 (toString r.cell) ++ "  " ++ padEnd 14 r.type ++ " " ++ padEnd 40 r.best ++ " "
    ++ r.category

/-- The rows about outputs on a line each, and below them how many there are. -/
def listedText (rows : List OutputRow) : String :=
  unlines (rows.map OutputRow.line) ++ "\nTotal: " ++ toString rows.length ++ " outputs\n"

/-- The table of the rows about outputs, as it is handed to the engine. -/
def outputTable (rows : List OutputRow) : Terminal.Table where
  title := "Outputs (" ++ toString rows.length ++ ")"
  columns := [⟨"Cell", true⟩, ⟨"Type", false⟩, ⟨"Best MIME type", false⟩, ⟨"Category", false⟩]
  rows := rows.map (fun r => [toString r.cell, r.type, r.best, r.category])

/-- The text of a request for outputs, and the log entries of the work. -/
def outputsText (width : Nat) (files : Folder) (r : OutputsRequest) :
    Except Fault String × List Log.Entry :=
  Logged.outcome do
    let rows ← Logged.ofExcept (outputRows (← Notebook.readAtPath files .null r.notebook))
    if r.drawn && Terminal.Engine.installed then
      Logged.ofExcept (Terminal.Engine.printTable width (outputTable rows))
    else return listedText rows

/-! ## Tasks -/

namespace Task

/-- The path of the notebook that a task is about. -/
def notebook : Task → String
  | .tree r => r.notebook
  | .outputs r => r.notebook

/-- The settings with which a task reads its notebook. -/
def settings : Task → Except Fault Value
  | .tree r => r.settings
  | .outputs _ => .ok .null

/-- The text of a task, and the log entries of the work. -/
def text (width : Nat) (files : Folder) : Task → Except Fault String × List Log.Entry
  | .tree r => treeText width files r
  | .outputs r => outputsText width files r

/-- The text of a task on a stack with room for so many open brackets. With more of them in its
notebook the task ends where they are read, and has told nothing. Settings are made before that. -/
def textWithin (nesting width : Nat) (files : Folder) (task : Task) :
    Except Fault String × List Log.Entry :=
  match task.settings, Notebook.fileDataWithin nesting files (tidyPath task.notebook) with
  | .ok _, .error .tooDeep => (.error .tooDeep, [])
  | _, _ => task.text width files

end Task

/-! ## Runs -/

/-- Where the log entries of a request go, and what setting that up leaves. -/
def Request.setup (r : Request) (place : Place) (files : Folder) :
    Except Fault (Log.Setup × Log.Sinks) :=
  Log.Setup.configured place.home place.stamp (Log.resolveLevel (.text r.level))
    ((r.logFile.map Value.text).getD .null) r.traced ⟨"", files⟩

/-- Does what is asked for. -/
def Request.runWithin (nesting : Nat) (r : Request) (place : Place) (files : Folder) : Report :=
  match r.setup place files with
  | .error f => ⟨.error f, "", ⟨"", files⟩⟩
  | .ok (setup, sinks) =>
    let (result, entries) := r.task.textWithin nesting place.width sinks.files
    let sinks := setup.emitAll place.stamp entries sinks
    match result with
    | .ok text => ⟨.ok 0, text, sinks⟩
    | .error f =>
      if !f.isReported then ⟨.error f, "", sinks⟩
      else
        let sinks := setup.emit place.stamp (.debug .commands "Command failed") sinks
        let console := sinks.console ++ "Error: " ++ f.message ++ "\n"
        ⟨.ok f.exitCode, "", { sinks with console }⟩

/-- A run of the command on a stack with room for so many open brackets. -/
def runWithin (nesting : Nat) (place : Place) (files : Folder) (args : List String) : Report :=
  match Request.ofArguments args with
  | .error ending => ⟨.ok ending.exitCode, ending.output, ⟨ending.console, files⟩⟩
  | .ok r => r.runWithin nesting place files

/-- A run of the command on a stack on which brackets may be nested as deep as trees are walked. -/
def run (place : Place) (files : Folder) (args : List String) : Report :=
  runWithin depthLimit place files args

end NotebookTree.Command

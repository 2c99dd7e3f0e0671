import NotebookTree.Command.Arguments

/-!
# Requests

The command has two subcommands: `tree` shows the tree of a notebook, `outputs` lists the outputs of
its code. The flags of the command itself stand in front of the subcommand, those of the subcommand
behind it. What a subcommand leaves over, the command complains about.

## Main definitions

* `mainGrammar`, `treeGrammar`, `outputsGrammar`: what the command and its subcommands take.
* `Request`: what is asked for.
* `Request.ofArguments`: the request that arguments make.

Reference: `create_parser` for the flags of the command and of its subcommands, `main` for the
request that is read from them.
-/

namespace NotebookTree.Command

/-- Lines, each with a line end. -/
def unlines (ls : List String) : String := String.join (ls.map (· ++ "\n"))

/-- The flag for help. -/
def helpFlag : Flag := { short := some 'h', long := "help" }

/-- The flag for drawing instead of plain lines. -/
def richFlag : Flag := { long := "rich" }

/-- The operand of the subcommands. -/
def notebookOperand : Operand := { name := "notebook" }

/-- The levels of log entries that may be asked for. -/
def levelChoices : List String := ["DEBUG", "INFO", "WARNING", "ERROR", "CRITICAL"]

/-- What the command takes. -/
def mainGrammar : Grammar where
  program := "nbast"
  usage := unlines [
    "usage: nbast [-h] [--log-level \x7bDEBUG,INFO,WARNING,ERROR,CRITICAL\x7d]",
    "             [--log-file LOG_FILE] [--trace]",
    "             \x7btree,outputs\x7d ..."]
  help := unlines [
    "Inspect Jupyter notebooks as node trees.",
    "",
    "positional arguments:",
    "  \x7btree,outputs\x7d",
    "    tree                Print the node tree of a notebook",
    "    outputs             List code cell outputs and their MIME types",
    "",
    "options:",
    "  -h, --help            show this help message and exit",
    "  --log-level \x7bDEBUG,INFO,WARNING,ERROR,CRITICAL\x7d",
    "                        Logging level (default: WARNING)",
    "  --log-file LOG_FILE   Also write log messages to this file",
    "  --trace               Verbose DEBUG logging with timestamps"]
  flags := [helpFlag, { long := "log-level", takesValue := true, choices := levelChoices },
    { long := "log-file", takesValue := true }, { long := "trace" }]
  operand := { name := "command", choices := ["tree", "outputs"], takesRest := true }

/-- What the subcommand for trees takes. -/
def treeGrammar : Grammar where
  program := "nbast tree"
  usage := unlines [
    "usage: nbast tree [-h] [--parse-markdown] [--plugin NAME] [--remove-outputs]",
    "                  [--remove-empty-cells] [--remove-tag TAG] [--keep-tag TAG]",
    "                  [--reverse] [--format \x7btext,json\x7d] [--rich]",
    "                  notebook"]
  help := unlines [
    "positional arguments:",
    "  notebook              Path to an .ipynb file",
    "",
    "options:",
    "  -h, --help            show this help message and exit",
    "  --parse-markdown      Parse markdown cells into node trees",
    "  --plugin NAME         mistune plugin to enable when parsing markdown",
    "                        (repeatable)",
    "  --remove-outputs      Drop all code cell outputs",
    "  --remove-empty-cells  Drop blank code and markdown cells",
    "  --remove-tag TAG      Drop cells carrying TAG (repeatable)",
    "  --keep-tag TAG        Keep only cells carrying TAG (repeatable)",
    "  --reverse             List children in reverse order",
    "  --format \x7btext,json\x7d  Output format",
    "  --rich                Use rich terminal output"]
  flags := [helpFlag, { long := "parse-markdown" }, { long := "plugin", takesValue := true },
    { long := "remove-outputs" }, { long := "remove-empty-cells" },
    { long := "remove-tag", takesValue := true }, { long := "keep-tag", takesValue := true },
    { long := "reverse" }, { long := "format", takesValue := true, choices := ["text", "json"] },
    richFlag]
  operand := notebookOperand

/-- What the subcommand for outputs takes. -/
def outputsGrammar : Grammar where
  program := "nbast outputs"
  usage := unlines [
    "usage: nbast outputs [-h] [--rich] notebook"]
  help := unlines [
    "positional arguments:",
    "  notebook    Path to an .ipynb file",
    "",
    "options:",
    "  -h, --help  show this help message and exit",
    "  --rich      Use rich terminal output"]
  flags := [helpFlag, richFlag]
  operand := notebookOperand

/-- How a tree is shown. -/
inductive Layout where
  | lines | drawn | json
  deriving DecidableEq, Repr

/-- Asks for the tree of a notebook. -/
structure TreeRequest where
  notebook : String
  readsMarkdown : Bool
  extensions : List String
  removesOutputs : Bool
  keptTags : List String
  removedTags : List String
  removesEmpty : Bool
  reverse : Bool
  layout : Layout

/-- Asks for the outputs of a notebook. -/
structure OutputsRequest where
  notebook : String
  drawn : Bool

/-- What a subcommand is to do. -/
inductive Task where
  | tree (r : TreeRequest)
  | outputs (r : OutputsRequest)

/-- What is asked for. -/
structure Request where
  /-- The word for the level of log entries. -/
  level : String
  logFile : Option String
  traced : Bool
  task : Task

/-- The request for a tree that arguments make. -/
def TreeRequest.ofTaken (t : Taken) : TreeRequest where
  notebook := t.operands.headD ""
  readsMarkdown := t.has "parse-markdown"
  extensions := t.values "plugin"
  removesOutputs := t.has "remove-outputs"
  keptTags := t.values "keep-tag"
  removedTags := t.values "remove-tag"
  removesEmpty := t.has "remove-empty-cells"
  reverse := t.has "reverse"
  layout := if t.value? "format" == some "json" then .json
    else if t.has "rich" then .drawn else .lines

/-- The task of a subcommand, and what is left over. -/
def Task.ofArguments (subcommand : String) (args : List String) :
    Except Ending (Task × List String) := do
  if subcommand == "tree" then
    let t ← treeGrammar.take args
    return (.tree (.ofTaken t), t.extras)
  else
    let t ← outputsGrammar.take args
    return (.outputs ⟨t.operands.headD "", t.has "rich"⟩, t.extras)

/-- The request that arguments make. Nothing may be left over. -/
def Request.ofArguments (args : List String) : Except Ending Request := do
  let t ← mainGrammar.take args
  let (task, extras) ← Task.ofArguments (t.operands.headD "") (t.operands.drop 1)
  match t.extras ++ extras with
  | [] =>
    let traced := t.has "trace"
    return ⟨if traced then "DEBUG" else (t.value? "log-level").getD "WARNING", t.value? "log-file",
      traced, task⟩
  | ws => throw (.complaint mainGrammar ("unrecognized arguments: " ++ Value.joinWith " " ws))

end NotebookTree.Command

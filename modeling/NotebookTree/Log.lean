import NotebookTree.Fault

/-!
# Log entries

What the library tells about its work: entries with a level, the part that speaks, and a message.
Work that tells about itself is `Logged`: it may end in a fault, and what it told before stays told.

## Main definitions

* `Log.Level`, `Log.Entry`: how grave an entry is, and the entry itself.
* `Log.Part`: the parts of the library that speak, by the names of their loggers.
* `Logged`: work that tells about itself.

Reference: the loggers of the library and what is told to them, and how a handler of
`configure_logging` formats it.
-/

namespace NotebookTree

namespace Log

/-- How grave an entry is. Any number may stand for a level; five of them have names. -/
abbrev Level := Int

/-- The levels with names, the least grave first. -/
def namedLevels : List (String × Level) :=
  [("DEBUG", 10), ("INFO", 20), ("WARNING", 30), ("ERROR", 40), ("CRITICAL", 50)]

/-- The name of a level; one without a name of its own goes by its number. -/
def levelName (level : Level) : String :=
  if level == 0 then "NOTSET"
  else match namedLevels.find? (fun l => l.2 == level) with
    | some (name, _) => name
    | none => "Level " ++ toString level

/-- One entry. -/
structure Entry where
  level : Level
  logger : String
  message : String
  deriving DecidableEq, Repr

/-- The parts of the library that speak. -/
inductive Part where
  | package | walker | transforms | processor | outputs | reader | commands
  deriving DecidableEq, Repr

/-- The logger of a part. -/
def Part.logger : Part → String
  | package => "nbast"
  | walker => "nbast.ast.walker"
  | transforms => "nbast.transforms.builtin"
  | processor => "nbast.processor"
  | outputs => "nbast.output_utils"
  | reader => "nbast.parsers.ipynb"
  | commands => "nbast.cli"

/-- An entry about the course of the work. -/
def Entry.debug (p : Part) (message : String) : Entry := ⟨10, p.logger, message⟩

/-- An entry about something that the user should know. -/
def Entry.warning (p : Part) (message : String) : Entry := ⟨30, p.logger, message⟩

/-- An entry on a line of its own. -/
def Entry.line (e : Entry) : String :=
  levelName e.level ++ " " ++ e.logger ++ ": " ++ e.message

end Log

/-- Work that tells about itself and may end in a fault. -/
abbrev Logged (α : Type) := ExceptT Fault (StateM (List Log.Entry)) α

namespace Logged

/-- Adds an entry. -/
def tell (e : Log.Entry) : Logged Unit :=
  modify (· ++ [e])

/-- Work without entries. -/
def ofExcept {α : Type} (e : Except Fault α) : Logged α :=
  ExceptT.mk (pure e)

/-- What came of the work, and the entries. -/
def outcome {α : Type} (work : Logged α) : Except Fault α × List Log.Entry :=
  StateT.run (ExceptT.run work) []

end Logged

end NotebookTree

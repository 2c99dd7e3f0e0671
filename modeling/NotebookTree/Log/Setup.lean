import NotebookTree.Files
import NotebookTree.Log
import NotebookTree.Text.Character

/-!
# Where log entries go

Entries go to handlers, which write them to the console or to a file. An entry has to be grave
enough twice: for its logger and for the handler. A logger without a threshold of its own has that
of the logger above it; names of loggers are paths with points between their parts.

## Main definitions

* `Log.resolveLevel`: the threshold that a value stands for.
* `Log.Setup`: the thresholds of loggers, and the handlers.
* `Log.Setup.configured`: the setup for a threshold, with or without a file.
* `Log.Setup.emit`: what an entry leaves on the console and in the files.

Reference: `resolve_log_level`, `configure_logging`.
-/

namespace NotebookTree.Log

/-- How grave an entry has to be. A truth value stands for one or zero. -/
inductive Threshold where
  | level (n : Level)
  | flag (b : Bool)
  deriving DecidableEq, Repr

namespace Threshold

/-- The level of a threshold. -/
def number : Threshold → Level
  | level n => n
  | flag b => if b then 1 else 0

/-- A threshold, raised to a level if it lies below. -/
def raisedTo (t : Threshold) (n : Level) : Threshold := if t.number < n then level n else t

end Threshold

/-- The words for levels, those for the same level included. -/
def levelWords : List (String × Level) :=
  [("NOTSET", 0), ("DEBUG", 10), ("INFO", 20), ("WARNING", 30), ("WARN", 30), ("ERROR", 40),
   ("CRITICAL", 50), ("FATAL", 50)]

/-- The threshold that a value stands for: a number for itself, a word in any case for its level,
and everything else for the level of information. -/
def resolveLevel : Value → Threshold
  | .int n => .level n
  | .bool b => .flag b
  | v => .level ((levelWords.lookup
      (String.ofList (Text.upper v.plainText.toList))).getD 20)

/-- How entries are written: with level and message, or with everything that is known. -/
inductive Format where
  | brief | traced
  deriving DecidableEq, Repr

/-- The pattern of a format. -/
def Format.pattern : Format → String
  | brief => "%(levelname)s: %(message)s"
  | traced => "[%(asctime)s] [%(levelname)s] [%(name)s:%(funcName)s:%(lineno)d] %(message)s"

/-- The pattern of times in a format that tells them. -/
def Format.timePattern? : Format → Option String
  | brief => none
  | traced => some "%Y-%m-%d %H:%M:%S"

/-- When and at which place of its logger an entry was made. -/
structure Stamp where
  time : String
  place : String

/-- The line for an entry. -/
def Format.line (f : Format) (stamp : Stamp) (e : Entry) : String :=
  match f with
  | brief => levelName e.level ++ ": " ++ e.message ++ "\n"
  | traced => "[" ++ stamp.time ++ "] [" ++ levelName e.level ++ "] [" ++ e.logger ++ stamp.place
      ++ "] " ++ e.message ++ "\n"

/-- Where a handler writes. -/
inductive Target where
  | console
  | file (names : List String)
  deriving DecidableEq, Repr

/-- A handler. -/
structure Handler where
  target : Target
  threshold : Threshold
  format : Format

/-- The thresholds of loggers, and the handlers. -/
structure Setup where
  root : Threshold := .level 30
  loggers : List (String × Threshold) := []
  handlers : List Handler := []

/-- What stands on the console, and the files. -/
structure Sinks where
  console : String
  files : Folder

/-- Writes an entry where a handler writes. -/
def Handler.write (h : Handler) (stamp : Stamp) (e : Entry) (sinks : Sinks) : Sinks :=
  if e.level < h.threshold.number then sinks
  else
    let line := h.format.line stamp e
    match h.target with
    | .console => { sinks with console := sinks.console ++ line }
    | .file names => { sinks with files := sinks.files.extend names line.toUTF8 }

/-- The name of a logger and of those above it. -/
def loggerLine (logger : String) : List String :=
  let parts := logger.splitOn "."
  (List.range parts.length).reverse.map (fun i => Value.joinWith "." (parts.take (i + 1)))

namespace Setup

/-- The level below which entries of a logger are dropped: of the thresholds from the logger
upwards, the first other than zero. -/
def thresholdOf (s : Setup) (logger : String) : Level :=
  let own := (loggerLine logger).filterMap (fun name => s.loggers.lookup name)
  (((own ++ [s.root]).map Threshold.number).find? (· != 0)).getD 0

/-- Whether a logger passes an entry on. Entries of level zero or below are never passed on. -/
def passes (s : Setup) (e : Entry) : Bool :=
  0 < e.level && s.thresholdOf e.logger ≤ e.level

/-- What an entry leaves. Without handlers, a warning still leaves its message on the console. -/
def emit (s : Setup) (stamp : Stamp) (e : Entry) (sinks : Sinks) : Sinks :=
  if !s.passes e then sinks
  else if s.handlers.isEmpty then
    if e.level < 30 then sinks else { sinks with console := sinks.console ++ e.message ++ "\n" }
  else s.handlers.foldl (fun sinks h => h.write stamp e sinks) sinks

/-- What entries leave, one after the other. -/
def emitAll (s : Setup) (stamp : Stamp) (es : List Entry) (sinks : Sinks) : Sinks :=
  es.foldl (fun sinks e => s.emit stamp e sinks) sinks

/-- The loggers of the engines for markup and terminals. -/
def engineLoggers : List String := ["bs4", "mistune", "rich"]

/-- The setup for a threshold: entries go to the console, those of the engines only if they are
warnings or everything is traced. -/
def withConsole (threshold : Threshold) (traced : Bool) : Setup :=
  let engines := if traced then threshold else threshold.raisedTo 30
  ⟨threshold, engineLoggers.map (·, engines) ++ [(Part.package.logger, threshold)],
    [⟨.console, threshold, if traced then .traced else .brief⟩]⟩

/-- The setup with a file as well. -/
def withFile (s : Setup) (names : List String) : Setup :=
  { s with handlers := s.handlers ++ s.handlers.map (fun h => { h with target := .file names }) }

/-- The setup for a threshold, and what setting it up leaves. A file that is not named is not used;
one that cannot be written is told about. -/
def configured (home : String) (stamp : Stamp) (threshold : Threshold) (file : Value)
    (traced : Bool) (sinks : Sinks) : Except Fault (Setup × Sinks) :=
  let setup := withConsole threshold traced
  if !file.isTruthy then .ok (setup, sinks)
  else match file with
    | .text path => match sinks.files.place home path with
      | .ok names =>
        let setup := setup.withFile names
        let sinks := { sinks with files := sinks.files.extend names ByteArray.empty }
        let e : Entry := ⟨20, Part.package.logger, "Logging to file: " ++ path⟩
        .ok (setup, setup.emit stamp e sinks)
      | .error (.noFile obstacle full) =>
        -- the setup goes on without the file
        let e : Entry := ⟨30, Part.package.logger, "Could not create log file " ++ path ++ ": "
          ++ (Fault.noFile obstacle full).message⟩
        .ok (setup, setup.emit stamp e sinks)
      | .error f => .error f
    | _ => .error .wrongType

end Setup

end NotebookTree.Log

import NotebookTree.Value.Spelling

/-!
# Faults

What can go wrong, by cause. Most faults are misuse of a value (a field it does not have, an entry
that is missing); failures are this library's own reports, which carry a message, details, and the
fault that led to them.

## Main definitions

* `Fault`: the causes.
* `FailureKind`: the kinds of this library's own failures.
* `Fault.className`, `Fault.message`: how a fault is called and what it says.
* `Fault.lineage`, `Fault.exitCode`: where its class stands among the others, and what a command
  that fails with it answers.

Reference: `NbAstError` and the classes below it, and `get_exit_code_for_exception`.
-/

namespace NotebookTree

/-- The kinds of failures that this library reports. -/
inductive FailureKind where
  | general | validation | file | malformedFile | parsing | dependency
  deriving DecidableEq, Repr

/-- What keeps a file from being read or written. -/
inductive FileObstacle where
  | missing | isDirectory | notDirectory | nameTooLong
  deriving DecidableEq, Repr

/-- What went wrong. -/
inductive Fault where
  /-- A value has no such field. -/
  | noAttribute (owner name : String)
  /-- A value of a type that the operation does not take, or arguments that do not fit. -/
  | wrongType
  | noKey
  | noIndex
  /-- A field of settings was to be changed in place. -/
  | frozen
  | badValue (message : String)
  | tooDeep
  | notJson
  | notUtf8
  | noFile (obstacle : FileObstacle) (path : String)
  /-- A backend that is not there. -/
  | noBackend
  /-- Markup that cannot be read at all. -/
  | badMarkup
  /-- Raised from outside, by class and message. -/
  | raised (name message : String)
  /-- A failure with its details by name, and the fault behind it. -/
  | failure (kind : FailureKind) (message : String) (details : Entries Value)
      (cause : Option Fault)

instance : Inhabited Fault := ⟨.wrongType⟩

/-- The class of a kind of failures. -/
def FailureKind.className : FailureKind → String
  | general => "NbAstError"
  | validation => "ValidationError"
  | file => "FileError"
  | malformedFile => "MalformedFileError"
  | parsing => "ParsingError"
  | dependency => "DependencyError"

/-- All kinds of failures. -/
def FailureKind.all : List FailureKind :=
  [general, validation, file, malformedFile, parsing, dependency]

/-- The kind of failures with the given class. -/
def FailureKind.ofClassName? (s : String) : Option FailureKind :=
  FailureKind.all.find? (fun k => k.className == s)

namespace FileObstacle

/-- The class of the fault for an obstacle. -/
def className : FileObstacle → String
  | missing => "FileNotFoundError"
  | isDirectory => "IsADirectoryError"
  | notDirectory => "NotADirectoryError"
  | nameTooLong => "OSError"

/-- The number and the words that systems have for an obstacle. -/
def report : FileObstacle → String
  | missing => "[Errno 2] No such file or directory"
  | isDirectory => "[Errno 21] Is a directory"
  | notDirectory => "[Errno 20] Not a directory"
  | nameTooLong => "[Errno 36] File name too long"

end FileObstacle

namespace Fault

/-- The class of a fault. -/
def className : Fault → String
  | noAttribute _ _ => "AttributeError"
  | wrongType => "TypeError"
  | noKey => "KeyError"
  | noIndex => "IndexError"
  | frozen => "FrozenInstanceError"
  | badValue _ => "ValueError"
  | tooDeep => "RecursionError"
  | notJson => "JSONDecodeError"
  | notUtf8 => "UnicodeDecodeError"
  | noFile obstacle _ => obstacle.className
  | noBackend => "FeatureNotFound"
  | badMarkup => "ParserRejectedMarkup"
  | raised name _ => name
  | failure kind _ _ _ => kind.className

/-- What a fault says. -/
def message : Fault → String
  | noAttribute owner name =>
    Text.quote owner ++ " object has no attribute " ++ Text.quote name
  | badValue text => text
  | noFile obstacle path => obstacle.report ++ ": " ++ Text.quote path
  | raised _ text => text
  | failure _ text _ _ => text
  | _ => ""

/-- The class that a class refines, for those that do not stand directly under the common one. -/
def parentClass? (name : String) : Option String :=
  [("ValidationError", "NbAstError"), ("FileError", "NbAstError"),
   ("MalformedFileError", "FileError"), ("ParsingError", "NbAstError"),
   ("DependencyError", "NbAstError"),
   ("ModuleNotFoundError", "ImportError"), ("KeyError", "LookupError"),
   ("IndexError", "LookupError"), ("UnicodeError", "ValueError"),
   ("UnicodeDecodeError", "UnicodeError"), ("UnicodeEncodeError", "UnicodeError"),
   ("UnicodeTranslateError", "UnicodeError"), ("JSONDecodeError", "ValueError"),
   ("FileNotFoundError", "OSError"), ("IsADirectoryError", "OSError"),
   ("NotADirectoryError", "OSError"), ("PermissionError", "OSError"),
   ("FileExistsError", "OSError"), ("TimeoutError", "OSError"), ("BlockingIOError", "OSError"),
   ("ChildProcessError", "OSError"), ("InterruptedError", "OSError"),
   ("ProcessLookupError", "OSError"), ("ConnectionError", "OSError"),
   ("BrokenPipeError", "ConnectionError"), ("ConnectionAbortedError", "ConnectionError"),
   ("ConnectionRefusedError", "ConnectionError"), ("ConnectionResetError", "ConnectionError"),
   ("NotImplementedError", "RuntimeError"), ("RecursionError", "RuntimeError"),
   ("ZeroDivisionError", "ArithmeticError"), ("OverflowError", "ArithmeticError"),
   ("FloatingPointError", "ArithmeticError"), ("UnboundLocalError", "NameError"),
   ("IndentationError", "SyntaxError"), ("TabError", "IndentationError"),
   ("FrozenInstanceError", "AttributeError"), ("FeatureNotFound", "ValueError"),
   ("UserWarning", "Warning"), ("DeprecationWarning", "Warning"),
   ("RuntimeWarning", "Warning"), ("SyntaxWarning", "Warning"), ("FutureWarning", "Warning"),
   ("ImportWarning", "Warning"), ("UnicodeWarning", "Warning"), ("BytesWarning", "Warning"),
   ("ResourceWarning", "Warning"), ("PendingDeprecationWarning", "Warning")].lookup name

/-- A class followed by those that it refines, `fuel` of them at most. -/
def lineageFrom : (fuel : Nat) → String → List String
  | 0, name => [name]
  | fuel + 1, name => name :: (match parentClass? name with
    | some parent => lineageFrom fuel parent
    | none => [])

/-- A class followed by those that it refines, the common one last. No line is longer than four. -/
def lineage (name : String) : List String :=
  if name == "Exception" then [name] else lineageFrom 4 name ++ ["Exception"]

/-- The answer of a command that fails with a fault of the given class. -/
def exitCodeOf (name : String) : Nat :=
  let line := lineage name
  if line.contains "DependencyError" || line.contains "ImportError" then 2
  else if line.contains "ValidationError" || line.contains "ValueError" then 3
  else if line.contains "FileError" then 4
  else if line.contains "ParsingError" then 6
  else 1

/-- The answer of a command that fails. -/
def exitCode (f : Fault) : Nat := exitCodeOf f.className

/-- Whether a fault is one that commands report instead of passing on. -/
def isReported (f : Fault) : Bool :=
  let line := lineage f.className
  line.contains "NbAstError" || line.contains "ValueError" || line.contains "ImportError"

end Fault

namespace Value

/-- The fault of a value that lacks a field. -/
def lacks (v : Value) (name : String) : Fault := .noAttribute v.typeName name

/-- A field that has to be there. -/
def field (v : Value) (name : String) : Except Fault Value :=
  match v.attribute? name with
  | some x => .ok x
  | none => .error (v.lacks name)

/-- The items of a value that has to have some. -/
def items (v : Value) : Except Fault (List Value) :=
  match v.items? with
  | some xs => .ok xs
  | none => .error .wrongType

/-- The entries made of pairs; `i` is the place of the first. -/
def pairEntries (done : Entries Value) (i : Nat) : List Value → Except Fault (Entries Value)
  | [] => .ok done
  | v :: vs => match v.items? with
    | none => .error .wrongType
    | some [.text name, x] => pairEntries (done.put name x) (i + 1) vs
    | some [_, _] => .error .wrongType
    | some xs => .error (.badValue ("dictionary update sequence element #" ++ toString i
        ++ " has length " ++ toString xs.length ++ "; 2 is required"))

/-- A value as entries: a record's own, or those made of a sequence of pairs. -/
def asEntries : Value → Except Fault (Entries Value)
  | record es => .ok es
  | v => match v.items? with
    | some xs => pairEntries [] 0 xs
    | none => .error .wrongType

end Value

end NotebookTree

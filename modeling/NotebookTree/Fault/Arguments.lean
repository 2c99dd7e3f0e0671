import NotebookTree.Fault

/-!
# Faults from arguments

A fault may be raised from outside, by its class and arguments. The classes of this library's own
failures take named arguments, each of which may also be given by place; a failure for a missing
dependency without a message says itself what is missing.

## Main definitions

* `FailureKind.parameters`: the arguments of a class of failures.
* `bindArguments`: arguments by place and by name, each to its parameter.
* `FailureKind.raise`: the failure for its arguments.
* `Fault.raiseOther`: a fault of another class.

Reference: the constructors of `NbAstError` and of the classes below it.
-/

namespace NotebookTree

namespace FailureKind

/-- The arguments of a class of failures, in order, and whether each has to be given. The fault
behind a failure comes last. -/
def parameters : FailureKind → List (String × Bool)
  | general => [("message", true), ("original_error", false)]
  | validation => [("message", true), ("parameter_name", false), ("parameter_value", false),
      ("original_error", false)]
  | file | malformedFile => [("message", true), ("file_path", false), ("original_error", false)]
  | parsing => [("message", true), ("parsing_stage", false), ("original_error", false)]
  | dependency => [("component", true), ("missing_packages", true), ("message", false),
      ("original_error", false)]

end FailureKind

/-- Binds arguments to parameters: first by place, then by name. None may be given twice, be
unknown, or be missing if it has to be given. -/
def bindArguments (parameters : List (String × Bool)) (placed : List Value)
    (named : Entries Value) : Except Fault (Entries Value) := do
  if parameters.length < placed.length then throw .wrongType
  let byPlace := (parameters.map Prod.fst).zip placed
  if named.any (fun n => Entries.has byPlace n.1 || !parameters.any (fun p => p.1 == n.1)) then
    throw .wrongType
  let given := byPlace ++ named
  if parameters.any (fun p => p.2 && !Entries.has given p.1) then throw .wrongType
  return given

/-- A package and the condition on its version. -/
def packageParts (v : Value) : Except Fault (Value × Value) := do
  match ← v.items with
  | [name, condition] => return (name, condition)
  | [] => throw (.badValue "not enough values to unpack (expected 2, got 0)")
  | [_] => throw (.badValue "not enough values to unpack (expected 2, got 1)")
  | _ => throw (.badValue "too many values to unpack (expected 2)")

/-- How an installer is told about a package. -/
def installWord (p : Value × Value) : Except Fault String :=
  if p.2.isTruthy then .ok ("\"" ++ p.1.plainText ++ p.2.plainText ++ "\"")
  else match p.1 with
    | .text s => .ok s
    | _ => .error .wrongType

/-- What a failure for missing packages says by itself. -/
def missingMessage (component packages : Value) : Except Fault String := do
  let parts ← (← packages.items).mapM packageParts
  let names := parts.map (fun p =>
    "'" ++ p.1.plainText ++ (if p.2.isTruthy then p.2.plainText else "") ++ "'")
  let missing := component.plainText ++ " processing requires the following packages: "
    ++ Value.joinWith ", " names
  if !packages.isTruthy then return missing
  let words ← parts.mapM installWord
  return missing ++ "\nInstall with: pip install --upgrade " ++ Value.joinWith " " words

/-- The failure of a class for its arguments, with the fault behind it. -/
def FailureKind.raise (kind : FailureKind) (placed : List Value) (named : Entries Value)
    (cause : Option Fault) : Except Fault Fault := do
  let given ← bindArguments kind.parameters placed named
  let details := given.filter (fun g => g.1 != "message" && g.1 != "original_error")
  let cause := match cause, Entries.get? given "original_error" with
    | some c, _ => some c
    | none, some .null => none
    | none, some v => some (.raised v.typeName v.plainText)
    | none, none => none
  match kind, Entries.get? given "message" with
  | .dependency, none | .dependency, some .null =>
    let message ← missingMessage ((Entries.get? given "component").getD .null)
      ((Entries.get? given "missing_packages").getD .null)
    return .failure kind message details cause
  | _, message => return .failure kind (message.getD .null).plainText details cause

/-- A fault of a class that is not this library's own. It says its argument; of several arguments
it says all. -/
def Fault.raiseOther (name : String) (placed : List Value) (named : Entries Value) :
    Except Fault Fault := do
  if !named.isEmpty then throw .wrongType
  match placed with
  | [] => return .raised name ""
  | [v] => return .raised name (if name == "KeyError" then v.literal else v.plainText)
  | vs => return .raised name (Value.tuple vs).literal

end NotebookTree

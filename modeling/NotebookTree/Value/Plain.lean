import NotebookTree.Fault
import NotebookTree.Json.Writer

/-!
# Trees as free-form data

A tree is shown as nested records: for each node its words first, then its fields, without those
that are null. Tuples become lists. The result can be written as JSON, but not made into a tree
again.

## Main definitions

* `Value.plain`: a value with records in place of its nodes.
* `Value.json`: a node as JSON text.

Reference: `_to_plain`, `ast_to_dict`, `ast_to_json`.
-/

namespace NotebookTree

namespace Value

/-- Whether a value is null. -/
def isNull : Value → Bool
  | null => true
  | _ => false

/-- A word that a node answers, as an entry, if it has it and it is not null. -/
def wordEntry (v : Value) (name : String) : Entries Value :=
  match v.attribute? name with
  | none | some null => []
  | some w => [(name, w)]

mutual

/-- A value with records in place of its nodes. -/
def plain : Value → Value
  | list xs => list (plainAll xs)
  | tuple xs => list (plainAll xs)
  | record es => record (plainEntries es)
  | node .stopSignal fields => node .stopSignal fields
  | node k fields =>
    record (Entries.putAll
      (wordEntry (node k fields) "type" ++ wordEntry (node k fields) "cell_type")
      (plainFields (k.fields.map Prod.fst) fields))
  | v => v

/-- Values with records in place of their nodes. -/
def plainAll : List Value → List Value
  | [] => []
  | x :: xs => plain x :: plainAll xs

/-- Entries with records in place of their nodes. -/
def plainEntries : List (String × Value) → List (String × Value)
  | [] => []
  | (name, x) :: es => (name, plain x) :: plainEntries es

/-- The declared ones among the fields of a node, without its type and without those that are null.
-/
def plainFields (names : List String) : List (String × Value) → List (String × Value)
  | [] => []
  | (name, x) :: fs =>
    if name == "type" || x.isNull || !names.contains name then plainFields names fs
    else (name, plain x) :: plainFields names fs

end

/-- A node as JSON text; nothing else has that form. -/
def json (indent : Option Int) : Value → Except Fault String
  | node .stopSignal _ => .error .wrongType
  | node k fields => .ok (Json.write indent (plain (node k fields)))
  | _ => .error .wrongType

end Value

end NotebookTree

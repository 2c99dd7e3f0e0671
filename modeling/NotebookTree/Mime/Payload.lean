import NotebookTree.Mime.Category
import NotebookTree.Fault

/-!
# Free-form types and payloads

Types of content as they come in free-form data, where a type may be something else than a text. A
test that compares finds that such a value is none of the known types; a test that looks inside a
text cannot be made; and what cannot stand as the name of an entry cannot be looked up.

## Main definitions

* `Test`: the tests by name, and `Test.holds`: what a test finds for a value.
* `categoryOf`, `priorityOf`, `bestOf`: category, priority and choice for values.
* `normalize`: a payload of text put together from its pieces.

Reference: `get_mime_type_category`, `get_mime_type_priority` and `select_best_mime_type` for what
is no text, and `normalize_mime_data`.
-/

namespace NotebookTree

mutual

/-- Whether a value may stand as the name of an entry: lists, records and nodes may not. -/
def Value.isName : Value → Bool
  | .list _ => false
  | .record _ => false
  | .tuple xs => Value.areNames xs
  | .node k _ => [Kind.stopSignal, .markdownSettings, .htmlSettings, .markdownToHtmlSettings,
      .renderSettings, .parseSettings].contains k
  | _ => true

/-- Whether all values may stand as names. -/
def Value.areNames : List Value → Bool
  | [] => true
  | x :: xs => x.isName && Value.areNames xs

end

namespace Mime

/-- The tests. -/
inductive Test where
  | text | binary | json | image | html | markdown | widget | visualization | standard
  deriving DecidableEq, Repr

/-- All tests. -/
def Test.all : List Test :=
  [text, binary, json, image, html, markdown, widget, visualization, standard]

/-- The name of a test. -/
def Test.word : Test → String
  | text => "text"
  | binary => "binary"
  | json => "json"
  | image => "image"
  | html => "html"
  | markdown => "markdown"
  | widget => "widget"
  | visualization => "visualization"
  | standard => "standard"

/-- What a test finds for a type. -/
def Test.ofType (test : Test) (t : String) : Bool :=
  match test with
  | text => isText t
  | binary => isBinary t
  | json => isJson t
  | image => isImage t
  | html => t == "text/html"
  | markdown => t == "text/markdown"
  | widget => isWidget t
  | visualization => isVisualization t
  | standard => isStandard t

/-- What a test finds for a value. -/
def Test.holds (test : Test) : Value → Except Fault Bool
  | .text t => .ok (test.ofType t)
  | v => match test with
    | json => .error (v.lacks "endswith")
    | image | visualization => .error (v.lacks "startswith")
    | standard => if v.isName then .ok false else .error .wrongType
    | _ => .ok false

/-- The category of a value. -/
def categoryOf : Value → Except Fault Category
  | .text t => .ok (category t)
  | v => .error (v.lacks "startswith")

/-- The priority of a value. -/
def priorityOf : Value → Except Fault Nat
  | .text t => .ok (priority t)
  | v => if v.isName then .ok usualPriority else .error .wrongType

/-- The weight of a value that can be looked up. -/
def weight : Value → Nat
  | .text t => priority t
  | _ => usualPriority

/-- Whether a value is missing. -/
def isMissing : Value → Bool
  | .null => true
  | _ => false

/-- The choice among values. What is missing is never chosen. -/
def bestOf (types : Value) : Except Fault Value := do
  let vs ← types.items
  if !vs.all (fun v => v.isName) then throw .wrongType
  return (firstGreatest weight none (vs.filter (fun v => !isMissing v))).getD .null

/-- Puts a payload of text together from its pieces; any other payload stays as it is. -/
def normalize (t payload : Value) : Value :=
  match t, payload with
  | .text s, .list xs => if isText s then .text (String.join (xs.map Value.plainText)) else payload
  | .text s, .tuple xs => if isText s then .text (String.join (xs.map Value.plainText)) else payload
  | _, _ => payload

end Mime

end NotebookTree

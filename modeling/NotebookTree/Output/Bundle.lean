import NotebookTree.Mime.Payload
import NotebookTree.Text.Lines

/-!
# What an output offers

Displays and results carry a bundle: one payload for each type of content. Streams and errors carry
none, and are described by a type of content each has by nature. Outputs come as values, so the
fields that are looked at may be missing or hold something unexpected.

## Main definitions

* `Output.isRich`: whether an output carries a bundle.
* `Output.hasText` and the like: what is among the types of the bundle.
* `Output.payload?`: the payload of a type, if there is something in it.
* `Output.types`, `Output.bestType`: the types an output offers, and the one to show.
* `Output.bestText`: the richest text an output has.

Reference: `_is_rich`, `_extract`, `has_html` and the other predicates, `extract_html` and the other
extractors, `get_best_text_representation`, `get_output_mime_types`, `get_best_output_mime_type`.
-/

namespace NotebookTree.Output

/-- Whether an output carries a bundle. -/
def isRich (v : Value) : Bool := v.hasType "displayData" || v.hasType "executeResult"

/-- Whether a name is among the types of a bundle. A text counts as the bundle of its pieces. -/
def offers (bundle : Value) (t : String) : Except Fault Bool :=
  match bundle with
  | .text s => .ok (Text.splitBefore? t.toList s.toList).isSome
  | v => do return (← v.items).any (fun x => x.equals (.text t))

/-- Whether an output has a bundle with a payload of a type. -/
def hasPayload (v : Value) (t : String) : Except Fault Bool :=
  if isRich v then do offers (← v.field "data") t else .ok false

/-- Whether an output has markup. -/
def hasHtml (v : Value) : Except Fault Bool := hasPayload v "text/html"

/-- Whether an output has Markdown. -/
def hasMarkdown (v : Value) : Except Fault Bool := hasPayload v "text/markdown"

/-- Whether an output has plain text. A stream always does. -/
def hasText (v : Value) : Except Fault Bool :=
  if v.hasType "stream" then .ok true else hasPayload v "text/plain"

/-- Whether a test holds for one of the values; they are looked at up to the first. -/
def someHolds (test : Mime.Test) : List Value → Except Fault Bool
  | [] => .ok false
  | x :: xs => do if ← test.holds x then return true else someHolds test xs

/-- Whether an output has a bundle with a type for which a test holds. -/
def hasKindOf (test : Mime.Test) (v : Value) : Except Fault Bool :=
  if isRich v then do someHolds test (← (← v.field "data").items) else .ok false

/-- Whether an output has an image. -/
def hasImage (v : Value) : Except Fault Bool := hasKindOf .image v

/-- Whether an output has a widget. -/
def hasWidget (v : Value) : Except Fault Bool := hasKindOf .widget v

/-- Whether an output has a plot. -/
def hasVisualization (v : Value) : Except Fault Bool := hasKindOf .visualization v

/-- What a bundle holds for a name, null if it holds nothing. -/
def lookUp (bundle name : Value) : Except Fault Value :=
  match bundle with
  | .record es => match name with
    | .text t => .ok ((Entries.get? es t).getD .null)
    | n => if n.isName then .ok .null else .error .wrongType
  | v => .error (v.lacks "get")

/-- The payload of a type in a bundle, put together from its pieces. -/
def payload (bundle name : Value) : Except Fault Value := do
  return Mime.normalize name (← lookUp bundle name)

/-- The payload of a type in a bundle, null if there is nothing in it. -/
def payload? (bundle : Value) (t : String) : Except Fault Value := do
  let v ← payload bundle (.text t)
  return if v.isTruthy then v else .null

/-- The types an output offers. -/
def types (v : Value) : Except Fault (List String) :=
  if v.hasType "stream" then .ok ["text/plain"]
  else if v.hasType "error" then .ok ["application/vnd.jupyter.error"]
  else if isRich v then do
    match ← v.field "data" with
    | .record es => return es.map Prod.fst
    | d => throw (d.lacks "keys")
  else .ok []

/-- The type to show an output by. -/
def bestType (v : Value) : Except Fault (Option String) := do
  return Mime.best? (← types v)

/-- Whether an output offers a type. -/
def hasType (v name : Value) : Except Fault Bool := do
  return (← types v).any (fun t => (Value.text t).equals name)

/-- What the bundle of an output holds for a type. -/
def dataOf (v name : Value) : Except Fault Value := do
  payload (← v.field "data") name

/-- Lines put together; each has to be a text. -/
def joinLines (v : Value) : Except Fault String := do
  let lines ← (← v.items).mapM (fun x => match x with
    | .text s => Except.ok s
    | _ => .error Fault.wrongType)
  return Value.joinWith "\n" lines

/-- The first of several payloads with something in it, and null if there is none. -/
def firstPayload (bundle : Value) : List String → Except Fault Value
  | [] => .ok .null
  | t :: ts => do
    let v ← payload? bundle t
    if v.isTruthy then return v else firstPayload bundle ts

/-- The richest text of an output. -/
def bestText (v : Value) : Except Fault Value :=
  if v.hasType "stream" then v.field "text"
  else if v.hasType "error" then do return .text (← joinLines (← v.field "traceback"))
  else if isRich v then do
    firstPayload (← v.field "data") ["text/html", "text/markdown", "text/plain"]
  else .ok .null

end NotebookTree.Output

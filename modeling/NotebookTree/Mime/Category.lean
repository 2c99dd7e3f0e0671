import NotebookTree.Mime.Table

/-!
# Categories and priorities

Tests say what a type of content holds. They overlap, so a type's category is that of the first test
that holds, in a fixed order. Of several types the one with the highest priority is chosen, and of
those with the same priority the first.

## Main definitions

* `isText`, `isBinary`, `isJson`, `isImage`, `isWidget`, `isVisualization`: the tests.
* `category`: the category of a type.
* `firstGreatest`, `best?`: the choice among several.

Reference: `is_text_mime_type`, `is_binary_mime_type` and the other tests, `get_mime_type_category`,
`get_mime_type_priority`, `select_best_mime_type`.
-/

namespace NotebookTree.Mime

/-- The ways of rendering a type of content. -/
inductive Category where
  | text | binary | json | image | widget | visualization | unknown
  deriving DecidableEq, Repr

/-- The word for a category. -/
def Category.word : Category → String
  | text => "text"
  | binary => "binary"
  | json => "json"
  | image => "image"
  | widget => "widget"
  | visualization => "visualization"
  | unknown => "unknown"

/-- Whether a type holds text, which may come in pieces. -/
def isText (t : String) : Bool := textContent.contains t

/-- Whether a type holds octets. -/
def isBinary (t : String) : Bool := binaryContent.contains t

/-- Whether a type holds free-form data. -/
def isJson (t : String) : Bool :=
  jsonContent.contains t || "+json".toList.isSuffixOf t.toList

/-- Whether a type is one of images. -/
def isImage (t : String) : Bool :=
  imageContent.contains t || "image/".toList.isPrefixOf t.toList

/-- Whether a type is one of widgets. -/
def isWidget (t : String) : Bool := widgetContent.contains t

/-- Whether a type is one of plots. -/
def isVisualization (t : String) : Bool :=
  visualizationStarts.any (fun s => s.toList.isPrefixOf t.toList)

/-- Whether a type has a name. -/
def isStandard (t : String) : Bool := standard.contains t

/-- The category of a type: the first test that holds decides. -/
def category (t : String) : Category :=
  if isWidget t then .widget
  else if isVisualization t then .visualization
  else if isImage t then .image
  else if isJson t then .json
  else if isBinary t then .binary
  else if isText t then .text
  else .unknown

/-- The priority of a type. -/
def priority (t : String) : Nat := (priorities.lookup t).getD usualPriority

/-- The first of the items with the greatest weight, when `held` stands in front of them. -/
def firstGreatest {α : Type} (weight : α → Nat) (held : Option α) : List α → Option α
  | [] => held
  | a :: as => match held with
    | none => firstGreatest weight (some a) as
    | some h => firstGreatest weight (some (if weight h < weight a then a else h)) as

/-- The type to choose among several. -/
def best? (types : List String) : Option String := firstGreatest priority none types

end NotebookTree.Mime

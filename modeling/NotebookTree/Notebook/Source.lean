import NotebookTree.Files
import NotebookTree.Json.Reader
import NotebookTree.Notebook.Convert
import NotebookTree.Settings

/-!
# Where notebooks come from

A notebook comes as data, as octets, from a stream of octets or text, or as the path of a file.
Whichever it is, it has to be a record with a list of cells.

## Main definitions

* `Notebook.Source`, `Notebook.Content`: the forms a notebook comes in, and what streams hand out.
* `Notebook.read`: the tree of a notebook in any of them.
* `Notebook.readText`: the tree of the JSON text of a notebook.
* `Notebook.readAtPath`: the tree of a notebook in a file.

Reference: `parse` of `IpynbParser`, and the functions `parse`, `parse_from_string`,
`parse_from_file`.
-/

namespace NotebookTree.Notebook

/-- What a stream hands out. -/
inductive Content where
  | octets (b : ByteArray)
  | text (s : String)

/-- The text that a stream hands out. -/
def Content.read : Content → Except Fault (List Char)
  | .octets b => decodeText b
  | .text s => .ok s.toList

/-- The forms a notebook comes in. A text in the place of data is the path of a file. -/
inductive Source where
  | data (v : Value)
  | octets (content : ByteArray)
  | stream (content : Content)

/-- The settings to read with; nothing stands for the usual ones. -/
def settingsFor (settings : Value) : Except Fault Value :=
  match settings with
  | .null => .ok (Settings.usual .parseSettings)
  | .node .parseSettings _ => .ok settings
  | v => .error (.failure .validation ("Expected ParseOptions, got " ++ v.typeName)
      [("parameter_name", .text "options"), ("parameter_value", v)] none)

/-- A detail of a failure that tells the path, if there is one. -/
def pathDetail (path : Option String) : Entries Value :=
  match path with
  | some p => [("file_path", .text p)]
  | none => []

/-- The failure that tells what kept the content of a notebook from being read. -/
def contentFailure (path : Option String) (f : Fault) : Fault :=
  match f with
  | .notJson | .notUtf8 => .failure .malformedFile
      "Input is not a valid JSON file. Ensure it is a proper .ipynb notebook."
      (pathDetail path) (some f)
  | .noFile _ _ => .failure .file ("Could not read notebook: " ++ f.message) (pathDetail path)
      (some f)
  | f => f

/-- The failure for a type that no notebook comes in. -/
def unsupportedType (v : Value) : Fault :=
  .failure .validation ("Unsupported input type: " ++ v.typeName)
    [("parameter_name", .text "input_data"), ("parameter_value", .text v.typeName)] none

/-- The data of a notebook in a file. -/
def fileData (files : Folder) (path : String) : Except Fault Value := do
  Json.read (unifyLineEnds (← decodeText (← files.find path)))

/-- The data of a notebook in a file, read on a stack with room for so many open brackets. -/
def fileDataWithin (nesting : Nat) (files : Folder) (path : String) : Except Fault Value := do
  Json.readWithin nesting (unifyLineEnds (← decodeText (← files.find path)))

/-- The data of a notebook, and the path it was read from, if there was one. -/
def dataOf (files : Folder) (source : Source) : Except Fault (Value × Option String) :=
  match source with
  | .data (.record es) => .ok (.record es, none)
  | .data (.text path) =>
    ((fileData files path).map (·, some path)).mapError (contentFailure (some path))
  | .data v => .error (unsupportedType v)
  | .octets content =>
    (((decodeText content).bind Json.read).map (·, none)).mapError (contentFailure none)
  | .stream content =>
    ((content.read.bind Json.read).map (·, none)).mapError (contentFailure none)

/-- Whether data is a record with a list of cells. -/
def isNotebook : Value → Bool
  | .record es => match Entries.get? es "cells" with
    | some (.list _) => true
    | _ => false
  | _ => false

/-- The tree of a notebook. -/
def read [Markdown.Engine] (files : Folder) (settings : Value) (source : Source) :
    Logged Value := do
  let settings ← Logged.ofExcept (settingsFor settings)
  let (notebook, path) ← Logged.ofExcept (dataOf files source)
  if !isNotebook notebook then
    throw (.failure .malformedFile
      "Invalid notebook format: 'cells' key is missing or not a list." (pathDetail path) none)
  convert settings notebook

/-- The tree of the JSON text of a notebook. -/
def readText [Markdown.Engine] (files : Folder) (settings : Value) (text : String) :
    Logged Value := do
  match Json.read text.toList with
  | .ok v => read files settings (.data v)
  | .error .notJson =>
    throw (.failure .malformedFile "Input is not valid notebook JSON." [] (some .notJson))
  | .error f => throw f

/-- The tree of a notebook in a file. -/
def readAtPath [Markdown.Engine] (files : Folder) (settings : Value) (path : String) :
    Logged Value :=
  read files settings (.data (.text (tidyPath path)))

/-- The tree of data that is taken for a notebook without a look at its form. -/
def readData [Markdown.Engine] (settings v : Value) : Logged Value := do
  convert (← Logged.ofExcept (settingsFor settings)) v

end NotebookTree.Notebook

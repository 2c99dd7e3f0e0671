import NotebookTree.Markdown.Document

/-!
# Notebooks as trees

The tree of a notebook: a root with a cell for each entry of `cells`, and in each cell what it
holds. Notebooks are free-form data, and only what is looked at has to have the expected form. A
cell of an unknown type is kept as raw text; an output of an unknown type is left out.

## Main definitions

* `Notebook.joinText`: text that may come in pieces.
* `Notebook.language`: the language of the code.
* `Notebook.output?`, `Notebook.cell`, `Notebook.convert`: the tree of an output, of a cell, and of
  a notebook.

Reference: `_join_text`, `_detect_language`, and `convert_to_ast`, `_process_cell`,
`_markdown_content`, `_process_output` of `IpynbParser`.
-/

namespace NotebookTree.Notebook

/-- Text that may come in pieces. Nothing is no text. -/
def joinText : Value → String
  | .null => ""
  | .list parts => String.join (parts.map Value.plainText)
  | v => v.plainText

/-- The entries of a value that has to be a record. -/
def entriesOf : Value → Except Fault (Entries Value)
  | .record es => .ok es
  | v => .error (v.lacks "get")

/-- An entry, null if it is missing. -/
def entry (es : Entries Value) (name : String) : Value := (Entries.get? es name).getD .null

/-- An entry, or something in its place if it does not count as true. -/
def entryOr (es : Entries Value) (name : String) (d : Value) : Value :=
  let v := entry es name
  if v.isTruthy then v else d

/-- The language of the code: that of the language's own record, or else that of the kernel. -/
def language (metadata : Value) : Except Fault Value := do
  let es ← entriesOf metadata
  let info ← entriesOf (entryOr es "language_info" (.record []))
  let name := entry info "name"
  if name.isTruthy then return name
  let kernel ← entriesOf (entryOr es "kernelspec" (.record []))
  return entryOr kernel "language" .null

/-- A node without position or data of its own. -/
def bare (k : Kind) (fields : Entries Value) : Value :=
  .node k (fields ++ [("data", .null), ("position", .null)])

/-- The tree of an output, if its type is known. -/
def output? (output : Value) (cellIndex index : Nat) : Logged (Option Value) := do
  let es ← Logged.ofExcept (entriesOf output)
  let type := entry es "output_type"
  if type.equals (.text "stream") then
    return some (bare .stream
      [("name", (Entries.get? es "name").getD (.text "stdout")),
       ("text", .text (joinText (entry es "text")))])
  if type.equals (.text "display_data") then
    return some (.node .displayData
      [("data", entryOr es "data" (.record [])), ("metadata", entry es "metadata"),
       ("position", .null)])
  if type.equals (.text "execute_result") then
    return some (.node .executeResult
      [("data", entryOr es "data" (.record [])), ("execution_count", entry es "execution_count"),
       ("metadata", entry es "metadata"), ("position", .null)])
  if type.equals (.text "error") then
    let traceback ← Logged.ofExcept (entryOr es "traceback" (.list [])).items
    return some (bare .error
      [("ename", (Entries.get? es "ename").getD (.text "")),
       ("evalue", (Entries.get? es "evalue").getD (.text "")),
       ("traceback", .list traceback)])
  Logged.tell (.warning .reader ("Skipping unsupported output type '" ++ type.plainText
    ++ "' in cell " ++ toString cellIndex ++ " (output " ++ toString index ++ ")"))
  return none

/-- The trees of outputs, `index` being the place of the first. -/
def outputsFrom (cellIndex : Nat) : (index : Nat) → List Value → Logged (List Value)
  | _, [] => return []
  | index, v :: vs => do
    let output ← output? v cellIndex index
    return output.toList ++ (← outputsFrom cellIndex (index + 1) vs)

/-- What a Markdown cell holds. -/
def markdownContent [Markdown.Engine] (settings : Value) (source : String) : Logged Value := do
  if !(← Logged.ofExcept (settings.field "parse_markdown")).isTruthy then
    return bare .markdown [("value", .text source)]
  let tree ← Markdown.parse (.text source)
    (← Logged.ofExcept (settings.field "markdown_options"))
  return .node .parsedMarkdown [("children", .list (tree.children?.getD [])),
    ("data", .record [("source", .text source)]), ("position", .null)]

/-- The tree of a cell. -/
def cell [Markdown.Engine] (settings language : Value) (index : Nat) (v : Value) :
    Logged Value := do
  let es ← Logged.ofExcept (entriesOf v)
  let type := entry es "cell_type"
  let metadata := entryOr es "metadata" (.record [])
  let source := joinText (entry es "source")
  if type.equals (.text "code") then
    let code := bare .code [("value", .text source), ("lang", language), ("meta", .null)]
    let entries ← Logged.ofExcept (entryOr es "outputs" (.list [])).items
    let outputs ← outputsFrom index 0 entries
    return bare .codeCell [("children", .list (code :: outputs)),
      ("execution_count", entry es "execution_count"), ("metadata", metadata)]
  if type.equals (.text "markdown") then
    let content ← markdownContent settings source
    return bare .markdownCell [("children", .list [content]), ("metadata", metadata)]
  if !type.equals (.text "raw") then
    Logged.tell (.debug .reader ("Encountered unsupported cell type '" ++ type.plainText
      ++ "' at index " ++ toString index ++ "; preserving as raw cell"))
  return bare .rawCell [("children", .list [bare .raw [("value", .text source)]]),
    ("metadata", metadata)]

/-- The trees of cells, `index` being the place of the first. -/
def cellsFrom [Markdown.Engine] (settings language : Value) :
    (index : Nat) → List Value → Logged (List Value)
  | _, [] => return []
  | index, v :: vs => do
    let c ← cell settings language index v
    return c :: (← cellsFrom settings language (index + 1) vs)

/-- The tree of a notebook. -/
def convert [Markdown.Engine] (settings notebook : Value) : Logged Value := do
  let es ← Logged.ofExcept (entriesOf notebook)
  let metadata := entryOr es "metadata" (.record [])
  let language ← Logged.ofExcept (language metadata)
  let entries ← Logged.ofExcept ((Entries.get? es "cells").getD (.list [])).items
  let cells ← cellsFrom settings language 0 entries
  Logged.tell (.debug .reader ("Parsed notebook with " ++ toString cells.length
    ++ " cells (language=" ++ language.plainText ++ ")"))
  return bare .root [("children", .list cells), ("metadata", metadata),
    ("nbformat", (Entries.get? es "nbformat").getD (.int 4)),
    ("nbformat_minor", (Entries.get? es "nbformat_minor").getD (.int 5))]

end NotebookTree.Notebook

import NotebookTree.Value.Guard

/-!
# Labels

One line that says what a node is: its type, and what is most telling about it.

## Main definitions

* `preview`: the beginning of a text.
* `Value.label`: the label of a node.

Reference: `_preview`, `describe_node`.
-/

namespace NotebookTree

/-- The greatest length of a text that is shown in full. -/
def previewLength : Nat := 40

/-- A text, or its beginning if it is long. -/
def preview (s : String) : String :=
  if previewLength < s.length then
    String.ofList (s.toList.take (previewLength - 3)) ++ "..."
  else s

namespace Value

/-- A value as far as it is shown. What has no length cannot be shown, nor can a long sequence,
which cannot be cut short. -/
def previewed : Value → Except Fault Value
  | text s => .ok (.text (preview s))
  | v => match v.items? with
    | some xs => if previewLength < xs.length then .error .wrongType else .ok v
    | none => .error .wrongType

/-- The names of the entries of a record. -/
def names : Value → Except Fault (List String)
  | record es => .ok (es.map Prod.fst)
  | v => .error (v.lacks "keys")

/-- The type of a node for its label, with the kind of a cell or the name of a tag. -/
def typeLabel (v : Value) : Except Fault Value := do
  let type := v.type?.getD (.text "?")
  let cellType := (v.attribute? "cell_type").getD .null
  let extra := (v.attribute? "extra").getD .null
  if cellType.isTruthy then
    return .text (type.plainText ++ "[" ++ cellType.plainText ++ "]")
  else if v.hasType "element" && extra.isTruthy then
    match extra with
    | record es =>
      let tag := (Entries.get? es "tag_name").getD (.text "?")
      return .text ("element<" ++ tag.plainText ++ ">")
    | x => throw (x.lacks "get")
  else return type

/-- The label of a node. A node about which there is nothing to tell is labelled with its type. -/
def label (v : Value) : Except Fault Value := do
  let type ← v.typeLabel
  let start := type.plainText
  if v.hasType "stream" then
    let name ← v.field "name"
    let shown ← (← v.field "text").previewed
    return .text (start ++ " (" ++ name.plainText ++ ") " ++ shown.literal)
  if v.hasType "error" then
    let name ← v.field "ename"
    let shown ← (← v.field "evalue").previewed
    return .text (start ++ " " ++ name.plainText ++ ": " ++ shown.plainText)
  if ← v.isOutput then
    return .text (start ++ " [" ++ joinWith ", " (← (← v.field "data").names) ++ "]")
  if v.isLiteral then
    return .text (start ++ " " ++ (← (← v.field "value").previewed).literal)
  match v.children? with
  | some cs => return .text (start ++ " (" ++ toString cs.length ++ " children)")
  | none => return type

end Value

end NotebookTree

import NotebookTree.Number.Double

/-!
# Values and nodes

One type holds what a notebook is made of: free-form data as it stands in the file, and the nodes of
the tree built from it. A node has a kind and named fields; the kind fixes which fields there are,
their defaults, and the words under which the node presents itself (`type`, `cell_type`). Places in
a source and groups of settings have the same form.

## Main definitions

* `Kind`: the kinds of nodes, places and settings.
* `Value`: data and nodes.
* `Value.attribute?`: a field or one of the words of the kind.
* `Value.equals`: equality of values, in which numbers compare by value and records without order.

Reference: `Point`, `Position`, `Node` and the classes of nodes below it, and how they compare.
-/

namespace NotebookTree

/-- The kinds of nodes, places and settings. -/
inductive Kind where
  | code | markdown | parsedMarkdown | html | parsedHtml | raw | element
  | stream | displayData | executeResult | error
  | codeCell | markdownCell | rawCell | root
  | point | position
  /-- The signal that ends a walk, when it stands in a tree. -/
  | stopSignal
  | markdownSettings | htmlSettings | markdownToHtmlSettings | renderSettings | parseSettings
  deriving DecidableEq, Repr

/-- Free-form data and nodes. Records keep the order of their entries. -/
inductive Value where
  | null
  | bool (b : Bool)
  | int (n : Int)
  | float (x : Double)
  | text (s : String)
  | list (items : List Value)
  | tuple (items : List Value)
  | record (entries : List (String × Value))
  | node (kind : Kind) (fields : List (String × Value))

instance : Inhabited Value := ⟨.null⟩

/-- Named entries in order, each name at most once. -/
abbrev Entries (α : Type) := List (String × α)

namespace Entries

variable {α : Type}

/-- The entry of a name. -/
def get? (es : Entries α) (name : String) : Option α :=
  es.lookup name

/-- Whether there is an entry of that name. -/
def has (es : Entries α) (name : String) : Bool :=
  es.any (fun e => e.1 == name)

/-- Sets an entry: one that is there keeps its place, a new one comes last. -/
def put (es : Entries α) (name : String) (v : α) : Entries α :=
  if es.has name then es.map (fun e => if e.1 == name then (name, v) else e) else es ++ [(name, v)]

/-- Sets entries one after the other. -/
def putAll (es : Entries α) (more : Entries α) : Entries α :=
  more.foldl (fun acc e => acc.put e.1 e.2) es

/-- Drops the entry of a name. -/
def erase (es : Entries α) (name : String) : Entries α :=
  es.filter (fun e => e.1 != name)

end Entries

namespace Kind

/-- The word a node of this kind answers for `type`. An `element` carries its own. -/
def typeWord? : Kind → Option String
  | code => some "code"
  | markdown => some "markdown"
  | parsedMarkdown => some "parsedMarkdown"
  | html => some "html"
  | parsedHtml => some "parsedHtml"
  | raw => some "raw"
  | stream => some "stream"
  | displayData => some "displayData"
  | executeResult => some "executeResult"
  | error => some "error"
  | codeCell | markdownCell | rawCell => some "cell"
  | root => some "root"
  | _ => none

/-- The word a cell answers for `cell_type`. -/
def cellWord? : Kind → Option String
  | codeCell => some "code"
  | markdownCell => some "markdown"
  | rawCell => some "raw"
  | _ => none

/-- The fields of a kind in order, each with its default; a field without one has to be given. -/
def fields : Kind → List (String × Option Value)
  | code => [("value", none), ("lang", some .null), ("meta", some .null)] ++ tail
  | markdown | html | raw => ("value", none) :: tail
  | parsedMarkdown | parsedHtml => ("children", some (.list [])) :: tail
  | element =>
    [("type", none), ("children", some .null), ("value", some .null),
     ("attributes", some (.record [])), ("extra", some (.record []))] ++ tail
  | stream => [("name", none), ("text", none)] ++ tail
  | displayData =>
    [("data", some (.record [])), ("metadata", some .null), ("position", some .null)]
  | executeResult =>
    [("data", some (.record [])), ("execution_count", some .null), ("metadata", some .null),
     ("position", some .null)]
  | error => [("ename", none), ("evalue", none), ("traceback", some (.list []))] ++ tail
  | codeCell =>
    [("children", some (.list [])), ("execution_count", some .null),
     ("metadata", some (.record []))] ++ tail
  | markdownCell | rawCell =>
    [("children", some (.list [])), ("metadata", some (.record []))] ++ tail
  | root =>
    [("children", some (.list [])), ("metadata", some (.record [])), ("nbformat", some (.int 4)),
     ("nbformat_minor", some (.int 5))] ++ tail
  | point => [("line", none), ("column", none), ("offset", none)]
  | position => [("start", none), ("end", none)]
  | stopSignal => []
  | markdownSettings => [("plugins", some (.tuple []))]
  | htmlSettings => [("fragment", some (.bool true)), ("html_parser", some (.text "html.parser"))]
  | markdownToHtmlSettings =>
    [("allow_dangerous_html", some (.bool false)), ("plugins", some (.tuple []))]
  | renderSettings =>
    [("wrap", some (.bool true)), ("wrapper_class", some (.text "jupyter-output")),
     ("preserve_ansi", some (.bool false)), ("markdown_options", some .null)]
  | parseSettings => [("parse_markdown", some (.bool false)), ("markdown_options", some .null)]
where
  /-- The two fields that most kinds end with. -/
  tail : List (String × Option Value) := [("data", some .null), ("position", some .null)]

/-- The name of the kind in the written form of a node. -/
def name : Kind → String
  | code => "Code"
  | markdown => "Markdown"
  | parsedMarkdown => "ParsedMarkdown"
  | html => "Html"
  | parsedHtml => "ParsedHtml"
  | raw => "Raw"
  | element => "Element"
  | stream => "StreamOutput"
  | displayData => "DisplayDataOutput"
  | executeResult => "ExecuteResultOutput"
  | error => "ErrorOutput"
  | codeCell => "CodeCell"
  | markdownCell => "MarkdownCell"
  | rawCell => "RawCell"
  | root => "Root"
  | point => "Point"
  | position => "Position"
  | stopSignal => "WalkSignal"
  | markdownSettings => "MarkdownProcessorOptions"
  | htmlSettings => "HtmlProcessorOptions"
  | markdownToHtmlSettings => "MarkdownToHtmlOptions"
  | renderSettings => "RenderOutputOptions"
  | parseSettings => "ParseOptions"

/-- The kinds a tree is made of. -/
def treeKinds : List Kind :=
  [code, markdown, parsedMarkdown, html, parsedHtml, raw, element, stream, displayData,
   executeResult, error, codeCell, markdownCell, rawCell, root]

/-- The kinds of settings. -/
def settingsKinds : List Kind :=
  [markdownSettings, htmlSettings, markdownToHtmlSettings, renderSettings, parseSettings]

/-- The kind of a tree node with the given name. -/
def ofName? (s : String) : Option Kind :=
  treeKinds.find? (fun k => k.name == s)

/-- The kind of settings with the given name. -/
def settingsOfName? (s : String) : Option Kind :=
  settingsKinds.find? (fun k => k.name == s)

end Kind

namespace Value

/-- The words and values a node answers without having a field for them. -/
def kindAttribute? (k : Kind) (name : String) : Option Value :=
  if name == "type" then k.typeWord?.map text
  else if name == "cell_type" then k.cellWord?.map text
  else if k == .stopSignal && name == "value" then some (text "stop")
  else if k == .stopSignal && name == "name" then some (text "STOP")
  else none

/-- A field of a node, or one of the words of its kind. Plain data answers nothing. -/
def attribute? : Value → String → Option Value
  | node k fields, name => match fields.lookup name with
    | some v => some v
    | none => kindAttribute? k name
  | _, _ => none

/-- The `type` of a node. -/
def type? (v : Value) : Option Value := v.attribute? "type"

/-- Whether `type` is the given word. -/
def hasType (v : Value) (word : String) : Bool :=
  match v.type? with
  | some (text s) => s == word
  | _ => false

/-- Whether `cell_type` is the given word. -/
def hasCellType (v : Value) (word : String) : Bool :=
  match v.attribute? "cell_type" with
  | some (text s) => s == word
  | _ => false

/-- The children of a node that has a list of them. -/
def children? (v : Value) : Option (List Value) :=
  match v.attribute? "children" with
  | some (list items) => some items
  | _ => none

/-- Whether a value counts as true: everything but null, false, zero and what is empty. -/
def isTruthy : Value → Bool
  | null => false
  | bool b => b
  | int n => n != 0
  | float x => !x.isZero
  | text s => !s.isEmpty
  | list xs => !xs.isEmpty
  | tuple xs => !xs.isEmpty
  | record es => !es.isEmpty
  | node _ _ => true

/-- The items of a value that has any: of sequences, the characters of a text, the names of the
entries of a record. -/
def items? : Value → Option (List Value)
  | list xs => some xs
  | tuple xs => some xs
  | text s => some (s.toList.map (fun c => text (String.singleton c)))
  | record es => some (es.map (fun e => text e.1))
  | _ => none

/-- The value unless it is null, missing or otherwise not true. -/
def orElse (v : Option Value) (d : Value) : Value :=
  match v with
  | some x => if x.isTruthy then x else d
  | none => d

/-- The number a truth value or integer stands for. -/
def integer? : Value → Option Int
  | bool b => some (if b then 1 else 0)
  | int n => some n
  | _ => none

/-- Equality of the values that have no parts. Truth values count as one and zero. -/
def equalsScalar : Value → Value → Bool
  | null, null => true
  | text a, text b => a == b
  | float x, float y => x.equals y
  | float x, v => match v.integer? with
    | some n => x.equalsInt n
    | none => false
  | v, float x => match v.integer? with
    | some n => x.equalsInt n
    | none => false
  | v, w => match v.integer?, w.integer? with
    | some m, some n => m == n
    | _, _ => false

mutual

/-- Equality: numbers by value, lists and tuples in order and never with each other, records by
their entries in any order, nodes by kind and declared fields. -/
def equals : Value → Value → Bool
  | list xs, list ys => equalsAll xs ys
  | tuple xs, tuple ys => equalsAll xs ys
  | record es, record fs => es.length == fs.length && equalsEntries es fs
  | node k es, node l fs =>
    k == l && equalsFields (k.fields.map Prod.fst) es fs
  | null, v => equalsScalar null v
  | bool b, v => equalsScalar (bool b) v
  | int n, v => equalsScalar (int n) v
  | float x, v => equalsScalar (float x) v
  | text s, v => equalsScalar (text s) v
  | _, _ => false

/-- Equality of sequences. -/
def equalsAll : List Value → List Value → Bool
  | [], [] => true
  | x :: xs, y :: ys => equals x y && equalsAll xs ys
  | _, _ => false

/-- Whether every entry of the first record has an equal one in the second. -/
def equalsEntries : List (String × Value) → List (String × Value) → Bool
  | [], _ => true
  | (name, x) :: es, fs => (match fs.lookup name with
    | some y => equals x y
    | none => false) && equalsEntries es fs

/-- Whether the declared ones among the fields agree. -/
def equalsFields (names : List String) : List (String × Value) → List (String × Value) → Bool
  | [], _ => true
  | (name, x) :: es, fs =>
    (!names.contains name || (match fs.lookup name with
      | some y => equals x y
      | none => false)) && equalsFields names es fs

end

/-- Nothing but a text equals a text. -/
theorem equals_text_iff {v : Value} {s : String} : v.equals (.text s) = true ↔ v = .text s := by
  cases v <;> simp [equals, equalsScalar, integer?]

end Value

end NotebookTree

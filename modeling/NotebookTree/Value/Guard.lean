import NotebookTree.Mime.Payload

/-!
# Kinds of nodes by their words

A guard tells a kind of node by what it answers for `type` and `cell_type`, or by the fields it
carries. An element answers any word, so it may pass for a node of another kind.

## Main definitions

* `Guard`, `Guard.holds`: the guards, and what they find.
* `Value.isOutput`: whether a node is an output.
* `Value.codeNode`, `Value.outputNodes`: the parts of a code cell.

Reference: `is_parent`, `is_literal`, `is_root`, `is_cell`, `is_output` and the other guards, and
`CodeCell.code`, `CodeCell.outputs`.
-/

namespace NotebookTree

/-- The guards. -/
inductive Guard where
  | isParent | isLiteral | isRoot | isCell | isCodeCell | isMarkdownCell | isRawCell | isOutput
  | isStreamOutput | isDisplayDataOutput | isExecuteResultOutput | isErrorOutput
  | isMarkdown | isParsedMarkdown | isHtml | isParsedHtml
  deriving DecidableEq, Repr

namespace Value

/-- Whether a node has a list of children. -/
def isParent (v : Value) : Bool := v.children?.isSome

/-- Whether a node has a text for its value. -/
def isLiteral (v : Value) : Bool :=
  match v.attribute? "value" with
  | some (.text _) => true
  | _ => false

/-- Whether a node is a cell of the given kind. -/
def isCellOf (v : Value) (word : String) : Bool := v.hasType "cell" && v.hasCellType word

/-- The types of outputs. -/
def outputTypes : List String := ["stream", "displayData", "executeResult", "error"]

/-- Whether a node is an output. A type that cannot stand as a name cannot be looked up. -/
def isOutput (v : Value) : Except Fault Bool :=
  match v.type? with
  | some (.text t) => .ok (outputTypes.contains t)
  | some t => if t.isName then .ok false else .error .wrongType
  | none => .ok false

end Value

namespace Guard

/-- All guards. -/
def all : List Guard :=
  [isParent, isLiteral, isRoot, isCell, isCodeCell, isMarkdownCell, isRawCell, isOutput,
   isStreamOutput, isDisplayDataOutput, isExecuteResultOutput, isErrorOutput, isMarkdown,
   isParsedMarkdown, isHtml, isParsedHtml]

/-- The name of a guard. -/
def name : Guard → String
  | isParent => "is_parent"
  | isLiteral => "is_literal"
  | isRoot => "is_root"
  | isCell => "is_cell"
  | isCodeCell => "is_code_cell"
  | isMarkdownCell => "is_markdown_cell"
  | isRawCell => "is_raw_cell"
  | isOutput => "is_output"
  | isStreamOutput => "is_stream_output"
  | isDisplayDataOutput => "is_display_data_output"
  | isExecuteResultOutput => "is_execute_result_output"
  | isErrorOutput => "is_error_output"
  | isMarkdown => "is_markdown"
  | isParsedMarkdown => "is_parsed_markdown"
  | isHtml => "is_html"
  | isParsedHtml => "is_parsed_html"

/-- The guard of a name. -/
def ofName? (s : String) : Option Guard := all.find? (fun g => g.name == s)

/-- What a guard finds for a node. -/
def holds (g : Guard) (v : Value) : Except Fault Bool :=
  match g with
  | isParent => .ok v.isParent
  | isLiteral => .ok v.isLiteral
  | isRoot => .ok (v.hasType "root")
  | isCell => .ok (v.hasType "cell")
  | isCodeCell => .ok (v.isCellOf "code")
  | isMarkdownCell => .ok (v.isCellOf "markdown")
  | isRawCell => .ok (v.isCellOf "raw")
  | isOutput => v.isOutput
  | isStreamOutput => .ok (v.hasType "stream")
  | isDisplayDataOutput => .ok (v.hasType "displayData")
  | isExecuteResultOutput => .ok (v.hasType "executeResult")
  | isErrorOutput => .ok (v.hasType "error")
  | isMarkdown => .ok (v.hasType "markdown")
  | isParsedMarkdown => .ok (v.hasType "parsedMarkdown")
  | isHtml => .ok (v.hasType "html")
  | isParsedHtml => .ok (v.hasType "parsedHtml")

end Guard

namespace Value

/-- The first item of a sequence. -/
def first : Value → Except Fault Value
  | list (x :: _) | tuple (x :: _) => .ok x
  | list [] | tuple [] => .error .noIndex
  | text s => match s.toList with
    | c :: _ => .ok (.text (String.singleton c))
    | [] => .error .noIndex
  | record _ => .error .noKey
  | _ => .error .wrongType

/-- The items of a sequence behind the first, as a sequence of the same type. -/
def rest : Value → Except Fault Value
  | list xs => .ok (list (xs.drop 1))
  | tuple xs => .ok (tuple (xs.drop 1))
  | text s => .ok (.text (String.ofList (s.toList.drop 1)))
  | _ => .error .wrongType

/-- The children of a code cell. Other nodes have no parts by the names of its parts. -/
def codeChildren (v : Value) (part : String) : Except Fault Value :=
  match v with
  | node .codeCell _ => v.field "children"
  | _ => .error (v.lacks part)

/-- The source of a code cell. -/
def codeNode (v : Value) : Except Fault Value := do (← v.codeChildren "code").first

/-- The outputs of a code cell. -/
def outputNodes (v : Value) : Except Fault Value := do (← v.codeChildren "outputs").rest

end Value

end NotebookTree

import NotebookTree.Fault
import NotebookTree.Markdown.RunningText

/-!
# Tokens

The open form of a Markdown document, which writers read and which edited trees are turned back
into: a token has named fields, among them usually `type`, `raw` and `attrs`, and perhaps children.
Blocks and inlines become tokens once their running text has been read; tokens and element nodes of
a tree stand for each other.

## Main definitions

* `Token`: tokens.
* `Inline.toToken`, `Block.toToken`: tokens of what has been read.
* `Token.toElement`, `tokenOfElement`: tokens and element nodes.

Reference: `_token_to_element`, `_element_to_token`, `_tokens_from_tree`.
-/

namespace NotebookTree.Markdown

/-- A token: its fields in order, and its children if it has any place for them. -/
inductive Token where
  | mk (fields : Entries Value) (children : Option (List Token))

instance : Inhabited Token := ⟨.mk [] none⟩

namespace Token

/-- The fields of a token. -/
def fields : Token → Entries Value
  | mk fs _ => fs

/-- The children of a token. -/
def children : Token → Option (List Token)
  | mk _ cs => cs

/-- A field of a token. -/
def get? (t : Token) (name : String) : Option Value := t.fields.get? name

/-- The fields that have a place of their own in an element node. -/
def isOwnField (name : String) : Bool :=
  name == "type" || name == "children" || name == "raw" || name == "attrs"

/-- The fields that go with an element as they are. -/
def extra (t : Token) : Entries Value := t.fields.filter (fun e => !isOwnField e.1)

end Token

/-- A text as a value. -/
def ofChars (s : List Char) : Value := .text (String.ofList s)

/-- A token with nothing but a type. -/
def plainToken (type : String) : Token := .mk [("type", .text type)] none

/-- A token with children. -/
def parentToken (type : String) (children : List Token) (attrs : Entries Value) : Token :=
  .mk (("type", .text type) :: (if attrs.isEmpty then [] else [("attrs", .record attrs)]))
    (some children)

/-- A token with a text of its own. -/
def rawToken (type : String) (raw : List Char) (attrs : Entries Value) : Token :=
  .mk (("type", .text type) :: ("raw", ofChars raw) ::
    (if attrs.isEmpty then [] else [("attrs", .record attrs)])) none

/-- The type of a span. -/
def SpanKind.tokenType : SpanKind → String
  | strikethrough => "strikethrough"
  | mark => "mark"
  | insert => "insert"
  | superscript => "superscript"
  | subscript => "subscript"
  | spoiler => "inline_spoiler"

/-- A link or an image. One made by reference has a title entry in any case, and says which
reference made it. -/
def linkToken (type : String) (url : List Char) (title : Option (List Char))
    (reference : Option (List Char × List Char)) (children : List Token) : Token :=
  match reference with
  | none =>
    parentToken type children
      (("url", ofChars url) :: (match title with
        | some t => [("title", ofChars t)]
        | none => []))
  | some (label, key) =>
    .mk [("type", .text type),
         ("attrs", .record [("url", ofChars url), ("title", match title with
            | some t => ofChars t
            | none => .null)]),
         ("ref", ofChars key), ("label", ofChars label)] (some children)

mutual

/-- The token of an inline. -/
def Inline.toToken : Inline → Token
  | .text s => rawToken "text" s []
  | .emphasis children => parentToken "emphasis" (inlineTokens children) []
  | .strong children => parentToken "strong" (inlineTokens children) []
  | .codespan s => rawToken "codespan" s []
  | .link url title reference children =>
    linkToken "link" url title reference (inlineTokens children)
  | .image url title reference children =>
    linkToken "image" url title reference (inlineTokens children)
  | .lineBreak => plainToken "linebreak"
  | .softBreak => plainToken "softbreak"
  | .html s => rawToken "inline_html" s []
  | .span kind children => parentToken kind.tokenType (inlineTokens children) []
  | .footnote key index => rawToken "footnote_ref" key [("index", .int index)]
  | .abbreviation title short =>
    parentToken "abbr" [rawToken "text" short []] [("title", ofChars title)]
  | .math s => rawToken "inline_math" s []
  | .displayMath s => rawToken "block_math" s []
  | .ruby base reading => rawToken "ruby" base [("rt", ofChars reading)]

/-- The tokens of inlines. -/
def inlineTokens : List Inline → List Token
  | [] => []
  | i :: is => i.toToken :: inlineTokens is

end

/-- The characters that running text is freed of at both ends. -/
def isTextEdge (c : Char) : Bool :=
  c == ' ' || c == '\r' || c == '\n' || c == '\t' || c == '\x0c'

/-- Reads the running text of a block. -/
def readText (ctx : Context) (text : List Char) : Reading (List Token) := do
  return inlineTokens (← readInlines ctx (Text.strip isTextEdge text))

/-- The word for an alignment. -/
def Alignment.word : Alignment → String
  | left => "left"
  | center => "center"
  | right => "right"

/-- The cells of a row. -/
def cellTokens (ctx : Context) (head : Bool) (aligns : List (Option Alignment)) :
    List (List Char) → Reading (List Token)
  | [] => return []
  | text :: texts => do
    let children ← readText ctx text
    let align : Value := match aligns.headD none with
      | some a => .text a.word
      | none => .null
    let cell := parentToken "table_cell" children [("align", align), ("head", .bool head)]
    return cell :: (← cellTokens ctx head (aligns.drop 1) texts)

/-- The rows of a table. -/
def rowTokens (ctx : Context) (aligns : List (Option Alignment)) :
    List (List (List Char)) → Reading (List Token)
  | [] => return []
  | row :: rows => do
    let cells ← cellTokens ctx false aligns row
    return parentToken "table_row" cells [] :: (← rowTokens ctx aligns rows)

/-- The token of a code block. -/
def codeToken (style : CodeStyle) (content : List Char) : Token :=
  match style with
  | .indented =>
    .mk [("type", .text "block_code"), ("raw", ofChars content), ("style", .text "indent")] none
  | .fenced marker info =>
    .mk ([("type", .text "block_code"), ("raw", ofChars content), ("style", .text "fenced"),
      ("marker", ofChars marker)] ++ (match info with
        | some i => [("attrs", .record [("info", ofChars i)])]
        | none => [])) none

mutual

/-- The token of a block, with its running text read. -/
def Block.toToken (ctx : Context) : Block → Reading Token
  | .blankLine none => return plainToken "blank_line"
  | .blankLine (some n) =>
    return .mk [("type", .text "blank_line"), ("newlines", .int n)] none
  | .paragraph text => return parentToken "paragraph" (← readText ctx text) []
  | .blockText text => return parentToken "block_text" (← readText ctx text) []
  | .heading level underlined text => do
    let children ← readText ctx text
    return .mk [("type", .text "heading"), ("attrs", .record [("level", .int level)]),
      ("style", .text (if underlined then "setext" else "atx"))] (some children)
  | .thematicBreak => return plainToken "thematic_break"
  | .code style content => return codeToken style content
  | .quote children => return parentToken "block_quote" (← blockTokens ctx children) []
  | .spoiler children => return parentToken "block_spoiler" (← blockTokens ctx children) []
  | .html content => return rawToken "block_html" content []
  | .math content => return rawToken "block_math" content []
  | .list tight bullet depth ordered start items => do
    let children ← blockTokens ctx items
    let first : Entries Value := match start with
      | some n => [("start", .int n)]
      | none => []
    return .mk [("type", .text "list"), ("tight", .bool tight),
      ("bullet", .text (String.singleton bullet)),
      ("attrs", .record ([("depth", .int depth), ("ordered", .bool ordered)] ++ first))]
      (some children)
  | .item children => return parentToken "list_item" (← blockTokens ctx children) []
  | .task checked children =>
    return parentToken "task_list_item" (← blockTokens ctx children) [("checked", .bool checked)]
  | .table aligns head rows => do
    let top ← cellTokens ctx true aligns head
    let body ← rowTokens ctx aligns rows
    return parentToken "table"
      (parentToken "table_head" top [] ::
        [parentToken "table_body" body []]) []
  | .definitionList parts => return parentToken "def_list" (← blockTokens ctx parts) []
  | .term text => return parentToken "def_list_head" (← readText ctx text) []
  | .definition children => return parentToken "def_list_item" (← blockTokens ctx children) []
  | .footnotes items => return parentToken "footnotes" (← blockTokens ctx items) []
  | .footnote key index children =>
    return parentToken "footnote_item" (← blockTokens ctx children)
      [("key", ofChars key), ("index", .int index)]

/-- The tokens of blocks, in order. -/
def blockTokens (ctx : Context) : List Block → Reading (List Token)
  | [] => return []
  | b :: bs => do
    let token ← b.toToken ctx
    return token :: (← blockTokens ctx bs)

end

/-! ## Tokens and element nodes -/

/-- The fields of an element node. -/
def elementFields (type children value attributes extra : Value) : Entries Value :=
  [("type", type), ("children", children), ("value", value), ("attributes", attributes),
   ("extra", extra), ("data", .null), ("position", .null)]

mutual

/-- The element node of a token. -/
def Token.toElement : Token → Value
  | .mk fields children =>
    let token := Token.mk fields children
    .node .element (elementFields
      ((token.get? "type").getD (.text ""))
      (match children with
        | some cs => .list (elementsOf cs)
        | none => .null)
      (match token.get? "raw" with
        | some (.text s) => .text s
        | _ => .null)
      (match token.get? "attrs" with
        | some (.record es) => .record es
        | _ => .record [])
      (.record token.extra))

/-- The element nodes of tokens. -/
def elementsOf : List Token → List Value
  | [] => []
  | t :: ts => t.toElement :: elementsOf ts

end

mutual

/-- A record that stands where a token is expected. What is no record stays a field. -/
def tokenOfEntries (done : Entries Value) (children : Option (List Token)) :
    List (String × Value) → Token
  | [] => .mk done children
  | (name, v) :: es =>
    match if name == "children" then tokensOfItems v else none with
    | some ts => tokenOfEntries done (some ts) es
    | none => tokenOfEntries (done ++ [(name, v)]) children es

/-- The tokens that a sequence of records stands for. -/
def tokensOfItems : Value → Option (List Token)
  | .list vs => tokensOfRecords vs
  | .tuple vs => tokensOfRecords vs
  | .text "" => some []
  | .record [] => some []
  | _ => none

/-- The tokens that records stand for. -/
def tokensOfRecords : List Value → Option (List Token)
  | [] => some []
  | .record es :: vs => (tokensOfRecords vs).map (tokenOfEntries [] none es :: ·)
  | _ :: _ => none

end

/-- The fields of the token that a node becomes: its type, its extra fields, its attributes and its
text. -/
def tokenFields (node : Value) : Except Fault (Entries Value) := do
  let type ← node.field "type"
  let extra := Value.orElse (node.attribute? "extra") (.record [])
  let base := Entries.putAll [("type", type)] (← extra.asEntries)
  let attributes := Value.orElse (node.attribute? "attributes") .null
  let withAttrs ← if attributes.isTruthy then do
      pure (base.put "attrs" (.record (← attributes.asEntries)))
    else pure base
  match node.attribute? "value" with
  | none | some .null => return withAttrs
  | some v => return withAttrs.put "raw" v

mutual

/-- The token of a node. -/
def tokenOfElement : Value → Except Fault Token
  | .node kind fields => do
    let entries ← tokenFields (.node kind fields)
    match ← tokensOfChildren fields with
    | some children => return .mk (entries.erase "children") (some children)
    | none => return tokenOfEntries [] none entries
  | v => .error (v.lacks "type")

/-- The tokens of the children among the fields of a node. -/
def tokensOfChildren : List (String × Value) → Except Fault (Option (List Token))
  | [] => return none
  | (name, v) :: fields =>
    if name == "children" then tokensOfList v else tokensOfChildren fields

/-- The tokens of a list of nodes. -/
def tokensOfList : Value → Except Fault (Option (List Token))
  | .list vs => return some (← tokensOfElements vs)
  | _ => return none

/-- The tokens of nodes. -/
def tokensOfElements : List Value → Except Fault (List Token)
  | [] => return []
  | v :: vs => do
    let token ← tokenOfElement v
    return token :: (← tokensOfElements vs)

end

/-- The tokens of a tree: of the items of a list, and else of the children. -/
def tokensOfTree (tree : Value) : Except Fault (List Token) :=
  match tree with
  | .list vs => tokensOfElements vs
  | _ => do
    let children := Value.orElse (tree.attribute? "children") (.list [])
    tokensOfElements (← children.items)

end NotebookTree.Markdown

import NotebookTree.Html.Document

/-!
# Writing documents

The parts of a document are written one after the other. Text is escaped, except inside tags whose
content is not markup; attributes come in the order of their names.

## Main definitions

* `writeItems`: parts of a document as markup.
* `itemOfElement`, `Item.toElement`: parts of a document and element nodes.
* `parseTree`, `writeTree`: markup and trees.

Reference: `_soup_to_element`, `parse_html`, `_append_element`, `stringify_html`.
-/

namespace NotebookTree.Html

open Text (doubleQuote singleQuote)

/-- One character of text. -/
def escapeChar (c : Char) : List Char :=
  if c == '&' then "&amp;".toList
  else if c == '<' then "&lt;".toList
  else if c == '>' then "&gt;".toList
  else [c]

/-- Text without the characters of markup. -/
def escapeText (s : List Char) : List Char := s.flatMap escapeChar

/-- The value of an attribute between quotes, those that it does not hold if possible. -/
def quoteValue (s : List Char) : List Char :=
  let t := escapeText s
  if t.contains doubleQuote then
    if t.contains singleQuote then
      doubleQuote :: Text.replaceChar doubleQuote "&quot;".toList t ++ [doubleQuote]
    else singleQuote :: t ++ [singleQuote]
  else doubleQuote :: t ++ [doubleQuote]

/-- The encoding documents are written in. -/
def encodingName : List Char := "utf-8".toList

/-- A content type with the encoding in it replaced; `start` tells that a parameter may begin here,
`skip` that the old encoding is being passed over. -/
def replaceCharset : (fuel : Nat) → (start skip : Bool) → List Char → List Char
  | 0, _, _, cs => cs
  | _ + 1, _, _, [] => []
  | fuel + 1, start, skip, c :: cs =>
    if skip && c != ';' then replaceCharset fuel false true cs
    else if start && "charset=".toList.isPrefixOf (c :: cs) then
      "charset=".toList ++ encodingName ++ replaceCharset fuel false true ((c :: cs).drop 8)
    else c :: replaceCharset fuel (c == ';' || Text.isBlank c) false cs

/-- The text of an attribute. -/
def AttributeValue.text? : AttributeValue → Option (List Char)
  | bare => none
  | text s => some s
  | words ws => some (Text.join [' '] ws)

/-- Attributes that name an encoding name the one that the document is written in. -/
def withEncoding (name : List Char) (es : List (String × AttributeValue)) :
    List (String × AttributeValue) :=
  if name != "meta".toList then es
  else match Entries.get? es "charset" with
    | some v => if v.text?.isSome then Entries.put es "charset" (.text encodingName) else es
    | none => match Entries.get? es "content", Entries.get? es "http-equiv" with
      | some (.text s), some (.text kind) =>
        if Text.lower kind == "content-type".toList then
          Entries.put es "content" (.text (replaceCharset (s.length + 1) true false s))
        else es
      | _, _ => es

/-- An attribute. -/
def writeAttribute (e : String × AttributeValue) : List Char :=
  match e.2.text? with
  | none => e.1.toList
  | some s => e.1.toList ++ '=' :: quoteValue s

/-- The attributes of a tag, in the order of their names. -/
def writeAttributes (es : List (String × AttributeValue)) : List Char :=
  let sorted := es.mergeSort (fun a b => a.1 ≤ b.1)
  sorted.flatMap (fun e => ' ' :: writeAttribute e)

mutual

/-- A part of a document; `verbatim` tells that it stands where text is not escaped. -/
def writeItem (verbatim : Bool) : Item → List Char
  | .text s => if verbatim then s else escapeText s
  | .comment s => "<!--".toList ++ s ++ "-->".toList
  | .doctype s => "<!DOCTYPE ".toList ++ s ++ ">\n".toList
  | .cdata s => "<![CDATA[".toList ++ s ++ "]]>".toList
  | .instruction s => "<?".toList ++ s ++ ">".toList
  | .declaration s => "<?".toList ++ s ++ "?>".toList
  | .tag name attributes children =>
    let start := '<' :: name ++ writeAttributes (withEncoding name attributes)
    if children.isEmpty && isVoid name then start ++ "/>".toList
    else start ++ '>' :: writeItems (isVerbatim name) children ++ "</".toList ++ name ++ ['>']

/-- Parts of a document. -/
def writeItems (verbatim : Bool) : List Item → List Char
  | [] => []
  | i :: is => writeItem verbatim i ++ writeItems verbatim is

end

/-! ## Element nodes -/

/-- The fields of an element node. -/
def nodeFields (type : String) (children value attributes extra : Value) : Entries Value :=
  [("type", .text type), ("children", children), ("value", value), ("attributes", attributes),
   ("extra", extra), ("data", .null), ("position", .null)]

/-- An element node with a text. -/
def textNode (type : String) (s : List Char) : Value :=
  .node .element (nodeFields type .null (.text (String.ofList s)) (.record []) (.record []))

/-- An attribute as a value. -/
def AttributeValue.toValue : AttributeValue → Value
  | bare => .null
  | text s => .text (String.ofList s)
  | words ws => .list (ws.map (fun w => .text (String.ofList w)))

mutual

/-- The element node of a part of a document. Parts without a node type of their own are texts. -/
def Item.toElement : Item → Value
  | .tag name attributes children =>
    .node .element (nodeFields "element" (.list (itemElements children)) .null
      (.record (attributes.map (fun e => (e.1, e.2.toValue))))
      (.record [("tag_name", .text (String.ofList name))]))
  | .comment s => textNode "comment" s
  | .doctype s => textNode "doctype" s
  | .text s => textNode "text" s
  | .cdata s => textNode "text" s
  | .instruction s => textNode "text" s
  | .declaration s => textNode "text" s

/-- The element nodes of parts of a document. -/
def itemElements : List Item → List Value
  | [] => []
  | i :: is => i.toElement :: itemElements is

end

/-- The texts of a sequence that holds nothing else. -/
def textsOf : List Value → Except Fault (List (List Char))
  | [] => return []
  | .text s :: vs => do return s.toList :: (← textsOf vs)
  | _ :: _ => throw .wrongType

/-- The value of an attribute of a node, if it is set at all. -/
def attributeOf (tag : List Char) (name : String) (v : Value) :
    Except Fault (Option AttributeValue) := do
  let list := isWordList tag name
  match v with
  | .null => return if list then none else some .bare
  | .text s => return some (if list then .words (Text.words s.toList) else .text s.toList)
  | .list vs => return some (.words (← textsOf vs))
  | .tuple vs => return some (.words (← textsOf vs))
  | v =>
    let number := match v with
      | .bool _ => true
      | .int _ => true
      | .float _ => true
      | _ => false
    -- a zero where words are expected makes no attribute at all
    if list && number && !v.isTruthy then return none
    else match v with
      | .bool true => return some (.text (if list then name.toList else "True".toList))
      | _ => return some (.text v.plainText.toList)

/-- The attributes of a node. -/
def attributesOfEntries (tag : List Char) :
    Entries Value → Except Fault (List (String × AttributeValue))
  | [] => return []
  | (name, v) :: es => do
    let value ← attributeOf tag name v
    let rest ← attributesOfEntries tag es
    return match value with
      | some x => (name, x) :: rest
      | none => rest

/-- The name and the attributes of a node that is a tag. -/
def tagOfNode (node : Value) : Except Fault (List Char × List (String × AttributeValue)) := do
  let extra := Value.orElse (node.attribute? "extra") (.record [])
  let name ← match extra with
    | .record es => pure ((Entries.get? es "tag_name").getD (.text "div"))
    | v => throw (v.lacks "get")
  let attributes ← (Value.orElse (node.attribute? "attributes") (.record [])).asEntries
  match name with
  | .text s => return (s.toList, ← attributesOfEntries s.toList attributes)
  | .null => throw (.badValue "No value provided for new tag's name.")
  | v => if attributes.isEmpty then throw .wrongType else throw (v.lacks "lower")

/-- The text of a node; what counts as false is empty. -/
def textOfNode (node : Value) : Except Fault (List Char) :=
  match Value.orElse (node.attribute? "value") (.text "") with
  | .text s => .ok s.toList
  | _ => .error .wrongType

/-- What a node of a type without children of its own stands for. -/
def leafOf? (type : Option Value) : Option (List Char → Item) :=
  match type with
  | some (.text "text") => some .text
  | some (.text "comment") => some .comment
  | some (.text "doctype") => some .doctype
  | _ => none

/-- Whether a type is that of tags. -/
def isTagType (type : Option Value) : Bool :=
  match type with
  | some (.text "element") => true
  | _ => false

/-- A node that is neither a tag nor a known kind of text: its text, if it has one. -/
def looseText (node : Value) : List Item :=
  match node.attribute? "value" with
  | some (.text s) => [.text s.toList]
  | _ => []

mutual

/-- The parts of a document that a node stands for. -/
def itemsOfNode : Value → Except Fault (List Item)
  | .node kind fields => do
    let node := Value.node kind fields
    match leafOf? node.type? with
    | some make => return [make (← textOfNode node)]
    | none =>
      if isTagType node.type? then
        let (name, attributes) ← tagOfNode node
        return [.tag name attributes (← itemsOfChildren true fields)]
      else
        match node.children? with
        | some _ => itemsOfChildren false fields
        | none => return looseText node
  | _ => return []

/-- The parts that the children among the fields of a node stand for. A tag takes any sequence, and
nothing if what it has counts as false. -/
def itemsOfChildren (tag : Bool) : List (String × Value) → Except Fault (List Item)
  | [] => return []
  | (name, v) :: fields =>
    if name == "children" then itemsOfSequence tag v else itemsOfChildren tag fields

/-- The parts that the nodes of a sequence stand for. -/
def itemsOfSequence (tag : Bool) : Value → Except Fault (List Item)
  | .list vs => itemsOfNodes vs
  | .tuple vs => itemsOfNodes vs
  | .text _ => return []
  | .record _ => return []
  | v => if tag && v.isTruthy then throw .wrongType else return []

/-- The parts that nodes stand for. -/
def itemsOfNodes : List Value → Except Fault (List Item)
  | [] => return []
  | v :: vs => do
    let items ← itemsOfNode v
    return items ++ (← itemsOfNodes vs)

end

/-- A tree as markup. -/
def writeTree (tree : Value) : Except Fault String := do
  let items ← match tree with
    | .node _ fields => itemsOfChildren true fields
    | _ => pure []
  return String.ofList (writeItems false items)

/-! ## Trees of markup -/

mutual

/-- The children of the first tag of a name in a part of a document. -/
def findTag? (name : List Char) : Item → Option (List Item)
  | .tag n _ children => if n == name then some children else findTagIn? name children
  | _ => none

/-- The children of the first tag of a name in parts of a document. -/
def findTagIn? (name : List Char) : List Item → Option (List Item)
  | [] => none
  | i :: is => match findTag? name i with
    | some children => some children
    | none => findTagIn? name is

end

/-- Whether a text occurs in another. -/
def occursIn (needle cs : List Char) : Bool := (Text.splitBefore? needle cs).isSome

/-- The parts of a document, without what stands around a body that the source does not write. -/
def fragmentOf (source : List Char) (items : List Item) : List Item :=
  match findTagIn? "body".toList items with
  | some children =>
    if occursIn "<body".toList (Text.lower source) then items else children
  | none => items

/-- The root of an element tree. -/
def rootOf (items : List Item) : Value :=
  .node .element
    (nodeFields "root" (.list (itemElements items)) .null (.record []) (.record []))

/-- The failure for a backend that is not there. -/
def missingBackend (backend : Value) : Fault :=
  .failure .dependency ("Selected HTML parser backend not found: " ++ backend.plainText)
    [("component", .text "html"),
     ("missing_packages", .list [.tuple [backend, .text ""]])] (some .noBackend)

/-- The element tree of markup. Settings that count as false stand for the usual ones. -/
def parseTree (source settings : Value) : Except Fault Value := do
  let chosen := if settings.isTruthy then settings else .node .htmlSettings
    [("fragment", .bool true), ("html_parser", .text "html.parser")]
  let backend ← chosen.field "html_parser"
  if !backend.equals (.text "html.parser") then throw (missingBackend backend)
  match source with
  | .text s =>
    match parseItems s.toList with
    | none => throw .badMarkup
    | some items =>
      let fragment ← chosen.field "fragment"
      return rootOf (if fragment.isTruthy then fragmentOf s.toList items else items)
  | _ => throw .wrongType

end NotebookTree.Html

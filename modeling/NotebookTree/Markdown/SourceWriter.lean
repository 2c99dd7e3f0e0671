import NotebookTree.Markdown.Document

/-!
# Writing Markdown source

Tokens are written back as Markdown source that reads as the same document, with one way of writing
each construct: emphasis with `*`, thematic breaks as `***`, code between fences.

## Main definitions

* `escapeSource`: plain text that is not taken for markup.
* `writeSource`: tokens as source, with the link targets that their references need.
* `toSource`: a tree as source.

Reference: `stringify_markdown`, with the renderer of its engine.
-/

namespace NotebookTree.Markdown

open Text (isBlank isAsciiDigit isAsciiLetter backslash doubleQuote)

/-- Whether a reference to a character starts behind this ampersand. -/
def opensReference (cs : List Char) : Bool :=
  let name := cs.takeWhile (fun c => isAsciiLetter c || isAsciiDigit c || c == '#')
  !name.isEmpty && (cs.drop name.length).head? == some ';'

/-- Plain text with the characters that would be markup anywhere escaped. -/
def escapeInside : List Char → List Char
  | [] => []
  | c :: cs =>
    if c == backslash || c == grave || c == '<' || c == '!' || (c == '&' && !opensReference cs) then
      backslash :: c :: escapeInside cs
    else c :: escapeInside cs

/-- Whether a blank or the end follows. -/
def endsWord (cs : List Char) : Bool :=
  match cs with
  | [] => true
  | c :: _ => isBlank c

/-- Plain text with the mark escaped that would start a block. -/
def escapeStart (cs : List Char) : List Char :=
  match cs with
  | [] => []
  | c :: rest =>
    let hashes := cs.takeWhile (· == '#')
    let digits := cs.takeWhile isAsciiDigit
    if (c == '*' || c == '+' || c == '-' || c == '>') && endsWord rest then backslash :: cs
    else if 0 < hashes.length && hashes.length ≤ 6 && endsWord (cs.drop hashes.length) then
      backslash :: cs
    else if 0 < digits.length then
      match cs.drop digits.length with
      | d :: more =>
        if (d == '.' || d == ')') && endsWord more then digits ++ backslash :: d :: more else cs
      | [] => cs
    else cs

/-- Plain text that is not taken for markup. Emphasis marks need that only when they stand alone. -/
def escapeSource (cs : List Char) : List Char :=
  if !cs.isEmpty && cs.all (fun c => c == '*' || c == '_') then cs.flatMap (fun c => [backslash, c])
  else escapeStart (escapeInside cs)

/-- Drops the blanks behind the first line end of those that end a text. -/
def trimEnd (cs : List Char) : List Char :=
  let blanks := (cs.reverse.takeWhile isBlank).reverse
  let kept := cs.take (cs.length - blanks.length)
  let before := blanks.takeWhile (· != '\n')
  match blanks.drop before.length with
  | [] => cs
  | _ => kept ++ before ++ ['\n']

/-- The longest run of grave accents. -/
def longestGrave (run best : Nat) : List Char → Nat
  | [] => max run best
  | c :: cs =>
    if c == grave then longestGrave (run + 1) best cs else longestGrave 0 (max run best) cs

/-- A code span between more grave accents than it holds in a row, set off where it would be
misread. -/
def writeCodeSpan (cs : List Char) : List Char :=
  let fence := List.replicate (longestGrave 0 0 cs + 1) grave
  let edged (c : Option Char) : Bool := c == some grave
  let padded := edged cs.head? || edged cs.getLast? ||
    (cs.head? == some ' ' && cs.getLast? == some ' ' && cs.any (· != ' '))
  fence ++ (if padded then ' ' :: cs ++ [' '] else cs) ++ fence

/-- The runs of fence marks at the starts of lines. -/
def fenceRuns (code : List Char) : List (List Char) :=
  ((Text.splitWhere (· == '\n') code).map
    (fun l => l.takeWhile (fun c => c == grave || c == '~'))).filter (fun r => !r.isEmpty)

/-- A fence that no line of the code closes. -/
def fenceFor (code : List Char) : List Char :=
  let runs := fenceRuns code
  let graves := runs.filter (fun r => r.head? == some grave)
  if graves.isEmpty then List.replicate 3 grave
  else if graves.length == runs.length then ['~', '~', '~']
  else List.replicate ((graves.map List.length).foldl max 0 + 1) grave

/-- Lines of any end, each behind the mark of a quotation. -/
def quoteLines (text : List Char) : List Char :=
  let rec go (start : Bool) : List Char → List Char
    | [] => []
    | '\r' :: '\n' :: cs => (if start then ['>', ' '] else []) ++ '\r' :: '\n' :: go true cs
    | c :: cs => (if start then ['>', ' '] else []) ++ c :: go (Text.isLineEnd c) cs
  go true text

/-- A field of a token that has to be there. -/
def Token.need (t : Token) (name : String) : Except Fault Value :=
  match t.get? name with
  | some v => .ok v
  | none => .error .noKey

/-- An attribute of a token; the token has to have attributes. -/
def Token.attribute? (t : Token) (name : String) : Except Fault (Option Value) := do
  match ← t.need "attrs" with
  | .record es => return Entries.get? es name
  | v => throw (v.lacks "get")

/-- An attribute of a token that has to be there. -/
def Token.needAttribute (t : Token) (name : String) : Except Fault Value := do
  match ← t.attribute? name with
  | some v => return v
  | none => throw .noKey

/-- A text that has to be one. -/
def plainOf (v : Value) : Except Fault (List Char) :=
  match v with
  | .text s => .ok s.toList
  | _ => .error .wrongType

/-- A destination and title, in parentheses. -/
def writeTarget (url : List Char) (title : List Char) : List Char :=
  let target := if url.contains '(' || url.contains ')' then '<' :: url ++ ['>'] else url
  let shown := if title.isEmpty then []
    else ' ' :: doubleQuote :: Text.replaceChar doubleQuote [backslash, doubleQuote] title
      ++ [doubleQuote]
  '(' :: target ++ shown ++ [')']

/-- A link with the given text. -/
def writeLink (t : Token) (text : List Char) : Except Fault (List Char) := do
  let shown := '[' :: text ++ [']']
  let label := (t.get? "label").getD .null
  if label.isTruthy then return shown ++ '[' :: (← plainOf label) ++ [']']
  let url ← plainOf (← t.needAttribute "url")
  let title := ((← t.attribute? "title").getD .null)
  if !title.isTruthy && (text == url || "mailto:".toList ++ text == url) then
    return '<' :: text ++ ['>']
  return shown ++ writeTarget url (← if title.isTruthy then plainOf title else pure [])

/-- The row below the head of a table that says how its columns are aligned. -/
def alignCell (align : Value) : List Char :=
  match align with
  | .text "left" => ":---".toList
  | .text "right" => "---:".toList
  | .text "center" => ":---:".toList
  | _ => "---".toList

/-- A row of a table. -/
def writeRow (cells : List (List Char)) : List Char :=
  "| ".toList ++ Text.join " | ".toList cells ++ " |\n".toList

/-- An item behind its mark, its further lines as far in as the mark is wide. -/
def writeItem (lead text : List Char) : List Char :=
  match Text.allLines text with
  | [] => lead ++ ['\n']
  | l :: ls =>
    lead ++ l ++ '\n' :: ls.flatMap (fun k =>
      if k.isEmpty then ['\n'] else List.replicate lead.length ' ' ++ k ++ ['\n'])

/-- The marks in front of the items of a list. -/
def itemLeads (t : Token) (count : Nat) : Except Fault (List (List Char)) := do
  if (← t.needAttribute "ordered").isTruthy then
    let start ← match ← t.attribute? "start" with
      | none => pure 1
      | some v => match v.integer? with
        | some n => pure n
        | none => throw .wrongType
    if count == 0 then return []
    let bullet ← plainOf (← t.need "bullet")
    return (List.range count).map (fun (i : Nat) =>
      (toString (start + Int.ofNat i)).toList ++ bullet ++ [' '])
  else
    let bullet ← plainOf (← t.need "bullet")
    if 0 < count then let _ ← t.need "tight"
    return List.replicate count (bullet ++ [' '])

/-- The box of a task. -/
def boxOf (t : Token) : List Char :=
  match t.get? "type", t.get? "attrs" with
  | some (.text "task_list_item"), some (.record es) =>
    if ((Entries.get? es "checked").getD .null).isTruthy then "[x] ".toList else "[ ] ".toList
  | some (.text "task_list_item"), _ => "[ ] ".toList
  | _, _ => []

/-- The marks around emphasis and the other spans. -/
def spanMark? (type : String) : Option String :=
  match type with
  | "emphasis" => some "*"
  | "strong" => some "**"
  | "strikethrough" => some "~~"
  | "mark" => some "=="
  | "insert" => some "^^"
  | "superscript" => some "^"
  | "subscript" => some "~"
  | _ => none

/-- The source of tokens that need nothing but themselves. -/
def sourceOfLone? (t : Token) (type : String) : Option (Except Fault (List Char)) :=
  match type with
  | "text" => some do return escapeSource (← plainOf (← t.need "raw"))
  | "codespan" => some do return writeCodeSpan (← plainOf (← t.need "raw"))
  | "inline_html" => some do plainOf (← t.need "raw")
  | "block_html" => some do return (← plainOf (← t.need "raw")) ++ ['\n', '\n']
  | "linebreak" => some (.ok "  \n".toList)
  | "softbreak" => some (.ok ['\n'])
  | "thematic_break" => some (.ok "***\n\n".toList)
  | "block_error" => some (.ok [])
  | "blank_line" => some (.ok (match t.get? "newlines" with
    | some v => List.replicate ((v.integer?).getD 0).toNat '\n'
    | none => []))
  | "block_code" => some do
    let info ← match t.get? "attrs" with
      | some (.record es) => match Entries.get? es "info" with
        | some v => plainOf v
        | none => pure []
      | _ => pure []
    let raw ← plainOf (← t.need "raw")
    let code := if raw.isEmpty || raw.getLast? == some '\n' then raw else raw ++ ['\n']
    let given := (t.get? "marker").getD .null
    let fence ← if given.isTruthy then plainOf given else pure (fenceFor code)
    return fence ++ info ++ '\n' :: code ++ fence ++ ['\n', '\n']
  | _ => none

/-- Whether tokens of a type hold others. -/
def isHolder (type : String) : Bool :=
  (spanMark? type).isSome ||
  ["link", "image", "paragraph", "block_text", "heading", "block_quote", "list", "list_item",
   "task_list_item", "table", "table_head", "table_body", "table_row", "table_cell"].contains type

/-- The source of a token from that of its children, which stand one by one. For lists, `nested`
tells whether the item around is one of a tight list. -/
def sourceOfHolder (t : Token) (type : String) (nested : Option Bool)
    (leads : List (List Char)) (parts : List (List Char)) : Except Fault (List Char) := do
  let text := parts.flatten
  match spanMark? type with
  | some mark => return mark.toList ++ text ++ mark.toList
  | none => match type with
    | "link" => writeLink t text
    | "image" => return '!' :: (← writeLink t text)
    | "paragraph" => return text ++ ['\n', '\n']
    | "block_text" => return text ++ ['\n']
    | "heading" =>
      let level ← t.needAttribute "level"
      match level.integer? with
      | none => throw .wrongType
      | some n =>
        if text.contains '\n' && (n == 1 || n == 2) then
          return text ++ '\n' :: List.replicate 3 (if n == 1 then '=' else '-') ++ ['\n', '\n']
        else
          return List.replicate n.toNat '#' ++ ' ' :: Text.replaceChar '\n' [' '] text
            ++ ['\n', '\n']
    | "block_quote" =>
      let quoted := Text.stripEnd (fun c => c == '>' || c == ' ' || c == '\n') (quoteLines text)
      return quoted ++ ['\n', '\n']
    | "list" =>
      let body := (leads.zip parts).flatMap (fun p => writeItem p.1 p.2)
      match nested with
      | some true => return body
      | some false => return body ++ ['\n']
      | none => return trimEnd body ++ ['\n']
    | "table_cell" => return Text.replaceChar '|' [backslash, '|'] text
    | "table_row" => return writeRow parts
    | "table_body" => return text
    | "table" => return text ++ ['\n']
    | _ => return writeItem ['-', ' '] (boxOf t ++ text)

/-- The children of a token that has to have some. -/
def childrenOf (children : Option (List Token)) : Except Fault (List Token) :=
  match children with
  | some cs => .ok cs
  | none => .error .noKey

/-- The row of alignments below a head. -/
def alignRow (cells : List Token) : List Char :=
  writeRow (cells.map (fun c => match c.get? "attrs" with
    | some (.record es) => alignCell ((Entries.get? es "align").getD .null)
    | _ => alignCell .null))

/-- Whether an item token is left out of the text of its list. -/
def isBlankToken (t : Token) : Bool :=
  match t.get? "type" with
  | some (.text s) => s == "blank_line"
  | _ => false

/-- Whether the list is tight, as far as it says so. -/
def isTight (t : Token) : Bool := ((t.get? "tight").getD .null).isTruthy

/-- What stands around tokens that are being written. -/
inductive Place where
  | open
  /-- Directly in an item. -/
  | item (tight : Bool)
  /-- The items of a list. -/
  | list (tight : Bool)

/-- Whether the item around a place is one of a tight list. -/
def Place.nested : Place → Option Bool
  | item tight => some tight
  | _ => none

/-- The place inside a token. -/
def Place.inside (type : String) (t : Token) (place : Place) : Place :=
  match type, place with
  | "list", _ => .list (isTight t)
  | "list_item", .list tight => .item tight
  | "task_list_item", .list tight => .item tight
  | "list_item", _ => .item true
  | "task_list_item", _ => .item true
  | _, .list tight => .item tight
  | _, _ => .open

/-- Whether a token at a place is written as the content of an item. -/
def Place.isItem : Place → Bool
  | list _ => true
  | _ => false

mutual

/-- The source of a token at a place. -/
def writeSourceToken (place : Place) : Token → Except Fault (List Char)
  | .mk fields children => do
    let token := Token.mk fields children
    let type ← match token.get? "type" with
      | some (.text s) => pure s
      | some _ => throw .wrongType
      | none => throw .noKey
    if place.isItem then
      return boxOf token ++ (← writeSourceParts (place.inside type token) true children).flatten
    match sourceOfLone? token type with
    | some text => text
    | none =>
      if !isHolder type then throw (.noAttribute "writer" type)
      let leads ← if type == "list" then do
          itemLeads token (← childrenOf children).length
        else pure []
      let skip := type == "list_item" || type == "task_list_item"
      let parts ← writeSourceParts (place.inside type token) skip children
      if type == "table_head" then
        return writeRow parts ++ alignRow (children.getD [])
      sourceOfHolder token type place.nested leads parts

/-- The sources of children one by one; `skip` leaves blank lines out. -/
def writeSourceParts (place : Place) (skip : Bool) :
    Option (List Token) → Except Fault (List (List Char))
  | none => .error .noKey
  | some ts => writeSourceList place skip ts

/-- The sources of tokens one by one; `skip` leaves blank lines out. -/
def writeSourceList (place : Place) (skip : Bool) :
    List Token → Except Fault (List (List Char))
  | [] => return []
  | t :: ts => do
    let part ← if skip && isBlankToken t then pure [] else writeSourceToken place t
    return part :: (← writeSourceList place skip ts)

end

/-- The definition of a link target. -/
def writeLinkTarget (target : LinkTarget) : List Char :=
  '[' :: target.label ++ "]: ".toList ++ target.url ++ (match target.title with
    | some t => if t.isEmpty then [] else " \"".toList ++ t ++ [doubleQuote]
    | none => [])

/-- Tokens as source, followed by the link targets that are defined. -/
def writeSource (defs : Definitions) (tokens : List Token) : Except Fault (List Char) := do
  let body ← writeSourceList .open false tokens
  let targets := Text.join ['\n', '\n'] (defs.links.map (fun e => writeLinkTarget e.2))
  return trimEnd (body.flatten ++ targets ++ ['\n'])

/-- A tree as source. A tree does not hold what its source defined. -/
def toSource (tree : Value) : Except Fault String := do
  return String.ofList (← writeSource {} (← tokensOfTree tree))

end NotebookTree.Markdown

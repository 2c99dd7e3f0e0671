import NotebookTree.Markdown.Document

/-!
# Writing Markdown as HTML

Tokens are written as HTML. Raw markup is passed on only when asked for; otherwise everything that
is not markup of this module is escaped, and a destination is replaced unless it has no scheme or a
safe one.

## Main definitions

* `escapeMarkup`: text with the characters of markup replaced.
* `schemeOf?`, `isSafeUrl`: the scheme of a destination, and which ones are let through.
* `safeUrl`: a destination that cannot run a script.
* `writeTokens`: tokens as HTML.
* `toHtml`: a source or a tree as HTML.

Reference: `markdown_to_html`, with the renderer of its engine.
-/

namespace NotebookTree.Markdown

open Text (doubleQuote)

/-- How tokens are written: whether raw markup is escaped, and the extensions whose tokens are
known. -/
structure HtmlRules where
  escapes : Bool
  extensions : List Extension

/-- One character with those of markup replaced. -/
def escapeMarkupChar (c : Char) : List Char :=
  if c == '&' then "&amp;".toList
  else if c == '<' then "&lt;".toList
  else if c == '>' then "&gt;".toList
  else if c == doubleQuote then "&quot;".toList
  else [c]

/-- Text with the characters of markup replaced. -/
def escapeMarkup (s : List Char) : List Char := s.flatMap escapeMarkupChar

/-- Text whose references are replaced by what they stand for, escaped. -/
def escapeDecoded (s : List Char) : List Char :=
  escapeMarkup (Text.decodeReferences Text.strictReferences s)

/-- The schemes that a destination may name. -/
def safeSchemes : List String := ["http", "https", "ftp", "mailto", "tel"]

/-- The kinds of data that show as pictures, and may stand in a destination. -/
def pictureSchemes : List String :=
  ["data:image/gif;", "data:image/png;", "data:image/jpeg;", "data:image/webp;"]

/-- The scheme of a destination: what stands before its first colon. A place in the same document
(`#x:y`) has none, and neither has a path (`a/b:c`), where a slash comes before the colon. -/
def schemeOf? (url : List Char) : Option (List Char) :=
  if url.head? == some '#' then none
  else match url.span (fun c => c != ':' && c != '/') with
    | (scheme, ':' :: _) => some scheme
    | _ => none

/-- Whether a destination has no scheme, one of the safe schemes, or is data that shows as a
picture. Case does not count. -/
def isSafeUrl (url : List Char) : Bool :=
  let low := Text.lower url
  match schemeOf? low with
  | none => true
  | some scheme => safeSchemes.any (fun s => s.toList == scheme) ||
      pictureSchemes.any (fun s => s.toList.isPrefixOf low)

/-- A destination, escaped; one that is not safe is replaced. -/
def safeUrl (url : List Char) : List Char :=
  if isSafeUrl url then escapeMarkup url else "#harmful-link".toList

/-- Text without what stands between angle brackets. A comment goes up to its end. -/
def stripTags : (fuel : Nat) → List Char → List Char
  | 0, s => s
  | _ + 1, [] => []
  | fuel + 1, c :: cs =>
    if c != '<' then c :: stripTags fuel cs
    else
      let comment := if "!--".toList.isPrefixOf cs then
          Text.splitBefore? "-->".toList (cs.drop 3)
        else none
      match comment with
      | some (_, rest) => stripTags fuel (rest.drop 3)
      | none => match Text.splitBefore? ['>'] cs with
        | some (_, rest) => stripTags fuel (rest.drop 1)
        | none => c :: stripTags fuel cs

/-- The entries of the attributes of a token; what is no record has none. -/
def attributesOf (t : Token) : Except Fault (Option (Entries Value)) :=
  match t.get? "attrs" with
  | none => .ok none
  | some v =>
    if v.isTruthy then
      match v with
      | .record es => .ok (some es)
      | _ => .error .wrongType
    else .ok none

/-- Attributes may have these names and no others, and the first ones have to be there. -/
def checkAttributes (needed optional : List String) (es : Entries Value) : Except Fault Unit :=
  if needed.all (fun n => es.has n) && es.all (fun e => (needed ++ optional).contains e.1) then
    .ok ()
  else .error .wrongType

/-- A text that has to be one, from a method of texts. -/
def asText (v : Value) (method : String) : Except Fault (List Char) :=
  match v with
  | .text s => .ok s.toList
  | _ => .error (v.lacks method)

/-- A text that has to be one, to be joined to others. -/
def asPart (v : Value) : Except Fault (List Char) :=
  match v with
  | .text s => .ok s.toList
  | _ => .error .wrongType

/-- The text of a title attribute, if it counts as true. -/
def titlePart (es : Entries Value) : Except Fault (List Char) := do
  let title := (es.get? "title").getD .null
  if title.isTruthy then
    match title with
    | .text s => return " title=\"".toList ++ escapeDecoded s.toList ++ [doubleQuote]
    | _ => throw .wrongType
  else return []

/-- A text between two others. -/
def between (before after : String) (s : List Char) : List Char :=
  before.toList ++ s ++ after.toList

/-- The types of tokens that stand for themselves. -/
def writeLone (type : String) : Option (List Char) :=
  match type with
  | "blank_line" => some []
  | "thematic_break" => some "<hr />\n".toList
  | "linebreak" => some "<br />\n".toList
  | "softbreak" => some ['\n']
  | _ => none

/-- The markup around the content of tokens without attributes, and the extension that knows
them. -/
def envelope? (type : String) : Option (Option Extension × String × String) :=
  match type with
  | "emphasis" => some (none, "<em>", "</em>")
  | "strong" => some (none, "<strong>", "</strong>")
  | "paragraph" => some (none, "<p>", "</p>\n")
  | "block_text" => some (none, "", "")
  | "block_quote" => some (none, "<blockquote>\n", "</blockquote>\n")
  | "block_error" => some (none, "<div class=\"error\"><pre>", "</pre></div>\n")
  | "list_item" => some (none, "<li>", "</li>\n")
  | "strikethrough" => some (some .strikethrough, "<del>", "</del>")
  | "mark" => some (some .mark, "<mark>", "</mark>")
  | "insert" => some (some .insert, "<ins>", "</ins>")
  | "superscript" => some (some .superscript, "<sup>", "</sup>")
  | "subscript" => some (some .subscript, "<sub>", "</sub>")
  | "inline_spoiler" => some (some .spoiler, "<span class=\"spoiler\">", "</span>")
  | "block_spoiler" => some (some .spoiler, "<div class=\"spoiler\">\n", "</div>\n")
  | "table" => some (some .table, "<table>\n", "</table>\n")
  | "table_head" => some (some .table, "<thead>\n<tr>\n", "</tr>\n</thead>\n")
  | "table_body" => some (some .table, "<tbody>\n", "</tbody>\n")
  | "table_row" => some (some .table, "<tr>\n", "</tr>\n")
  | "def_list" => some (some .definitionLists, "<dl>\n", "</dl>\n")
  | "def_list_head" => some (some .definitionLists, "<dt>", "</dt>\n")
  | "def_list_item" => some (some .definitionLists, "<dd>", "</dd>\n")
  | "footnotes" =>
    some (some .footnotes, "<section class=\"footnotes\">\n<ol>\n", "</ol>\n</section>\n")
  | _ => none

/-- The types of tokens written from their text alone, and the extension that knows them. -/
def writeFromText? (rules : HtmlRules) (type : String) :
    Option (Option Extension × (List Char → List Char)) :=
  match type with
  | "text" => some (none, fun s => if rules.escapes then escapeMarkup s else escapeDecoded s)
  | "codespan" => some (none, fun s => between "<code>" "</code>" (escapeMarkup s))
  | "inline_html" => some (none, fun s => if rules.escapes then escapeMarkup s else s)
  | "block_html" =>
    some (none, fun s =>
      if rules.escapes then between "<p>" "</p>\n" (escapeMarkup (Text.trim s)) else s ++ ['\n'])
  | "block_math" =>
    some (some .math, fun s => between "<div class=\"math\">$$\n" "\n$$</div>\n" (escapeDecoded s))
  | "inline_math" =>
    some (some .math, fun s =>
      between "<span class=\"math\">\\(" "\\)</span>" (escapeDecoded s))
  | _ => none

/-- The types of tokens that have attributes: the extension that knows them, and the names of the
attributes that they have to have and of those that they may have. -/
def attributed? (type : String) : Option (Option Extension × List String × List String) :=
  match type with
  | "block_code" => some (none, [], ["info"])
  | "link" => some (none, ["url"], ["title"])
  | "image" => some (none, ["url"], ["title"])
  | "heading" => some (none, ["level"], [])
  | "list" => some (none, ["ordered"], [])
  | "table_cell" => some (some .table, [], ["align", "head"])
  | "task_list_item" => some (some .taskLists, [], ["checked"])
  | "abbr" => some (some .abbreviations, ["title"], [])
  | "ruby" => some (some .ruby, ["rt"], [])
  | "footnote_ref" => some (some .footnotes, ["index"], [])
  | "footnote_item" => some (some .footnotes, ["key", "index"], [])
  | _ => none

/-- Whether a type takes attributes of any name besides its own. -/
def takesAny (type : String) : Bool := type == "heading" || type == "list"

/-- The names under which types take their content. -/
def contentName (type : String) : String :=
  match type with
  | "inline_html" => "html"
  | "block_html" => "html"
  | "block_code" => "code"
  | "footnote_ref" => "key"
  | _ => "text"

/-- A code block. The first word of the information string names its language. -/
def writeCode (content : Value) (es : Entries Value) : Except Fault (List Char) := do
  let info := (es.get? "info").getD .null
  let written ← match info with
    | .null => pure []
    | v => do
      let words := Text.words (escapeDecoded (Text.trim (← asText v "strip")))
      match words with
      | [] => pure []
      | w :: _ => pure (between " class=\"language-" "\"" w)
  return "<pre><code".toList ++ written ++ ['>'] ++ escapeMarkup (← asText content "replace")
    ++ "</code></pre>\n".toList

/-- A note: a reference back is put at the end of its last paragraph, or behind another block. -/
def writeNote (text : List Char) (index : List Char) : List Char :=
  let back := between "<a href=\"#fnref-" "\" class=\"footnote\">&#8617;</a>" index
  let kept := Text.stripEnd Text.isBlank text
  let paragraphEnd := "</p>".toList
  let content := if paragraphEnd.isSuffixOf kept then
      kept.take (kept.length - 4) ++ back ++ paragraphEnd
    else text ++ back
  between "<li id=\"fn-" "\">" index ++ content ++ "</li>\n".toList

/-- A task: its box goes into the paragraph that it starts with, if it starts with one. -/
def writeTask (text : List Char) (checked : Bool) : List Char :=
  let box := "<input class=\"task-list-item-checkbox\" type=\"checkbox\" disabled".toList
    ++ (if checked then " checked/>" else "/>").toList
  let content := if "<p>".toList.isPrefixOf text then "<p>".toList ++ box ++ text.drop 3
    else box ++ text
  between "<li class=\"task-list-item\">" "</li>\n" content

/-- A token that has attributes, from its content. -/
def writeAttributed (type : String) (content : Value) (es : Entries Value) :
    Except Fault (List Char) := do
  let get (name : String) : Value := (es.get? name).getD .null
  match type with
  | "block_code" => writeCode content es
  | "link" =>
    let start := between "<a href=\"" "\"" (safeUrl (← asText (get "url") "lower"))
    let title ← titlePart es
    return start ++ title ++ ['>'] ++ (← asPart content) ++ "</a>".toList
  | "image" =>
    let src := safeUrl (← asText (get "url") "lower")
    let text ← asPart content
    let start := between "<img src=\"" "\" alt=\"" src
      ++ escapeMarkup (stripTags (text.length + 1) text) ++ [doubleQuote]
    return start ++ (← titlePart es) ++ " />".toList
  | "heading" =>
    let tag := 'h' :: (get "level").plainText.toList
    let name := get "id"
    let written ← if name.isTruthy then do
        pure (between " id=\"" "\"" (escapeMarkup (← asText name "replace")))
      else pure []
    return '<' :: tag ++ written ++ ['>'] ++ (← asPart content) ++ "</".toList ++ tag
      ++ ">\n".toList
  | "list" =>
    if (get "ordered").isTruthy then
      let start := match get "start" with
        | .null => []
        | v => between " start=\"" "\"" v.plainText.toList
      return "<ol".toList ++ start ++ ">\n".toList ++ (← asPart content) ++ "</ol>\n".toList
    else return between "<ul>\n" "</ul>\n" (← asPart content)
  | "table_cell" =>
    let tag := (if (get "head").isTruthy then "th" else "td").toList
    let align ← if (get "align").isTruthy then do
        pure (between " style=\"text-align:" "\"" (← asPart (get "align")))
      else pure []
    return "  <".toList ++ tag ++ align ++ ['>'] ++ (← asPart content) ++ "</".toList ++ tag
      ++ ">\n".toList
  | "task_list_item" =>
    return writeTask (← asText content "startswith") (get "checked").isTruthy
  | "abbr" =>
    let title := get "title"
    if title.isTruthy then
      let shown := escapeMarkup (← asText title "replace")
      return between "<abbr title=\"" "\">" shown ++ (← asPart content) ++ "</abbr>".toList
    else return between "<abbr>" "</abbr>" (← asPart content)
  | "ruby" =>
    return "<ruby>".toList ++ (← asPart content) ++ "<rt>".toList ++ (← asPart (get "rt"))
      ++ "</rt></ruby>".toList
  | "footnote_ref" =>
    let i := (get "index").plainText.toList
    return between "<sup class=\"footnote-ref\" id=\"fnref-" "\">" i
      ++ between "<a href=\"#fn-" "\">" i ++ i ++ "</a></sup>".toList
  | "footnote_item" =>
    return writeNote (← asText content "rstrip") (get "index").plainText.toList
  | _ => throw .wrongType

/-- The content of a token that is being written: what it holds, if it holds anything. -/
abbrev Content := Option Value

/-- Writes a token of a type, given its content and its attributes. -/
def writeTyped (rules : HtmlRules) (type : String) (content : Content)
    (attrs : Option (Entries Value)) : Except Fault (List Char) := do
  let known (e : Option Extension) : Bool := match e with
    | none => true
    | some x => rules.extensions.contains x
  let unknown : Except Fault (List Char) := .error (.noAttribute "writer" type)
  let alone : Except Fault Value := match content, attrs with
    | some c, none => .ok c
    | _, _ => .error .wrongType
  match writeLone type with
  | some text => if content.isNone && attrs.isNone then return text else throw .wrongType
  | none => match envelope? type with
    | some (e, before, after) =>
      if known e then return between before after (← asPart (← alone)) else unknown
    | none => match writeFromText? rules type with
      | some (e, write) =>
        if !known e then unknown
        else if type == "inline_html" && !rules.escapes then return (← asPart (← alone))
        else return write (← asText (← alone) "replace")
      | none => match attributed? type with
        | none => unknown
        | some (e, needed, optional) =>
          if !known e then unknown
          else match content with
            | none => throw .wrongType
            | some c =>
              let es := attrs.getD []
              if takesAny type then
                if needed.all (fun n => es.has n) && !es.has (contentName type) then
                  writeAttributed type c es
                else throw .wrongType
              else
                checkAttributes needed optional es
                writeAttributed type c es

/-- The type of a token, by which its writer is found. -/
def typeOf (t : Token) : Except Fault String :=
  match t.get? "type" with
  | some (.text s) => .ok s
  | some _ => .error .wrongType
  | none => .error .noKey

/-- Whether a type of token is known, before its content is looked at. -/
def isKnown (rules : HtmlRules) (type : String) : Bool :=
  let known (e : Option Extension) : Bool := match e with
    | none => true
    | some x => rules.extensions.contains x
  (writeLone type).isSome ||
  (match envelope? type with
    | some (e, _, _) => known e
    | none => match writeFromText? rules type with
      | some (e, _) => known e
      | none => match attributed? type with
        | some (e, _, _) => known e
        | none => false)

mutual

/-- A token as HTML. What it holds as text goes before its children. -/
def writeToken (rules : HtmlRules) : Token → Except Fault (List Char)
  | .mk fields children => do
    let token := Token.mk fields children
    let type ← typeOf token
    if !isKnown rules type then throw (.noAttribute "writer" type)
    let content : Content ← match token.get? "raw" with
      | some v => pure (some v)
      | none => match children with
        | some cs => do pure (some (ofChars (← writeTokens rules cs)))
        | none => if token.fields.has "children" then throw .wrongType else pure none
    writeTyped rules type content (← attributesOf token)

/-- Tokens as HTML. -/
def writeTokens (rules : HtmlRules) : List Token → Except Fault (List Char)
  | [] => return []
  | t :: ts => do
    let head ← writeToken rules t
    return head ++ (← writeTokens rules ts)

end

/-- The rules that settings ask for. Settings that count as false stand for the usual ones: raw
markup is escaped and there are no extensions. -/
def htmlRulesOf (settings : Value) : Except Fault HtmlRules := do
  if settings.isTruthy then
    let allowed ← settings.field "allow_dangerous_html"
    return ⟨!allowed.isTruthy, ← extensionsOf settings⟩
  else return ⟨true, []⟩

/-- A source, or a tree made of one, as HTML. -/
def toHtml (source settings : Value) : Except Fault String := do
  let rules ← htmlRulesOf settings
  let tokens ← match source with
    | .text s => pure (readDocument rules.extensions s.toList)
    | tree => tokensOfTree tree
  return String.ofList (← writeTokens rules tokens)

end NotebookTree.Markdown

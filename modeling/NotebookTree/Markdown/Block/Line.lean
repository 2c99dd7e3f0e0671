import NotebookTree.Markdown.Tag

/-!
# What a line can start

Tests on single lines: how far a line is indented, and which block it opens. A line is given
without its end.

Reference: the patterns by which the engine behind `parse_markdown` finds blocks.
-/

namespace NotebookTree.Markdown

open Text (isBlank isAsciiDigit isAsciiLetter)

/-- A line without its end. -/
abbrev Line := List Char

/-- The number of spaces at the front. -/
def indentation (l : Line) : Nat := (l.takeWhile (· == ' ')).length

/-- The line behind its indentation, if that is `most` spaces at most. -/
def behindIndent? (most : Nat) (l : Line) : Option Line :=
  if indentation l ≤ most then some (l.drop (indentation l)) else none

/-- Drops spaces at the front, `most` of them at most. -/
def dropSpaces (most : Nat) (l : Line) : Line :=
  l.drop (min most (indentation l))

/-- The blanks that make a blank line. -/
def isBlankLineChar (c : Char) : Bool :=
  c == ' ' || c == '\t' || c == '\x0b' || c == '\x0c'

/-- The blanks of the basic alphabet. -/
def isPlainBlank (c : Char) : Bool := isBlankLineChar c || c == '\n' || c == '\r'

/-- Whether a line is blank. -/
def isBlankLine (l : Line) : Bool := l.all isBlankLineChar

/-- Whether a line holds nothing but spaces and tabs. -/
def isEmptyLine (l : Line) : Bool := l.all isLineBlank

/-- Widens a tab behind three spaces at most to a stop at `width`. -/
def widenTab (width : Nat) (l : Line) : Line :=
  let n := indentation l
  match l.drop n with
  | '\t' :: rest => if n ≤ 3 then List.replicate (max n width) ' ' ++ rest else l
  | _ => l

/-- Replaces a tab behind three spaces at most by four spaces. -/
def expandTab (l : Line) : Line :=
  let n := indentation l
  match l.drop n with
  | '\t' :: rest => if n ≤ 3 then List.replicate (n + 4) ' ' ++ rest else l
  | _ => l

/-- Whether a line is indented as code: four spaces or a tab, and something behind them. -/
def isIndentedCode (l : Line) : Bool :=
  let n := indentation l
  (4 ≤ n && 4 < l.length) || ((l.drop n).head? == some '\t' && n + 1 < l.length)

/-- The text of a heading without the number signs that close it, which nothing or a blank stands
in front of. -/
def dropClosingSigns (text : List Char) : List Char :=
  let body := Text.stripEnd isBlank text
  let before := Text.stripEnd (· == '#') body
  let spaced := match before.getLast? with
    | none => true
    | some c => isBlank c
  if before.length < body.length && spaced then Text.stripEnd isBlank before else text

/-- A heading with number signs: its level and text. -/
def atxHeading? (l : Line) (most : Nat) : Option (Nat × List Char) :=
  match behindIndent? most l with
  | none => none
  | some body =>
    let signs := body.span (· == '#')
    let n := signs.1.length
    let spaced := match signs.2 with
      | [] => true
      | c :: _ => isLineBlank c
    if n == 0 || 6 < n || !spaced then none
    else some (n, dropClosingSigns (Text.strip isPlainBlank signs.2))

/-- The line under a heading: its level. -/
def underline? (l : Line) : Option Nat :=
  match behindIndent? 3 l with
  | none => none
  | some body =>
    let marks := Text.stripEnd isLineBlank body
    if marks.isEmpty || !marks.all (fun c => c == '=' || c == '-') then none
    else some (if marks.getLast? == some '=' then 1 else 2)

/-- Whether a line is a thematic break. -/
def isThematicBreak (l : Line) (most : Nat) : Bool :=
  match behindIndent? most l with
  | none => false
  | some body =>
    let isBreakOf (c : Char) : Bool :=
      body.head? == some c && body.all (fun d => d == c || isLineBlank d) && 3 ≤ Text.count c body
    isBreakOf '-' || isBreakOf '_' || isBreakOf '*'

/-- The opening line of fenced code. -/
structure Fence where
  indent : Nat
  marker : List Char
  info : List Char

/-- Reads an opening fence. -/
def fence? (l : Line) (most : Nat) : Option Fence :=
  match behindIndent? most l with
  | none => none
  | some body =>
    match body with
    | [] => none
    | c :: _ =>
      let marker := body.takeWhile (· == c)
      if (c == Char.ofNat 96 || c == '~') && 3 ≤ marker.length then
        some ⟨indentation l, marker, (body.drop marker.length).dropWhile isLineBlank⟩
      else none

/-- Whether the information string fits the marker: none with grave accents behind grave accents. -/
def Fence.isValid (f : Fence) : Bool :=
  !(f.marker.head? == some (Char.ofNat 96) && f.info.contains (Char.ofNat 96))

/-- Whether a line closes a fence. -/
def Fence.isClosedBy (f : Fence) (l : Line) : Bool :=
  match behindIndent? 3 l, f.marker with
  | some body, c :: _ =>
    let marks := body.takeWhile (· == c)
    f.marker.length ≤ marks.length && isEmptyLine (body.drop marks.length)
  | _, _ => false

/-- The text behind the mark of a quotation. -/
def quoted? (l : Line) (most : Nat) : Option (List Char) :=
  match behindIndent? most l with
  | some ('>' :: rest) => some rest
  | _ => none

/-- The opening of a list item: indentation, number if ordered, bullet, and the text behind. -/
structure ItemStart where
  indent : Nat
  number : List Char
  bullet : Char
  text : List Char

/-- The width of indentation and marker. -/
def ItemStart.width (s : ItemStart) : Nat := s.indent + s.number.length + 1

/-- Reads the opening of a list item: a blank follows the marker, or nothing but blanks. Where a
list is being `continued`, the number in front of a period or parenthesis may be missing. -/
def readItemStart? (continued : Bool) (l : Line) (most : Nat) : Option ItemStart :=
  match behindIndent? most l with
  | none => none
  | some body =>
    let number := body.takeWhile Text.isDecimalDigit
    match body.drop number.length with
    | [] => none
    | c :: text =>
      let isBullet := number.isEmpty && (c == '*' || c == '+' || c == '-')
      let isNumber := (continued || !number.isEmpty) && number.length ≤ 9
      let isNumbered := isNumber && (c == '.' || c == ')')
      let spaced := match text with
        | [] => true
        | d :: _ => isLineBlank d
      if (isBullet || isNumbered) && spaced then some ⟨indentation l, number, c, text⟩ else none

/-- The opening of a list item. -/
def itemStart? (l : Line) (most : Nat) : Option ItemStart := readItemStart? false l most

/-- Tags whose content is taken as it is up to their end. -/
def verbatimTags : List String := ["pre", "script", "style", "textarea"]

/-- Tags that open a block. -/
def blockTags : List String :=
  ["address", "article", "aside", "base", "basefont", "blockquote", "body", "caption", "center",
   "col", "colgroup", "dd", "details", "dialog", "dir", "div", "dl", "dt", "fieldset",
   "figcaption", "figure", "footer", "form", "frame", "frameset", "h1", "h2", "h3", "h4", "h5",
   "h6", "head", "header", "hr", "html", "iframe", "legend", "li", "link", "main", "menu",
   "menuitem", "meta", "nav", "noframes", "ol", "optgroup", "option", "p", "param", "section",
   "source", "summary", "table", "tbody", "td", "tfoot", "th", "thead", "title", "tr", "track",
   "ul"]

/-- What raw markup a line opens. -/
inductive MarkupStart where
  /-- Markup that ends with the line on which the given text stands; `behind` is what follows the
  opening on its line. -/
  | upTo (last : List Char) (behind : List Char)
  /-- Markup that ends before the next blank line. -/
  | upToBlank
  /-- A tag of its own on a line, which cannot interrupt a paragraph. -/
  | lone (closing : Bool) (behind : List Char)

/-- Reads the opening of raw markup. -/
def markupStart? (l : Line) (most : Nat) : Option MarkupStart :=
  match behindIndent? most l with
  | some ('<' :: rest) =>
    match rest with
    | '!' :: '-' :: '-' :: more => some (.upTo ['-', '-', '>'] more)
    | '?' :: more => some (.upTo ['?', '>'] more)
    | '!' :: '[' :: 'C' :: 'D' :: 'A' :: 'T' :: 'A' :: '[' :: more =>
      some (.upTo [']', ']', '>'] more)
    | '!' :: c :: more => if isCapital c then some (.upTo ['>'] more) else none
    | '/' :: more => match readTagName? more with
      | none => none
      | some (name, behind) =>
        if blockTags.contains (String.ofList (Text.lower name)) then some .upToBlank
        else some (.lone true behind)
    | _ => match readTagName? rest with
      | none => none
      | some (name, behind) =>
        let tag := Text.lower name
        if verbatimTags.contains (String.ofList tag) then
          some (.upTo ('<' :: '/' :: tag ++ ['>']) behind)
        else if blockTags.contains (String.ofList tag) then some .upToBlank
        else some (.lone false behind)
  | _ => none

/-- Whether a tag of its own is complete on its line. -/
def isLoneTag (closing : Bool) (behind : List Char) : Bool :=
  if closing then
    match behind.dropWhile isLineBlank with
    | '>' :: rest => isEmptyLine rest
    | _ => false
  else
    let p := readAttributes behind.length behind
    match p.2.dropWhile isLineBlank with
    | '>' :: rest => isEmptyLine rest
    | _ => false

/-- Whether a line opens raw markup that ends a quotation or item. Only names in small letters
count. -/
def opensMarkupBlock (l : Line) (most : Nat) : Bool :=
  match behindIndent? most l with
  | some ('<' :: rest) =>
    let named (cs : List Char) : Bool := match readTagName? cs with
      | some (name, behind) =>
        let tag := String.ofList name
        (verbatimTags.contains tag || blockTags.contains tag) &&
          (match behind with
            | [] => true
            | c :: _ => isLineBlank c)
      | none => false
    match rest with
    | '!' :: '-' :: '-' :: _ => true
    | '?' :: _ => true
    | '!' :: '[' :: more => "CDATA[".toList.isPrefixOf more
    | '!' :: c :: _ => isCapital c
    | '/' :: more => named more
    | _ => named rest
  | _ => false

end NotebookTree.Markdown

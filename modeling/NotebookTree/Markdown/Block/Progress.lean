import NotebookTree.Markdown.Block.Line

/-!
# Blocks as they are read

Blocks are read line by line. What has been read so far is kept with the last block first, as a line
may still go on with it, and each rule takes the line that it fits and as many as belong to it. Here
are the rules whose blocks have no parts: code, blank lines, raw markup.

## Main definitions

* `Rules`: the rules in force.
* `Progress`: what has been read.
* `readFenced`, `readIndented`, `readBlank`, `readMarkupBlock`: the blocks.

Reference: the rules of the engine behind `parse_markdown` for blocks without parts.
-/

namespace NotebookTree.Markdown

open Text (isBlank)

/-- The rules in force: extensions, whether quotations and lists are recognized, and the depth of
nesting. -/
structure Rules where
  extensions : List Extension
  /-- Whether quotations may hide text, which has nothing to do with the other extensions. -/
  spoilers : Bool
  quotes : Bool
  lists : Bool
  depth : Nat
  /-- The lines, by the number of lines below them, that belong to a quotation without its mark and
  look like underlines of headings. They are running text. -/
  bare : List Nat

/-- The rules inside a quotation or list: the extensions that add blocks do not reach there. -/
def Rules.inside (r : Rules) (quotes lists : Bool) : Rules :=
  { r with extensions := [], quotes, lists, depth := r.depth + 1, bare := [] }

/-- How deep quotations and lists nest. -/
def maxDepth : Nat := 20

/-- What has been read: the blocks, the last one first, and the definitions. -/
structure Progress where
  blocks : List Block
  definitions : Definitions

/-- Reads the lines of a part of the document under its own rules. -/
abbrev PartReader := Rules → Definitions → List Line → List Block × Definitions

/-- A block on top of those read. -/
def Progress.push (p : Progress) (b : Block) : Progress := { p with blocks := b :: p.blocks }

/-- A block below the topmost `count` of those read. -/
def Progress.insertBelow (p : Progress) (count : Nat) (b : Block) : Progress :=
  { p with blocks := p.blocks.take count ++ b :: p.blocks.drop count }

/-- The line joined to a paragraph, if one stands on top. -/
def Progress.extend? (p : Progress) (l : Line) : Option Progress :=
  match p.blocks with
  | .paragraph text :: bs => some { p with blocks := .paragraph (text ++ l ++ ['\n']) :: bs }
  | _ => none

/-- The line as part of a paragraph. -/
def Progress.addLine (p : Progress) (l : Line) : Progress :=
  (p.extend? l).getD (p.push (.paragraph (l ++ ['\n'])))

/-- What a rule makes of a line: nothing, as it does not fit; or new progress and the lines that are
left. -/
abbrev Outcome := Option (Progress × List Line)

/-! ## Blocks without parts -/

/-- The content of fenced code and the lines behind it. -/
def fencedLines (f : Fence) (rest : List Line) : List Line × List Line :=
  let body := rest.takeWhile (fun l => !f.isClosedBy l)
  (body.map (dropSpaces f.indent), rest.drop (body.length + 1))

/-- Reads fenced code. -/
def readFenced (p : Progress) (f : Fence) (rest : List Line) : Progress × List Line :=
  let (body, behind) := fencedLines f rest
  let info := if f.info.isEmpty then none else some (Text.trim (unescape f.info))
  (p.push (.code (.fenced f.marker info) (Text.unlines body)), behind)

/-- The lines that continue indented code. -/
def indentedLines : List Line → List Line
  | [] => []
  | l :: ls => if isIndentedCode l || l.all isBlank then l :: indentedLines ls else []

/-- Reads indented code, with the blank lines behind it. It cannot interrupt a paragraph. -/
def readIndented (p : Progress) (l : Line) (rest : List Line) : Progress × List Line :=
  match p.extend? l with
  | some p' => (p', rest)
  | none =>
    let more := indentedLines rest
    let body := (l :: more).map (fun k => dropSpaces 4 (widenTab 4 k))
    let text := Text.strip (· == '\n') (Text.join ['\n'] body)
    (p.push (.code .indented text), rest.drop more.length)

/-- Reads blank lines. -/
def readBlank (p : Progress) (rest : List Line) : Progress × List Line :=
  (p.push (.blankLine none), rest.dropWhile isBlankLine)

/-- The lines of raw markup up to the one on which `needle` stands. -/
def linesUpTo (needle : List Char) : List Line → List Line
  | [] => []
  | l :: ls => if (Text.splitBefore? needle l).isSome then [l] else l :: linesUpTo needle ls

/-- Whether raw markup can be read: a tag of its own has to be complete, unless it goes to the
paragraph above it. -/
def canReadMarkup (p : Progress) (start : MarkupStart) (l : Line) : Bool :=
  match start with
  | .lone closing behind => (p.extend? l).isSome || isLoneTag closing behind
  | _ => true

/-- Reads raw markup. -/
def readMarkupBlock (p : Progress) (start : MarkupStart) (l : Line) (rest : List Line) :
    Progress × List Line :=
  let upToBlank : Progress × List Line :=
    let more := rest.takeWhile (fun k => !isBlankLine k)
    (p.push (.html (Text.unlines (l :: more))), rest.drop more.length)
  match start with
  | .upTo needle behind =>
    if (Text.splitBefore? needle behind).isSome then (p.push (.html (l ++ ['\n'])), rest)
    else
      let more := linesUpTo needle rest
      (p.push (.html (Text.unlines (l :: more))), rest.drop more.length)
  | .upToBlank => upToBlank
  | .lone _ _ => match p.extend? l with
    | some p' => (p', rest)
    | none => upToBlank

end NotebookTree.Markdown

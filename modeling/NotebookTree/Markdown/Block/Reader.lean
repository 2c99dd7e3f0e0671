import NotebookTree.Markdown.Block.Extension

/-!
# Reading blocks

At each line of a text the rules are tried in a fixed order, and the first that fits takes the
line; a line that no rule takes goes to a paragraph. Quotations and items are read again on their
own, with fewer rules.

## Main definitions

* `readStep`: what one line opens.
* `readPart`: reads a part of a document.
* `readBlocks`: reads a text.

Reference: the block reader of the engine behind `parse_markdown`.
-/

namespace NotebookTree.Markdown

open Text (isBlank)

/-- The heading a line makes of the paragraph above it, as its underline. -/
def underlined? (p : Progress) (l : Line) : Option Progress :=
  match underline? l, p.blocks with
  | some level, .paragraph text :: bs => some { p with blocks := .heading level true text :: bs }
  | _, _ => none

/-- Reads a link reference definition, which cannot interrupt a paragraph. -/
def readLinkDefinition (p : Progress) (l : Line) (rest : List Line) : Outcome :=
  match p.extend? l with
  | some p' => some (p', rest)
  | none => (readLinkDefinition? l rest).map (fun d =>
    let defs := { p.definitions with
      links := addFirst p.definitions.links d.1.1 d.1.2 }
    ({ p with definitions := defs }, d.2))

/-- What a line opens: the rules are tried in order. -/
def readStep (part : PartReader) (r : Rules) (p : Progress) (l : Line) (rest : List Line) :
    Outcome :=
  let open' (o : Opening) : Outcome := some (readOpening part r (rest.length + 2) p o l rest)
  match fence? l 3 with
  | some f => if f.isValid then open' (.fence f) else none
  | none =>
  if isIndentedCode l then some (readIndented p l rest)
  else match atxHeading? l 3 with
  | some (level, text) => open' (.heading level text)
  | none =>
  -- a line that belongs to a quotation without its mark is running text
  if r.bare.contains rest.length then none
  else match underlined? p l with
  | some p' => some (p', rest)
  | none =>
  -- an underline with no text above it may still be a break or start an item
  if (underline? l).isSome then
    if isThematicBreak l 3 then open' .thematicBreak
    else match itemStart? l 3 with
      | some start => open' (.item start)
      | none => none
  else if isThematicBreak l 3 then open' .thematicBreak
  else match if r.quotes then quoted? l 3 else none with
  | some behind => open' (.quote behind)
  | none =>
  match if r.extensions.contains .math then readFormulaBlock? l rest else none with
  | some (text, left) => some (p.push (.math text), left)
  | none =>
  match if r.lists then itemStart? l 3 else none with
  | some start => open' (.item start)
  | none =>
  match if r.extensions.contains .footnotes then readNoteDefinition? l rest else none with
  | some ((key, text), left) =>
    let defs := { p.definitions with notes := addFirst p.definitions.notes key text }
    some ({ p with definitions := defs }, left)
  | none =>
  if opensLinkDefinition l rest then readLinkDefinition p l rest
  else match markupStart? l 3 with
  | some start => if canReadMarkup p start l then open' (.markup start) else none
  | none =>
  if isBlankLine l then open' .blank
  else readExtension part r p l rest r.extensions

/-- Reads lines one after the other. Each step takes a line at least, so their number bounds the
steps. -/
def readLines (part : PartReader) (r : Rules) :
    (fuel : Nat) → Progress → List Line → Progress
  | 0, p, _ => p
  | _ + 1, p, [] => p
  | fuel + 1, p, l :: rest =>
    let (p', left) := (readStep part r p l rest).getD (p.addLine l, rest)
    readLines part r fuel p' left

/-- The blank lines at the front of a text, of which the number is kept, and what is left. -/
def readLeadingBlank (ls : List Line) : List Block × List Line :=
  match ls with
  | l :: _ =>
    let blank := ls.takeWhile isBlankLine
    if blank.isEmpty || isIndentedCode l then ([], ls)
    else ([.blankLine (some blank.length)], ls.drop blank.length)
  | [] => ([], [])

/-- Reads a part of a document, with parts nested `fuel` deep at most. -/
def readPart : (fuel : Nat) → PartReader
  | 0, _, defs, ls => ([.paragraph (Text.unlines ls)], defs)
  | fuel + 1, r, defs, ls =>
    let (blocks, left) := readLeadingBlank ls
    let p := readLines (readPart fuel) r (left.length + 1) ⟨blocks, defs⟩ left
    (p.blocks.reverse, p.definitions)

/-- The number of characters that are not blank. Every quotation or item spends one of them on its
mark, so it bounds their nesting. -/
def weight (ls : List Line) : Nat :=
  ls.foldl (fun n l => n + l.countP (fun c => !isBlank c)) 0

/-- The rules at the top of a document, or of a note, which is one level deeper. -/
def topRules (extensions : List Extension) (depth : Nat) : Rules :=
  { extensions, spoilers := extensions.contains .spoiler, quotes := true, lists := true, depth,
    bare := [] }

/-- Reads the blocks of a document or note, and what they define. -/
def readBlocks (extensions : List Extension) (depth : Nat) (defs : Definitions) (ls : List Line) :
    List Block × Definitions :=
  readPart (weight ls + 1) (topRules extensions depth) defs ls

end NotebookTree.Markdown

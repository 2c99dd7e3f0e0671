import NotebookTree.Markdown.Block.Progress

/-!
# Quotations and lists

The lines of a quotation or of an item go up to one that opens another block. That block is read
next, when the quotation is not yet among what has been read, and only then the quotation takes its
place: below the topmost block. A list takes its place below all blocks that have come to stand
above those it found. The lines inside are read again on their own.

## Main definitions

* `Opening`: what a line opens.
* `extractQuote`: the lines of a quotation.
* `itemLines`, `readItems`: the lines of an item, and the items of a list.
* `readOpening`: reads what a line opens, with the blocks that are opened where it ends.

Reference: the rules of the engine behind `parse_markdown` for quotations and lists.
-/

namespace NotebookTree.Markdown

open Text (isBlank)

/-- What a line opens that can end a quotation or an item. -/
inductive Opening where
  | blank
  | thematicBreak
  | fence (f : Fence)
  | heading (level : Nat) (text : List Char)
  | quote (behind : List Char)
  | item (start : ItemStart)
  | markup (start : MarkupStart)

/-- How the lines of a quotation or list end. -/
inductive Ending where
  /-- The lines behind are read as if nothing stood above. -/
  | close (rest : List Line)
  /-- A line opens another block. -/
  | opened (next : Opening) (l : Line) (rest : List Line)

/-- The raw markup that a line opens and that can end a quotation or item. -/
def markupOpening? (p : Progress) (most : Nat) (l : Line) : Option Opening :=
  if opensMarkupBlock l most then
    match markupStart? l most with
    | some start => if canReadMarkup p start l then some (.markup start) else none
    | none => none
  else none

/-- The fence that a line opens. -/
def fenceOpening? (most : Nat) (l : Line) : Option Opening :=
  match fence? l most with
  | some f => if f.isValid then some (.fence f) else none
  | none => none

/-- What a line opens that ends a quotation, although it could continue its last paragraph. -/
def quoteEnd? (p : Progress) (l : Line) : Option Opening :=
  if isBlankLine l then some .blank
  else if isThematicBreak l 3 then some .thematicBreak
  else (fenceOpening? 3 l).orElse fun _ =>
    ((itemStart? l 3).map Opening.item).orElse fun _ => markupOpening? p 3 l

/-- The text of a quoted line, given what stands behind its mark. -/
def quotedText (behind : List Char) : Line := dropSpaces 1 (widenTab 3 behind)

/-- A line of a quotation: its text, and whether the mark is missing. -/
structure QuoteLine where
  text : Line
  isBare : Bool

/-- The quoted lines at the front, without their marks, and what is left. -/
def quotedLines : List Line → List QuoteLine × Ending
  | [] => ([], .close [])
  | l :: ls => match quoted? l 3 with
    | some behind =>
      let q := quotedLines ls
      (⟨quotedText behind, false⟩ :: q.1, q.2)
    | none => ([], .close (l :: ls))

/-- The lines of a quotation below its first: quoted ones, and bare ones that continue a paragraph;
`blank` tells whether the quoted text ends with a blank line. -/
def lazyLines (p : Progress) (blank : Bool) : List Line → List QuoteLine × Ending
  | [] => ([], .close [])
  | l :: ls =>
    match quoted? l 3 with
    | some behind =>
      let text := quotedText behind
      let q := lazyLines p (text.all isBlank) ls
      (⟨text, false⟩ :: q.1, q.2)
    | none =>
      if blank then ([], .close (l :: ls))
      else match quoteEnd? p l with
        | some next => ([], .opened next l ls)
        | none =>
          let q := lazyLines p false ls
          (⟨widenTab 3 l, true⟩ :: q.1, q.2)

/-- The lines of a quotation without its marks, and what is left. A quotation that starts with a
blank line or code goes on only with quoted lines. -/
def extractQuote (p : Progress) (behind : List Char) (rest : List Line) : List QuoteLine × Ending :=
  let first := quotedText behind
  let strict := isBlankLine first || isIndentedCode first || (fence? first 3).isSome
  let more := if strict then quotedLines rest else lazyLines p false rest
  ((⟨first, false⟩ :: more.1).map (fun q => { q with text := expandTab q.text }), more.2)

/-- The bare lines that look like underlines of headings, by the number of lines below them. -/
def bareUnderlines : List QuoteLine → List Nat
  | [] => []
  | q :: qs =>
    if q.isBare && (underline? q.text).isSome then qs.length :: bareUnderlines qs
    else bareUnderlines qs

/-- A hidden line: an exclamation mark starts it. -/
def hiddenLine? (l : Line) : Option Line :=
  match behindIndent? 3 l with
  | some ('!' :: ' ' :: rest) => some rest
  | some ('!' :: rest) => some rest
  | _ => none

/-- The text of a quotation whose lines are all hidden; one empty line may stand at the end. -/
def hiddenText? (body : List Line) : Option (List Line) :=
  let told := if body.getLast? == some [] then body.dropLast else body
  if told.isEmpty || told.any (fun l => (hiddenLine? l).isNone) then none
  else some (body.map (fun l => (hiddenLine? l).getD l))

/-- The block of a quotation, and the definitions with those in it. One whose lines all start with
an exclamation mark is hidden, if the extension is on and it stands at the top. -/
def quoteBlock (part : PartReader) (r : Rules) (defs : Definitions) (body : List QuoteLine) :
    Block × Definitions :=
  let text := body.map QuoteLine.text
  let hidden := if r.spoilers && r.depth == 0 then hiddenText? text else none
  let inner := { r.inside (r.depth + 1 < maxDepth) true with bare := bareUnderlines body }
  let (children, defs') := part inner defs (hidden.getD text)
  (if hidden.isSome then .spoiler children else .quote children, defs')

/-- Whether the blocks of an item make its list loose: a blank line, or a second paragraph. -/
def isLoose (blocks : List Block) : Bool :=
  let isBlankBlock (b : Block) : Bool := match b with
    | .blankLine _ => true
    | _ => false
  let isParagraph (b : Block) : Bool := match b with
    | .paragraph _ => true
    | _ => false
  blocks.any isBlankBlock || 1 < blocks.countP isParagraph

/-- The paragraphs of a tight item as plain block text. -/
def tighten (blocks : List Block) : List Block :=
  blocks.map (fun b => match b with
    | .paragraph text => .blockText text
    | _ => b)

/-- The first line of an item and the indentation that its other lines need. -/
def itemFirstLine (start : ItemStart) : Option Line × Nat :=
  let text := expandTab (widenTab 3 start.text)
  if text.all isBlank then (none, start.width + 1)
  else
    let space := if 5 ≤ indentation text then 1 else (text.takeWhile isBlank).length
    (some (text.drop space), start.width + space)

/-- Whether a line opens another item of the same list. -/
def nextItem? (start : ItemStart) (l : Line) : Option ItemStart :=
  match readItemStart? true l (min 3 start.width) with
  | some s => if s.bullet == start.bullet then some s else none
  | none => none

/-- What a line opens that ends an item, although it could continue its last paragraph. -/
def itemEnd? (p : Progress) (most : Nat) (l : Line) : Option Opening :=
  (fenceOpening? most l).orElse fun _ =>
    ((atxHeading? l most).map (fun h => Opening.heading h.1 h.2)).orElse fun _ =>
      ((quoted? l most).map Opening.quote).orElse fun _ => markupOpening? p most l

/-- What ends an item. -/
inductive ItemEnd where
  /-- Another item of the list, with the lines behind its first; `spaced` by a blank line. -/
  | next (start : ItemStart) (spaced : Bool) (rest : List Line)
  | last (ending : Ending)

/-- The lines of an item below its first, in reverse order, and what ends it. -/
def itemLines (p : Progress) (start : ItemStart) (hasText : Bool) (width : Nat) (blank : Bool)
    (done : List Line) : List Line → List Line × ItemEnd
  | [] => (done, .last (.close []))
  | l :: ls =>
    let most := min 3 start.width
    if isBlankLine l then itemLines p start hasText width true ([] :: done) ls
    else
      let wide := widenTab 4 l
      if width ≤ indentation wide then
        -- an item without text of its own ends at a blank line
        if blank && !hasText && done.all List.isEmpty then (done, .last (.close (l :: ls)))
        else itemLines p start hasText width false (wide :: done) ls
      else if isThematicBreak l most then (done, .last (.opened .thematicBreak l ls))
      else match nextItem? start l with
        | some s => (done, .next s blank ls)
        | none => match itemEnd? p most l with
          | some next => (done, .last (.opened next l ls))
          | none =>
            if (itemStart? l most).isSome || blank then (done, .last (.close (l :: ls)))
            else itemLines p start hasText width false (wide :: done) ls

/-- The lines of an item without the indentation it asks for. -/
def outdent (width : Nat) (l : Line) : Line :=
  if width ≤ indentation l then expandTab (l.drop width) else l

/-- Lines without the blank ones at the end. -/
def withoutTrailing (ls : List Line) : List Line :=
  match ls.reverse.dropWhile (fun l => l.all isBlank) with
  | [] => ls.take 1
  | kept => kept.reverse

/-- What has been found of a list: its items but the last, whether it is loose, the definitions so
far, the lines of the last item, and what ends the list. -/
structure ListExtent where
  items : List (List Block)
  loose : Bool
  definitions : Definitions
  last : List Line
  ending : Ending

/-- Finds the items of a list. Each item takes a line at least, so the number of lines bounds
theirs. -/
def readItems (part : PartReader) (r : Rules) (p : Progress) :
    (fuel : Nat) → ItemStart → Bool → Definitions → List Line → ListExtent
  | 0, _, loose, defs, rest => ⟨[], loose, defs, [], .close rest⟩
  | fuel + 1, start, loose, defs, rest =>
    let (first, width) := itemFirstLine start
    let (below, ending) := itemLines p start first.isSome width false [] rest
    let text := withoutTrailing (first.toList ++ below.reverse.map (outdent width))
    match ending with
    | .last ending => ⟨[], loose, defs, text, ending⟩
    | .next s spaced left =>
      let (children, defs') := part r defs text
      let others := readItems part r p fuel s (loose || isLoose children || spaced) defs' left
      { others with items := children :: others.items }

/-- The number of an ordered list, if it starts anywhere but at one. -/
def startNumber? (start : ItemStart) : Option Nat :=
  if start.number.isEmpty then none
  else
    let n := start.number.foldl (fun n c => 10 * n + Text.digitValue c) 0
    if n == 1 then none else some n

/-- The block of a list, and the definitions with those in its last item. -/
def listBlock (part : PartReader) (inner : Rules) (depth : Nat) (start : ItemStart)
    (extent : ListExtent) (defs : Definitions) : Block × Definitions :=
  let (children, defs') := part inner defs extent.last
  let loose := extent.loose || isLoose children
  let items := (extent.items ++ [children]).map
    (fun bs => Block.item (if loose then bs else tighten bs))
  (.list (!loose) start.bullet depth (!start.number.isEmpty) (startNumber? start) items, defs')

/-- An empty item, or a number other than one, cannot interrupt a paragraph. -/
def isWeakStart (start : ItemStart) : Bool :=
  start.text.all isBlank || (startNumber? start).isSome

/-- Reads the block that a line opens, and the blocks that are opened where it ends. Each takes a
line at least, so the number of lines bounds theirs. -/
def readOpening (part : PartReader) (r : Rules) :
    (fuel : Nat) → Progress → Opening → Line → List Line → Progress × List Line
  | 0, p, _, _, rest => (p, rest)
  | fuel + 1, p, opening, l, rest =>
    match opening with
    | .blank => readBlank p rest
    | .thematicBreak => (p.push .thematicBreak, rest)
    | .fence f => readFenced p f rest
    | .heading level text => (p.push (.heading level false text), rest)
    | .markup start => readMarkupBlock p start l rest
    | .quote behind =>
      let (body, ending) := extractQuote p behind rest
      let (above, p', left) := match ending with
        | .close left => (0, p, left)
        | .opened next k left =>
          let (p', left') := readOpening part r fuel p next k left
          (1, p', left')
      let (block, defs) := quoteBlock part r p'.definitions body
      ({ p'.insertBelow above block with definitions := defs }, left)
    | .item start =>
      match if isWeakStart start then p.extend? l else none with
      | some p' => (p', rest)
      | none =>
        let inner := r.inside true (r.depth + 1 < maxDepth)
        let extent := readItems part inner p (rest.length + 1) start false p.definitions rest
        let p := { p with definitions := extent.definitions }
        let (p', left) := match extent.ending with
          | .close left => (p, left)
          | .opened next k left => readOpening part r fuel p next k left
        let (block, defs) := listBlock part inner r.depth start extent p'.definitions
        -- the blocks that were read where the list ended stand above it
        let above := p'.blocks.length - p.blocks.length
        ({ p'.insertBelow above block with definitions := defs }, left)

end NotebookTree.Markdown

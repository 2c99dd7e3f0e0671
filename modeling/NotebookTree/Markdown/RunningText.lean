import NotebookTree.Markdown.Span

/-!
# Reading running text

Running text is read from left to right into pieces: stretches of plain text, runs of emphasis
marks, opening brackets, and inlines that are complete. A closing bracket makes a link of the pieces
behind its opening one, if a target follows or is defined; emphasis marks are paired when a stretch
is complete.

## Main definitions

* `Piece`: what the reader holds while it reads.
* `pairMarks`: pairs the runs of emphasis marks.
* `readInlines`: reads a text.

Reference: the inline reader of the engine behind `parse_markdown`.
-/

namespace NotebookTree.Markdown

open Text (isBlank backslash isPunctuation)

/-- What running text is read under. -/
structure Context where
  extensions : List Extension
  definitions : Definitions

/-- Whether an extension is on. -/
def Context.has (ctx : Context) (e : Extension) : Bool := ctx.extensions.contains e

/-- Whether an extension is on that comes after all other rules. The fast reader of plain text
leaves nothing to those that were asked for after it. -/
def Context.reaches (ctx : Context) (e : Extension) : Bool :=
  (ctx.extensions.takeWhile (· != .speedup)).contains e

/-- Reading keeps the keys of the notes that have been referred to, in order. -/
abbrev Reading := StateM (List (List Char))

/-- A run of emphasis marks: those still unpaired, those it began with, and which side it can take
in a pair. -/
structure MarkRun where
  mark : Char
  count : Nat
  whole : Nat
  opens : Bool
  closes : Bool

/-- What the reader holds while it reads. -/
inductive Piece where
  /-- Plain text, in reverse order. -/
  | plain (reversed : List Char)
  | marks (run : MarkRun)
  /-- An opening bracket with the text behind it. It is inactive once a link stands inside. -/
  | opening (image active : Bool) (behind : List Char)
  /-- An automatic link, which inside another link is only text. -/
  | auto (shown : List Char) (target : Inline)
  | done (inline : Inline)

/-- Puts plain text on top of the pieces. -/
def pushPlain (s : List Char) : List Piece → List Piece
  | .plain r :: ps => .plain (s.reverse ++ r) :: ps
  | ps => .plain s.reverse :: ps

/-- Puts a piece on top; plain text joins plain text. -/
def pushPiece (p : Piece) (stack : List Piece) : List Piece :=
  match p with
  | .plain r => pushPlain r.reverse stack
  | _ => p :: stack

/-- The text of an opening bracket. -/
def bracketText (image : Bool) : List Char := if image then ['!', '['] else ['[']

/-- The text of a run of marks. -/
def MarkRun.text (run : MarkRun) : List Char := List.replicate run.count run.mark

/-- A run of `n` marks between two characters. An underscore inside a word takes no side. -/
def markRun (mark : Char) (n : Nat) (before after : Option Char) : MarkRun :=
  let blank (c : Option Char) : Bool := match c with
    | none => true
    | some d => isBlank d
  let punct (c : Option Char) : Bool := match c with
    | none => false
    | some d => isPunctuation d
  let left := !blank after && (!punct after || blank before || punct before)
  let right := !blank before && (!punct before || blank after || punct after)
  let free := mark != '_'
  ⟨mark, n, n, left && (free || !right || punct before), right && (free || !left || punct after)⟩

/-- Whether two runs can be paired: the same mark, and not both of them two-sided with lengths that
add up to a multiple of three. -/
def MarkRun.pairsWith (opener closer : MarkRun) : Bool :=
  opener.mark == closer.mark && opener.opens && 0 < opener.count &&
  !((opener.closes || closer.opens) && closer.whole % 3 != 0 &&
    (opener.whole + closer.whole) % 3 == 0)

/-- The abbreviation whose short form stands at the front. -/
def abbreviationAt? (defs : Definitions) (cs : List Char) : Option (List Char × List Char) :=
  defs.abbreviations.find? (fun a => a.1.isPrefixOf cs)

/-- Cuts plain text at the abbreviations in it; `skip` characters belong to one already cut, and
`done` is the stretch before, in reverse order. -/
def cutAbbreviations (defs : Definitions) (done : List Char) :
    (skip : Nat) → List Char → List Inline
  | _, [] => if done.isEmpty then [] else [.text done.reverse]
  | skip + 1, _ :: cs => cutAbbreviations defs done skip cs
  | 0, c :: cs =>
    match abbreviationAt? defs (c :: cs) with
    | some (short, title) =>
      (if done.isEmpty then [] else [.text done.reverse]) ++
        .abbreviation title short :: cutAbbreviations defs [] (short.length - 1) cs
    | none => cutAbbreviations defs (c :: done) 0 cs

/-- Plain text as inlines. -/
def plainInlines (defs : Definitions) (s : List Char) : List Inline :=
  if defs.abbreviations.isEmpty then [.text s] else cutAbbreviations defs [] 0 s

/-- A piece between two paired runs as inlines. -/
def Piece.inside (defs : Definitions) : Piece → List Inline
  | plain r => plainInlines defs r.reverse
  | marks run => [.text run.text]
  | opening image _ _ => [.text (bracketText image)]
  | auto _ target => [target]
  | done i => [i]

/-- Looks down the stack for a run that the closing one pairs with: the pieces above it in order,
the run, and the stack below. -/
def findOpener (closer : MarkRun) (above : List Piece) :
    List Piece → Option (List Piece × MarkRun × List Piece)
  | [] => none
  | .marks run :: below =>
    if run.pairsWith closer then some (above, run, below)
    else findOpener closer (.marks run :: above) below
  | p :: below => findOpener closer (p :: above) below

/-- Pairs a closing run as often as it can be, and puts what is left of it on the stack. Each pair
takes two marks from both runs if they have them, for strong emphasis, and else one. -/
def closeRun (defs : Definitions) : (fuel : Nat) → List Piece → MarkRun → List Piece
  | 0, stack, run => .marks run :: stack
  | fuel + 1, stack, run =>
    if run.count == 0 then .marks run :: stack
    else match findOpener run [] stack with
      | none => .marks run :: stack
      | some (above, opener, below) =>
        let n := if 2 ≤ opener.count && 2 ≤ run.count then 2 else 1
        let children := above.flatMap (Piece.inside defs)
        let node := if n == 2 then Inline.strong children else Inline.emphasis children
        closeRun defs fuel
          (.done node :: .marks { opener with count := opener.count - n } :: below)
          { run with count := run.count - n }

/-- Pairs the runs of emphasis marks among pieces; the stack holds those seen, the last on top. -/
def pairMarks (defs : Definitions) (stack : List Piece) : List Piece → List Piece
  | [] => stack
  | .marks run :: ps =>
    pairMarks defs
      (if run.closes then closeRun defs (run.count + 1) stack run else .marks run :: stack) ps
  | p :: ps => pairMarks defs (p :: stack) ps

/-- Joins plain text and unpaired marks. -/
def joinPlain : List Piece → List Piece → List Piece
  | stack, [] => stack
  | stack, .marks run :: ps =>
    joinPlain (if run.count == 0 then stack else pushPlain run.text stack) ps
  | stack, p :: ps => joinPlain (pushPiece p stack) ps

/-- Turns the brackets that never closed into plain text. -/
def plainBrackets (ps : List Piece) : List Piece :=
  (ps.foldl (fun stack p => match p with
    | .opening image _ _ => pushPlain (bracketText image) stack
    | _ => pushPiece p stack) []).reverse

/-- A complete stretch of pieces, in order, as inlines. An empty stretch is an empty text. -/
def finish (defs : Definitions) (pieces : List Piece) : List Inline :=
  let paired := (pairMarks defs [] (plainBrackets pieces)).reverse
  match (joinPlain [] paired).reverse.flatMap (Piece.inside defs) with
  | [] => [.text []]
  | inlines => inlines

/-- Turns automatic links into the text they were written as. -/
def withoutAuto (pieces : List Piece) : List Piece :=
  (pieces.foldl (fun stack p => match p with
    | .auto shown _ => pushPlain shown stack
    | _ => pushPiece p stack) []).reverse

/-- The pieces above the topmost opening bracket in order, the bracket, and the stack below. -/
def splitOpening (above : List Piece) :
    List Piece → Option (List Piece × (Bool × Bool × List Char) × List Piece)
  | [] => none
  | .opening image active behind :: below => some (above, (image, active, behind), below)
  | p :: below => splitOpening (p :: above) below

/-- Makes the opening brackets of links inactive, as links do not nest. -/
def deactivate (stack : List Piece) : List Piece :=
  stack.map (fun p => match p with
    | .opening false _ behind => .opening false false behind
    | _ => p)

/-- What a link or image is made of: target, title, and the label and key of a reference. -/
structure LinkParts where
  url : List Char
  title : Option (List Char)
  reference : Option (List Char × List Char)

/-- The defined target of a label. -/
def lookupLabel (defs : Definitions) (label : List Char) : Option LinkParts :=
  let key := labelKey label
  if key.isEmpty then none
  else (defs.links.lookup key).map (fun t => ⟨t.url, t.title, some (label, key)⟩)

/-- The target of a bracketed text, from what follows its closing bracket: a destination in
parentheses, a label in brackets, or else the text itself as a label. -/
def readLinkTarget? (defs : Definitions) (label rest : List Char) :
    Option (LinkParts × List Char) :=
  let own : Option LinkParts := match readLabel? (label ++ [']']) with
    | some (l, []) => lookupLabel defs l
    | _ => none
  let asLabel : Option (LinkParts × List Char) := own.map (fun t => (t, rest))
  match rest with
  | '(' :: more => match readLinkTail? more with
    | some ((url, title), rest') => some (⟨url, title, none⟩, rest')
    | none => asLabel
  | '[' :: more => match readLabel? more with
    | some ([], rest') => own.map (fun t => (t, rest'))
    | some (l, rest') => (lookupLabel defs l).map (fun t => (t, rest'))
    | none => asLabel
  | _ => asLabel

/-- Reads a closing bracket with `rest` behind it: the new stack, and the text still to be read. -/
def closeBracket (defs : Definitions) (stack : List Piece) (rest : List Char) :
    List Piece × List Char :=
  match splitOpening [] stack with
  | none => (pushPlain [']'] stack, rest)
  | some (above, (image, active, behind), below) =>
    let literal := pushPlain [']']
      (above.foldl (fun st p => pushPiece p st) (pushPlain (bracketText image) below))
    if !active then (literal, rest)
    else
      let label := behind.take (behind.length - rest.length - 1)
      match readLinkTarget? defs label rest with
      | none => (literal, rest)
      | some (parts, rest') =>
        if image then
          (.done (.image parts.url parts.title parts.reference (finish defs above)) :: below, rest')
        else
          -- no link stands inside a link: the brackets further out can no longer open one
          let children := finish defs (withoutAuto above)
          (.done (.link parts.url parts.title parts.reference children) :: deactivate below, rest')

/-- What looks like a reference to a note, behind `[^`. If there is no such note, its bracket is
plain text. -/
def readNote (ctx : Context) (cs : List Char) : Reading (Option (Piece × List Char)) := do
  match readNoteKey? cs with
  | none => return none
  | some (label, rest) =>
    let key := labelKey label
    if ctx.definitions.notes.any (fun n => n.1 == key) then
      let seen ← get
      let seen' := if seen.contains key then seen else seen ++ [key]
      set seen'
      return some (.done (.footnote key (seen'.idxOf key + 1)), rest)
    else return some (.plain ['['], '^' :: cs)

/-- Ruby groups behind a bracket, as pieces; a target behind them makes a link of the last group. -/
def readRuby (ctx : Context) (cs : List Char) : Option (List Piece × List Char) :=
  (readRubyGroups? cs.length cs).map (fun p =>
    let inlines := p.1.2.map (fun item => Inline.ruby item.1 item.2)
    let before : List Piece := p.1.1.map (fun item => .done (.ruby item.1 item.2))
    let bare : List Piece := before ++ inlines.map Piece.done
    let linked (url : List Char) (title : Option (List Char)) : List Piece :=
      before ++ [.done (.link url title none inlines)]
    match p.2 with
    | '(' :: more => match readLinkTail? more with
      | some ((url, title), rest) => (linked url title, rest)
      | none => (bare, p.2)
    | '[' :: more => match readLabel? more with
      | some ([], _) => (bare, p.2)
      | some (label, rest) => match ctx.definitions.links.lookup (labelKey label) with
        | some t => (linked t.url t.title, rest)
        | none => (bare ++ [.done (.text ('[' :: label ++ [']']))], rest)
      | none => (bare, p.2)
    | _ => (bare, p.2))

/-- One step of the reader: pieces to put on the stack, and the text still to be read. -/
abbrev Step := Option (List Piece × List Char)

/-- A span of an extension from its content. -/
def spanStep (inner : List Char → Reading (List Inline)) (kind : SpanKind) (taken : Taken) :
    Reading Step := do
  match taken with
  | none => return none
  | some (content, rest) => return some ([.done (.span kind (← inner content))], rest)

/-- The constructs of the extensions that start with a bracket; the extension that was asked for
first is tried first. -/
def bracketStep (ctx : Context) : List Extension → List Char → Reading Step
  | [], _ => return none
  | e :: es, cs => do
    match e, cs with
    | .footnotes, '^' :: more => match ← readNote ctx more with
      | some (p, rest) => return some ([p], rest)
      | none => bracketStep ctx es cs
    | .ruby, _ => match readRuby ctx cs with
      | some step => return some step
      | none => bracketStep ctx es cs
    | _, _ => bracketStep ctx es cs

/-- The constructs of the extensions at other characters. -/
def extensionStep (ctx : Context) (inner : List Char → Reading (List Inline)) (c : Char)
    (cs : List Char) : Reading Step := do
  if c == '~' && ctx.has .strikethrough && cs.head? == some '~' && opensDoubled '~' (cs.drop 1) then
    spanStep inner .strikethrough (readDoubled? '~' (cs.drop 1))
  else if c == '~' && ctx.has .subscript then spanStep inner .subscript (readSingle? '~' cs)
  else if c == '=' && ctx.has .mark && cs.head? == some '=' then
    spanStep inner .mark (readDoubled? '=' (cs.drop 1))
  else if c == '^' && ctx.has .insert && cs.head? == some '^' && opensDoubled '^' (cs.drop 1) then
    spanStep inner .insert (readDoubled? '^' (cs.drop 1))
  else if c == '^' && ctx.has .superscript then spanStep inner .superscript (readSingle? '^' cs)
  else if c == '>' && ctx.reaches .spoiler && cs.head? == some '!' then
    spanStep inner .spoiler (readHidden? (cs.drop 1))
  else if c == '$' && ctx.has .math then
    match cs with
    | '$' :: more => return (readDisplay? more).map (fun p => ([.done (.displayMath p.1)], p.2))
    | _ => return (readFormula? cs).map (fun p => ([.done (.math p.1)], p.2))
  else return none

/-- An automatic link. -/
def autoPiece (url text shown : List Char) : Piece :=
  .auto shown (.link (escapeUrl url) none none [.text text])

/-- What may stand behind `<`. Inside an anchor written as raw markup, automatic links are text. -/
def angleStep (anchored : Bool) (cs : List Char) : Step :=
  let auto (url text : List Char) (rest : List Char) : Step :=
    let shown := '<' :: text ++ ['>']
    some ([if anchored then .plain shown.reverse else autoPiece url text shown], rest)
  match readAutoLink? cs with
  | some (text, rest) => auto text text rest
  | none => match readAutoMail? cs with
    | some (text, rest) => auto ("mailto:".toList ++ text) text rest
    | none => (readMarkup? cs).map (fun p => ([.done (.html ('<' :: p.1))], p.2))

/-- The end of a line in running text: two spaces in front make it a break. -/
def lineEndStep (cs : List Char) : Step :=
  let spaces := cs.takeWhile (· == ' ')
  match cs.drop spaces.length with
  | '\n' :: rest =>
    some ([.done (if 2 ≤ spaces.length then .lineBreak else .softBreak)], rest.dropWhile isBlank)
  | _ => none

/-- The characters at which the fast reader of plain text stops. -/
def isFastStop (c : Char) : Bool :=
  c == grave || c == backslash || "><![]_*~^$=".toList.contains c

/-- Whether two spaces or more end the line here. -/
def atHardBreak (cs : List Char) : Bool :=
  let spaces := cs.takeWhile (· == ' ')
  2 ≤ spaces.length && (cs.drop spaces.length).head? == some '\n'

/-- A stretch of plain text for the fast reader. -/
def readFastFrom (addresses : Bool) (done : List Char) : List Char → List Char × List Char
  | [] => (done, [])
  | c :: cs =>
    let stop := isFastStop c || atHardBreak (c :: cs) ||
      (addresses && ("http:".toList.isPrefixOf (c :: cs) || "https:".toList.isPrefixOf (c :: cs)))
    if stop then (done, c :: cs) else readFastFrom addresses (c :: done) cs

/-- Line ends in fast plain text, without the blanks around them; `done` is in reverse order. -/
def joinFast (done : List Char) : List Char → List Char
  | [] => done.reverse
  | c :: cs =>
    if c == '\n' then joinFast ('\n' :: done.dropWhile (· == ' ')) cs
    else if isBlank c && done.head? == some '\n' then joinFast done cs
    else joinFast (c :: done) cs

/-- Plain text at the front: one character, or a stretch for the fast reader. -/
def plainStep (ctx : Context) (c : Char) (cs : List Char) : List Piece × List Char :=
  if ctx.has .speedup then
    let p := readFastFrom (ctx.reaches .url) [c] cs
    ([.plain (joinFast [] p.1.reverse).reverse], p.2)
  else ([.plain [c]], cs)

/-- What starts with a reverse solidus. -/
def escapeStep (cs : List Char) : Step :=
  match readEscapes (backslash :: cs) with
  | ([], _) => match cs with
    | '\n' :: rest => some ([.done .lineBreak], rest.dropWhile isBlank)
    | _ => none
  | (text, rest) => some ([.done (.text text)], rest)

/-- What starts with a grave accent. -/
def codeStep (cs : List Char) : List Piece × List Char :=
  let n := (cs.takeWhile (· == grave)).length + 1
  let rest := cs.drop (n - 1)
  match readCode? n rest with
  | some (content, rest') => ([.done (.codespan content)], rest')
  | none => ([.plain (List.replicate n grave)], rest)

/-- A run of emphasis marks. -/
def marksStep (before : Option Char) (c : Char) (cs : List Char) : List Piece × List Char :=
  let more := cs.takeWhile (· == c)
  let rest := cs.drop more.length
  let run := markRun c (more.length + 1) before rest.head?
  (if run.opens || run.closes then [.marks run] else [.plain run.text], rest)

/-- Everything but brackets. -/
def tokenStep (ctx : Context) (inner : List Char → Reading (List Inline)) (anchored : Bool)
    (before : Option Char) (c : Char) (cs : List Char) : Reading (List Piece × List Char) := do
  let step : Step ←
    if c == backslash then pure (escapeStep cs)
    else if c == grave then pure (some (codeStep cs))
    else if c == '*' || c == '_' then pure (some (marksStep before c cs))
    else if c == '<' then pure (angleStep anchored cs)
    else if c == ' ' || c == '\n' then pure (lineEndStep (c :: cs))
    else extensionStep ctx inner c cs
  return step.getD (plainStep ctx c cs)

/-- What stands before the first closing bracket that no bracket in front of it opens, and what
stands behind it. -/
def splitClosing (done : List Char) : (opened : Nat) → List Char → Option (List Char × List Char)
  | _, [] => none
  | opened, '[' :: cs => splitClosing ('[' :: done) (opened + 1) cs
  | 0, ']' :: cs => some (done.reverse, cs)
  | opened + 1, ']' :: cs => splitClosing (']' :: done) opened cs
  | opened, c :: cs => splitClosing (c :: done) opened cs

/-- A web address. Where it would run over the end of a link or image, it ends there. -/
def readAddressWithin? (defs : Definitions) (stack : List Piece) (cs : List Char) : Taken := do
  let (address, rest) ← readWebAddress? cs
  match splitOpening [] stack, splitClosing [] 0 address with
  | some (_, (_, true, behind), _), some (inside, more) =>
    let after := more ++ rest
    let label := behind.take (behind.length - after.length - 1)
    if (readLinkTarget? defs label after).isSome then
      let (shorter, left) ← readWebAddress? inside
      return (shorter, left ++ ']' :: after)
    else return (address, rest)
  | _, _ => return (address, rest)

/-- A web address as a piece, or plain text if there is none. -/
def addressStep (ctx : Context) (stack : List Piece) (anchored : Bool) (c : Char) (cs : List Char) :
    List Piece × List Char :=
  match readAddressWithin? ctx.definitions stack (c :: cs) with
  | some (address, rest) =>
    ([if anchored then .plain address.reverse else autoPiece address address address], rest)
  | none => plainStep ctx c cs

/-- Whether raw markup leaves the reader inside an anchor. -/
def anchorAfter (anchored : Bool) (ps : List Piece) : Bool :=
  ps.foldl (fun a p => match p with
    | .done (.html tag) => if opensAnchor tag then true else if closesAnchor tag then false else a
    | _ => a) anchored

/-- The reader's loop. Every step takes one character at least, so the length of the text bounds
their number. -/
def scan (ctx : Context) (inner : List Char → Reading (List Inline)) :
    (fuel : Nat) → List Piece → Bool → Option Char → List Char → Reading (List Piece)
  | 0, stack, _, _, _ => return stack
  | _ + 1, stack, _, _, [] => return stack
  | fuel + 1, stack, anchored, before, c :: cs => do
    -- the character in front of what is left, by which emphasis goes
    let last (rest : List Char) : Option Char :=
      ((c :: cs).take (cs.length + 1 - rest.length)).getLast?
    let proceed (ps : List Piece) (rest : List Char) : Reading (List Piece) :=
      scan ctx inner fuel (ps.foldl (fun st p => pushPiece p st) stack) (anchorAfter anchored ps)
        (last rest) rest
    if c == ']' then
      let p := closeBracket ctx.definitions stack cs
      scan ctx inner fuel p.1 anchored (last p.2) p.2
    else if c == '!' && cs.head? == some '[' then
      proceed [.opening true true (cs.drop 1)] (cs.drop 1)
    else if c == '[' then
      match ← bracketStep ctx ctx.extensions cs with
      | some (ps, rest) => proceed ps rest
      | none => proceed [.opening false true cs] cs
    else if c == 'h' && ctx.reaches .url then
      let p := addressStep ctx stack anchored c cs
      proceed p.1 p.2
    else
      let (ps, rest) ← tokenStep ctx inner anchored before c cs
      proceed ps rest

/-- Reads running text, with spans nested `fuel` deep at most. -/
def readNested (ctx : Context) : (fuel : Nat) → List Char → Reading (List Inline)
  | 0, cs => return [.text cs]
  | fuel + 1, cs => do
    let stack ← scan ctx (readNested ctx fuel) (cs.length + 1) [] false none cs
    return finish ctx.definitions stack.reverse

/-- Reads running text. A span is shorter than the text it stands in, so its length bounds the
nesting. -/
def readInlines (ctx : Context) (cs : List Char) : Reading (List Inline) :=
  readNested ctx (cs.length + 1) cs

end NotebookTree.Markdown

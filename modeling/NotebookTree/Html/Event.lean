import NotebookTree.Html.Syntax
import NotebookTree.Text.Lines

/-!
# Reading markup

Markup is read from left to right into events: tags that open and close, text, references and the
other parts of a document. The reader never refuses a tag: what is not well formed becomes text. It
goes through the text twice, as one does who first waits for more of it: the second pass starts
where the first one gave up, and takes what is left as it is.

## Main definitions

* `Event`: what is read.
* `readStart`: an opening tag.
* `markupStep`, `referenceStep`: what starts with `<` and with `&`.
* `readEvents`: the events of a text.

Reference: `parse_html`, with the events that the engine it calls reads a text into.
-/

namespace NotebookTree.Html

open Text (isBlank isAsciiLetter isAsciiDigit singleQuote doubleQuote)

/-- What the reader of markup reports. -/
inductive Event where
  | opened (name : List Char) (attributes : List (List Char × Option (List Char)))
  /-- An opening tag that closes itself. -/
  | lone (name : List Char) (attributes : List (List Char × Option (List Char)))
  | closed (name : List Char)
  | data (s : List Char)
  | number (n : Nat)
  | name (s : List Char)
  | comment (s : List Char)
  | doctype (s : List Char)
  | marked (s : List Char)
  | instruction (s : List Char)

/-- Whether a character belongs to the name of a tag. -/
def isNameChar (c : Char) : Bool :=
  !(c == '\t' || c == '\n' || c == '\r' || c == '\x0c' || c == ' ' || c == '/' || c == '>' ||
    c == '\x00')

/-- Drops blanks, and slashes that no `>` follows. -/
def skipFiller : List Char → List Char
  | [] => []
  | c :: cs =>
    if isBlank c || (c == '/' && cs.head? != some '>') then skipFiller cs else c :: cs

/-- The value of an attribute and what follows it, from the text behind its name, if a value is
given. A quote that is not closed does not start a value; then the last blank or equals sign in
front of it is taken back. -/
def readValue? (cs : List Char) : Option (List Char × List Char) :=
  let signs := cs.dropWhile isBlank
  let count := (signs.takeWhile (· == '=')).length
  if count == 0 then none
  else
    let behind := signs.drop count
    let rest := behind.dropWhile isBlank
    let bare (from' : List Char) : Option (List Char × List Char) :=
      some (from'.span (fun c => !(c == '>' || isBlank c)))
    match rest with
    | q :: more =>
      if q == singleQuote || q == doubleQuote then
        match more.span (· != q) with
        | (value, _ :: after) => some (value, after)
        -- the quote is never closed
        | (_, []) =>
          if rest.length < behind.length then some ([], rest)
          else if 2 ≤ count then bare (signs.drop (count - 1))
          else none
      else bare rest
    | [] => some ([], [])

/-- An attribute and what follows it, given the character in front. -/
def readAttribute? (before : Option Char) (cs : List Char) :
    Option ((List Char × Option (List Char)) × List Char) :=
  let may := match before with
    | some b => b == singleQuote || b == doubleQuote || isBlank b || b == '/'
    | none => false
  match cs with
  | c :: more =>
    if may && !(isBlank c || c == '/' || c == '>') then
      let name := c :: more.takeWhile (fun d => !(isBlank d || d == '/' || d == '=' || d == '>'))
      let behind := cs.drop name.length
      match readValue? behind with
      | some (value, rest) => some ((name, some value), rest)
      | none => some ((name, none), behind)
    else none
  | [] => none

/-- The last character of the part of `cs` in front of `rest`. -/
def lastBefore (before : Option Char) (cs rest : List Char) : Option Char :=
  if rest.length < cs.length then (cs.drop (cs.length - rest.length - 1)).head? else before

/-- The attributes at the front of a text, and what follows them. Each takes a character at least.
-/
def readAttributes : (fuel : Nat) → Option Char → List Char →
    List (List Char × Option (List Char)) × List Char
  | 0, _, cs => ([], cs)
  | fuel + 1, before, cs =>
    match readAttribute? before cs with
    | none => ([], cs)
    | some (a, rest) =>
      let next := skipFiller rest
      let (more, left) := readAttributes fuel (lastBefore before cs next) next
      (a :: more, left)

/-- How an opening tag turns out. -/
inductive StartTag where
  /-- It is not complete. -/
  | incomplete
  /-- It is text, up to what is left. -/
  | junk (rest : List Char)
  | tag (lone : Bool) (name : List Char) (attributes : List (List Char × Option (List Char)))
      (rest : List Char)

/-- An attribute as it counts: its name in lower case and its value without references. -/
def finishAttribute (a : List Char × Option (List Char)) : List Char × Option (List Char) :=
  (Text.lower a.1, a.2.map (Text.decodeReferences Text.looseReferences))

/-- Reads an opening tag behind its `<`; a letter comes first. -/
def readStart (cs : List Char) : StartTag :=
  let name := cs.takeWhile isNameChar
  let behind := cs.drop name.length
  -- up to the end, as far as it can be made out
  let filled := behind.dropWhile (fun c => isBlank c || c == '/')
  let whole := readAttributes (cs.length + 1) (lastBefore name.getLast? behind filled) filled
  let atEnd := whole.2.dropWhile isBlank
  let finish (stop : List Char) : StartTag :=
    let start := skipFiller behind
    let (found, left) :=
      readAttributes (cs.length + 1) (lastBefore name.getLast? behind start) start
    -- attributes that start behind the end of the tag do not belong to it
    let tail := left.take (left.length - stop.length)
    match Text.trim tail with
    | ['>'] => .tag false (Text.lower name) (found.map finishAttribute) stop
    | ['/', '>'] => .tag true (Text.lower name) (found.map finishAttribute) stop
    | _ => .junk stop
  match atEnd with
  | [] => .incomplete
  | '>' :: rest => finish rest
  | '/' :: '>' :: rest => finish rest
  | c :: _ =>
    if isAsciiLetter c || c == '=' || c == '/' then .incomplete else finish atEnd

/-- The text up to a needle, and what follows it. -/
def cutAt? (needle cs : List Char) : Option (List Char × List Char) :=
  (Text.splitBefore? needle cs).map (fun p => (p.1, p.2.drop needle.length))

/-- Blanks followed by a needle at the front of a text, and what is behind. -/
def blanksThen? (needle cs : List Char) : Option (List Char) :=
  let rest := cs.dropWhile isBlank
  if needle.isPrefixOf rest then some (rest.drop needle.length) else none

/-- The text up to the end of a comment, and what follows it. Blanks may stand before the `>`. -/
def cutComment? : List Char → Option (List Char × List Char)
  | [] => none
  | c :: cs =>
    let end? := match c, cs with
      | '-', '-' :: rest => blanksThen? ['>'] rest
      | _, _ => none
    match end? with
    | some rest => some ([], rest)
    | none => (cutComment? cs).map (fun p => (c :: p.1, p.2))

/-- The text up to the end of a marked section, and what follows it. Blanks may stand between its
marks, of which there are one or two brackets. -/
def cutMarked? (double : Bool) : List Char → Option (List Char × List Char)
  | [] => none
  | c :: cs =>
    let end? := if c != ']' then none
      else if double then (blanksThen? [']'] cs).bind (blanksThen? ['>'])
      else blanksThen? ['>'] cs
    match end? with
    | some rest => some ([], rest)
    | none => (cutMarked? double cs).map (fun p => (c :: p.1, p.2))

/-- How a piece of markup turns out. -/
inductive Step where
  /-- It is not complete. -/
  | incomplete
  | refused
  /-- Its events, the tag whose content is not markup if one has been opened, and what is left. -/
  | read (events : List Event) (verbatim : Option (List Char)) (rest : List Char)

/-- A marked section behind its `<![`. -/
def readMarked (cs : List Char) : Step :=
  let name := cs.takeWhile (fun c => isAsciiLetter c || isAsciiDigit c || "-_.".toList.contains c)
  match cs with
  | [] => .incomplete
  | c :: _ =>
    if !isAsciiLetter c then .refused
    else if ((cs.drop name.length).dropWhile isBlank).isEmpty then .incomplete
    else
      let word := String.ofList (Text.lower name)
      let double := ["temp", "cdata", "ignore", "include", "rcdata"].contains word
      if !double && !(["if", "else", "endif"].contains word) then .refused
      else match cutMarked? double cs with
        | some (content, rest) => .read [.marked content] none rest
        | none => .incomplete

/-- What starts with `<!`, behind that. -/
def readBang (cs : List Char) : Step :=
  match cs with
  | '-' :: '-' :: body => match cutComment? body with
    | some (content, rest) => .read [.comment content] none rest
    | none => .incomplete
  | '[' :: body => readMarked body
  | _ =>
    if Text.lower (cs.take 7) == "doctype".toList then
      match cutAt? ['>'] (cs.drop 7) with
      | some (content, rest) => .read [.doctype (content.drop 1)] none rest
      | none => .incomplete
    else match cutAt? ['>'] cs with
      | some (content, rest) => .read [.comment content] none rest
      | none => .incomplete

/-- The name in a closing tag that holds nothing else, and what follows the tag. -/
def closingName? (cs : List Char) : Option (List Char × List Char) :=
  let body := cs.dropWhile isBlank
  let name := body.takeWhile
    (fun c => isAsciiLetter c || isAsciiDigit c || "-.:_".toList.contains c)
  match name with
  | [] => none
  | c :: _ =>
    if isAsciiLetter c then (blanksThen? ['>'] (body.drop name.length)).map (fun r => (name, r))
    else none

/-- A closing tag, behind its `</`. -/
def readClosing (cs : List Char) : Step :=
  match cutAt? ['>'] cs with
  | none => .incomplete
  | some (content, rest) => match closingName? cs with
    | some (name, after) => .read [.closed (Text.lower name)] none after
    | none => match cs with
      | c :: _ =>
        if isAsciiLetter c then
          let name := cs.takeWhile isNameChar
          match cutAt? ['>'] (cs.drop name.length) with
          | some (_, after) => .read [.closed (Text.lower name)] none after
          | none => .incomplete
        else if c == '>' then .read [] none rest
        else .read [.comment content] none rest
      | [] => .incomplete

/-- What starts with `<`, behind that. -/
def markupStep (cs : List Char) : Step :=
  match cs with
  | [] => .incomplete
  | '/' :: body => readClosing body
  | '!' :: body => readBang body
  | '?' :: body => match cutAt? ['>'] body with
    | some (content, rest) => .read [.instruction content] none rest
    | none => .incomplete
  | c :: _ =>
    if isAsciiLetter c then
      match readStart cs with
      | .incomplete => .incomplete
      | .junk rest =>
        .read [.data ('<' :: cs.take (cs.length - rest.length))] none rest
      | .tag true name attributes rest => .read [.lone name attributes] none rest
      | .tag false name attributes rest =>
        .read [.opened name attributes] (if isVerbatim name then some name else none) rest
    else .read [.data ['<']] none cs

/-- Drops a semicolon at the front. -/
def dropSemicolon (cs : List Char) : List Char :=
  match cs with
  | ';' :: rest => rest
  | _ => cs

/-- A number that something other than a digit follows, behind its `&#`. -/
def readNumber? (cs : List Char) : Option (Nat × List Char) :=
  let isHex (c : Char) : Bool := (Text.hexDigit? c).isSome
  let finish (n : Nat) (rest : List Char) : Option (Nat × List Char) :=
    match rest with
    | [] => none
    | c :: _ => if isHex c then none else some (n, dropSemicolon rest)
  match cs with
  | [] => none
  | c :: more =>
    if c == 'x' || c == 'X' then
      let ds := more.takeWhile isHex
      if ds.isEmpty then none else finish (Text.readHex ds) (more.drop ds.length)
    else
      let ds := cs.takeWhile isAsciiDigit
      if ds.isEmpty then none else finish (Text.readDecimal ds) (cs.drop ds.length)

/-- A name that something other than a letter or digit follows, behind its `&`. -/
def readName? (cs : List Char) : Option (List Char × List Char) :=
  let run := cs.takeWhile (fun c => isAsciiLetter c || isAsciiDigit c || c == '-' || c == '.')
  match run with
  | [] => none
  | c :: _ =>
    if !isAsciiLetter c then none
    else match cs.drop run.length with
      | d :: rest => some (run, dropSemicolon (d :: rest))
      | [] =>
        -- at the end of the text, a mark within the name may end it
        let isNamePart (c : Char) : Bool := isAsciiLetter c || isAsciiDigit c
        let kept := ((run.reverse.dropWhile isNamePart).drop 1).reverse
        if kept.isEmpty then none else some (kept, cs.drop kept.length)

/-- How a reference turns out. -/
inductive ReferenceStep where
  | read (events : List Event) (rest : List Char)
  /-- Reading stops, with what is left. -/
  | stop (events : List Event) (rest : List Char)

/-- What starts with `&`, behind that. -/
def referenceStep (final : Bool) (cs : List Char) : ReferenceStep :=
  match cs with
  | '#' :: body => match readNumber? body with
    | some (n, rest) => .read [.number n] rest
    | none => if body.contains ';' then .stop [.data ['&', '#']] body else .stop [] ('&' :: cs)
  | _ => match readName? cs with
    | some (name, rest) => .read [.name name] rest
    | none => match cs with
      | [] => .stop [] ['&']
      | c :: more =>
        if isAsciiLetter c then
          if final && more.isEmpty then .stop [] cs else .stop [] ('&' :: cs)
        else .read [.data ['&']] cs

/-- Whether a character passes for a small letter when case does not count. Beyond the two forms of
the letter, an `i` with or without its dot passes for an `i`, and a long `s` for an `s`. -/
def passesFor (small c : Char) : Bool :=
  c.toLower == small || (small == 'i' && (c == 'İ' || c == 'ı')) || (small == 's' && c == 'ſ')

/-- Whether a text behind `</` closes a name when case does not count. -/
def closesLike (name cs : List Char) : Bool :=
  let body := cs.dropWhile isBlank
  let found := body.take name.length
  found.length == name.length && (name.zip found).all (fun p => passesFor p.1 p.2) &&
    (blanksThen? ['>'] (body.drop name.length)).isSome

/-- The text in front of what closes a name when case does not count, and the rest. -/
def cutClosing? (name : List Char) : List Char → Option (List Char × List Char)
  | [] => none
  | c :: cs =>
    let here := match c, cs with
      | '<', '/' :: body => closesLike name body
      | _, _ => false
    if here then some ([], c :: cs)
    else (cutClosing? name cs).map (fun p => (c :: p.1, p.2))

/-- Text as an event, if there is any. -/
def dataEvent (s : List Char) : List Event := if s.isEmpty then [] else [.data s]

/-- What is taken as text of markup that is not complete: up to its end, or to where other markup
starts. -/
def unfinished (cs : List Char) : List Char × List Char :=
  match cs with
  | [] => ([], [])
  | c :: more => match cutAt? ['>'] more with
    | some (content, rest) => (c :: content ++ ['>'], rest)
    | none => match more.span (· != '<') with
      | (content, _ :: _) => (c :: content, more.drop content.length)
      | (_, []) => ([c], more)

/-- How far a pass comes. -/
structure Pass where
  events : List Event
  verbatim : Option (List Char)
  rest : List Char

/-- One pass over a text; `final` tells that nothing more will come. The answer is none if the text
is refused. -/
def readPass (final : Bool) : (fuel : Nat) → (verbatim : Option (List Char)) → List Char →
    Option Pass
  | 0, verbatim, cs => some ⟨[], verbatim, cs⟩
  | _ + 1, verbatim, [] => some ⟨[], verbatim, []⟩
  -- inside a tag whose content is not markup only its own closing tag counts
  | fuel + 1, some name, cs => match cutClosing? name cs with
    | none => some ⟨[], some name, cs⟩
    | some (content, tag) =>
      let (closing, rest) := (cutAt? ['>'] tag).getD ([], [])
      let proceed (event : Event) (verbatim : Option (List Char)) : Option Pass :=
        (readPass final fuel verbatim rest).map (fun p =>
          { p with events := dataEvent content ++ event :: p.events })
      -- a letter that only passes for the one in the name makes the tag text
      if (closingName? (tag.drop 2)).isSome then proceed (.closed name) none
      else proceed (.data (closing ++ ['>'])) (some name)
  | fuel + 1, none, cs =>
    let (content, rest) := cs.span (fun c => c != '<' && c != '&')
    let proceed (events : List Event) (verbatim : Option (List Char)) (left : List Char) :
        Option Pass :=
      (readPass final fuel verbatim left).map (fun p =>
        { p with events := dataEvent content ++ events ++ p.events })
    match rest with
    | [] => some ⟨dataEvent content, none, []⟩
    | '<' :: body => match markupStep body with
      | .refused => none
      | .read events verbatim left => proceed events verbatim left
      | .incomplete =>
        -- the first pass stops at what is incomplete, the second one makes text of it
        if final && !body.isEmpty then
          let (text, left) := unfinished rest
          proceed [.data text] none left
        else some ⟨dataEvent content, none, rest⟩
    | _ :: body => match referenceStep final body with
      | .read events left => proceed events none left
      | .stop events left => some ⟨dataEvent content ++ events, none, left⟩

/-- The events of a text, unless it is refused. What the second pass leaves is text, except inside a
tag whose content is not markup. -/
def readEvents (cs : List Char) : Option (List Event) := do
  let first ← readPass false (cs.length + 1) none cs
  let second ← readPass true (cs.length + 1) first.verbatim first.rest
  let left := if second.verbatim.isSome then [] else dataEvent second.rest
  return first.events ++ second.events ++ left

end NotebookTree.Html

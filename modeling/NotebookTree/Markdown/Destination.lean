import NotebookTree.Markdown.Syntax
import NotebookTree.Text.Quoted
import NotebookTree.Text.Reference

/-!
# Link labels, destinations and titles

The parts of links that occur in running text and in link reference definitions alike.

## Main definitions

* `escapeUrl`: a destination in the form it has in documents.
* `readLabel?`: the text between brackets.
* `readTarget?`, `readTitle?`: destination and title.
* `readLinkTail?`: what follows the text of a link, between parentheses.

Reference: the helpers for links of the engine behind `parse_markdown`.
-/

namespace NotebookTree.Markdown

open Text (isAsciiLetter isAsciiDigit isAsciiPunctuation isBlank backslash)

/-- Drops the reverse solidus in front of punctuation. -/
def unescape : List Char → List Char
  | [] => []
  | c :: cs =>
    if c == backslash then
      match cs with
      | d :: rest => if isAsciiPunctuation d then d :: unescape rest else c :: unescape (d :: rest)
      | [] => [c]
    else c :: unescape cs

/-- The characters a destination keeps as they are. -/
def isUrlSafe (c : Char) : Bool :=
  isAsciiLetter c || isAsciiDigit c || "_.-~:/?#@!$&()*+,;=%".toList.contains c

/-- An octet as a percent sign and two digits. -/
def percent (b : UInt8) : List Char :=
  let digit (n : Nat) : Char := if n < 10 then Char.ofNat (48 + n) else Char.ofNat (55 + n)
  ['%', digit (b.toNat / 16), digit (b.toNat % 16)]

/-- A destination with its references replaced and everything unusual written in octets. -/
def escapeUrl (url : List Char) : List Char :=
  (Text.decodeReferences Text.strictReferences url).flatMap (fun c =>
    if isUrlSafe c then [c] else (String.singleton c).toUTF8.toList.flatMap percent)

/-- Whether a character is a blank within a line. -/
def isLineBlank (c : Char) : Bool := c == ' ' || c == '\t'

/-- Blanks, a line end at most, and blanks. -/
def skipGap (cs : List Char) : List Char :=
  match cs.dropWhile isLineBlank with
  | '\n' :: rest => rest.dropWhile isLineBlank
  | rest => rest

/-- The rest of a label up to the bracket that closes it, `left` characters at most. Brackets
count only when escaped. -/
def readLabelFrom (done : List Char) : (left : Nat) → List Char → Option (List Char × List Char)
  | _, ']' :: rest => some (done.reverse, rest)
  | left + 1, c :: cs =>
    if c == '[' then none
    else if c == backslash then
      match cs with
      | d :: rest => if d == '\n' then none else readLabelFrom (d :: c :: done) left rest
      | [] => none
    else readLabelFrom (c :: done) left cs
  | _, _ => none

/-- A label behind its opening bracket: up to five hundred characters, and the rest. -/
def readLabel? (cs : List Char) : Option (List Char × List Char) :=
  readLabelFrom [] 500 cs

/-- The key of a note up to the bracket that closes it, and what follows. There are no blanks in
it. -/
def readNoteKey? (cs : List Char) : Option (List Char × List Char) :=
  match readLabel? cs with
  | some (label, rest) => if label.isEmpty || label.any isBlank then none else some (label, rest)
  | none => none

/-- The rest of a destination in angle brackets. -/
def readAngleFrom (done : List Char) : List Char → Option (List Char × List Char)
  | [] => none
  | c :: cs =>
    if c == '>' then some (done.reverse, cs)
    else if c == '<' || c == '\n' || c.toNat == 0 then none
    else if c == backslash then
      match cs with
      | d :: rest => if d == '\n' then none else readAngleFrom (d :: c :: done) rest
      | [] => none
    else readAngleFrom (c :: done) cs

/-- Whether a character ends a bare destination: a space or a control character. -/
def endsTarget (c : Char) : Bool := c.toNat ≤ 32 || c.toNat == 127

/-- How deep parentheses nest in a destination. -/
def maxParentheses : Nat := 20

/-- The rest of a bare destination: it ends at a space, or at a closing parenthesis that has no
partner. There is none if an opening parenthesis has no partner or they nest too deep. -/
def readBareFrom? (done : List Char) (depth : Nat) : List Char → Option (List Char × List Char)
  | [] => if depth == 0 then some (done.reverse, []) else none
  | c :: cs =>
    if endsTarget c then if depth == 0 then some (done.reverse, c :: cs) else none
    else if c == backslash then
      match cs with
      | d :: rest =>
        -- an escaped parenthesis needs no partner
        if isAsciiPunctuation d then readBareFrom? (d :: c :: done) depth rest
        else readBareFrom? (c :: done) depth (d :: rest)
      | [] => if depth == 0 then some ((c :: done).reverse, []) else none
    else if c == '(' then
      if depth < maxParentheses then readBareFrom? (c :: done) (depth + 1) cs else none
    else if c == ')' then
      match depth with
      | 0 => some (done.reverse, c :: cs)
      | n + 1 => readBareFrom? (c :: done) n cs
    else readBareFrom? (c :: done) depth cs

/-- A destination of a link in running text. -/
def readTarget? (cs : List Char) : Option (List Char × List Char) :=
  match skipGap cs with
  | '<' :: rest => readAngleFrom [] rest
  | rest => readBareFrom? [] 0 rest

/-- A destination of a link reference definition, which has to hold something. -/
def readBlockTarget? (cs : List Char) : Option (List Char × List Char) :=
  match skipGap cs with
  | '<' :: rest => readAngleFrom [] rest
  | rest => match readBareFrom? [] 0 rest with
    | some ([], _) => none
    | p => p

/-- The rest of a title up to its closing mark. -/
def readTitleFrom (closing : Char) (done : List Char) : List Char → Option (List Char × List Char)
  | [] => none
  | c :: cs =>
    if c == closing then some (done.reverse, cs)
    else if c.toNat == 0 || (closing == ')' && c == '(') then none
    else if c == backslash then
      match cs with
      | d :: rest =>
        if isAsciiPunctuation d then readTitleFrom closing (d :: c :: done) rest
        else readTitleFrom closing (c :: done) (d :: rest)
      | [] => none
    else readTitleFrom closing (c :: done) cs

/-- A title, set off by blanks: between quotation marks, apostrophes or parentheses. -/
def readTitle? (cs : List Char) : Option (List Char × List Char) :=
  let rest := cs.dropWhile isBlank
  if rest.length == cs.length then none
  else match rest with
    | [] => none
    | c :: more =>
      if c == Text.doubleQuote || c == Text.singleQuote then
        (readTitleFrom c [] more).map (fun p => (unescape p.1, p.2))
      else if c == '(' then (readTitleFrom ')' [] more).map (fun p => (unescape p.1, p.2))
      else none

/-- An empty title is no title. -/
def nonEmpty? (title : List Char) : Option (List Char) :=
  if title.isEmpty then none else some title

/-- Destination and title of a link behind its opening parenthesis, and the rest of the text. -/
def readLinkTail? (cs : List Char) : Option ((List Char × Option (List Char)) × List Char) :=
  match readTarget? cs with
  | none => none
  | some (href, rest) =>
    let close (title : Option (List Char)) (cs : List Char) :
        Option ((List Char × Option (List Char)) × List Char) :=
      match cs.dropWhile isBlank with
      | ')' :: more => some ((escapeUrl (unescape href), title), more)
      | _ => none
    match readTitle? rest with
    | some (title, rest') => close (nonEmpty? title) rest'
    | none => close none rest

end NotebookTree.Markdown

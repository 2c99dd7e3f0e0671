import NotebookTree.Markdown.Tag

/-!
# Spans that end where they say

Code spans, and the spans of the extensions. Each reader is given the text behind the opening mark
and finds the end of the span.

Reference: the rules of the engine behind `parse_markdown` for code spans, and its plugins for
spans.
-/

namespace NotebookTree.Markdown

open Text (isBlank backslash isWordChar isAsciiPunctuation)

/-- The grave accent, the mark of code spans. -/
def grave : Char := Char.ofNat 96

/-- Escaped punctuation at the front, one after the other, without the reverse solidi. -/
def readEscapes : List Char → List Char × List Char
  | c :: d :: cs =>
    if c == backslash && isAsciiPunctuation d then
      let p := readEscapes cs
      (d :: p.1, p.2)
    else ([], c :: d :: cs)
  | cs => ([], cs)

/-- The text of a code span of `n` marks up to the next run of exactly `n`; `run` marks have just
been passed. -/
def readCodeFrom (n : Nat) (done : List Char) (run : Nat) : List Char → Taken
  | [] => if run == n && done.any (· != grave) then some ((done.drop n).reverse, []) else none
  | c :: cs =>
    if c == grave then readCodeFrom n (c :: done) (run + 1) cs
    else if run == n && done.any (· != grave) then some ((done.drop n).reverse, c :: cs)
    else readCodeFrom n (c :: done) 0 cs

/-- The content of a code span: line ends become spaces, and a space on both sides is dropped unless
there is nothing else. -/
def codeContent (cs : List Char) : List Char :=
  let flat := cs.map (fun c => if c == '\n' then ' ' else c)
  if flat.all isBlank then flat
  else if flat.head? == some ' ' && flat.getLast? == some ' ' then (flat.drop 1).dropLast
  else flat

/-- A code span behind its `n` opening marks. -/
def readCode? (n : Nat) (cs : List Char) : Taken :=
  (readCodeFrom n [] 0 cs).map (fun p => (codeContent p.1, p.2))

/-- The number of reverse solidi at the front. -/
def backslashes (cs : List Char) : Nat := (cs.takeWhile (· == backslash)).length

/-- Whether a span may end behind the text read so far (in reverse order): behind anything but a
blank or the mark, and behind an escaped mark. -/
def mayEnd (mark : Char) : List Char → Bool
  | [] => false
  | p :: before => (!isBlank p && p != mark) || (p == mark && backslashes before % 2 == 1)

/-- The text of a span that ends with a doubled mark. -/
def readDoubledFrom (mark : Char) (done : List Char) : List Char → Taken
  | [] => none
  | c :: cs =>
    let here := c == mark && cs.head? == some mark && (cs.drop 1).head? != some mark
    if here && mayEnd mark done then some (done.reverse, cs.drop 1)
    else readDoubledFrom mark (c :: done) cs

/-- A span behind its doubled opening mark, which neither a blank nor another mark may follow. -/
def readDoubled? (mark : Char) (cs : List Char) : Taken :=
  match cs with
  | [] => none
  | c :: _ => if isBlank c || c == mark then none else readDoubledFrom mark [] cs

/-- Whether a doubled mark can open a span here. -/
def opensDoubled (mark : Char) (cs : List Char) : Bool :=
  match cs with
  | [] => false
  | c :: _ => !isBlank c && c != mark

/-- The text of a span that ends with a single mark; the only blanks in it are spaces behind a
reverse solidus. `odd` tells whether the character before is the last of an odd run of these. -/
def readSingleFrom (mark : Char) (done : List Char) (odd : Bool) : List Char → Taken
  | [] => none
  | c :: cs =>
    if c == mark && !done.isEmpty then
      if odd then
        match readSingleFrom mark (c :: done) false cs with
        | some p => some p
        | none => some (done.reverse, cs)
      else some (done.reverse, cs)
    else if isBlank c then
      if c == ' ' && done.head? == some backslash then readSingleFrom mark (c :: done) false cs
      else none
    else readSingleFrom mark (c :: done) (c == backslash && !odd) cs

/-- Drops the reverse solidi in front of spaces. -/
def unescapeSpaces : List Char → List Char
  | [] => []
  | c :: cs =>
    if c == backslash && cs.head? == some ' ' then unescapeSpaces cs else c :: unescapeSpaces cs

/-- A span between single marks, behind the opening one. -/
def readSingle? (mark : Char) (cs : List Char) : Taken :=
  (readSingleFrom mark [] false cs).map (fun p => (unescapeSpaces p.1, p.2))

/-- The text up to the first dollar sign that is not escaped, and what follows from it on. -/
def upToDollar (done : List Char) : List Char → Option (List Char × List Char)
  | [] => none
  | c :: cs =>
    if c == '$' then some (done.reverse, c :: cs)
    else if c == backslash then
      match cs with
      | d :: rest => upToDollar (d :: c :: done) rest
      | [] => none
    else upToDollar (c :: done) cs

/-- A formula behind its dollar sign: no blank next to the signs, no line end inside, and no digit
behind the closing one. -/
def readFormula? (cs : List Char) : Taken :=
  match upToDollar [] cs with
  | some (text, _ :: rest) =>
    let edge (c? : Option Char) : Bool := match c? with
      | none => true
      | some c => isBlank c
    let digitNext := match rest with
      | [] => false
      | d :: _ => Text.isDecimalDigit d
    if edge text.head? || edge text.getLast? || text.contains '\n' || digitNext then none
    else some (text, rest)
  | _ => none

/-- A displayed formula behind its two dollar signs. -/
def readDisplay? (cs : List Char) : Taken :=
  match upToDollar [] cs with
  | some (text, _ :: '$' :: rest) => some (text, rest)
  | _ => none

/-- The text of a hidden span up to `!<`, and the blanks in front of that. It is one character at
least. -/
def readHiddenFrom (done : List Char) : List Char → Taken
  | [] => none
  | c :: cs =>
    let rest := (c :: cs).dropWhile isBlank
    if !done.isEmpty && ['!', '<'].isPrefixOf rest then some (done.reverse, rest.drop 2)
    else if c == '\n' then none
    else readHiddenFrom (c :: done) cs

/-- A hidden span behind `>!`. Blanks next to the marks do not belong to it, unless there is nothing
else in it. -/
def readHidden? (cs : List Char) : Taken :=
  let blank := cs.takeWhile isBlank
  let rest := cs.drop blank.length
  (readHiddenFrom [] rest).orElse fun _ =>
    if ['!', '<'].isPrefixOf rest then
      (blank.reverse.find? (· != '\n')).map (fun c => ([c], rest.drop 2))
    else none

/-- Marks that a web address does not end with. -/
def isAddressTrailer (c : Char) : Bool := ".,:;\"')]".toList.contains c

/-- A web address behind its scheme: everything up to a blank or `<`, less marks at its end. -/
def readAddress? (scheme cs : List Char) : Taken :=
  if scheme.isPrefixOf cs then
    let body := (cs.drop scheme.length).takeWhile (fun c => !isBlank c && c != '<')
    let kept := Text.stripEnd isAddressTrailer body
    if kept.length < 2 then none
    else some (scheme ++ kept, cs.drop (scheme.length + kept.length))
  else none

/-- A web address. -/
def readWebAddress? (cs : List Char) : Taken :=
  (readAddress? "http://".toList cs).orElse (fun _ => readAddress? "https://".toList cs)

/-- One base with its reading in parentheses. -/
def readRubyItem? (cs : List Char) : Option ((List Char × List Char) × List Char) :=
  let base := cs.span isWordChar
  match base.2 with
  | '(' :: rest =>
    let reading := rest.span isWordChar
    match reading.2 with
    | ')' :: more =>
      if base.1.isEmpty || reading.1.isEmpty then none else some ((base.1, reading.1), more)
    | _ => none
  | _ => none

/-- Bases with their readings up to a closing bracket; `fuel` of them at most. -/
def readRubyItems? : (fuel : Nat) → List Char → Option (List (List Char × List Char) × List Char)
  | 0, _ => none
  | fuel + 1, cs =>
    match readRubyItem? cs with
    | none => none
    | some (item, rest) =>
      match rest with
      | ']' :: more => some ([item], more)
      | _ => (readRubyItems? fuel rest).map (fun p => (item :: p.1, p.2))

/-- A bracketed ruby group behind its bracket, and the groups that follow it at once: all but the
last together, and the last. -/
def readRubyGroups? : (fuel : Nat) → List Char →
    Option ((List (List Char × List Char) × List (List Char × List Char)) × List Char)
  | 0, _ => none
  | fuel + 1, cs =>
    match readRubyItems? cs.length cs with
    | none => none
    | some (items, rest) =>
      match rest with
      | '[' :: more => match readRubyGroups? fuel more with
        | some ((others, last), rest') => some ((items ++ others, last), rest')
        | none => some (([], items), rest)
      | _ => some (([], items), rest)

end NotebookTree.Markdown

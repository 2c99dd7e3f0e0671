import NotebookTree.Markdown.Destination

/-!
# Raw markup and automatic links

What may stand between `<` and `>`: tags, comments, instructions, declarations, addresses. Each
reader takes the text behind `<` and gives what it took and the rest.

Reference: the rules of the engine behind `parse_markdown` for raw markup and addresses.
-/

namespace NotebookTree.Markdown

open Text (isAsciiLetter isAsciiDigit isBlank splitBefore?)

/-- What was taken, and the rest of the text. -/
abbrev Taken := Option (List Char × List Char)

/-- Characters of a tag name behind its first letter. -/
def isTagNameChar (c : Char) : Bool := isAsciiLetter c || isAsciiDigit c || c == '-'

/-- The name of a tag. -/
def readTagName? (cs : List Char) : Taken :=
  match cs with
  | [] => none
  | c :: rest =>
    if isAsciiLetter c then
      let p := rest.span isTagNameChar
      some (c :: p.1, p.2)
    else none

/-- Characters that an attribute name may start with. -/
def isAttributeStart (c : Char) : Bool := isAsciiLetter c || c == '_' || c == ':'

/-- Characters of an attribute name. -/
def isAttributeChar (c : Char) : Bool :=
  isAttributeStart c || isAsciiDigit c || c == '.' || c == '-'

/-- Characters of an attribute value without quotation marks. -/
def isBareValueChar (c : Char) : Bool :=
  !(" !\"'=<>".toList.contains c) && c != Char.ofNat 96

/-- An attribute value. -/
def readAttributeValue? (cs : List Char) : Taken :=
  match cs with
  | [] => none
  | q :: rest =>
    if q == Text.singleQuote || q == Text.doubleQuote then
      let p := rest.span (· != q)
      match p.2 with
      | _ :: more => some (q :: p.1 ++ [q], more)
      | [] => none
    else
      let p := cs.span isBareValueChar
      if p.1.isEmpty then none else some p

/-- The value part of an attribute, with its equals sign; nothing is taken where there is none. -/
def readValuePart (cs : List Char) : List Char × List Char :=
  let before := cs.takeWhile isBlank
  match cs.drop before.length with
  | '=' :: rest =>
    let after := rest.takeWhile isBlank
    match readAttributeValue? (rest.drop after.length) with
    | some (v, more) => (before ++ '=' :: after ++ v, more)
    | none => ([], cs)
  | _ => ([], cs)

/-- Attributes, each behind a blank; at most `fuel` of them. -/
def readAttributes : (fuel : Nat) → List Char → List Char × List Char
  | 0, cs => ([], cs)
  | fuel + 1, cs =>
    let before := cs.takeWhile isBlank
    match cs.drop before.length with
    | [] => ([], cs)
    | c :: rest =>
      if before.isEmpty || !isAttributeStart c then ([], cs)
      else
        let name := rest.span isAttributeChar
        let value := readValuePart name.2
        let more := readAttributes fuel value.2
        (before ++ c :: name.1 ++ value.1 ++ more.1, more.2)

/-- Blanks and a closing angle bracket. -/
def readTagEnd? (slash : Bool) (cs : List Char) : Taken :=
  let before := cs.takeWhile isBlank
  match cs.drop before.length with
  | '>' :: rest => some (before ++ ['>'], rest)
  | '/' :: '>' :: rest => if slash then some (before ++ ['/', '>'], rest) else none
  | _ => none

/-- An opening tag behind `<`. -/
def readOpenTag? (cs : List Char) : Taken := do
  let (name, rest) ← readTagName? cs
  let (attributes, rest) := readAttributes rest.length rest
  let (close, rest) ← readTagEnd? true rest
  return (name ++ attributes ++ close, rest)

/-- A closing tag behind `</`. -/
def readCloseTag? (cs : List Char) : Taken := do
  let (name, rest) ← readTagName? cs
  let (close, rest) ← readTagEnd? false rest
  return ('/' :: name ++ close, rest)

/-- Everything up to the first `needle`, which has to come after one character at least. -/
def readUntil? (needle cs : List Char) : Taken :=
  match cs with
  | [] => none
  | c :: rest =>
    match splitBefore? needle rest with
    | some (body, more) => some (c :: body ++ needle, more.drop needle.length)
    | none => none

/-- A comment behind `<!--`. -/
def readComment? (cs : List Char) : Taken :=
  let hyphens := ['-', '-', '>']
  match cs with
  | '>' :: rest => some (['>'], rest)
  | '-' :: '>' :: rest => some (['-', '>'], rest)
  | _ => (splitBefore? hyphens cs).map (fun p => (p.1 ++ hyphens, p.2.drop 3))

/-- Whether a character is a capital letter. -/
def isCapital (c : Char) : Bool := 'A' ≤ c && c ≤ 'Z'

/-- Raw markup behind `<`. -/
def readMarkup? (cs : List Char) : Taken :=
  match cs with
  | '/' :: rest => readCloseTag? rest
  | '?' :: rest => (readUntil? ['?', '>'] rest).map (fun p => ('?' :: p.1, p.2))
  | '!' :: '-' :: '-' :: rest => (readComment? rest).map (fun p => ('!' :: '-' :: '-' :: p.1, p.2))
  | '!' :: '[' :: 'C' :: 'D' :: 'A' :: 'T' :: 'A' :: '[' :: rest =>
    (splitBefore? [']', ']', '>'] rest).map
      (fun p => ("![CDATA[".toList ++ p.1 ++ [']', ']', '>'], p.2.drop 3))
  | '!' :: c :: rest =>
    if isCapital c then (readUntil? ['>'] rest).map (fun p => ('!' :: c :: p.1, p.2)) else none
  | _ => readOpenTag? cs

/-- Characters of the scheme of an address. -/
def isSchemeChar (c : Char) : Bool :=
  isAsciiLetter c || isAsciiDigit c || c == '.' || c == '+' || c == '-'

/-- An address behind `<`, up to the `>`: a scheme, a colon, and no blanks. -/
def readAutoLink? (cs : List Char) : Taken :=
  match cs with
  | [] => none
  | c :: rest =>
    let scheme := rest.span isSchemeChar
    if !isAsciiLetter c || scheme.1.isEmpty || 31 < scheme.1.length then none
    else match scheme.2 with
      | ':' :: body =>
        let p := body.span (fun d => d != '<' && d != '>' && 32 < d.toNat)
        match p.2 with
        | '>' :: more => some (c :: scheme.1 ++ ':' :: p.1, more)
        | _ => none
      | _ => none

/-- Characters of the part of a mail address in front of the at sign. -/
def isMailboxChar (c : Char) : Bool :=
  isAsciiLetter c || isAsciiDigit c || ".!#$%&'*+/=?^_\x7b|\x7d~-".toList.contains c ||
  c == Char.ofNat 96

/-- Whether a text is a label of a domain name: letters, digits, and hyphens inside. -/
def isDomainLabel (cs : List Char) : Bool :=
  let plain (c : Char) : Bool := isAsciiLetter c || isAsciiDigit c
  match cs.head?, cs.getLast? with
  | some a, some b => plain a && plain b && cs.all (fun c => plain c || c == '-') && cs.length ≤ 63
  | _, _ => false

/-- A mail address behind `<`, up to the `>`. -/
def readAutoMail? (cs : List Char) : Taken :=
  let mailbox := cs.span isMailboxChar
  if mailbox.1.isEmpty then none
  else match mailbox.2 with
    | '@' :: rest =>
      let domain := rest.span (fun c => isAsciiLetter c || isAsciiDigit c || c == '-' || c == '.')
      match domain.2 with
      | '>' :: more =>
        if (Text.splitWhere (· == '.') domain.1).all isDomainLabel then
          some (mailbox.1 ++ '@' :: domain.1, more)
        else none
      | _ => none
    | _ => none

/-- Whether a tag opens an anchor. -/
def opensAnchor (tag : List Char) : Bool :=
  ["<a ", "<a>", "<A ", "<A>"].any (fun s => s.toList.isPrefixOf tag)

/-- Whether a tag closes an anchor. -/
def closesAnchor (tag : List Char) : Bool :=
  ["</a ", "</a>", "</A ", "</A>"].any (fun s => s.toList.isPrefixOf tag)

end NotebookTree.Markdown

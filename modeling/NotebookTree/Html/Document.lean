import NotebookTree.Html.Event

/-!
# Building documents

Events become a tree by way of a stack of open tags. A closing tag closes everything that was opened
inside the one it names, and is ignored if nothing of that name is open; what is still open at the
end is closed there.

## Main definitions

* `Builder`: the open tags and the text collected so far.
* `Builder.step`: what an event does.
* `parse`: the parts of a document.

Reference: `parse_html`, with the tree that the engine it calls builds.
-/

namespace NotebookTree.Html

/-- A tag that is open, with its content so far in reverse order. -/
structure OpenTag where
  name : List Char
  attributes : List (String × AttributeValue)
  content : List Item

/-- A tag with all of its content. -/
def OpenTag.close (t : OpenTag) : Item := .tag t.name t.attributes t.content.reverse

/-- The state in which events are taken: the content of the document in reverse order, the open
tags, the innermost first, the text collected but not placed yet, and the void tags for which a
closing tag may still come. -/
structure Builder where
  top : List Item := []
  open' : List OpenTag := []
  pending : Option (List Char) := none
  awaited : List (List Char) := []

namespace Builder

/-- Puts an item into the innermost open tag. -/
def place (b : Builder) (i : Item) : Builder :=
  match b.open' with
  | [] => { b with top := i :: b.top }
  | t :: ts => { b with open' := { t with content := i :: t.content } :: ts }

/-- Whether blanks alone count where the builder stands. -/
def inKept (b : Builder) : Bool := b.open'.any (fun t => keepsBlanks t.name)

/-- The characters that are blank in markup. -/
def isMarkupBlank (c : Char) : Bool :=
  c == ' ' || c == '\n' || c == '\t' || c == '\x0c' || c == '\r'

/-- Text as it is placed: blanks alone are one line end, if one is among them, or one space. -/
def settle (b : Builder) (s : List Char) : List Char :=
  if b.inKept || !s.all isMarkupBlank then s
  else if s.contains '\n' then ['\n'] else [' ']

/-- Places the text collected so far. -/
def flush (b : Builder) : Builder :=
  match b.pending with
  | none => b
  | some s => ({ b with pending := none }).place (.text (b.settle s))

/-- Collects text. -/
def collect (b : Builder) (s : List Char) : Builder :=
  { b with pending := some (b.pending.getD [] ++ s) }

/-- Places a part of the document that is no tag. -/
def placeSpecial (b : Builder) (make : List Char → Item) (s : List Char) : Builder :=
  let c := b.flush
  c.place (make (c.settle s))

/-- Closes the innermost open tag. -/
def closeInnermost (b : Builder) : Builder :=
  match b.open' with
  | [] => b
  | t :: ts => ({ b with open' := ts }).place t.close

/-- Closes the open tags down to the innermost one of a name. -/
def closeDownTo (name : List Char) : (fuel : Nat) → Builder → Builder
  | 0, b => b
  | fuel + 1, b => match b.open' with
    | [] => b
    | t :: _ =>
      if t.name == name then b.closeInnermost else closeDownTo name fuel b.closeInnermost

/-- Closes a tag by name, if one is open. -/
def closeTag (b : Builder) (name : List Char) : Builder :=
  let c := b.flush
  if c.open'.any (fun t => t.name == name) then closeDownTo name c.open'.length c else c

/-- Attributes as they are kept: each name once, in the place of its first occurrence with the value
of its last, and lists of words as such. -/
def attributesOf (tag : List Char) (given : List (List Char × Option (List Char))) :
    List (String × AttributeValue) :=
  given.foldl (fun es a =>
    let name := String.ofList a.1
    let value := a.2.getD []
    Entries.put es name
      (if isWordList tag name then .words (Text.words value) else .text value)) []

/-- Opens a tag. -/
def openTag (b : Builder) (name : List Char) (given : List (List Char × Option (List Char))) :
    Builder :=
  let c := b.flush
  { c with open' := ⟨name, attributesOf name given, []⟩ :: c.open' }

/-- A closing tag; one that a void tag was waiting for does nothing. -/
def closeNamed (b : Builder) (name : List Char) : Builder :=
  if b.awaited.contains name then { b with awaited := b.awaited.erase name } else b.closeTag name

/-- The code points that stand for others when given by number. -/
def numberText (n : Nat) : List Char :=
  match Text.remapped.lookup n with
  | some m => [Char.ofNat m]
  | none =>
    if n == 0 || (0xD800 ≤ n && n ≤ 0xDFFF) || 0x10FFFF < n then [Char.ofNat 0xFFFD]
    else [Char.ofNat n]

/-- Takes an event. -/
def step (b : Builder) : Event → Builder
  | .opened name attributes =>
    let c := b.openTag name attributes
    if isVoid name then { c.closeTag name with awaited := c.awaited ++ [name] } else c
  | .lone name attributes => (b.openTag name attributes).closeNamed name
  | .closed name => b.closeNamed name
  | .data s => b.collect s
  | .number n => b.collect (numberText n)
  | .name s => b.collect ((Text.namedReference? s).getD ('&' :: s))
  | .comment s => b.placeSpecial .comment s
  | .doctype s => b.placeSpecial .doctype s
  | .marked s =>
    if Text.upper (s.take 6) == "CDATA[".toList then b.placeSpecial .cdata (s.drop 6)
    else b.placeSpecial .declaration s
  | .instruction s => b.placeSpecial .instruction s

/-- The content of the document once all tags are closed. -/
def finish (b : Builder) : List Item :=
  let rec closeAll : (fuel : Nat) → Builder → Builder
    | 0, c => c
    | fuel + 1, c => if c.open'.isEmpty then c else closeAll fuel c.closeInnermost
  let c := b.flush
  (closeAll c.open'.length c).top.reverse

end Builder

/-- The parts of a document, unless it is refused. -/
def parseItems (source : List Char) : Option (List Item) :=
  (readEvents source).map (fun events => (events.foldl Builder.step {}).finish)

end NotebookTree.Html

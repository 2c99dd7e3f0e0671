import NotebookTree.Markdown.Block.Reader
import NotebookTree.Markdown.Token
import NotebookTree.Log

/-!
# Markdown documents

Reading a document: its lines into blocks, items with a box into tasks, the running text of the
blocks into inlines, and the notes that were referred to into a list at the end.

## Main definitions

* `markTasks`: turns items that start with a box into tasks.
* `readDocument`: the tokens of a document.
* `Engine`: what makes tokens of sources; `documentEngine` is the one for documents as they are read
  here.
* `parse`: the element tree of a source.

Reference: `create_markdown_processor`, `parse_markdown`.
-/

namespace NotebookTree.Markdown

open Text (isBlank)

/-- A box at the start of an item: whether it is checked, and the text behind it. -/
def box? (text : List Char) : Option (Bool × List Char) :=
  match text with
  | '[' :: c :: ']' :: d :: rest =>
    if (c == ' ' || c == 'x' || c == 'X') && isBlank d then
      some (c != ' ', rest.dropWhile isBlank)
    else none
  | _ => none

/-- A task of a text, if it starts with a box. -/
def taskOf? (text : List Char) (withText : List Char → Block) (others : List Block) :
    Option Block :=
  (box? text).map (fun b => .task b.1 (withText b.2 :: others))

/-- An item is a task if it starts with running text that starts with a box. -/
def taskOf (children : List Block) : Block :=
  let task? := match children with
    | .paragraph text :: bs => taskOf? text .paragraph bs
    | .blockText text :: bs => taskOf? text .blockText bs
    | _ => none
  task?.getD (.item children)

mutual

/-- Turns the items with a box in a block into tasks. -/
def Block.markTasks : Block → Block
  | .quote children => .quote (markAllTasks children)
  | .spoiler children => .spoiler (markAllTasks children)
  | .list tight bullet depth ordered start items =>
    .list tight bullet depth ordered start (markAllTasks items)
  | .item children => taskOf (markAllTasks children)
  | .definitionList parts => .definitionList (markAllTasks parts)
  | .definition children => .definition (markAllTasks children)
  | b => b

/-- Turns the items with a box in blocks into tasks. -/
def markAllTasks : List Block → List Block
  | [] => []
  | b :: bs => b.markTasks :: markAllTasks bs

end

/-- The lines of a source, whatever ends them. -/
def sourceLines (source : List Char) : List Line :=
  let rec unify : List Char → List Char
    | [] => []
    | '\r' :: '\n' :: cs => '\n' :: unify cs
    | c :: cs => (if c == '\r' then '\n' else c) :: unify cs
  match Text.lines (unify source) with
  | [] => [[]]
  | ls => ls

/-- The indentation of the first line with something in it behind the first one, if the text has
one. -/
def noteIndent? (text : List Char) : Option Nat :=
  ((Text.allLines text).drop 1).find? (fun l => !l.isEmpty)
    |>.map (fun l => (l.takeWhile isBlank).length)

/-- A line without its spaces, if there are at least so many. -/
def dropIndent (least : Nat) (l : Line) : Line :=
  if least ≤ indentation l then l.dropWhile (· == ' ') else l

/-- The blocks of a note, and the definitions with those in it. One of a single line is a paragraph;
a longer one is read like a document of its own. -/
def noteBlocks (extensions : List Extension) (defs : Definitions) (text : List Char) :
    List Block × Definitions :=
  match noteIndent? text with
  | none => ([.paragraph (Text.trim text)], defs)
  | some n =>
    let outdented := Text.join ['\n'] ((Text.splitWhere (· == '\n') text).map (dropIndent n))
    readBlocks extensions 1 defs (sourceLines (Text.trim outdented))

/-- The notes of the given keys, and the definitions with those in the notes. -/
def notesOf (extensions : List Extension) :
    Definitions → List (List Char × Nat) → List Block × Definitions
  | defs, [] => ([], defs)
  | defs, (key, i) :: ks =>
    let (children, defs') := noteBlocks extensions defs ((defs.notes.lookup key).getD [])
    let (others, defs'') := notesOf extensions defs' ks
    (.footnote key (i + 1) children :: others, defs'')

/-- The tokens of a document. The notes that have been referred to stand at its end, in the order of
their first reference. -/
def readDocument (extensions : List Extension) (source : List Char) : List Token :=
  let (blocks, defs) := readBlocks extensions 0 {} (sourceLines source)
  let body := if extensions.contains .taskLists then markAllTasks blocks else blocks
  let (tokens, keys) := (blockTokens ⟨extensions, defs⟩ body).run []
  if keys.isEmpty then tokens
  else
    let (notes, defs') := notesOf extensions defs keys.zipIdx
    tokens ++ ((blockTokens ⟨extensions, defs'⟩ [.footnotes notes]).run keys).1

/-- The extensions that settings ask for by name. -/
def extensionsOf (settings : Value) : Except Fault (List Extension) := do
  let names ← (← settings.field "plugins").items
  return names.filterMap (fun v => match v with
    | .text s => Extension.ofName? s
    | _ => none)

/-- The root of an element tree. -/
def elementRoot (children : List Value) : Value :=
  .node .element (elementFields (.text "root") (.list children) .null (.record []) (.record []))

/-- What makes tokens of sources, with the extensions that are asked for. It may refuse a source. -/
class Engine where
  tokens : List Extension → Value → Except Fault (List Token)

/-- The engine for documents as they are read here. It refuses no text. -/
instance documentEngine : Engine where
  tokens extensions source := match source with
    | .text s => .ok (readDocument extensions s.toList)
    | v => .error (v.lacks "replace")

/-- The failure that tells why a source was refused. -/
def refusal (cause : Fault) : Fault :=
  .failure .parsing ("Failed to parse markdown: " ++ cause.message)
    [("parsing_stage", .text "markdown")] (some cause)

/-- The element tree of a source. Settings that count as false stand for no extensions. -/
def parse [Engine] (source settings : Value) : Logged Value := do
  let extensions ← Logged.ofExcept (if settings.isTruthy then extensionsOf settings else pure [])
  let tokens ← Logged.ofExcept ((Engine.tokens extensions source).mapError refusal)
  let elements := elementsOf tokens
  Logged.tell (.debug .processor
    ("Parsed markdown into " ++ toString elements.length ++ " block tokens"))
  return elementRoot elements

end NotebookTree.Markdown

import NotebookTree.Text.Lines

/-!
# Markdown documents

The two layers of a Markdown document: blocks, whose running text is still unread, and inlines, the
parts of running text. Extensions add kinds to both.

## Main definitions

* `Extension`: the optional constructs.
* `Block`, `Inline`: the layers.
* `Definitions`: what a document defines for use elsewhere: link targets, notes, abbreviations.

Reference: the plugins that `_validate_plugins` lets through, and the tokens of the engine behind
`parse_markdown`.
-/

namespace NotebookTree.Markdown

/-- The optional constructs. -/
inductive Extension where
  | strikethrough | footnotes | table | url | taskLists | definitionLists | abbreviations
  | mark | insert | superscript | subscript | math | ruby | spoiler | speedup
  deriving DecidableEq, Repr

namespace Extension

/-- The name an extension is asked for by. -/
def name : Extension → String
  | strikethrough => "strikethrough"
  | footnotes => "footnotes"
  | table => "table"
  | url => "url"
  | taskLists => "task_lists"
  | definitionLists => "def_list"
  | abbreviations => "abbr"
  | mark => "mark"
  | insert => "insert"
  | superscript => "superscript"
  | subscript => "subscript"
  | math => "math"
  | ruby => "ruby"
  | spoiler => "spoiler"
  | speedup => "speedup"

/-- All extensions, in the order of their names. -/
def all : List Extension :=
  [abbreviations, definitionLists, footnotes, insert, mark, math, ruby, speedup, spoiler,
   strikethrough, subscript, superscript, table, taskLists, url]

/-- The extension of a name. -/
def ofName? (s : String) : Option Extension :=
  all.find? (fun e => e.name == s)

end Extension

/-- Spans of running text that extensions add. -/
inductive SpanKind where
  | strikethrough | mark | insert | superscript | subscript | spoiler
  deriving DecidableEq, Repr

/-- The parts of running text. -/
inductive Inline where
  | text (s : List Char)
  | emphasis (children : List Inline)
  | strong (children : List Inline)
  | codespan (s : List Char)
  /-- A link; one that was written by reference keeps its label and the key it was found under. -/
  | link (url : List Char) (title : Option (List Char)) (reference : Option (List Char × List Char))
      (children : List Inline)
  | image (url : List Char) (title : Option (List Char))
      (reference : Option (List Char × List Char)) (children : List Inline)
  | lineBreak
  | softBreak
  | html (s : List Char)
  | span (kind : SpanKind) (children : List Inline)
  | footnote (key : List Char) (index : Nat)
  | abbreviation (title : List Char) (short : List Char)
  | math (s : List Char)
  | displayMath (s : List Char)
  | ruby (base reading : List Char)

instance : Inhabited Inline := ⟨.text []⟩

/-- How a column of a table is aligned. -/
inductive Alignment where
  | left | center | right
  deriving DecidableEq, Repr

/-- How a code block was written. -/
inductive CodeStyle where
  | indented
  /-- Between fences; the marker opens the block and the information string follows it. -/
  | fenced (marker : List Char) (info : Option (List Char))

/-- The blocks of a document. Text that is still to be read as inlines is called `text`. -/
inductive Block where
  /-- Blank lines; their number counts only where nothing stands above them. -/
  | blankLine (count : Option Nat)
  | paragraph (text : List Char)
  /-- A paragraph of a tight list. -/
  | blockText (text : List Char)
  | heading (level : Nat) (underlined : Bool) (text : List Char)
  | thematicBreak
  | code (style : CodeStyle) (content : List Char)
  | quote (children : List Block)
  | spoiler (children : List Block)
  | html (content : List Char)
  | math (content : List Char)
  /-- A list with its nesting depth; an ordered one may start anywhere but at one. -/
  | list (tight : Bool) (bullet : Char) (depth : Nat) (ordered : Bool) (start : Option Nat)
      (items : List Block)
  | item (children : List Block)
  | task (checked : Bool) (children : List Block)
  | table (aligns : List (Option Alignment)) (head : List (List Char))
      (rows : List (List (List Char)))
  | definitionList (parts : List Block)
  | term (text : List Char)
  | definition (children : List Block)
  | footnotes (items : List Block)
  | footnote (key : List Char) (index : Nat) (children : List Block)

instance : Inhabited Block := ⟨.thematicBreak⟩

/-- The target of a link reference definition. -/
structure LinkTarget where
  url : List Char
  title : Option (List Char)
  label : List Char

/-- What a document defines for use anywhere in it. Keys are normalized labels. -/
structure Definitions where
  links : List (List Char × LinkTarget) := []
  notes : List (List Char × List Char) := []
  abbreviations : List (List Char × List Char) := []

/-- The key of a label: letter case and the extent of blanks do not count. -/
def labelKey (label : List Char) : List Char :=
  Text.upper (Text.lower (Text.join [' '] (Text.words label)))

/-- Adds an entry unless its key is taken. -/
def addFirst {α : Type} (es : List (List Char × α)) (key : List Char) (v : α) :
    List (List Char × α) :=
  if es.any (fun e => e.1 == key) then es else es ++ [(key, v)]

/-- Sets an entry; a key that is taken keeps its place. -/
def addLast {α : Type} (es : List (List Char × α)) (key : List Char) (v : α) :
    List (List Char × α) :=
  if es.any (fun e => e.1 == key) then es.map (fun e => if e.1 == key then (key, v) else e)
  else es ++ [(key, v)]

end NotebookTree.Markdown

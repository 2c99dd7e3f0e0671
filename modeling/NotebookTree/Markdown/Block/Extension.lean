import NotebookTree.Markdown.Block.Definition
import NotebookTree.Markdown.Block.Nesting
import NotebookTree.Markdown.Block.Table

/-!
# Blocks of the extensions

The constructs that a document has only if they were asked for: displayed formulas, definition
lists, tables, abbreviations. All but formulas come after the other rules.

## Main definitions

* `readFormulaBlock?`: a displayed formula.
* `readDefinitionLists`: terms with their definitions.
* `readExtension`: what the extensions make of a line.

Reference: the plugins for blocks that `create_markdown_processor` asks its engine for.
-/

namespace NotebookTree.Markdown

/-- Whether a line closes a displayed formula. -/
def closesFormula (l : Line) : Bool := ['$', '$'].isPrefixOf l && isEmptyLine (l.drop 2)

/-- A displayed formula: on one line between doubled dollar signs, or on lines of its own, of which
there is one at least. -/
def readFormulaBlock? (l : Line) (rest : List Line) : Option (List Char × List Line) :=
  match behindIndent? 3 l with
  | some ('$' :: '$' :: behind) =>
    let body := Text.stripEnd isLineBlank behind
    match body, rest with
    | [], first :: more =>
      let inner := more.takeWhile (fun k => !closesFormula k)
      match more.drop inner.length with
      | [] => none
      | _ :: left => some (Text.join ['\n'] (first :: inner), left)
    | _, _ =>
      if 2 ≤ body.length && ['$', '$'].isSuffixOf body then
        some (body.take (body.length - 2), rest)
      else none
  | _ => none

/-- Whether a line starts a definition of terms. -/
def isDefinitionLine (l : Line) : Bool :=
  match l with
  | ':' :: c :: _ => isLineBlank c
  | _ => false

/-- The terms in front of a definition, whether an empty line stands between, and the lines from the
definition on. -/
def readTerms? (done : List Line) : List Line → Option (List Line × Bool × List Line)
  | [] => none
  | l :: ls =>
    if !done.isEmpty && isDefinitionLine l then some (done.reverse, false, l :: ls)
    else if l.isEmpty then
      match ls with
      | next :: _ =>
        if !done.isEmpty && isDefinitionLine next then some (done.reverse, true, ls) else none
      | [] => none
    else readTerms? (l :: done) ls

/-- The lines of definitions: up to an empty line, and further as long as indented lines or
definitions follow; `free` tells that only those may follow. -/
def definitionLines (free : Bool) (held : List Line) : List Line → List Line
  | [] => held.reverse
  | l :: ls =>
    if isEmptyLine l && (l.isEmpty || free) then definitionLines true (l :: held) ls
    else if free && !isDefinitionLine l && !(match l with
        | c :: _ => isLineBlank c
        | [] => false) then held.reverse
    else held.reverse ++ l :: definitionLines (free && !isDefinitionLine l) [] ls

/-- Cuts the lines of definitions at the lines that start one. -/
def splitDefinitions : List Line → List (List Line)
  | [] => []
  | l :: ls =>
    match splitDefinitions ls with
    | [] => [[l]]
    | d :: ds =>
      match d with
      | k :: _ => if isDefinitionLine k then [l] :: d :: ds else (l :: d) :: ds
      | [] => [l] :: ds

/-- Reads the definitions of terms; `loose` tells whether a blank line stands above the first. -/
def readDefinitionParts (part : PartReader) (r : Rules) (loose : Bool) :
    List (List Line) → List Block
  | [] => []
  | d :: ds =>
    let text := match d with
      | [] => []
      | l :: ls => (' ' :: l.drop 1) :: ls
    let (children, _) := part r {} (withoutTrailing (text.map (dropSpaces 4)))
    let children' := match children with
      | [.paragraph t] => if loose then children else [.blockText t]
      | _ => children
    let endsBlank := match d.getLast? with
      | some l => isEmptyLine l
      | none => false
    .definition children' :: readDefinitionParts part r endsBlank ds

/-- Reads terms with their definitions, as often as they follow each other at once. Every kind of
line end separates terms. -/
def readDefinitionLists (part : PartReader) (r : Rules) :
    (fuel : Nat) → List Line → List Block × List Line
  | 0, ls => ([], ls)
  | fuel + 1, ls =>
    match readTerms? [] ls with
    | none => ([], ls)
    | some (terms, spaced, from') =>
      let body := definitionLines false [] from'
      let parts := (Text.allLines (Text.unlines terms)).map Block.term ++
        readDefinitionParts part r spaced (splitDefinitions body)
      let (more, left) := readDefinitionLists part r fuel (from'.drop body.length)
      (parts ++ more, left)

/-- The rules of the extensions that come after all others, in the order they were asked for. -/
def readExtension (part : PartReader) (r : Rules) (p : Progress) (l : Line) (rest : List Line) :
    List Extension → Outcome
  | [] => none
  | e :: es =>
    let other := readExtension part r p l rest es
    match e with
    | .table => match readTable l rest with
      | .table t left => some (p.push t, left)
      | .failed => some (p.addLine l, rest)
      | .absent => other
    | .definitionLists =>
      let inner : Rules :=
        { r with extensions := [], quotes := true, lists := true, depth := 0, bare := [] }
      match readDefinitionLists part inner (rest.length + 1) (l :: rest) with
      | ([], _) => other
      | (parts, left) => some (p.push (.definitionList parts), left)
    | .abbreviations => match readAbbreviation? l rest with
      | some ((short, text), left) =>
        let defs := { p.definitions with
          abbreviations := addLast p.definitions.abbreviations short text }
        some ({ blocks := .blankLine none :: p.blocks, definitions := defs }, left)
      | none => other
    | _ => other

end NotebookTree.Markdown

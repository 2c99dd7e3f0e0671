import NotebookTree.Markdown.Block.Line

/-!
# Definitions

Lines that define something for use elsewhere: link targets, notes, abbreviations. Each reader takes
the lines from the definition on and gives the definition with the lines behind it.

Reference: the rules of the engine behind `parse_markdown` for link targets, notes and
abbreviations.
-/

namespace NotebookTree.Markdown

open Text (isBlank)

/-- Blanks up to the end of the line, and the text behind it. -/
def restOfLine? (cs : List Char) : Option (List Char) :=
  match cs.dropWhile isLineBlank with
  | '\n' :: rest => some rest
  | _ => none

/-- The text up to the first blank line in it; its first line counts as started. -/
def upToBlankLine (cs : List Char) : List Char :=
  let ls := Text.splitWhere (· == '\n') cs
  Text.join ['\n'] (ls.take 1 ++ (ls.drop 1).takeWhile (fun l => !isBlankLine l)) ++ ['\n']

/-- A link target with a title on its line or the next, or without one. -/
def readTargetAndTitle? (cs : List Char) :
    Option ((List Char × Option (List Char)) × List Char) :=
  match readBlockTarget? cs with
  | none => none
  | some (href, rest) =>
    let bare := (restOfLine? rest).map (fun more => ((href, none), more))
    let near := upToBlankLine rest
    match readTitle? near with
    | none => bare
    | some (title, more) => match restOfLine? more with
      | some after =>
        some ((href, nonEmpty? title), rest.drop (near.length - after.length))
      | none => bare

/-- A link reference definition: its key, its target, and the lines behind it. -/
def readLinkDefinition? (l : Line) (rest : List Line) :
    Option ((List Char × LinkTarget) × List Line) :=
  match behindIndent? 3 l with
  | some ('[' :: body) =>
    let cs := body ++ '\n' :: Text.unlines rest
    match readLabel? cs with
    | some (label, ':' :: more) =>
      let key := labelKey label
      if key.isEmpty then none
      else (readTargetAndTitle? more).map (fun p =>
        let taken := Text.count '\n' cs - Text.count '\n' p.2 - 1
        ((key, ⟨escapeUrl (unescape p.1.1), p.1.2, label⟩), rest.drop taken))
    | _ => none
  | _ => none

/-- Whether a line looks like a link reference definition. -/
def opensLinkDefinition (l : Line) (rest : List Line) : Bool :=
  match behindIndent? 3 l with
  | some ('[' :: body) =>
    match readLabel? (body ++ '\n' :: Text.unlines rest) with
    | some (_, ':' :: _) => true
    | _ => false
  | _ => false

/-- The lines of a note below its first: empty lines, and lines indented by one to four spaces more
than it. -/
def noteLines (indent : Nat) : List Line → List Line
  | [] => []
  | l :: ls =>
    let n := indentation l
    if l.isEmpty || (indent < n && n ≤ indent + 4) then l :: noteLines indent ls else []

/-- The definition of a note: its key, its text, and the lines behind it. The text starts behind a
blank or on the next line. -/
def readNoteDefinition? (l : Line) (rest : List Line) :
    Option ((List Char × List Char) × List Line) :=
  let noteFrom (label first : List Char) (below : List Line) :
      (List Char × List Char) × List Line :=
    let more := noteLines (indentation l) below
    ((labelKey label, Text.unlines (first :: more)), below.drop more.length)
  match behindIndent? 3 l with
  | some ('[' :: '^' :: body) =>
    match readNoteKey? body with
    | some (label, [':']) => some (noteFrom label (rest.headD []) (rest.drop 1))
    | some (label, ':' :: c :: text) =>
      if isLineBlank c then some (noteFrom label text rest) else none
    | _ => none
  | _ => none

/-- The definition of an abbreviation: its short form, its text, and the lines behind it. -/
def readAbbreviation? (l : Line) (rest : List Line) :
    Option ((List Char × List Char) × List Line) :=
  match behindIndent? 3 l with
  | some ('*' :: '[' :: body) =>
    let short := body.span (· != ']')
    match short.2 with
    | ']' :: ':' :: text =>
      let next := rest.headD []
      let continued := isEmptyLine text &&
        ((3 ≤ indentation next && indentation next < next.length) ||
          (next.head? == some '\t' && 1 < next.length))
      if short.1.isEmpty then none
      else if continued then some ((short.1, Text.trim next), rest.drop 1)
      else if text.isEmpty then none
      else some ((short.1, Text.trim text), rest)
    | _ => none
  | _ => none

end NotebookTree.Markdown

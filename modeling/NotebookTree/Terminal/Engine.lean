import NotebookTree.Terminal.Outline
import NotebookTree.Terminal.Table

/-!
# Engines for drawing

What is drawn on a terminal is drawn by an engine from outside, which need not be there: `rich` for
`_print_tree` and `_handle_outputs`. All that is asked of it stands in `Engine`, and everything that
draws takes any engine. The engine for lines, which is used where no other is named, draws what the
texts of labels and cells say; it knows of no marks inside them.

## Main definitions

* `Engine`: what an engine for drawing does.
* `lineEngine`: the engine for lines.

Reference: the calls of `rich` in `_print_tree` and `_handle_outputs`.
-/

namespace NotebookTree.Terminal

/-- An engine for drawing, which may be there or not. It keeps something of each text that is made a
label, and prints outlines and tables on a terminal so many cells wide, unless it fails: a cell of a
table may hold marks of which it makes no sense. -/
class Engine where
  installed : Bool
  keep : String → String
  printOutline : (width : Nat) → Outline → Except Fault String
  printTable : (width : Nat) → Table → Except Fault String

/-- The text of drawn lines. -/
def printed (lines : List (List Char)) : String := String.ofList (Text.unlines lines)

/-- The engine for lines. -/
instance lineEngine : Engine where
  installed := true
  keep label := String.ofList (dropControls label.toList)
  printOutline width o := .ok (printed (o.draw width))
  printTable width t := .ok (printed (t.draw width))

end NotebookTree.Terminal

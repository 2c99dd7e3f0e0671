import NotebookTree.Fault
import NotebookTree.Terminal.Wrap

/-!
# Outlines

An outline is a tree of labels. It is made from lines that tell how deep each label lies, with the
stack of open labels that `_print_tree` keeps, and drawn with guides that lead from each label to
those below it. A label is not the text of its line but what is kept of that when the label is made.

## Main definitions

* `Outline`: a label with the outlines below it.
* `Outline.ofLines`: the outline of lines with depths.
* `Outline.toLines`: the lines of an outline, with depths.
* `Outline.draw`: an outline with guides.

Reference: `_print_tree`.
-/

namespace NotebookTree.Terminal

/-- A label with the outlines below it. -/
inductive Outline where
  | node (label : String) (below : List Outline)

instance : Inhabited Outline := ⟨.node "" []⟩

namespace Outline

mutual

/-- The lines of an outline that lies at a depth, parents before those below them. -/
def toLines (depth : Nat) : Outline → List (Nat × String)
  | node label below => (depth, label) :: allToLines (depth + 1) below

/-- The lines of outlines that lie at a depth. -/
def allToLines (depth : Nat) : List Outline → List (Nat × String)
  | [] => []
  | o :: os => toLines depth o ++ allToLines depth os

end

/-- A label that is still open: the outlines below it are in reverse order. -/
structure Frame where
  label : String
  below : List Outline

/-- Puts an outline below an open label. -/
def Frame.add (f : Frame) (o : Outline) : Frame := { f with below := o :: f.below }

/-- A label with all that lies below it. -/
def Frame.close (f : Frame) : Outline := .node f.label f.below.reverse

/-- Open labels, the innermost first, of which the last closed may be the outermost. -/
structure Building where
  frames : List Frame := []

/-- Closes open labels until `depth` of them remain; the outermost stays open. -/
def closeTo (depth : Nat) : List Frame → List Frame
  | f :: g :: fs => if (g :: fs).length < depth then f :: g :: fs
      else closeTo depth (g.add f.close :: fs)
  | fs => fs
termination_by fs => fs.length

/-- Opens a label at a depth, of which `keep` tells what is kept. The first is the root whatever its
depth; there is no place for another root. -/
def openAt (keep : String → String) (frames : List Frame) (line : Nat × String) :
    Except Fault (List Frame) :=
  match frames with
  | [] => .ok [⟨keep line.2, []⟩]
  | fs => if line.1 == 0 then .error .noIndex else .ok (⟨keep line.2, []⟩ :: closeTo line.1 fs)

/-- The outline of lines with depths. -/
def ofLines (keep : String → String) (lines : List (Nat × String)) :
    Except Fault (Option Outline) := do
  let frames ← lines.foldlM (openAt keep) []
  return (closeTo 1 frames).head?.map Frame.close

/-- A guide that leads past what lies below. -/
def guidePast (last : Bool) : String := if last then "    " else "│   "

/-- A guide that leads to a label. -/
def guideTo (last : Bool) : String := if last then "└── " else "├── "

/-- The lines of a label behind guides: `first` in front of the first line, `rest` in front of the
others. A label without room is not drawn. -/
def drawLabel (width : Nat) (first rest : List Char) (label : String) : List (List Char) :=
  let room := width - Text.cells first
  if room == 0 then []
  else match (wrap room .fold label).map (truncate room .fold) with
    | [] => []
    | l :: ls => (first ++ l) :: ls.map (rest ++ ·)

mutual

/-- An outline drawn with guides: `lead` stands in front of all its lines, `own` in front of its
label, and `past` in front of all others. -/
def drawAt (width : Nat) (lead own past : List Char) : Outline → List (List Char)
  | node label below =>
    drawLabel width (lead ++ own) (lead ++ past) label ++ drawAll width (lead ++ past) below

/-- Outlines drawn one below the other, all with `lead` in front. -/
def drawAll (width : Nat) (lead : List Char) : List Outline → List (List Char)
  | [] => []
  | o :: os =>
    drawAt width lead (guideTo os.isEmpty).toList (guidePast os.isEmpty).toList o
      ++ drawAll width lead os

end

/-- An outline drawn with guides. -/
def draw (width : Nat) (o : Outline) : List (List Char) := drawAt width [] [] [] o

end Outline

end NotebookTree.Terminal

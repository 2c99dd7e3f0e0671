import NotebookTree.Text.CellWidth
import NotebookTree.Text.Lines

/-!
# Lines that fit

A text is broken between words so that each line fits into a number of cells. A word that does not
fit into a line of its own is either folded, so that it goes on in the next line, or cut short.

## Main definitions

* `Overflow`: what happens to a word that is too long.
* `breakLine`: one line of text as lines that fit.
* `wrap`: a text as lines that fit.
* `fillEnd`, `fillStart`, `fillBoth`: lines set to the left, to the right and in the middle.

Reference: how the labels of `_print_tree` and the cells of `_handle_outputs` are broken into lines.
-/

namespace NotebookTree.Terminal

open Text (isBlank cellWidth cells)

/-- What happens to a word that is too long for a line. -/
inductive Overflow where
  /-- It goes on in the next line. -/
  | fold
  /-- It is cut short, and a mark shows that. -/
  | ellipsis
  deriving DecidableEq, Repr

/-- Where a reading of words is: before the first, inside one, or in the blanks behind one. -/
inductive WordPhase where
  | before | inside | behind

/-- The words of a line, each with the blanks behind it, the first also with those in front of it.
`word` holds the characters read of the next word, in reverse order. -/
def wordsFrom (word : List Char) : WordPhase → List Char → List (List Char)
  | .before, [] => []
  | _, [] => [word.reverse]
  | .before, c :: cs => wordsFrom (c :: word) (if isBlank c then .before else .inside) cs
  | .inside, c :: cs => wordsFrom (c :: word) (if isBlank c then .behind else .inside) cs
  | .behind, c :: cs =>
    if isBlank c then wordsFrom (c :: word) .behind cs
    else word.reverse :: wordsFrom [c] .inside cs

/-- Puts a character to the last of some pieces if it fits into it, or starts another. -/
def chopStep (width : Nat) (pieces : List (List Char)) (c : Char) : List (List Char) :=
  match pieces with
  | p :: ps => if cells p + cellWidth c ≤ width then (p ++ [c]) :: ps else [c] :: p :: ps
  | [] => [[c]]

/-- A word in pieces that fit. -/
def chop (width : Nat) (word : List Char) : List (List Char) :=
  (word.foldl (chopStep width) [[]]).reverse

/-- A line while it is being broken: where the next word starts, the cells taken in the last line so
far, and the places to break at. -/
structure Breaking where
  start : Nat := 0
  used : Nat := 0
  breaks : List Nat := []

/-- Breaks in front of a place, unless it is the start of the line. -/
def Breaking.at (b : Breaking) (place : Nat) : List Nat :=
  if place == 0 then b.breaks else b.breaks ++ [place]

/-- Folds a word: its first piece starts a line, and so does every other. -/
def Breaking.folded (b : Breaking) : List (List Char) → Breaking
  | [] => b
  | [p] => { b with breaks := b.at b.start, used := cells p }
  | p :: ps =>
    ({ b with breaks := b.at b.start, start := b.start + p.length } : Breaking).folded ps

/-- Puts one more word to a line. -/
def Breaking.add (width : Nat) (overflow : Overflow) (b : Breaking) (word : List Char) : Breaking :=
  let size := cells (Text.stripEnd isBlank word)
  let next := b.start + word.length
  if b.used + size ≤ width then { b with start := next, used := b.used + cells word }
  else if width < size then
    match overflow with
    | .fold => { b.folded (chop width word) with start := next }
    | .ellipsis => { start := next, used := cells word, breaks := b.at b.start }
  else if b.used == 0 then { b with start := next }
  else { start := next, used := cells word, breaks := b.at b.start }

/-- Cuts a text at places, `start` being where the text starts. -/
def cutAt (start : Nat) (cs : List Char) : List Nat → List (List Char)
  | [] => [cs]
  | place :: places => cs.take (place - start) :: cutAt place (cs.drop (place - start)) places

/-- Drops blanks at the end of a line that is longer than `size`, down to that length. -/
def dropExcess (size : Nat) (cs : List Char) : List Char :=
  let blanks := cs.length - (Text.stripEnd isBlank cs).length
  cs.take (cs.length - min blanks (cs.length - size))

/-- As much of a text as fits. A wide character that does not fit leaves a blank. -/
def crop : (size : Nat) → List Char → List Char
  | _, [] => []
  | size, c :: cs =>
    if cellWidth c ≤ size then c :: crop (size - cellWidth c) cs
    else List.replicate size ' '

/-- A line cut down to what fits. -/
def truncate (width : Nat) (overflow : Overflow) (cs : List Char) : List Char :=
  if cells cs ≤ width then cs
  else match overflow with
    | .fold => crop width cs
    | .ellipsis => crop (width - 1) cs ++ ['…']

/-- One line of text as lines that fit. -/
def breakLine (width : Nat) (overflow : Overflow) (cs : List Char) : List (List Char) :=
  let broken := (wordsFrom [] .before cs).foldl (Breaking.add width overflow) {}
  (cutAt 0 cs broken.breaks).map (dropExcess width)

/-- Puts blanks in the place of tabs, up to the next multiple of eight cells; `used` cells stand in
front. -/
def expandTabs (used : Nat) : List Char → List Char
  | [] => []
  | c :: cs =>
    if c == '\t' then
      let gap := 8 - used % 8
      List.replicate gap ' ' ++ expandTabs (used + gap) cs
    else c :: expandTabs (used + cellWidth c) cs

/-- Drops the controls that would move what is written. -/
def dropControls (cs : List Char) : List Char :=
  cs.filter (fun c => !([7, 8, 11, 12, 13].contains c.toNat))

/-- A text as lines that may still be cut down to fit. -/
def wrap (width : Nat) (overflow : Overflow) (s : String) : List (List Char) :=
  (Text.splitWhere (· == '\n') (dropControls s.toList)).flatMap
    (fun l => breakLine width overflow (expandTabs 0 l))

/-- A line with blanks behind it, to the full width. -/
def fillEnd (width : Nat) (cs : List Char) : List Char :=
  cs ++ List.replicate (width - cells cs) ' '

/-- A line with blanks in front of it, to the full width. -/
def fillStart (width : Nat) (cs : List Char) : List Char :=
  List.replicate (width - cells cs) ' ' ++ cs

/-- A line with blanks on both sides, to the full width; an odd blank stands behind. -/
def fillBoth (width : Nat) (cs : List Char) : List Char :=
  fillEnd width (List.replicate ((width - cells cs) / 2) ' ' ++ cs)

end NotebookTree.Terminal

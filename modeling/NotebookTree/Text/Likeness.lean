/-!
# How alike two texts are

Two texts are matched by their longest common piece, and then what stands in front of it and what
stands behind it in the same way. Their likeness is twice the number of matched characters over the
number of all characters.

## Main definitions

* `longestPiece`: the longest common piece of two texts, the first of several.
* `matched`: the number of matched characters.
* `Likeness`: a likeness as a fraction, compared without division.
* `closest?`: the most alike among several texts.

Reference: the suggestion of `_validate_plugins` for a misspelt name.
-/

namespace NotebookTree.Text

/-- The length of the common start of two texts. -/
def commonStart : List Char → List Char → Nat
  | a :: as, b :: bs => if a == b then commonStart as bs + 1 else 0
  | _, _ => 0

/-- A common piece: where it starts in each of two texts, and its length. -/
structure Piece where
  left : Nat
  right : Nat
  size : Nat

/-- The longer of two pieces, the first if they are of one length. -/
def Piece.longer (p q : Piece) : Piece := if p.size < q.size then q else p

/-- The longest common piece of two texts; of several, the one that starts first in `as`, and then
the one that starts first in `bs`. -/
def longestPiece (as bs : List Char) : Piece :=
  (List.range as.length).foldl (fun best i =>
    (List.range bs.length).foldl (fun best j =>
      best.longer ⟨i, j, commonStart (as.drop i) (bs.drop j)⟩) best) ⟨0, 0, 0⟩

/-- The number of matched characters of two texts; `fuel` bounds the depth of the matching, which is
less than the length of either text. -/
def matchedWithin : (fuel : Nat) → List Char → List Char → Nat
  | 0, _, _ => 0
  | fuel + 1, as, bs =>
    let p := longestPiece as bs
    if p.size == 0 then 0
    else matchedWithin fuel (as.take p.left) (bs.take p.right) + p.size
      + matchedWithin fuel (as.drop (p.left + p.size)) (bs.drop (p.right + p.size))

/-- The number of matched characters of two texts. -/
def matched (as bs : List Char) : Nat := matchedWithin (as.length + 1) as bs

/-- A likeness: the matched characters of both texts over all their characters. -/
structure Likeness where
  same : Nat
  all : Nat

namespace Likeness

/-- The likeness of two texts. Two empty texts are wholly alike. -/
def of (as bs : List Char) : Likeness :=
  if as.isEmpty && bs.isEmpty then ⟨1, 1⟩ else ⟨2 * matched as bs, as.length + bs.length⟩

/-- Whether a likeness is at least `num / den`. -/
def atLeast (l : Likeness) (num den : Nat) : Bool := num * l.all ≤ l.same * den

/-- Whether a likeness is less than another. -/
def less (l m : Likeness) : Bool := l.same * m.all < m.same * l.all

end Likeness

/-- The candidate most like a text, if one is like it in at least three characters of five. Of
several the last in the order of texts is taken. -/
def closest? (s : String) (candidates : List String) : Option String :=
  let scored := (candidates.map (fun c => (Likeness.of c.toList s.toList, c))).filter
    (fun p => p.1.atLeast 3 5)
  (scored.foldl (fun best p => match best with
    | none => some p
    | some b =>
      if b.1.less p.1 || (!p.1.less b.1 && decide (b.2 < p.2)) then some p else some b)
    none).map Prod.snd

end NotebookTree.Text

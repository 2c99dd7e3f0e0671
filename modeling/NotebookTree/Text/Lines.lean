import NotebookTree.Text.Character

/-!
# Lines, edges and pieces of texts

Small operations on lists of characters that the readers and writers share.

Reference: the operations on texts of the standard library that the other modules use.
-/

namespace NotebookTree.Text

/-- Drops the characters at the front for which `p` holds. -/
def stripStart (p : Char → Bool) (cs : List Char) : List Char :=
  cs.dropWhile p

/-- Drops the characters at the end for which `p` holds. -/
def stripEnd (p : Char → Bool) (cs : List Char) : List Char :=
  (cs.reverse.dropWhile p).reverse

/-- Drops the characters at both ends for which `p` holds. -/
def strip (p : Char → Bool) (cs : List Char) : List Char :=
  stripEnd p (stripStart p cs)

/-- Drops blanks at both ends. -/
def trim (cs : List Char) : List Char := strip isBlank cs

/-- Puts a character in front of the first line. -/
def consLine (c : Char) : List (List Char) → List (List Char)
  | [] => [[c]]
  | l :: ls => (c :: l) :: ls

/-- The lines of a text, without their ends. A text that ends a line does not start another. -/
def lines : List Char → List (List Char)
  | [] => []
  | c :: cs => if c == '\n' then [] :: lines cs else consLine c (lines cs)

/-- Lines put together, each with its end. -/
def unlines (ls : List (List Char)) : List Char :=
  ls.flatMap (· ++ ['\n'])

/-- Whether a text starts with another. -/
def startsWith (cs start : List Char) : Bool := start.isPrefixOf cs

/-- Whether a text ends with another. -/
def endsWith (cs last : List Char) : Bool := last.isSuffixOf cs

/-- Splits a text in front of the first place where `needle` stands. -/
def splitBefore? (needle : List Char) : List Char → Option (List Char × List Char)
  | [] => if needle.isEmpty then some ([], []) else none
  | c :: cs =>
    if needle.isPrefixOf (c :: cs) then some ([], c :: cs)
    else (splitBefore? needle cs).map (fun p => (c :: p.1, p.2))

/-- Replaces one character by a text everywhere. -/
def replaceChar (c : Char) (by' : List Char) (cs : List Char) : List Char :=
  cs.flatMap (fun d => if d == c then by' else [d])

/-- The number of occurrences of a character. -/
def count (c : Char) (cs : List Char) : Nat :=
  cs.countP (· == c)

/-- Joins texts with a separator. -/
def join (separator : List Char) (parts : List (List Char)) : List Char :=
  separator.intercalate parts

/-- The characters that end a line in running text. -/
def isLineEnd (c : Char) : Bool :=
  let n := c.toNat
  (10 ≤ n && n ≤ 13) || (28 ≤ n && n ≤ 30) || n == 0x85 || n == 0x2028 || n == 0x2029

/-- The lines of running text, at every kind of line end; a carriage return with a line feed behind
it is one end. -/
def allLines : List Char → List (List Char)
  | [] => []
  | c :: cs =>
    if c == '\r' && cs.head? == some '\n' then allLines cs
    else if isLineEnd c then [] :: allLines cs
    else consLine c (allLines cs)

end NotebookTree.Text

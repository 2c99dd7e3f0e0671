/-!
# Color sequences

Terminals take an escape character, a bracket, digits and semicolons, and an `m` as a change of
color. `stripColors` drops such sequences from a text.

## Main definitions

* `colorSequence?`: what stands behind a color sequence at the front of a text.
* `stripColors`: a text without its color sequences.

Reference: `strip_ansi`.
-/

namespace NotebookTree.Text

/-- The character that starts a sequence. -/
def escapeChar : Char := Char.ofNat 27

/-- Whether a character may stand among the numbers of a color sequence. -/
def isColorNumber (c : Char) : Bool :=
  c == ';' || ('0'.toNat ≤ c.toNat && c.toNat ≤ '9'.toNat)

/-- What stands behind a color sequence at the front of a text, if there is one. -/
def colorSequence? : List Char → Option (List Char)
  | c :: '[' :: cs =>
    if c == escapeChar then
      match cs.dropWhile isColorNumber with
      | 'm' :: rest => some rest
      | _ => none
    else none
  | _ => none

/-- Dropping from the front leaves no more than there was. -/
theorem length_dropWhile_le {α : Type} (p : α → Bool) (l : List α) :
    (l.dropWhile p).length ≤ l.length := by
  induction l with
  | nil => simp
  | cons a l ih =>
    rw [List.dropWhile_cons]
    split
    · simp only [List.length_cons]; omega
    · exact Nat.le_refl _

/-- A color sequence takes something away. -/
theorem length_of_colorSequence? {cs rest : List Char} (h : colorSequence? cs = some rest) :
    rest.length < cs.length := by
  unfold colorSequence? at h
  split at h
  · next c ds =>
    split at h
    · split at h
      · next r hr =>
        cases h
        have := length_dropWhile_le isColorNumber ds
        rw [hr] at this
        simp only [List.length_cons] at this ⊢
        omega
      · cases h
    · cases h
  · cases h

/-- A text without its color sequences, which are looked for from the front. -/
def stripColors (cs : List Char) : List Char :=
  match _h : colorSequence? cs with
  | some rest => stripColors rest
  | none => match cs with
    | [] => []
    | c :: ds => c :: stripColors ds
termination_by cs.length
decreasing_by
  · exact length_of_colorSequence? _h
  · simp

end NotebookTree.Text

import NotebookTree.Text.Lines
import NotebookTree.Text.Quoted
import Mathlib.Data.Nat.Digits.Defs

/-!
# Texts on one line

A quoted text stands on one line, whatever it quotes: every character that ends a line is one of
those that do not print, so it is spelled out. Texts that stand on one line each, put together as
lines, are the lines of the whole.

## Main definitions

* `Text.OnOneLine`: a text without the end of a line.

## Main statements

* `onOneLine_quote`: a quoted text stands on one line.
* `allLines_unlines`: lines come back from the text they were put together to.
* `count_unlines`: how many line feeds there are in that text.
-/

namespace NotebookTree.Text

/-- No line ends in a text, by any kind of line end. -/
def OnOneLine (cs : List Char) : Prop := ∀ c ∈ cs, isLineEnd c = false

-- The characters of the text are gone through, and not all that there are.
instance : DecidablePred OnOneLine := List.decidableBAll fun c => isLineEnd c = false

variable {cs ds : List Char}

/-- A text of two parts is on one line when both parts are. -/
theorem onOneLine_append : OnOneLine (cs ++ ds) ↔ OnOneLine cs ∧ OnOneLine ds :=
  List.forall_mem_append

/-! ## Quoted texts -/

/-- What ends a line does not print. -/
theorem isPrintable_of_isLineEnd {c : Char} (h : isLineEnd c = true) : isPrintable c = false := by
  simp only [isLineEnd, Bool.or_eq_true, Bool.and_eq_true, decide_eq_true_eq, beq_iff_eq] at h
  rw [isPrintable]
  by_cases hlow : c.toNat < 127
  · rw [if_pos hlow, decide_eq_false_iff_not]
    omega
  · have hcontrol : isControl c = true := by
      simp only [isControl, Bool.or_eq_true, Bool.and_eq_true, decide_eq_true_eq]
      omega
    rw [if_neg hlow, hcontrol]
    rfl

/-- The digits of a number stand on one line. -/
theorem onOneLine_toDigits {base : Nat} (hbase : 1 < base) (hle : base ≤ 16) (n : Nat) :
    OnOneLine (Nat.toDigits base n) := by
  have hdigit : ∀ d < 16, isLineEnd (Nat.digitChar d) = false := by decide
  induction n using Nat.strong_induction_on with
  | _ n ih =>
    rcases Nat.lt_or_ge n base with hlt | hge
    · rw [Nat.toDigits_of_lt_base hlt]
      exact List.forall_mem_singleton.mpr (hdigit n (by omega))
    · rw [Nat.toDigits_of_base_le hbase hge, onOneLine_append]
      have hmod := Nat.mod_lt n (Nat.lt_trans Nat.zero_lt_one hbase)
      exact ⟨ih _ (Nat.div_lt_self (by omega) hbase),
        List.forall_mem_singleton.mpr (hdigit _ (by omega))⟩

/-- Hexadecimal digits are on one line. -/
theorem onOneLine_hexDigits (width n : Nat) : OnOneLine (hexDigits width n) := by
  refine onOneLine_append.mpr ⟨fun c hc => ?_, onOneLine_toDigits (by decide) (by decide) n⟩
  rw [List.eq_of_mem_replicate hc]
  decide

/-- A number is on one line. -/
theorem onOneLine_toString (n : Nat) : OnOneLine (toString n).toList := by
  show OnOneLine (Nat.repr n).toList
  rw [Nat.toList_repr]
  exact onOneLine_toDigits (by decide) (by decide) n

/-- A character stands on one line between marks, spelled out or not. -/
theorem onOneLine_quoteChar {mark : Char} (hmark : isLineEnd mark = false) (c : Char) :
    OnOneLine (quoteChar mark c) := by
  have hback : isLineEnd backslash = false := by decide
  have hshort : ∀ letter : Char, isLineEnd letter = false → OnOneLine [backslash, letter] :=
    fun letter hletter =>
      List.forall_mem_cons.mpr ⟨hback, List.forall_mem_singleton.mpr hletter⟩
  have hspelled : ∀ (letter : Char) (width : Nat), isLineEnd letter = false →
      OnOneLine (backslash :: letter :: hexDigits width c.toNat) := fun letter width hletter =>
    List.forall_mem_cons.mpr ⟨hback, List.forall_mem_cons.mpr
      ⟨hletter, onOneLine_hexDigits width c.toNat⟩⟩
  rw [quoteChar]
  split
  · -- a mark or a reverse solidus has one in front
    rename_i hown
    rw [Bool.or_eq_true, beq_iff_eq, beq_iff_eq] at hown
    apply hshort
    rcases hown with rfl | rfl
    · exact hmark
    · exact hback
  split
  · exact hshort 'n' (by decide)
  split
  · exact hshort 'r' (by decide)
  split
  · exact hshort 't' (by decide)
  split
  · -- what prints ends no line
    rename_i hprints
    refine List.forall_mem_singleton.mpr (Bool.eq_false_iff.mpr fun hend => ?_)
    rw [isPrintable_of_isLineEnd hend] at hprints
    cases hprints
  split
  · exact hspelled 'x' 2 (by decide)
  split
  · exact hspelled 'u' 4 (by decide)
  · exact hspelled 'U' 8 (by decide)

/-- A quoted text stands on one line, whatever it quotes. -/
theorem onOneLine_quote (s : String) : OnOneLine (quote s).toList := by
  have hmark : isLineEnd (quoteMark s.toList) = false := by
    rw [quoteMark]
    split <;> decide
  rw [quote, String.toList_ofList, onOneLine_append]
  refine ⟨List.forall_mem_cons.mpr ⟨hmark, fun c hc => ?_⟩, List.forall_mem_singleton.mpr hmark⟩
  obtain ⟨d, -, hd⟩ := List.mem_flatMap.mp hc
  exact onOneLine_quoteChar hmark d c hd

/-! ## Lines -/

/-- A line that stands in front of a text is its first. -/
theorem allLines_append (h : OnOneLine cs) (rest : List Char) :
    allLines (cs ++ '\n' :: rest) = cs :: allLines rest := by
  induction cs with
  | nil =>
    rw [List.nil_append, allLines, if_neg (by simp)]
    rfl
  | cons c cs ih =>
    obtain ⟨hc, hcs⟩ := List.forall_mem_cons.mp h
    -- a return would end the line already
    have hreturn : (c == '\r') = false := by
      rw [beq_eq_false_iff_ne]
      rintro rfl
      revert hc
      decide
    rw [List.cons_append, allLines, hreturn, Bool.false_and, if_neg Bool.false_ne_true, hc,
      if_neg Bool.false_ne_true, ih hcs]
    rfl

/-- Texts on one line each come back as the lines of the text that they are put together to. -/
theorem allLines_unlines {ls : List (List Char)} (h : ∀ l ∈ ls, OnOneLine l) :
    allLines (unlines ls) = ls := by
  induction ls with
  | nil => rfl
  | cons l ls ih =>
    obtain ⟨hl, hls⟩ := List.forall_mem_cons.mp h
    rw [unlines, List.flatMap_cons, List.append_assoc, List.singleton_append, allLines_append hl,
      ← unlines, ih hls]

/-- A text put together from lines has a line feed for each, and those that the lines have. -/
theorem count_unlines (ls : List (List Char)) :
    count '\n' (unlines ls) = ls.length + (ls.map (count '\n')).sum := by
  induction ls with
  | nil => rfl
  | cons l ls ih =>
    have hone : List.countP (· == '\n') ['\n'] = 1 := rfl
    rw [unlines, List.flatMap_cons, ← unlines, count, List.countP_append, List.countP_append, hone,
      ← count, ← count, ih, List.length_cons, List.map_cons, List.sum_cons]
    omega

end NotebookTree.Text

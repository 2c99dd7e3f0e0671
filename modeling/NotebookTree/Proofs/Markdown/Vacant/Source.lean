import Mathlib.Data.List.TakeWhile
import Mathlib.Tactic.Tauto
import NotebookTree.Proofs.Markdown.Elements
import NotebookTree.Proofs.Markdown.Regular
import NotebookTree.Proofs.Markdown.Vacant

/-!
# Vacant sources

The elements of a source are nothing but blank lines if its lines are vacant. A blank source is
vacant unless its first line counts as code or there are blanks in it that are not among those of
blank lines.

## Main results

* `any_elements_iff`: which sources have elements other than blank lines.
* `vacant_iff_of_blank`: which of the blank sources are vacant.
-/

namespace NotebookTree.Markdown

open Text (isBlank)

/-! ## Elements -/

/-- The element of a block is a blank line if the block is. -/
theorem reads_isBlankLine (ctx : Context) (b : Block) :
    Reads (fun t => t.toElement.hasType "blank_line" = b.isBlankLine) (b.toToken ctx) := by
  have hany : ∀ {α : Type} (reading : Reading α), Reads (fun _ => True) reading :=
    fun _ _ => trivial
  cases b with
  | blankLine count => cases count <;> exact reads_pure rfl
  | thematicBreak => exact reads_pure rfl
  | html content => exact reads_pure rfl
  | math content => exact reads_pure rfl
  | code style content => cases style <;> exact reads_pure rfl
  | table aligns head rows =>
    exact reads_bind (hany _) fun _ _ => reads_bind (hany _) fun _ _ => reads_pure rfl
  | _ => exact reads_bind (hany _) fun _ _ => reads_pure rfl

/-- Among the elements of blocks there are others than blank lines if there are such blocks. -/
theorem reads_any (ctx : Context) (bs : List Block) :
    Reads (fun ts => (elementsOf ts).any (fun e => !e.hasType "blank_line") =
      bs.any fun b => !b.isBlankLine) (blockTokens ctx bs) := by
  induction bs with
  | nil => exact reads_pure rfl
  | cons b bs ih =>
    refine reads_bind (reads_isBlankLine ctx b) fun t ht => reads_bind ih fun ts hts => ?_
    exact reads_pure (by rw [elementsOf, List.any_cons, List.any_cons, ht, hts])

/-- Blank lines refer to no notes. -/
theorem keys_of_blank (ctx : Context) (bs : List Block) (keys : List (List Char))
    (h : bs.any (fun b => !b.isBlankLine) = false) : ((blockTokens ctx bs).run keys).2 = keys := by
  induction bs with
  | nil => rfl
  | cons b bs ih =>
    rw [List.any_cons, Bool.or_eq_false_iff] at h
    cases b with
    | blankLine count => cases count <;> exact ih h.2
    | _ => cases h.1

/-- Without extensions, the elements of a source are nothing but blank lines if its lines are
vacant. -/
theorem any_elements_iff (cs : List Char) :
    (elementsOf (readDocument [] cs)).any (fun e => !e.hasType "blank_line") = false ↔
      Vacant (sourceLines cs) := by
  rw [← readBlocks_any_iff 0 {}, readDocument]
  generalize readBlocks [] 0 {} (sourceLines cs) = read
  have htokens := reads_any ⟨[], read.2⟩ read.1 []
  have hkeys := keys_of_blank ⟨[], read.2⟩ read.1 []
  simp only [List.contains_nil, Bool.false_eq_true, if_false]
  rcases hrun : (blockTokens ⟨[], read.2⟩ read.1).run [] with ⟨tokens, keys⟩
  rw [hrun] at htokens
  rw [← htokens]
  dsimp only
  split
  · rfl
  · rename_i hnotes
    -- only running text refers to notes, so that there is something else than blank lines
    have hany : (elementsOf tokens).any (fun e => !e.hasType "blank_line") = true := by
      rw [htokens]
      by_contra hblank
      have hnone := hkeys (by simpa using hblank)
      rw [hrun] at hnone
      exact hnotes (List.isEmpty_iff.mpr hnone)
    rw [elementsOf_eq_map, List.map_append, List.any_append, ← elementsOf_eq_map, hany]
    rfl

/-! ## Blank texts -/

/-- Where nothing could start a definition, vacant lines are blank. -/
theorem Vacant.forall_isBlankLine {ls : List Line} (h : Vacant ls) (hbracket : ∀ l ∈ ls, '[' ∉ l) :
    ∀ l ∈ ls, isBlankLine l = true := by
  induction h with
  | nil => exact List.forall_mem_nil _
  | @blank l rest hblank _ _ ih =>
    rw [List.forall_mem_cons] at hbracket ⊢
    refine ⟨hblank, fun k hk => ?_⟩
    have hbelow := ih fun k hk => hbracket.2 k ((List.dropWhile_suffix _).mem hk)
    rw [← List.takeWhile_append_dropWhile (p := isBlankLine) (l := rest), List.mem_append] at hk
    obtain hk | hk := hk
    · exact List.mem_takeWhile_imp hk
    · exact hbelow k hk
  | definition hd =>
    obtain ⟨⟨body, hbody⟩, -⟩ := readLinkDefinition?_eq_some hd
    exact absurd (mem_of_behindIndent? hbody) (hbracket _ List.mem_cons_self)

/-- Where nothing could start a definition, lines are vacant if they are blank and the first one does
not count as code. -/
theorem vacant_iff_of_noBracket {ls : List Line} (hbracket : ∀ l ∈ ls, '[' ∉ l) :
    Vacant ls ↔ isIndentedCode (ls.headD []) = false ∧ ∀ l ∈ ls, isBlankLine l = true := by
  refine ⟨fun h => ⟨?_, h.forall_isBlankLine hbracket⟩, fun ⟨hcode, hblank⟩ => ?_⟩
  · cases h with
    | nil => rfl
    | blank _ hcode => exact hcode
    | definition hd =>
      obtain ⟨⟨body, hbody⟩, -⟩ := readLinkDefinition?_eq_some hd
      exact (plain_of_bracket hbody).noCode
  · cases ls with
    | nil => exact .nil
    | cons l rest =>
      obtain ⟨hl, hrest⟩ := List.forall_mem_cons.mp hblank
      refine .blank hl hcode ?_
      rw [List.dropWhile_eq_nil_iff.mpr hrest]
      exact .nil

/-! ## Lines of a source -/

/-- A character in front of lines is added to the characters of the lines. -/
theorem mem_consLine {c d : Char} (ls : List (List Char)) :
    (∃ l ∈ Text.consLine d ls, c ∈ l) ↔ c = d ∨ ∃ l ∈ ls, c ∈ l := by
  cases ls with
  | nil => simp [Text.consLine]
  | cons l ls => simp [Text.consLine, or_assoc]

/-- The lines of a text have its characters but for the ends of lines. -/
theorem mem_lines {c : Char} (cs : List Char) :
    (∃ l ∈ Text.lines cs, c ∈ l) ↔ c ∈ cs ∧ c ≠ '\n' := by
  induction cs with
  | nil => simp [Text.lines]
  | cons d cs ih =>
    rw [Text.lines, List.mem_cons]
    by_cases hd : d = '\n'
    · subst hd
      simp [ih]
      tauto
    · have hfeed : (d == '\n') = false := beq_false_of_ne hd
      rw [hfeed, if_neg (by simp), mem_consLine, ih]
      constructor
      · rintro (rfl | ⟨hmem, hne⟩)
        · exact ⟨.inl rfl, hd⟩
        · exact ⟨.inr hmem, hne⟩
      · tauto

/-- Line ends are made alike, and other characters stay. -/
theorem mem_unify {c : Char} (hline : c ≠ '\n') (cs : List Char) :
    c ∈ sourceLines.unify cs ↔ c ∈ cs ∧ c ≠ '\r' := by
  induction cs using sourceLines.unify.induct with
  | case1 => simp [sourceLines.unify]
  | case2 cs ih =>
    simp only [sourceLines.unify, List.mem_cons, hline, ih]
    tauto
  | case3 d cs hd ih =>
    simp only [sourceLines.unify, List.mem_cons, ih, beq_iff_eq]
    by_cases hreturn : d = '\r'
    · rw [if_pos hreturn, hreturn]
      tauto
    · rw [if_neg hreturn]
      constructor
      · rintro (rfl | ⟨hmem, hne⟩)
        · exact ⟨.inl rfl, hreturn⟩
        · exact ⟨.inr hmem, hne⟩
      · tauto

/-- The lines of a source have its characters but those that end lines. -/
theorem mem_sourceLines {c : Char} (cs : List Char) :
    (∃ l ∈ sourceLines cs, c ∈ l) ↔ c ∈ cs ∧ c ≠ '\n' ∧ c ≠ '\r' := by
  have hlines : (∃ l ∈ sourceLines cs, c ∈ l) ↔
      ∃ l ∈ Text.lines (sourceLines.unify cs), c ∈ l := by
    unfold sourceLines
    split
    · rename_i hnil
      simp [hnil]
    · rfl
  rw [hlines, mem_lines]
  by_cases hline : c = '\n'
  · simp [hline]
  · simp [mem_unify hline, hline]

/-- Which of the blank texts are vacant: those of which the first line does not count as code, if
there is nothing but the blanks of blank lines in them, and line ends. -/
theorem vacant_iff_of_blank {cs : List Char} (h : ∀ c ∈ cs, isBlank c = true) :
    Vacant (sourceLines cs) ↔
      isIndentedCode ((sourceLines cs).headD []) = false ∧ ∀ c ∈ cs, isPlainBlank c = true := by
  have hbracket : ∀ l ∈ sourceLines cs, '[' ∉ l := fun l hl hmem => by
    have hblank := h '[' ((mem_sourceLines cs).mp ⟨l, hl, hmem⟩).1
    cases hblank
  have hall : (∀ l ∈ sourceLines cs, isBlankLine l = true) ↔ ∀ c ∈ cs, isPlainBlank c = true := by
    simp only [isBlankLine, List.all_eq_true, isPlainBlank, Bool.or_eq_true, beq_iff_eq]
    refine ⟨fun hlines c hc => ?_, fun hcs l hl c hc => ?_⟩
    · -- a line end belongs to no line, but is a plain blank itself
      by_cases hend : c = '\n' ∨ c = '\r'
      · tauto
      · obtain ⟨l, hl, hmem⟩ := (mem_sourceLines cs).mpr ⟨hc, not_or.mp hend⟩
        exact .inl (.inl (hlines l hl c hmem))
    · obtain ⟨hmem, hfeed, hreturn⟩ := (mem_sourceLines cs).mp ⟨l, hl, hc⟩
      have hplain := hcs c hmem
      tauto
  rw [vacant_iff_of_noBracket hbracket, hall]

end NotebookTree.Markdown

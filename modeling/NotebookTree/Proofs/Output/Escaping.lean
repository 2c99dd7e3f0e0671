import NotebookTree.Proofs.Output.Error

/-!
# Escaping and reading back

Escaping puts references in place of five characters. No delimiter is left in what comes of it, and
every ampersand there begins one of the five references. Nothing else is special about it: a text
that is so was escaped, from the text that is read back from it. So escaping loses nothing, whatever
references a text has in it before.

## Main definitions

* `Text.IsEscaped`: a text as escaping leaves it.

## Main results

* `Text.isEscaped_escapeMarkup`, `Text.escapeMarkup_decodeMarkup`: escaped texts are so, and those
  that are so come from what is read back.
* `Output.escaping_reversible`: escaped texts, parts of texts, and what is read back.
-/

namespace NotebookTree

namespace Text

variable {c : Char} {cs ds rest : List Char}

/-- A text as escaping leaves it: no delimiter stands in it, and each ampersand in it begins one of
the five references. -/
structure IsEscaped (cs : List Char) : Prop where
  undelimited : ∀ c ∈ cs, isDelimiter c = false
  references : ∀ rest, '&' :: rest <:+ cs → ∃ r ∈ markupReferences, r.1 <+: '&' :: rest

/-- Every rest of an escaped text is escaped. -/
theorem IsEscaped.of_suffix (h : IsEscaped ds) (hsuffix : cs <:+ ds) : IsEscaped cs where
  undelimited c hc := h.undelimited c (hsuffix.subset hc)
  references rest hrest := h.references rest (hrest.trans hsuffix)

/-! ## What escaping leaves -/

/-- An end of a text begins behind every stretch without the character that it begins with. -/
theorem suffix_of_suffix_append (hc : c ∉ cs) (h : c :: rest <:+ cs ++ ds) : c :: rest <:+ ds := by
  induction cs with
  | nil => exact h
  | cons d cs ih =>
    obtain ⟨hne, hcs⟩ : c ≠ d ∧ c ∉ cs := by simpa using hc
    rcases List.suffix_cons_iff.mp h with heq | h
    · exact absurd (List.cons.inj heq).1 hne
    · exact ih hcs h

/-- Escaping leaves an escaped text. -/
theorem isEscaped_escapeMarkup (cs : List Char) : IsEscaped (escapeMarkup cs) where
  undelimited c hc := isDelimiter_of_mem_escapeMarkup hc
  references := by
    induction cs with
    | nil =>
      intro rest h
      rw [escapeMarkup_nil] at h
      exact absurd (List.suffix_nil.mp h) (List.cons_ne_nil _ _)
    | cons c cs ih =>
      intro rest h
      rw [escapeMarkup_cons] at h
      rcases mem_markupReferences_or c with hc | ⟨hself, hne⟩
      · obtain ⟨seg, hseg, hnot⟩ : ∃ seg, referenceFor c = '&' :: seg ∧ '&' ∉ seg :=
          exists_of_mem_markupReferences hc
        rw [hseg, List.cons_append] at h
        rcases List.suffix_cons_iff.mp h with heq | h
        · -- the ampersand is that of the reference for the character
          refine ⟨_, hc, ?_⟩
          rw [heq, ← List.cons_append, ← hseg]
          exact List.prefix_append _ _
        · exact ih rest (suffix_of_suffix_append hnot h)
      · have hamp : c ≠ '&' := hne ("&amp;".toList, '&') (by decide)
        have hnot : '&' ∉ referenceFor c := by simpa [hself] using Ne.symm hamp
        exact ih rest (suffix_of_suffix_append hnot h)

/-! ## What is read back -/

/-- Each reference is the one for its character. -/
theorem referenceFor_of_mem {r : List Char × Char} (hr : r ∈ markupReferences) :
    referenceFor r.2 = r.1 := by
  have hall : ∀ r ∈ markupReferences, referenceFor r.2 = r.1 := by decide
  exact hall r hr

/-- A character that may stand in escaped text, and does not begin a reference, stands for
itself. -/
theorem referenceFor_eq_singleton (hdelimiter : isDelimiter c = false) (hamp : c ≠ '&') :
    referenceFor c = [c] := by
  have hall : ∀ r ∈ markupReferences, isDelimiter r.2 = false → r.2 = '&' := by decide
  rcases mem_markupReferences_or c with hc | ⟨hself, -⟩
  · exact absurd (hall _ hc hdelimiter) hamp
  · exact hself

/-- A text as escaping leaves it was escaped from the text that is read back. -/
theorem escapeMarkup_decodeMarkup (h : IsEscaped cs) : escapeMarkup (decodeMarkup cs) = cs := by
  fun_induction decodeMarkup cs with
  | case1 => exact escapeMarkup_nil
  | case2 c cs r hr ih =>
    have hmem := List.mem_of_find?_eq_some hr
    obtain ⟨seg, hseg, -⟩ := exists_of_mem_markupReferences hmem
    have hprefix := List.find?_some hr
    obtain ⟨rest, hrest⟩ := List.isPrefixOf_iff_prefix.mp hprefix
    have hdrop : cs.drop (r.1.length - 1) = rest := by
      rw [hseg] at hrest ⊢
      obtain ⟨-, rfl⟩ := List.cons.inj hrest
      simp
    rw [hdrop] at ih ⊢
    rw [escapeMarkup_cons, referenceFor_of_mem hmem, ih (h.of_suffix ⟨r.1, hrest⟩), hrest]
  | case3 c cs hnone ih =>
    -- an ampersand in an escaped text begins a reference, and here none begins
    have hamp : c ≠ '&' := by
      rintro rfl
      obtain ⟨r, hr, hprefix⟩ := h.references cs (List.suffix_refl _)
      exact List.find?_eq_none.mp hnone r hr (List.isPrefixOf_iff_prefix.mpr hprefix)
    rw [escapeMarkup_cons,
      referenceFor_eq_singleton (h.undelimited c List.mem_cons_self) hamp,
      ih (h.of_suffix (List.suffix_cons c cs)), List.singleton_append]

end Text

namespace Output

open Text

/-- Escaping never fails on a text. It puts references for the five characters and leaves all others
as they are, so it may be done part by part. No delimiter is left, nor an ampersand that begins none
of these references. The text is read back from them, so no two texts come out the same, and a text
in which nothing of the sort is left is what comes of the text that is read back from it. -/
theorem escaping_reversible :
    (∀ s : String, (Value.text s).escaped = .ok (escapedText s) ∧
        (escapedText s).toList = s.toList.flatMap referenceFor ∧
        IsEscaped (escapedText s).toList ∧
        decodeMarkup (escapedText s).toList = s.toList) ∧
      (∀ s t : String, escapedText (s ++ t) = escapedText s ++ escapedText t) ∧
      (∀ s t : String, escapedText s = escapedText t → s = t) ∧
      ∀ t : String, IsEscaped t.toList →
        escapedText (String.ofList (decodeMarkup t.toList)) = t := by
  -- injectivity is only this, applied to both texts
  have hback : ∀ s : String, decodeMarkup (escapedText s).toList = s.toList := fun s => by
    rw [escapedText, String.toList_ofList, decodeMarkup_escapeMarkup]
  refine ⟨fun s => ⟨rfl, ?_, ?_, hback s⟩, fun s t => ?_, fun s t heq => ?_, fun t ht => ?_⟩
  · rw [escapedText, String.toList_ofList, escapeMarkup_eq_flatMap]
  · rw [escapedText, String.toList_ofList]
    exact isEscaped_escapeMarkup s.toList
  · rw [escapedText, escapedText, escapedText, String.toList_append, escapeMarkup_append,
      String.ofList_append]
  · rw [← String.toList_inj, ← hback s, ← hback t, heq]
  · rw [escapedText, String.toList_ofList, escapeMarkup_decodeMarkup ht, String.ofList_toList]

/-- References that stand in a text already are escaped like all else. -/
theorem escaping_reversible_sample :
    escapedText "it's &#x27;" = "it&#39;s &amp;#x27;" ∧
      escapedText "it's &#x27;" ≠ escapedText "it's '" := by
  obtain ⟨hall, -, hinjective, -⟩ := escaping_reversible
  obtain ⟨-, hflat, -, -⟩ := hall "it's &#x27;"
  refine ⟨String.toList_inj.mp (hflat.trans (by decide)), fun heq => ?_⟩
  exact absurd (hinjective _ _ heq) (by decide)

end Output

end NotebookTree

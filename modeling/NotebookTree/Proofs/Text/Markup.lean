import NotebookTree.Text.Markup

/-!
# Escaped text

Escaping is a run of replacements, but what it comes to can be read off character by character
(`escapeMarkup_eq_flatMap`): each replacement is for one character, and none of them meets what an
earlier one wrote but the last, which respells the reference of the apostrophe.

## Main definitions

* `markupReferences`: the five references, and what they stand for.
* `isMark`, `marks`: the characters that open and close tags and the values of attributes.
* `isDelimiter`, `delimiters`: these, and the apostrophe.
* `decodeMarkup`: a text with the five references read back.
* `withoutTags`: a text without what stands between `<` and `>`.

## Main results

* `escapeMarkup_eq_flatMap`: each character becomes its reference.
* `marks_escapeMarkup`, `delimiters_escapeMarkup`: no character that means something in markup is
  left.
* `decodeMarkup_escapeMarkup`: the text comes back from its references.
* `withoutTags_tag_append`, `withoutTags_escapeMarkup_append`: tags are left out, and escaped text
  stays.
-/

namespace NotebookTree.Text

/-! ## Replacements -/

section Replace

variable {needle word rest : List Char} {c d : Char} {cs : List Char}

/-- There is nothing to replace in the empty text. -/
theorem replaceAll_nil : replaceAll needle word [] = [] := by rw [replaceAll]

/-- Where the needle does not begin, the character is kept. -/
theorem replaceAll_cons_of_not (h : needle.isPrefixOf (c :: cs) = false) :
    replaceAll needle word (c :: cs) = c :: replaceAll needle word cs := by
  rw [replaceAll, h, if_neg Bool.false_ne_true]

/-- Where the needle stands, the word is put in its place. -/
theorem replaceAll_self_append :
    replaceAll (c :: needle) word (c :: needle ++ rest) =
      word ++ replaceAll (c :: needle) word rest := by
  have hprefix : (c :: needle).isPrefixOf (c :: (needle ++ rest)) = true := by
    rw [List.isPrefixOf_iff_prefix]
    exact List.prefix_append (c :: needle) rest
  rw [List.cons_append, replaceAll, hprefix, if_pos rfl, List.length_cons,
    Nat.add_sub_cancel, List.drop_left]

/-- A stretch without the first character of what is replaced stays as it is. -/
theorem replaceAll_append_of_not_mem (h : c ∉ cs) :
    replaceAll (c :: needle) word (cs ++ rest) = cs ++ replaceAll (c :: needle) word rest := by
  induction cs with
  | nil => rfl
  | cons d ds ih =>
    have hne : c ≠ d := fun heq => h (heq ▸ List.mem_cons_self)
    have hnot : (c :: needle).isPrefixOf (d :: (ds ++ rest)) = false := by
      simp [List.isPrefixOf, hne]
    rw [List.cons_append, replaceAll_cons_of_not hnot, ih fun hmem => h (List.mem_cons_of_mem d hmem),
      List.cons_append]

/-- A character is replaced wherever it stands. -/
theorem replaceAll_singleton (cs : List Char) :
    replaceAll [d] word cs = cs.flatMap fun c => if c = d then word else [c] := by
  induction cs with
  | nil => exact replaceAll_nil
  | cons c cs ih =>
    rw [List.flatMap_cons, ← ih]
    by_cases h : c = d
    · subst h
      rw [if_pos rfl]
      exact replaceAll_self_append
    · have hnot : d ∉ [c] := by simpa using Ne.symm h
      rw [if_neg h]
      exact replaceAll_append_of_not_mem hnot

end Replace

/-! ## References -/

/-- The references that stand for the five characters. -/
def markupReferences : List (List Char × Char) :=
  [("&amp;".toList, '&'), ("&lt;".toList, '<'), ("&gt;".toList, '>'),
   ("&quot;".toList, doubleQuote), ("&#39;".toList, singleQuote)]

/-- A character has a reference or stands for itself. -/
theorem mem_markupReferences_or (c : Char) :
    (referenceFor c, c) ∈ markupReferences ∨
      referenceFor c = [c] ∧ ∀ r ∈ markupReferences, c ≠ r.2 := by
  by_cases h : ∃ r ∈ markupReferences, c = r.2
  · obtain ⟨r, hr, rfl⟩ := h
    have hall : ∀ r ∈ markupReferences, (referenceFor r.2, r.2) ∈ markupReferences := by decide
    exact .inl (hall r hr)
  · have hne : ∀ r ∈ markupReferences, c ≠ r.2 := fun r hr heq => h ⟨r, hr, heq⟩
    refine .inr ⟨?_, hne⟩
    simp only [markupReferences, List.forall_mem_cons] at hne
    simp [referenceFor, hne]

/-- A reference begins with an ampersand, and has no other one. -/
theorem exists_of_mem_markupReferences {r : List Char × Char} (hr : r ∈ markupReferences) :
    ∃ seg, r.1 = '&' :: seg ∧ '&' ∉ seg := by
  have hall : ∀ r ∈ markupReferences, r.1 = '&' :: r.1.tail ∧ '&' ∉ r.1.tail := by decide
  exact ⟨r.1.tail, hall r hr⟩

/-- The reference that one character becomes before the last replacement. -/
def spelledReferenceFor (c : Char) : List Char :=
  if c = singleQuote then "&#x27;".toList else referenceFor c

/-- The five replacements one after another do the same as one pass over the characters. -/
theorem foldl_replacements (cs : List Char) :
    (markupReplacements.take 5).foldl (fun text r => replaceAll r.1 r.2 text) cs =
      cs.flatMap spelledReferenceFor := by
  have hlist : markupReplacements.take 5 =
      [(['&'], "&amp;".toList), (['<'], "&lt;".toList), (['>'], "&gt;".toList),
        ([doubleQuote], "&quot;".toList), ([singleQuote], "&#x27;".toList)] := rfl
  simp only [hlist, List.foldl_cons, List.foldl_nil, replaceAll_singleton, List.flatMap_assoc]
  refine congrArg (cs.flatMap ·) (funext fun c => ?_)
  rcases mem_markupReferences_or c with hc | ⟨hself, hne⟩
  · simp only [markupReferences, List.mem_cons, List.not_mem_nil, or_false, Prod.mk.injEq] at hc
    rcases hc with ⟨-, rfl⟩ | ⟨-, rfl⟩ | ⟨-, rfl⟩ | ⟨-, rfl⟩ | ⟨-, rfl⟩ <;> decide
  · simp only [markupReferences, List.forall_mem_cons] at hne
    simp only [spelledReferenceFor, hself, hne, if_false, List.flatMap_cons, List.flatMap_nil,
      List.append_nil]

/-- A character but the single quote is written as itself, or as a reference with a letter behind
its ampersand. -/
theorem referenceFor_cases {c : Char} (h : c ≠ singleQuote) :
    (∃ d seg, referenceFor c = '&' :: d :: seg ∧ d ≠ '#' ∧ '&' ∉ d :: seg) ∨
      referenceFor c = [c] ∧ c ≠ '&' := by
  rw [referenceFor]
  split
  · exact .inl ⟨_, _, rfl, by decide, by decide⟩
  split
  · exact .inl ⟨_, _, rfl, by decide, by decide⟩
  split
  · exact .inl ⟨_, _, rfl, by decide, by decide⟩
  split
  · exact .inl ⟨_, _, rfl, by decide, by decide⟩
  · simp_all

/-- A reference other than that of the apostrophe is not respelled. -/
theorem replaceAll_referenceFor {c : Char} (h : c ≠ singleQuote) (rest : List Char) :
    replaceAll "&#x27;".toList "&#39;".toList (referenceFor c ++ rest) =
      referenceFor c ++ replaceAll "&#x27;".toList "&#39;".toList rest := by
  have hneedle : "&#x27;".toList = '&' :: "#x27;".toList := rfl
  rw [hneedle]
  rcases referenceFor_cases h with ⟨d, seg, hc, hd, hseg⟩ | ⟨hc, hamp⟩
  · have hnot : ('&' :: "#x27;".toList).isPrefixOf ('&' :: (d :: seg ++ rest)) = false := by
      simp [List.isPrefixOf, Ne.symm hd]
    rw [hc, List.cons_append, replaceAll_cons_of_not hnot, replaceAll_append_of_not_mem hseg]
    rfl
  · rw [hc]
    exact replaceAll_append_of_not_mem (by simpa using Ne.symm hamp)

/-- Each character becomes its reference. -/
theorem escapeMarkup_eq_flatMap (cs : List Char) : escapeMarkup cs = cs.flatMap referenceFor := by
  have hfold : escapeMarkup cs =
      replaceAll "&#x27;".toList "&#39;".toList (cs.flatMap spelledReferenceFor) := by
    rw [← foldl_replacements]
    rfl
  -- all but the last replacement work character by character; what is left to show is that the last
  -- one only respells the apostrophe
  rw [hfold]
  induction cs with
  | nil => exact replaceAll_nil
  | cons c cs ih =>
    rw [List.flatMap_cons, List.flatMap_cons, ← ih (by rw [← foldl_replacements]; rfl),
      spelledReferenceFor]
    by_cases h : c = singleQuote
    · subst h
      rw [if_pos rfl]
      exact replaceAll_self_append
    · rw [if_neg h]
      exact replaceAll_referenceFor h _

/-! ## Characters of markup -/

/-- The characters that open and close a tag or the value of an attribute. -/
def isMark (c : Char) : Bool := c == '<' || c == '>' || c == doubleQuote

/-- What is left of a text when all but these characters are taken away: its tags without their
names, and its quoted values without what is in them. -/
def marks (cs : List Char) : List Char := cs.filter isMark

/-- The marks in a text of two parts are those of each. -/
theorem marks_append (cs ds : List Char) : marks (cs ++ ds) = marks cs ++ marks ds :=
  List.filter_append cs ds

/-- The marks in a text of two parts are those of each, for strings. -/
theorem marks_toList_append (s t : String) :
    marks (s ++ t).toList = marks s.toList ++ marks t.toList := by
  rw [String.toList_append, marks_append]

/-- The characters of markup, and the apostrophe, which may stand around the value of an attribute
as well. -/
def isDelimiter (c : Char) : Bool := isMark c || c == singleQuote

/-- What is left of a text when all but these characters are taken away. -/
def delimiters (cs : List Char) : List Char := cs.filter isDelimiter

/-- The delimiters in a text of two parts are those of each. -/
theorem delimiters_append (cs ds : List Char) :
    delimiters (cs ++ ds) = delimiters cs ++ delimiters ds :=
  List.filter_append cs ds

/-- A text without delimiters has none of them in it. -/
theorem not_mem_of_delimiters {c : Char} {cs : List Char} (hc : isDelimiter c = true)
    (h : delimiters cs = []) : c ∉ cs := by
  intro hmem
  have hkept : c ∈ delimiters cs := List.mem_filter.mpr ⟨hmem, hc⟩
  rw [h] at hkept
  cases hkept

/-- What is written for a character has no delimiter. -/
theorem isDelimiter_of_mem_referenceFor (c : Char) :
    ∀ d ∈ referenceFor c, isDelimiter d = false := by
  rcases mem_markupReferences_or c with hc | ⟨hself, hne⟩
  · have hall : markupReferences.all (fun r => r.1.all fun d => !isDelimiter d) = true := by decide
    intro d hd
    simpa using List.all_eq_true.mp (List.all_eq_true.mp hall _ hc) d hd
  · simp only [markupReferences, List.forall_mem_cons] at hne
    simp [hself, isDelimiter, isMark, hne]

/-- No character of markup is left in escaped text. -/
theorem isDelimiter_of_mem_escapeMarkup {c : Char} {cs : List Char} (h : c ∈ escapeMarkup cs) :
    isDelimiter c = false := by
  rw [escapeMarkup_eq_flatMap] at h
  obtain ⟨d, -, hd⟩ := List.mem_flatMap.mp h
  exact isDelimiter_of_mem_referenceFor d c hd

/-- Escaped text has no delimiters. -/
theorem delimiters_escapeMarkup (cs : List Char) : delimiters (escapeMarkup cs) = [] :=
  List.filter_eq_nil_iff.mpr fun c hc => by simp [isDelimiter_of_mem_escapeMarkup hc]

/-- Escaped text has no marks. -/
theorem marks_escapeMarkup (cs : List Char) : marks (escapeMarkup cs) = [] := by
  refine List.filter_eq_nil_iff.mpr fun c hc hmark => ?_
  have hdelimiter := isDelimiter_of_mem_escapeMarkup hc
  rw [isDelimiter, hmark] at hdelimiter
  cases hdelimiter

/-- Nothing is written for nothing. -/
theorem escapeMarkup_nil : escapeMarkup [] = [] := by
  rw [escapeMarkup_eq_flatMap, List.flatMap_nil]

/-- Escaping goes from character to character. -/
theorem escapeMarkup_cons (c : Char) (cs : List Char) :
    escapeMarkup (c :: cs) = referenceFor c ++ escapeMarkup cs := by
  simp only [escapeMarkup_eq_flatMap, List.flatMap_cons]

/-- The parts of a text are escaped by themselves. -/
theorem escapeMarkup_append (cs ds : List Char) :
    escapeMarkup (cs ++ ds) = escapeMarkup cs ++ escapeMarkup ds := by
  simp only [escapeMarkup_eq_flatMap, List.flatMap_append]

/-- A text of characters that stand for themselves stays as it is. -/
theorem escapeMarkup_eq_self {cs : List Char} (h : ∀ c ∈ cs, referenceFor c = [c]) :
    escapeMarkup cs = cs := by
  induction cs with
  | nil => exact escapeMarkup_nil
  | cons c cs ih =>
    obtain ⟨hc, hcs⟩ := List.forall_mem_cons.mp h
    rw [escapeMarkup_cons, hc, ih hcs, List.singleton_append]

/-! ## Reading escaped text -/

/-- A text with these references replaced by their characters, from the front. -/
def decodeMarkup : List Char → List Char
  | [] => []
  | c :: cs => match markupReferences.find? fun r => r.1.isPrefixOf (c :: cs) with
    | some r => r.2 :: decodeMarkup (cs.drop (r.1.length - 1))
    | none => c :: decodeMarkup cs
termination_by cs => cs.length
decreasing_by
  · simp only [List.length_drop, List.length_cons]; omega
  · simp

/-- A character but the ampersand is decoded to itself. -/
theorem decodeMarkup_cons_of_ne {c : Char} (h : c ≠ '&') (cs : List Char) :
    decodeMarkup (c :: cs) = c :: decodeMarkup cs := by
  have hnone : (markupReferences.find? fun r => r.1.isPrefixOf (c :: cs)) = none := by
    simp [markupReferences, List.isPrefixOf, Ne.symm h]
  rw [decodeMarkup, hnone]

/-- A text without ampersands is decoded to itself. -/
theorem decodeMarkup_append_of_not_mem {cs : List Char} (h : '&' ∉ cs) (rest : List Char) :
    decodeMarkup (cs ++ rest) = cs ++ decodeMarkup rest := by
  induction cs with
  | nil => rfl
  | cons c cs ih =>
    obtain ⟨hc, hcs⟩ : '&' ≠ c ∧ '&' ∉ cs := by simpa using h
    rw [List.cons_append, decodeMarkup_cons_of_ne (Ne.symm hc), ih hcs, List.cons_append]

/-- At the front of a text no reference is taken for another one. -/
theorem find?_append_of_mem {r : List Char × Char} (hr : r ∈ markupReferences)
    (rest : List Char) :
    (markupReferences.find? fun r' => r'.1.isPrefixOf (r.1 ++ rest)) = some r := by
  simp only [markupReferences, List.mem_cons, List.not_mem_nil, or_false] at hr
  rcases hr with rfl | rfl | rfl | rfl | rfl <;> rfl

/-- A reference is read back as its character. -/
theorem decodeMarkup_referenceFor (c : Char) (rest : List Char) :
    decodeMarkup (referenceFor c ++ rest) = c :: decodeMarkup rest := by
  rcases mem_markupReferences_or c with hc | ⟨hself, hne⟩
  · obtain ⟨seg, hseg, -⟩ : ∃ seg, referenceFor c = '&' :: seg ∧ '&' ∉ seg :=
      exists_of_mem_markupReferences hc
    rw [hseg, List.cons_append, decodeMarkup, ← List.cons_append, ← hseg,
      find?_append_of_mem hc rest]
    simp [hseg]
  · have hamp : c ≠ '&' := hne ("&amp;".toList, '&') (by decide)
    rw [hself, List.singleton_append, decodeMarkup_cons_of_ne hamp]

/-- Escaped text is read back as the text. -/
theorem decodeMarkup_escapeMarkup (cs : List Char) : decodeMarkup (escapeMarkup cs) = cs := by
  induction cs with
  | nil => rw [escapeMarkup_nil, decodeMarkup]
  | cons c cs ih => rw [escapeMarkup_cons, decodeMarkup_referenceFor, ih]

/-! ## Tags -/

/-- A text without its tags: what stands from `<` to the next `>` is left out. -/
def withoutTags : List Char → List Char
  | [] => []
  | c :: cs =>
    if c == '<' then withoutTags ((cs.dropWhile fun d => d != '>').drop 1) else c :: withoutTags cs
termination_by cs => cs.length
decreasing_by
  · have := (List.dropWhile_suffix (l := cs) fun d => d != '>').length_le
    simp only [List.length_drop, List.length_cons]
    omega
  · simp

/-- A text that stands between `<` and the next `>`, with both. -/
def IsTag (tag : List Char) : Prop := ∃ body, '>' ∉ body ∧ tag = '<' :: (body ++ ['>'])

/-- A tag in front of a text is taken out. -/
theorem withoutTags_tag_append {tag : List Char} (h : IsTag tag) (rest : List Char) :
    withoutTags (tag ++ rest) = withoutTags rest := by
  obtain ⟨body, hbody, rfl⟩ := h
  have hdrop : (body ++ '>' :: rest).dropWhile (fun d => d != '>') = '>' :: rest := by
    rw [List.dropWhile_append_of_pos fun d hd => ?_]
    · rfl
    · rw [bne_iff_ne]
      rintro rfl
      exact hbody hd
  have hfront : '<' :: (body ++ ['>']) ++ rest = '<' :: (body ++ '>' :: rest) := by simp
  rw [hfront, withoutTags, if_pos (by rfl), hdrop]
  rfl

/-- A text without angle brackets in front is kept. -/
theorem withoutTags_append_of_not_mem {cs : List Char} (h : '<' ∉ cs) (rest : List Char) :
    withoutTags (cs ++ rest) = cs ++ withoutTags rest := by
  induction cs with
  | nil => rfl
  | cons c cs ih =>
    obtain ⟨hc, hcs⟩ : '<' ≠ c ∧ '<' ∉ cs := by simpa using h
    rw [List.cons_append, withoutTags, if_neg (by simpa using Ne.symm hc), ih hcs, List.cons_append]

/-- Escaped text has no tags. -/
theorem withoutTags_escapeMarkup_append (cs rest : List Char) :
    withoutTags (escapeMarkup cs ++ rest) = escapeMarkup cs ++ withoutTags rest := by
  refine withoutTags_append_of_not_mem (fun hmem => ?_) rest
  exact absurd (isDelimiter_of_mem_escapeMarkup hmem) (by decide)

end NotebookTree.Text

import Mathlib.Data.List.TakeWhile
import NotebookTree.Text.Color

/-!
# Texts without their color sequences

A color sequence begins with the escape character and has it nowhere else. So no two sequences
overlap, and a text may be cut in front of any character that does not stand inside one: its parts
are freed of sequences separately (`stripColors_append_of_cut`). What is taken out of a text is
exactly the sequences that stand in it.

What stood on both sides of a sequence comes together, though, and may be a sequence then. The
sequences of the result are those that others stood inside of in the text, and there are no more
(`hasColor_stripColors_iff`).

## Main definitions

* `IsColorSequence`, `HasColor`: sequences, and texts with one.
* `Interleaves`: a text with sequences put in between its characters.
* `IsSplitSequence`: a sequence with others inside.

## Main results

* `stripColors_pieces`: texts between sequences are what is left.
* `stripColors_intercalate`: lines are freed of sequences one by one.
* `stripColors_eq_self_iff`: a text stays as it is if no sequence stands in it.
* `hasColor_stripColors_iff`: the sequences of the result.
-/

namespace NotebookTree.Text

/-- An escape character, a bracket, digits and semicolons, and an `m`. -/
def IsColorSequence (s : List Char) : Prop :=
  ∃ numbers : List Char, (∀ c ∈ numbers, isColorNumber c = true) ∧
    s = escapeChar :: '[' :: (numbers ++ ['m'])

/-- A color sequence stands somewhere in a text. -/
def HasColor (cs : List Char) : Prop := ∃ s, IsColorSequence s ∧ s <:+: cs

/-- The characters that stand in color sequences behind the first. -/
def isColorPart (c : Char) : Bool := c == '[' || isColorNumber c || c == 'm'

variable {c d : Char} {s t cs ds rest : List Char}

/-! ## Sequences -/

/-- A color sequence begins with the escape character, and goes on with its other parts. -/
theorem IsColorSequence.exists_cons (h : IsColorSequence s) :
    ∃ behind, s = escapeChar :: behind ∧ ∀ c ∈ behind, isColorPart c = true := by
  obtain ⟨numbers, hnumbers, rfl⟩ := h
  refine ⟨_, rfl, fun c hc => ?_⟩
  obtain rfl | hc := List.mem_cons.mp hc
  · rfl
  · obtain hc | hc := List.mem_append.mp hc
    · simp [isColorPart, hnumbers c hc]
    · simp [isColorPart, List.mem_singleton.mp hc]

/-- A character that is no part of color sequences is in none. -/
theorem IsColorSequence.not_mem (h : IsColorSequence s) (hne : c ≠ escapeChar)
    (hc : isColorPart c = false) : c ∉ s := by
  obtain ⟨behind, rfl, hparts⟩ := h.exists_cons
  intro hmem
  obtain rfl | hmem := List.mem_cons.mp hmem
  · exact hne rfl
  · rw [hparts c hmem] at hc
    cases hc

/-- What `colorSequence?` finds at the front is a sequence. -/
theorem colorSequence?_eq_some_iff :
    colorSequence? cs = some rest ↔ ∃ s, IsColorSequence s ∧ cs = s ++ rest := by
  constructor
  · intro h
    unfold colorSequence? at h
    split at h
    · next c ds =>
      split at h
      · next hc =>
        split at h
        · next behind hbehind =>
          obtain rfl := Option.some.inj h
          refine ⟨escapeChar :: '[' :: (ds.takeWhile isColorNumber ++ ['m']),
            ⟨_, fun c hc => List.mem_takeWhile_imp hc, rfl⟩, ?_⟩
          -- the numbers are taken as far as they go, and the letter that ends them is none of them
          have hsplit : ds = ds.takeWhile isColorNumber ++ 'm' :: behind := by
            rw [← hbehind, List.takeWhile_append_dropWhile]
          rw [← beq_iff_eq.mp hc]
          simpa using hsplit
        · cases h
      · cases h
    · cases h
  · rintro ⟨s, ⟨numbers, hnumbers, rfl⟩, rfl⟩
    have hbehind : (numbers ++ 'm' :: rest).dropWhile isColorNumber = 'm' :: rest := by
      rw [List.dropWhile_append_of_pos hnumbers]
      rfl
    simp [colorSequence?, hbehind]

instance decidableIsColorSequence (s : List Char) : Decidable (IsColorSequence s) :=
  decidable_of_iff (colorSequence? s = some []) <| by
    rw [colorSequence?_eq_some_iff]
    simp

/-- No sequence begins with another character. -/
theorem colorSequence?_cons_of_ne (h : c ≠ escapeChar) : colorSequence? (c :: cs) = none := by
  cases hcs : colorSequence? (c :: cs) with
  | none => rfl
  | some rest =>
    obtain ⟨s, hs, heq⟩ := colorSequence?_eq_some_iff.mp hcs
    obtain ⟨behind, rfl, -⟩ := hs.exists_cons
    exact absurd (List.cons.inj heq).1 h

/-- A sequence does not go on behind a character that stands in none. -/
theorem colorSequence?_append_of_cut (hc : isColorPart c = false) (hds : ds ≠ [])
    (h : colorSequence? ds = none) : colorSequence? (ds ++ c :: cs) = none := by
  cases hfound : colorSequence? (ds ++ c :: cs) with
  | none => rfl
  | some rest =>
    obtain ⟨s, hs, heq⟩ := colorSequence?_eq_some_iff.mp hfound
    obtain ⟨more, hmore, hrest⟩ | ⟨more, rfl, -⟩ := List.append_eq_append_iff.mp heq
    · cases more with
      | nil =>
        rw [List.append_nil] at hmore
        rw [colorSequence?_eq_some_iff.mpr ⟨s, hs, by rw [hmore, List.append_nil]⟩] at h
        cases h
      | cons e more =>
        -- the sequence would go on with the character
        obtain ⟨behind, rfl, hparts⟩ := hs.exists_cons
        obtain ⟨d, ds, rfl⟩ := List.exists_cons_of_ne_nil hds
        obtain ⟨-, rfl⟩ := List.cons.inj hmore
        obtain ⟨rfl, -⟩ := List.cons.inj hrest
        rw [hparts c (by simp)] at hc
        cases hc
    · rw [colorSequence?_eq_some_iff.mpr ⟨s, hs, rfl⟩] at h
      cases h

/-! ## Taking sequences out -/

/-- Nothing is left of nothing. -/
@[simp] theorem stripColors_nil : stripColors [] = [] := by
  rw [stripColors]
  rfl

/-- A sequence at the front is taken out. -/
theorem stripColors_of_eq_some (h : colorSequence? cs = some rest) :
    stripColors cs = stripColors rest := by
  rw [stripColors]
  split
  · next r hr => rw [Option.some.inj (h.symm.trans hr)]
  · next hr => rw [h] at hr; cases hr

/-- A character that begins no sequence is kept. -/
theorem stripColors_cons_of_eq_none (h : colorSequence? (c :: cs) = none) :
    stripColors (c :: cs) = c :: stripColors cs := by
  rw [stripColors]
  split
  · next r hr => rw [h] at hr; cases hr
  · rfl

/-- A sequence in front of a text is taken out. -/
theorem stripColors_sequence_append (h : IsColorSequence s) :
    stripColors (s ++ rest) = stripColors rest :=
  stripColors_of_eq_some (colorSequence?_eq_some_iff.mpr ⟨s, h, rfl⟩)

/-- A text without the escape character stays as it is. -/
theorem stripColors_append_of_not_mem (h : escapeChar ∉ cs) :
    stripColors (cs ++ rest) = cs ++ stripColors rest := by
  induction cs with
  | nil => rfl
  | cons c cs ih =>
    obtain ⟨hc, hcs⟩ : escapeChar ≠ c ∧ escapeChar ∉ cs := by simpa using h
    rw [List.cons_append, stripColors_cons_of_eq_none (colorSequence?_cons_of_ne (Ne.symm hc)),
      ih hcs, List.cons_append]

/-- A text may be cut in front of a character that stands in no sequence. -/
theorem stripColors_append_of_cut (hc : isColorPart c = false) (ds cs : List Char) :
    stripColors (ds ++ c :: cs) = stripColors ds ++ stripColors (c :: cs) := by
  fun_induction stripColors ds with
  | case1 ds behind h ih =>
    obtain ⟨s, hs, rfl⟩ := colorSequence?_eq_some_iff.mp h
    rw [List.append_assoc, stripColors_sequence_append hs, ih]
  | case2 => rfl
  | case3 d ds h ih =>
    have hnone : colorSequence? (d :: ds ++ c :: cs) = none :=
      colorSequence?_append_of_cut hc (List.cons_ne_nil d ds) h
    rw [List.cons_append] at hnone ⊢
    rw [stripColors_cons_of_eq_none hnone, ih, List.cons_append]

/-- Texts without the escape character are what is left of them with sequences in between. -/
theorem stripColors_pieces (front : List Char) (parts : List (List Char × List Char))
    (hfront : escapeChar ∉ front)
    (hparts : ∀ p ∈ parts, IsColorSequence p.1 ∧ escapeChar ∉ p.2) :
    stripColors (front ++ parts.flatMap fun p => p.1 ++ p.2) = front ++ parts.flatMap Prod.snd := by
  rw [stripColors_append_of_not_mem hfront]
  congr 1
  induction parts with
  | nil => exact stripColors_nil
  | cons p parts ih =>
    obtain ⟨⟨hsequence, htext⟩, hparts⟩ := List.forall_mem_cons.mp hparts
    rw [List.flatMap_cons, List.flatMap_cons, List.append_assoc,
      stripColors_sequence_append hsequence, stripColors_append_of_not_mem htext, ih hparts]

/-- Lines are freed of sequences one by one. -/
theorem stripColors_intercalate (ls : List (List Char)) :
    stripColors (['\n'].intercalate ls) = ['\n'].intercalate (ls.map stripColors) := by
  induction ls with
  | nil => exact stripColors_nil
  | cons l ls ih =>
    cases ls with
    | nil => simp
    | cons l' ls =>
      rw [List.map_cons] at ih ⊢
      rw [List.map_cons, List.intercalate_cons_cons, List.intercalate_cons_cons, List.append_assoc,
        List.append_assoc, List.singleton_append, List.singleton_append,
        stripColors_append_of_cut (by decide),
        stripColors_cons_of_eq_none (colorSequence?_cons_of_ne (by decide)), ih]

/-! ## Texts with a sequence -/

/-- What begins with a sequence has one. -/
theorem hasColor_of_colorSequence? (h : (colorSequence? cs).isSome = true) : HasColor cs := by
  obtain ⟨rest, hrest⟩ := Option.isSome_iff_exists.mp h
  obtain ⟨s, hs, rfl⟩ := colorSequence?_eq_some_iff.mp hrest
  exact ⟨s, hs, (List.prefix_append s rest).isInfix⟩

/-- The empty text has no sequence. -/
@[simp] theorem not_hasColor_nil : ¬HasColor [] := by
  rintro ⟨s, hs, hinfix⟩
  obtain ⟨behind, rfl, -⟩ := hs.exists_cons
  cases List.infix_nil.mp hinfix

/-- A sequence stands at the front or behind the first character. -/
theorem hasColor_cons :
    HasColor (c :: cs) ↔ (colorSequence? (c :: cs)).isSome = true ∨ HasColor cs := by
  constructor
  · rintro ⟨s, hs, hinfix⟩
    obtain ⟨rest, hrest⟩ | hinfix := List.infix_cons_iff.mp hinfix
    · rw [colorSequence?_eq_some_iff.mpr ⟨s, hs, hrest.symm⟩]
      exact .inl rfl
    · exact .inr ⟨s, hs, hinfix⟩
  · rintro (h | ⟨s, hs, hinfix⟩)
    · exact hasColor_of_colorSequence? h
    · exact ⟨s, hs, List.infix_cons hinfix⟩

instance decidableHasColor : DecidablePred HasColor
  | [] => .isFalse not_hasColor_nil
  | c :: cs =>
    have := decidableHasColor cs
    decidable_of_iff ((colorSequence? (c :: cs)).isSome = true ∨ HasColor cs) hasColor_cons.symm

/-- Another character in front makes no sequence. -/
theorem hasColor_cons_of_ne (h : c ≠ escapeChar) : HasColor (c :: cs) ↔ HasColor cs := by
  rw [hasColor_cons, colorSequence?_cons_of_ne h]
  simp

/-- A text without the escape character in front makes no sequence. -/
theorem hasColor_append_of_not_mem (h : escapeChar ∉ ds) : HasColor (ds ++ cs) ↔ HasColor cs := by
  induction ds with
  | nil => rfl
  | cons d ds ih =>
    obtain ⟨hd, hds⟩ : escapeChar ≠ d ∧ escapeChar ∉ ds := by simpa using h
    rw [List.cons_append, hasColor_cons_of_ne (Ne.symm hd), ih hds]

/-- Cut in front of a character that stands in no sequence, a text has the sequences of its
parts. -/
theorem hasColor_append_of_cut (hc : isColorPart c = false) :
    HasColor (ds ++ c :: cs) ↔ HasColor ds ∨ HasColor (c :: cs) := by
  induction ds with
  | nil => simp
  | cons d ds ih =>
    have hsome : (colorSequence? (d :: ds ++ c :: cs)).isSome =
        (colorSequence? (d :: ds)).isSome := by
      cases h : colorSequence? (d :: ds) with
      | none => rw [colorSequence?_append_of_cut hc (List.cons_ne_nil d ds) h]
      | some rest =>
        obtain ⟨s, hs, heq⟩ := colorSequence?_eq_some_iff.mp h
        rw [heq, List.append_assoc, colorSequence?_eq_some_iff.mpr ⟨s, hs, rfl⟩]
        rfl
    rw [List.cons_append] at hsome ⊢
    rw [hasColor_cons, hsome, ih, ← or_assoc, ← hasColor_cons]

/-- A text that has no part in any sequence, wherever it stands. -/
def Separates (middle : List Char) : Prop :=
  escapeChar ∉ middle ∧ middle.head?.map isColorPart = some false

instance (middle : List Char) : Decidable (Separates middle) :=
  inferInstanceAs (Decidable (_ ∧ _))

/-- Two texts with such a text in between have the sequences of both. -/
theorem Separates.hasColor_append {middle : List Char} (h : Separates middle) :
    HasColor (ds ++ (middle ++ cs)) ↔ HasColor ds ∨ HasColor cs := by
  obtain ⟨hmiddle, hfront⟩ := h
  cases middle with
  | nil => cases hfront
  | cons c middle =>
    rw [List.cons_append, hasColor_append_of_cut (Option.some.inj hfront), ← List.cons_append,
      hasColor_append_of_not_mem hmiddle]

/-- The sequences of lines that are put together are those of each. -/
theorem hasColor_intercalate {ls : List (List Char)} :
    HasColor (['\n'].intercalate ls) ↔ ∃ l ∈ ls, HasColor l := by
  have hfeed : Separates ['\n'] := by decide
  induction ls with
  | nil => simp
  | cons l ls ih =>
    cases ls with
    | nil => simp
    | cons l' ls =>
      have hlines : (∃ m ∈ l :: l' :: ls, HasColor m) ↔
          HasColor l ∨ ∃ m ∈ l' :: ls, HasColor m := by simp
      rw [List.intercalate_cons_cons, List.append_assoc, hfeed.hasColor_append, hlines]
      exact or_congr_right ih

/-- Stripping makes no text longer. -/
theorem length_stripColors_le (cs : List Char) : (stripColors cs).length ≤ cs.length := by
  fun_induction stripColors cs with
  | case1 cs rest h ih => exact Nat.le_trans ih (Nat.le_of_lt (length_of_colorSequence? h))
  | case2 => exact Nat.le_refl _
  | case3 c cs h ih => exact Nat.succ_le_succ ih

/-- A text stays as it is if and only if no sequence stands in it. -/
theorem stripColors_eq_self_iff : stripColors cs = cs ↔ ¬HasColor cs := by
  fun_induction stripColors cs with
  | case1 cs rest h =>
    have hlt : (stripColors rest).length < cs.length :=
      Nat.lt_of_le_of_lt (length_stripColors_le rest) (length_of_colorSequence? h)
    have hcolor : HasColor cs := hasColor_of_colorSequence? (by rw [h]; rfl)
    exact ⟨fun heq => absurd (congrArg List.length heq) (Nat.ne_of_lt hlt),
      fun hnone => absurd hcolor hnone⟩
  | case2 => simp
  | case3 c cs h ih => simp [hasColor_cons, h, ih]

/-! ## The sequences of the result -/

/-- `t` is `s` with sequences in front of any of its characters. -/
inductive Interleaves : List Char → List Char → Prop
  | nil : Interleaves [] []
  | keep {c : Char} {s t : List Char} (h : Interleaves s t) : Interleaves (c :: s) (c :: t)
  | insert {c : Char} {s t q : List Char} (hq : IsColorSequence q) (h : Interleaves (c :: s) t) :
      Interleaves (c :: s) (q ++ t)

/-- A sequence in which others stand behind the first character, one at least. -/
def IsSplitSequence (u : List Char) : Prop :=
  ∃ s t, IsColorSequence (escapeChar :: s) ∧ Interleaves s t ∧ t ≠ s ∧ u = escapeChar :: t

/-- What has sequences put in is left when they are taken out. -/
theorem Interleaves.stripColors_append (h : Interleaves s t) (hs : escapeChar ∉ s)
    (rest : List Char) : stripColors (t ++ rest) = s ++ stripColors rest := by
  induction h with
  | nil => rfl
  | @keep c s t _ ih =>
    obtain ⟨hc, hs⟩ : escapeChar ≠ c ∧ escapeChar ∉ s := by simpa using hs
    rw [List.cons_append, stripColors_cons_of_eq_none (colorSequence?_cons_of_ne (Ne.symm hc)),
      ih hs, List.cons_append]
  | insert hq _ ih => rw [List.append_assoc, stripColors_sequence_append hq, ih hs]

/-- The place of the first sequence that is put in. -/
theorem Interleaves.exists_insert (h : Interleaves s t) (hne : t ≠ s) :
    ∃ kept c behind rest, s = kept ++ c :: behind ∧ t = kept ++ escapeChar :: rest := by
  induction h with
  | nil => exact absurd rfl hne
  | @keep c s t _ ih =>
    obtain ⟨kept, d, behind, rest, rfl, rfl⟩ := ih fun heq => hne (by rw [heq])
    exact ⟨c :: kept, d, behind, rest, rfl, rfl⟩
  | @insert c s t q hq _ _ =>
    obtain ⟨behind, rfl, -⟩ := hq.exists_cons
    exact ⟨[], c, s, behind ++ t, rfl, rfl⟩

/-- A sequence with another inside is none. -/
theorem colorSequence?_of_isSplitSequence (h : IsSplitSequence cs) (rest : List Char) :
    colorSequence? (cs ++ rest) = none := by
  obtain ⟨s, t, ⟨numbers, hnumbers, hs⟩, hput, hne, rfl⟩ := h
  obtain ⟨-, rfl⟩ := List.cons.inj hs
  obtain ⟨kept, c, behind, more, hkept, rfl⟩ := hput.exists_insert hne
  cases kept with
  | nil => rfl
  | cons b kept =>
    obtain ⟨rfl, hkept⟩ := List.cons.inj hkept
    -- what is kept of the numbers ends in front of the last character
    have hnumber : numbers = kept ++ (c :: behind).dropLast := by
      have hlast := congrArg (List.dropLast ·.tail) hkept
      simpa [List.dropLast_append_of_ne_nil] using hlast
    have hnumbers : ∀ d ∈ kept, isColorNumber d = true := fun d hd =>
      hnumbers d (by rw [hnumber]; exact List.mem_append_left _ hd)
    have hbehind : (kept ++ escapeChar :: (more ++ rest)).dropWhile isColorNumber =
        escapeChar :: (more ++ rest) := by
      rw [List.dropWhile_append_of_pos hnumbers]
      rfl
    have hchar : escapeChar ≠ 'm' := by decide
    simp [colorSequence?, hbehind, hchar]

/-- A character of the result stands in the text, in front of no sequence, and what follows it is
left of what follows it there. -/
theorem exists_of_stripColors_eq_append_cons {front behind : List Char}
    (h : stripColors cs = front ++ c :: behind) :
    ∃ before after, cs = before ++ c :: after ∧ colorSequence? (c :: after) = none ∧
      stripColors after = behind := by
  -- a sequence that is dropped goes to what stands before; a character that is kept is either the
  -- one asked for or one of `front`
  fun_induction stripColors cs generalizing front with
  | case1 cs rest hrest ih =>
    obtain ⟨before, after, rfl, hnone, hafter⟩ := ih h
    obtain ⟨s, -, rfl⟩ := colorSequence?_eq_some_iff.mp hrest
    exact ⟨s ++ before, after, (List.append_assoc ..).symm, hnone, hafter⟩
  | case2 => cases front <;> cases h
  | case3 d ds hnone ih =>
    cases front with
    | nil =>
      obtain ⟨rfl, hbehind⟩ := List.cons.inj h
      exact ⟨[], ds, rfl, hnone, hbehind⟩
    | cons f front =>
      obtain ⟨rfl, hbehind⟩ := List.cons.inj h
      obtain ⟨before, after, rfl, hnone, hafter⟩ := ih hbehind
      exact ⟨d :: before, after, rfl, hnone, hafter⟩

/-- What the result begins with stands at the front of the text with sequences put in. -/
theorem exists_interleaves {behind : List Char} (h : stripColors cs = s ++ behind) :
    ∃ t rest, cs = t ++ rest ∧ Interleaves s t := by
  fun_induction stripColors cs generalizing s with
  | case1 cs rest hrest ih =>
    cases s with
    | nil => exact ⟨[], cs, rfl, .nil⟩
    | cons c s =>
      obtain ⟨t, more, rfl, hput⟩ := ih h
      -- a sequence that was taken out is put in again in front of what follows
      obtain ⟨q, hq, rfl⟩ := colorSequence?_eq_some_iff.mp hrest
      exact ⟨q ++ t, more, (List.append_assoc ..).symm, .insert hq hput⟩
  | case2 =>
    obtain ⟨rfl, -⟩ := List.append_eq_nil_iff.mp h.symm
    exact ⟨[], [], rfl, .nil⟩
  | case3 d ds _ ih =>
    cases s with
    | nil => exact ⟨[], d :: ds, rfl, .nil⟩
    | cons c s =>
      obtain ⟨rfl, hbehind⟩ := List.cons.inj h
      obtain ⟨t, more, rfl, hput⟩ := ih hbehind
      exact ⟨d :: t, more, rfl, .keep hput⟩

/-- A sequence stands in the result if and only if one with others inside stands in the text. -/
theorem hasColor_stripColors_iff :
    HasColor (stripColors cs) ↔ ∃ u, IsSplitSequence u ∧ u <:+: cs := by
  constructor
  · rintro ⟨s, hs, front, behind, hstrip⟩
    obtain ⟨parts, rfl, -⟩ := hs.exists_cons
    rw [List.append_assoc, List.cons_append] at hstrip
    obtain ⟨before, after, rfl, hnone, hafter⟩ :=
      exists_of_stripColors_eq_append_cons hstrip.symm
    obtain ⟨t, rest, rfl, hput⟩ := exists_interleaves hafter
    refine ⟨escapeChar :: t, ⟨parts, t, hs, hput, ?_, rfl⟩, before, rest, by simp⟩
    -- a whole sequence would have been taken out
    rintro rfl
    rw [← List.cons_append, colorSequence?_eq_some_iff.mpr ⟨_, hs, rfl⟩] at hnone
    cases hnone
  · rintro ⟨u, hsplit, front, behind, rfl⟩
    have hnone := colorSequence?_of_isSplitSequence hsplit behind
    obtain ⟨s, t, hs, hput, -, rfl⟩ := hsplit
    have hparts : escapeChar ∉ s := by
      obtain ⟨behind, hbehind, hparts⟩ := hs.exists_cons
      obtain ⟨-, rfl⟩ := List.cons.inj hbehind
      intro hmem
      exact absurd (hparts _ hmem) (by decide)
    rw [List.cons_append] at hnone
    refine ⟨escapeChar :: s, hs, stripColors front, stripColors behind, ?_⟩
    have hstrip : stripColors (front ++ escapeChar :: (t ++ behind)) =
        stripColors front ++ escapeChar :: (s ++ stripColors behind) := by
      rw [stripColors_append_of_cut (by decide), stripColors_cons_of_eq_none hnone,
        hput.stripColors_append hparts]
    simpa using hstrip.symm

end NotebookTree.Text

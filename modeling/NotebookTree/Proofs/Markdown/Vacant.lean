import NotebookTree.Proofs.Markdown.BasicBlocks

/-!
# Texts without blocks

A text can be read into nothing but blank lines although it is not blank: link definitions make no
block. `Vacant` says on the lines alone when that is so, with the rules for blank lines and for link
definitions and without any other, and without extensions it is what reading comes to. What carries
the proof is that a block which is no blank line stays among those read, or gives way to another one
that is none, whatever rule takes the next line (`readStep_cases`).

## Main definitions

* `Vacant`: lines that make no block but blank lines.
* `Progress.Solid`: there is some other block among those read.

## Main results

* `readBlocks_any_iff`: the lines that are read into nothing but blank lines are the vacant ones.
-/

namespace NotebookTree.Markdown

open Text (isBlank)

/-- Lines that are read into nothing but blank lines: blank lines, of which the first one behind
something else does not count as code, and link definitions. -/
inductive Vacant : List Line → Prop
  | nil : Vacant []
  | blank {l : Line} {rest : List Line} (blank : isBlankLine l = true)
      (noCode : isIndentedCode l = false) (below : Vacant (rest.dropWhile isBlankLine)) :
    Vacant (l :: rest)
  | definition {l : Line} {rest left : List Line} {d : List Char × LinkTarget}
      (defines : readLinkDefinition? l rest = some (d, left)) (below : Vacant left) :
    Vacant (l :: rest)

/-- Whether a block is a blank line. -/
def Block.isBlankLine : Block → Bool
  | .blankLine _ => true
  | _ => false

/-- Some block is no blank line. -/
def Progress.Solid (p : Progress) : Prop := ∃ b ∈ p.blocks, b.isBlankLine = false

/-! ## Lines that no other rule takes -/

/-- A line that no rule takes but those for definitions and for blank lines: it is no code, and
behind its indentation stands nothing, or a bracket, or a blank. -/
structure Plain (l : Line) : Prop where
  noCode : isIndentedCode l = false
  start : behindIndent? 3 l = none ∨ behindIndent? 3 l = some [] ∨ ∃ c body,
    behindIndent? 3 l = some (c :: body) ∧ (c = '[' ∨ c = '\t' ∨ c = '\x0b' ∨ c = '\x0c')

section Plain

variable {l : Line} {body : List Char}

/-- Dropping as many as are taken leaves the rest. -/
theorem drop_length_takeWhile {α : Type} (p : α → Bool) (xs : List α) :
    xs.drop (xs.takeWhile p).length = xs.dropWhile p := by
  induction xs with
  | nil => rfl
  | cons x xs ih =>
    rw [List.takeWhile_cons, List.dropWhile_cons]
    split
    · exact ih
    · rfl

/-- What stands behind the indentation is the line without the blanks in front. -/
theorem eq_of_behindIndent? {most : Nat} (h : behindIndent? most l = some body) :
    body = l.dropWhile (· == ' ') := by
  unfold behindIndent? at h
  split at h
  · rw [← drop_length_takeWhile, ← indentation, Option.some.inj h]
  · cases h

/-- What stands first behind the indentation stands in the line. -/
theorem mem_of_behindIndent? {most : Nat} {c : Char} (h : behindIndent? most l = some (c :: body)) :
    c ∈ l :=
  (List.dropWhile_suffix _).mem (eq_of_behindIndent? h ▸ List.mem_cons_self)

/-- A blank line opens no block. -/
theorem plain_of_isBlankLine (h : isBlankLine l = true) (hcode : isIndentedCode l = false) :
    Plain l := by
  refine ⟨hcode, ?_⟩
  cases hl : behindIndent? 3 l with
  | none => exact .inl rfl
  | some body =>
    cases body with
    | nil => exact .inr (.inl rfl)
    | cons c body =>
      refine .inr (.inr ⟨c, body, rfl, ?_⟩)
      -- the indentation takes all spaces, so that another blank comes behind it
      have hne := List.head?_dropWhile_not (· == ' ') l
      rw [← eq_of_behindIndent? hl] at hne
      have hblank := List.all_eq_true.mp h c (mem_of_behindIndent? hl)
      simp only [isBlankLineChar, Bool.or_eq_true, beq_iff_eq] at hblank
      obtain ((rfl | htab) | hvertical) | hfeed := hblank
      · cases hne
      · exact .inr (.inl htab)
      · exact .inr (.inr (.inl hvertical))
      · exact .inr (.inr (.inr hfeed))

/-- A line that begins with a bracket opens no block. -/
theorem plain_of_bracket (h : behindIndent? 3 l = some ('[' :: body)) : Plain l := by
  refine ⟨?_, .inr (.inr ⟨'[', body, h, .inl rfl⟩)⟩
  have hhead : l.drop (indentation l) = '[' :: body := by
    rw [indentation, drop_length_takeWhile, eq_of_behindIndent? h]
  unfold behindIndent? at h
  split at h
  · rename_i hindent
    have hlow : decide (4 ≤ indentation l) = false := decide_eq_false (by omega)
    simp [isIndentedCode, hhead, hlow]
  · cases h

namespace Plain

/-- A plain line is no fence. -/
theorem fence?_eq (h : Plain l) : fence? l 3 = none := by
  unfold fence?
  obtain hl | hl | ⟨c, body, hl, rfl | rfl | rfl | rfl⟩ := h.start <;> rw [hl] <;> rfl

/-- A plain line is no heading. -/
theorem atxHeading?_eq (h : Plain l) : atxHeading? l 3 = none := by
  unfold atxHeading?
  obtain hl | hl | ⟨c, body, hl, rfl | rfl | rfl | rfl⟩ := h.start <;> rw [hl] <;> rfl

/-- A plain line is no break. -/
theorem isThematicBreak_eq (h : Plain l) : isThematicBreak l 3 = false := by
  unfold isThematicBreak
  obtain hl | hl | ⟨c, body, hl, rfl | rfl | rfl | rfl⟩ := h.start <;> rw [hl] <;> rfl

/-- A plain line is no quote. -/
theorem quoted?_eq (h : Plain l) : quoted? l 3 = none := by
  unfold quoted?
  obtain hl | hl | ⟨c, body, hl, rfl | rfl | rfl | rfl⟩ := h.start <;> rw [hl] <;> rfl

/-- A plain line begins no block of markup. -/
theorem markupStart?_eq (h : Plain l) : markupStart? l 3 = none := by
  unfold markupStart?
  obtain hl | hl | ⟨c, body, hl, rfl | rfl | rfl | rfl⟩ := h.start <;> rw [hl] <;> rfl

/-- A plain line begins no item. -/
theorem itemStart?_eq (h : Plain l) : itemStart? l 3 = none := by
  unfold itemStart? readItemStart?
  obtain hl | hl | ⟨c, body, hl, rfl | rfl | rfl | rfl⟩ := h.start <;> rw [hl] <;> rfl

/-- Marks without the blanks behind them start with what the line starts with, if they are any. -/
theorem underline?_eq (h : Plain l) : underline? l = none := by
  unfold underline?
  obtain hl | hl | ⟨c, body, hl, hc⟩ := h.start <;> rw [hl]
  · rfl
  · have hstart : Text.stripEnd isLineBlank (c :: body) <+: c :: body := by
      rw [Text.stripEnd, ← List.reverse_suffix, List.reverse_reverse]
      exact List.dropWhile_suffix _
    dsimp only
    cases hmarks : Text.stripEnd isLineBlank (c :: body) with
    | nil => rfl
    | cons d marks =>
      rw [hmarks] at hstart
      obtain ⟨rfl, -⟩ := List.cons_prefix_cons.mp hstart
      obtain rfl | rfl | rfl | rfl := hc <;> rfl

end Plain

end Plain

/-! ## One line -/

section Step

variable {p p' : Progress} {r : Rules} {part : PartReader} {l : Line} {rest left : List Line}

namespace Progress

/-- There is a block that is no blank line once one is put on top. -/
theorem solid_push {b : Block} (hb : b.isBlankLine = false) (p : Progress) : (p.push b).Solid :=
  ⟨b, List.mem_cons_self, hb⟩

/-- A block that is no blank line stays when another is put on top. -/
theorem Solid.push (h : p.Solid) (b : Block) : (p.push b).Solid := by
  obtain ⟨c, hc, hsolid⟩ := h
  exact ⟨c, List.mem_cons_of_mem _ hc, hsolid⟩

/-- There is a block that is no blank line once one is put below the latest. -/
theorem solid_insertBelow {b : Block} (hb : b.isBlankLine = false) (p : Progress) (count : Nat) :
    (p.insertBelow count b).Solid :=
  ⟨b, List.mem_append_right _ List.mem_cons_self, hb⟩

/-- Whether there is a block that is no blank line hangs on the blocks alone. -/
theorem Solid.congr (h : p.Solid) (hblocks : p'.blocks = p.blocks) : p'.Solid := by
  rw [Solid, hblocks]
  exact h

/-- A line that goes on with a paragraph leaves it there. -/
theorem solid_extend? (h : p.extend? l = some p') : p'.Solid := by
  unfold extend? at h
  split at h
  · cases h
    exact ⟨_, List.mem_cons_self, rfl⟩
  · cases h

/-- A line of text leaves a paragraph. -/
theorem solid_addLine (p : Progress) (l : Line) : (p.addLine l).Solid := by
  unfold addLine
  cases hp : p.extend? l with
  | none => exact solid_push rfl p
  | some p' => exact solid_extend? hp

/-- Among blank lines there is no paragraph to go on with. -/
theorem extend?_of_not_solid (h : ¬ p.Solid) (l : Line) : p.extend? l = none := by
  unfold extend?
  split
  · rename_i text bs hblocks
    exact absurd ⟨_, hblocks ▸ List.mem_cons_self, rfl⟩ h
  · rfl

end Progress

/-- A block of markup is no blank line. -/
theorem readMarkupBlock_solid (p : Progress) (start : MarkupStart) (l : Line) (rest : List Line) :
    (readMarkupBlock p start l rest).1.Solid := by
  cases start with
  | upTo needle behind =>
    simp only [readMarkupBlock]
    split <;> exact Progress.solid_push rfl p
  | upToBlank => exact Progress.solid_push rfl p
  | lone closing behind =>
    simp only [readMarkupBlock]
    split
    · rename_i p' hp
      exact Progress.solid_extend? hp
    · exact Progress.solid_push rfl p

/-- An indented line is code, or goes on with a paragraph. -/
theorem readIndented_solid (p : Progress) (l : Line) (rest : List Line) :
    (readIndented p l rest).1.Solid := by
  unfold readIndented
  split
  · rename_i p' hp
    exact Progress.solid_extend? hp
  · exact Progress.solid_push rfl p

/-- A line below a paragraph makes it a heading. -/
theorem solid_underlined? (h : underlined? p l = some p') : p'.Solid := by
  unfold underlined? at h
  split at h
  · cases h
    exact ⟨_, List.mem_cons_self, rfl⟩
  · cases h

/-- A quote is no blank line. -/
theorem isBlankLine_quoteBlock (part : PartReader) (r : Rules) (defs : Definitions)
    (body : List QuoteLine) : (quoteBlock part r defs body).1.isBlankLine = false := by
  unfold quoteBlock
  dsimp only
  generalize (if r.spoilers && r.depth == 0 then hiddenText? (body.map QuoteLine.text)
    else none) = hidden
  cases hidden <;> rfl

/-- Whatever a line opens that is not blank comes to a block, perhaps with others. -/
theorem readOpening_solid {opening : Opening} (hopening : opening ≠ .blank) (fuel : Nat)
    (p : Progress) (l : Line) (rest : List Line) :
    (readOpening part r (fuel + 1) p opening l rest).1.Solid := by
  cases opening with
  | blank => exact absurd rfl hopening
  | thematicBreak => exact Progress.solid_push rfl p
  | fence f => exact Progress.solid_push rfl p
  | heading level text => exact Progress.solid_push rfl p
  | markup start => exact readMarkupBlock_solid p start l rest
  | quote behind =>
    rw [readOpening]
    dsimp only
    exact Progress.Solid.congr (Progress.solid_insertBelow (isBlankLine_quoteBlock _ _ _ _) _ _) rfl
  | item start =>
    rw [readOpening]
    split
    · -- a mark that may not interrupt a paragraph goes on with it
      rename_i p' hweak
      split at hweak
      · exact Progress.solid_extend? hweak
      · cases hweak
    · exact Progress.Solid.congr
        (Progress.solid_insertBelow (b := (listBlock _ _ _ _ _ _).1) rfl _ _) rfl

/-- One line: it makes a block, or it is blank, or it starts a definition. -/
theorem readStep_cases (hr : r.Basic) (h : readStep part r p l rest = some (p', left)) :
    p'.Solid ∨
      (isBlankLine l = true ∧ isIndentedCode l = false ∧ p'.blocks = .blankLine none :: p.blocks ∧
        left = rest.dropWhile isBlankLine) ∨
      ∃ d, readLinkDefinition? l rest = some (d, left) ∧ p'.blocks = p.blocks := by
  have hopen : ∀ o, some (readOpening part r (rest.length + 2) p o l rest) = some (p', left) →
      o ≠ .blank → p'.Solid := by
    intro o h ho
    have hsolid : (readOpening part r (rest.length + 2) p o l rest).1.Solid :=
      readOpening_solid ho (rest.length + 1) p l rest
    rwa [Option.some.inj h] at hsolid
  unfold readStep at h
  simp only [hr.extensions, List.contains_nil, Bool.false_eq_true, if_false] at h
  -- The rules one after the other, as they are tried. All but two make a block.
  split at h
  · split at h
    · exact .inl (hopen _ h (by simp))
    · cases h
  split at h
  · have hsolid := readIndented_solid p l rest
    rw [Option.some.inj h] at hsolid
    exact .inl hsolid
  rename_i hcode
  split at h
  · exact .inl (hopen _ h (by simp))
  split at h
  · cases h
  split at h
  · rename_i q hq
    cases h
    exact .inl (solid_underlined? hq)
  split at h
  · split at h
    · exact .inl (hopen _ h (by simp))
    split at h
    · exact .inl (hopen _ h (by simp))
    · cases h
  split at h
  · exact .inl (hopen _ h (by simp))
  split at h
  · exact .inl (hopen _ h (by simp))
  split at h
  · exact .inl (hopen _ h (by simp))
  split at h
  · unfold readLinkDefinition at h
    split at h
    · rename_i q hq
      cases h
      exact .inl (Progress.solid_extend? hq)
    · obtain ⟨⟨d, left'⟩, hd, heq⟩ := Option.map_eq_some_iff.mp h
      cases heq
      exact .inr (.inr ⟨d, hd, rfl⟩)
  split at h
  · split at h
    · exact .inl (hopen _ h (by simp))
    · cases h
  split at h
  · rename_i hblank
    cases h
    exact .inr (.inl ⟨hblank, by simpa using hcode, rfl, rfl⟩)
  · cases h

/-- A line that no other rule takes is a definition, or blank, or running text. -/
theorem readStep_of_plain (hr : r.Basic) (hbare : r.bare = []) (hl : Plain l) :
    readStep part r p l rest =
      if opensLinkDefinition l rest then readLinkDefinition p l rest
      else if isBlankLine l then some (readBlank p rest) else none := by
  have hunderlined : underlined? p l = none := by rw [underlined?, hl.underline?_eq]
  unfold readStep
  simp only [hl.fence?_eq, hl.noCode, hl.atxHeading?_eq, hbare, hunderlined, hl.underline?_eq,
    hl.isThematicBreak_eq, hl.quoted?_eq, hl.itemStart?_eq, hl.markupStart?_eq, hr.extensions,
    List.contains_nil, Bool.false_eq_true, if_false, ite_self, Option.isSome_none]
  rfl

/-- What defines something starts with a bracket, and the definition takes whole lines. -/
theorem readLinkDefinition?_eq_some {d : List Char × LinkTarget}
    (h : readLinkDefinition? l rest = some (d, left)) :
    (∃ body, behindIndent? 3 l = some ('[' :: body)) ∧ opensLinkDefinition l rest = true ∧
      ∃ taken, left = rest.drop taken := by
  unfold readLinkDefinition? at h
  split at h
  · rename_i body hbody
    dsimp only at h
    split at h
    · rename_i label more hlabel
      split at h
      · cases h
      · obtain ⟨q, -, hq⟩ := Option.map_eq_some_iff.mp h
        cases hq
        refine ⟨⟨body, hbody⟩, ?_, _, rfl⟩
        simp [opensLinkDefinition, hbody, hlabel]
    · cases h
  · cases h

/-- A blank line opens no definition of a link. -/
theorem opensLinkDefinition_of_blank (h : isBlankLine l = true) (rest : List Line) :
    opensLinkDefinition l rest = false := by
  unfold opensLinkDefinition
  split
  · rename_i body hbody
    exact absurd (List.all_eq_true.mp h _ (mem_of_behindIndent? hbody)) (by decide)
  · rfl

/-- A blank line that is no code is read as one, with those that follow it. -/
theorem readStep_of_blank (hr : r.Basic) (hbare : r.bare = []) (hblank : isBlankLine l = true)
    (hcode : isIndentedCode l = false) :
    readStep part r p l rest = some (readBlank p rest) := by
  rw [readStep_of_plain hr hbare (plain_of_isBlankLine hblank hcode),
    opensLinkDefinition_of_blank hblank, if_neg (by simp), if_pos hblank]

/-- A definition of a link is read when no paragraph is open, and leaves no block. -/
theorem readStep_of_definition (hr : r.Basic) (hbare : r.bare = []) (hp : ¬ p.Solid)
    {d : List Char × LinkTarget} (hd : readLinkDefinition? l rest = some (d, left)) :
    ∃ defs, readStep part r p l rest = some ({ p with definitions := defs }, left) := by
  obtain ⟨⟨body, hbody⟩, hopens, -⟩ := readLinkDefinition?_eq_some hd
  rw [readStep_of_plain hr hbare (plain_of_bracket hbody), if_pos hopens, readLinkDefinition,
    Progress.extend?_of_not_solid hp, hd]
  exact ⟨_, rfl⟩

end Step

/-! ## All lines -/

section Lines

variable {r : Rules} {part : PartReader}

/-- A block that is no blank line stays. -/
theorem readLines_solid (hr : r.Basic) : ∀ (fuel : Nat) {p : Progress} (ls : List Line), p.Solid →
    (readLines part r fuel p ls).Solid := by
  intro fuel
  induction fuel with
  | zero => exact fun _ h => h
  | succ fuel ih =>
    intro p ls h
    cases ls with
    | nil => exact h
    | cons l rest =>
      rw [readLines]
      cases hstep : readStep part r p l rest with
      | none => exact ih rest (p.solid_addLine l)
      | some next =>
        -- a step adds a solid block, or a blank line, or leaves the blocks as they are
        obtain hsolid | ⟨-, -, hblocks, -⟩ | ⟨d, -, hblocks⟩ := readStep_cases hr hstep
        · exact ih next.2 hsolid
        · exact ih next.2 ((h.push (.blankLine none)).congr hblocks)
        · exact ih next.2 (h.congr hblocks)

/-- Lines that make no block are vacant, as long as they are all read. -/
theorem vacant_of_readLines (hr : r.Basic) : ∀ (fuel : Nat) {p : Progress} {ls : List Line},
    ls.length < fuel → ¬ (readLines part r fuel p ls).Solid → Vacant ls := by
  intro fuel
  induction fuel with
  | zero => exact fun hfuel => absurd hfuel (Nat.not_lt_zero _)
  | succ fuel ih =>
    intro p ls hfuel h
    cases ls with
    | nil => exact .nil
    | cons l rest =>
      have hrest : rest.length < fuel := Nat.lt_of_succ_lt_succ hfuel
      rw [readLines] at h
      cases hstep : readStep part r p l rest with
      | none =>
        rw [hstep] at h
        exact absurd (readLines_solid hr fuel rest (p.solid_addLine l)) h
      | some next =>
        obtain ⟨p', left⟩ := next
        rw [hstep] at h
        -- a step that leaves a block keeps it to the end, so only blank lines and definitions
        -- remain
        obtain hsolid | ⟨hblank, hcode, -, rfl⟩ | ⟨d, hd, -⟩ := readStep_cases hr hstep
        · exact absurd (readLines_solid hr fuel left hsolid) h
        · have hshorter := (List.dropWhile_suffix isBlankLine (l := rest)).length_le
          exact .blank hblank hcode (ih (Nat.lt_of_le_of_lt hshorter hrest) h)
        · obtain ⟨-, -, taken, rfl⟩ := readLinkDefinition?_eq_some hd
          have hshorter : (rest.drop taken).length ≤ rest.length := by simp
          exact .definition hd (ih (Nat.lt_of_le_of_lt hshorter hrest) h)

/-- Vacant lines make no block. -/
theorem not_solid_readLines (hr : r.Basic) (hbare : r.bare = []) {ls : List Line}
    (h : Vacant ls) : ∀ (fuel : Nat) {p : Progress}, ¬ p.Solid →
    ¬ (readLines part r fuel p ls).Solid := by
  induction h with
  | nil =>
    intro fuel p hp
    cases fuel <;> exact hp
  | @blank l rest hblank hcode _ ih =>
    intro fuel p hp
    cases fuel with
    | zero => exact hp
    | succ fuel =>
      rw [readLines, readStep_of_blank hr hbare hblank hcode, Option.getD_some]
      refine ih fuel fun hsolid => ?_
      obtain ⟨b, hb, hne⟩ := hsolid
      obtain rfl | hb := List.mem_cons.mp hb
      · cases hne
      · exact hp ⟨b, hb, hne⟩
  -- a definition changes the definitions alone
  | @definition l rest left d hd _ ih =>
    intro fuel p hp
    cases fuel with
    | zero => exact hp
    | succ fuel =>
      obtain ⟨defs, hstep⟩ : ∃ defs, readStep part r p l rest =
          some ({ p with definitions := defs }, left) := readStep_of_definition hr hbare hp hd
      rw [readLines, hstep, Option.getD_some]
      exact ih fuel hp

/-- What is read of the blank lines in front is blank. -/
theorem isBlankLine_readLeadingBlank (ls : List Line) :
    ∀ b ∈ (readLeadingBlank ls).1, b.isBlankLine = true := by
  unfold readLeadingBlank
  split
  · dsimp only
    split
    · exact List.forall_mem_nil _
    · exact List.forall_mem_singleton.mpr rfl
  · exact List.forall_mem_nil _

/-- The blank lines at the front may be taken first. -/
theorem vacant_readLeadingBlank (ls : List Line) :
    Vacant (readLeadingBlank ls).2 ↔ Vacant ls := by
  unfold readLeadingBlank
  split
  · rename_i l rest
    dsimp only
    split
    · rfl
    · rename_i hfront
      simp only [Bool.or_eq_true, not_or, Bool.not_eq_true] at hfront
      obtain ⟨hsome, hcode⟩ := hfront
      have hblank : isBlankLine l = true := by
        cases hl : isBlankLine l with
        | true => rfl
        | false => simp [hl] at hsome
      -- the blank lines in front are dropped at once, as the first of them drops those behind it
      have hdrop : (l :: rest).drop ((l :: rest).takeWhile isBlankLine).length =
          rest.dropWhile isBlankLine := by
        rw [drop_length_takeWhile, List.dropWhile_cons, if_pos hblank]
      rw [hdrop]
      refine ⟨.blank hblank hcode, fun h => ?_⟩
      cases h with
      | blank _ _ below => exact below
      | definition hd =>
        obtain ⟨-, hopens, -⟩ := readLinkDefinition?_eq_some hd
        rw [opensLinkDefinition_of_blank hblank] at hopens
        cases hopens
  · rfl

end Lines

/-- Without extensions, the lines that are read into nothing but blank lines are the vacant ones. -/
theorem readBlocks_any_iff (depth : Nat) (defs : Definitions) (ls : List Line) :
    (readBlocks [] depth defs ls).1.any (fun b => !b.isBlankLine) = false ↔ Vacant ls := by
  have hr : (topRules [] depth).Basic := ⟨rfl, rfl⟩
  have hstart : ¬ Progress.Solid ⟨(readLeadingBlank ls).1, defs⟩ := by
    rintro ⟨b, hb, hsolid⟩
    rw [isBlankLine_readLeadingBlank ls b hb] at hsolid
    cases hsolid
  have hsolid : (readBlocks [] depth defs ls).1.any (fun b => !b.isBlankLine) = true ↔
      (readLines (readPart (weight ls)) (topRules [] depth) ((readLeadingBlank ls).2.length + 1)
        ⟨(readLeadingBlank ls).1, defs⟩ (readLeadingBlank ls).2).Solid := by
    simp [readBlocks, readPart, Progress.Solid]
  rw [← Bool.not_eq_true, hsolid, ← vacant_readLeadingBlank]
  exact ⟨vacant_of_readLines hr _ (Nat.lt_succ_self _), fun h => not_solid_readLines hr rfl h _ hstart⟩

end NotebookTree.Markdown

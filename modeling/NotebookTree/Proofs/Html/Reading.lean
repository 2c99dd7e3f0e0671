import Mathlib.Data.List.TakeDrop
import NotebookTree.Html.Event

/-!
# What is left of markup

Markup is read from the front, so what each reader leaves is an end of what it was given. From this
comes where the names of tags are from: every tag that is reported stands somewhere in the text,
with its name, in lower case, behind a `<`.

## Main definitions

* `Event.tagName?`: the name of a tag that an event opens.
* `StandsIn`: a name behind a `<` in a text, up to case.

## Main statements

* `standsIn_of_readEvents`: where the tags of a text are.
-/

namespace NotebookTree.Html

variable {cs rest : List Char}

/-! ## Ends of texts -/

/-- What is left when a text is split before another is a rest of it. -/
theorem suffix_of_splitBefore? {needle before behind : List Char}
    (h : Text.splitBefore? needle cs = some (before, behind)) : behind <:+ cs := by
  induction cs generalizing before with
  | nil =>
    rw [Text.splitBefore?] at h
    split at h
    · obtain ⟨-, rfl⟩ := Prod.mk.inj (Option.some.inj h)
      exact List.suffix_refl _
    · cases h
  | cons c cs ih =>
    rw [Text.splitBefore?] at h
    split at h
    · obtain ⟨-, rfl⟩ := Prod.mk.inj (Option.some.inj h)
      exact List.suffix_refl _
    · obtain ⟨⟨first, second⟩, hsplit, heq⟩ := Option.map_eq_some_iff.mp h
      obtain ⟨-, rfl⟩ := Prod.mk.inj heq
      exact (ih hsplit).trans (List.suffix_cons c cs)

/-- What is left behind a mark is a rest of the text. -/
theorem suffix_of_cutAt? {needle content : List Char} (h : cutAt? needle cs = some (content, rest)) :
    rest <:+ cs := by
  obtain ⟨⟨before, behind⟩, hsplit, heq⟩ := Option.map_eq_some_iff.mp h
  obtain ⟨-, rfl⟩ := Prod.mk.inj heq
  exact (List.drop_suffix _ _).trans (suffix_of_splitBefore? hsplit)

/-- What is left behind blanks and a mark is a rest of the text. -/
theorem suffix_of_blanksThen? {needle : List Char} (h : blanksThen? needle cs = some rest) :
    rest <:+ cs := by
  rw [blanksThen?] at h
  split at h
  · rw [← Option.some.inj h]
    exact (List.drop_suffix _ _).trans (List.dropWhile_suffix _)
  · cases h

/-- What is left behind a comment is a rest of the text. -/
theorem suffix_of_cutComment? {content : List Char} (h : cutComment? cs = some (content, rest)) :
    rest <:+ cs := by
  induction cs generalizing content with
  | nil => cases h
  | cons c cs ih =>
    rw [cutComment?.eq_def] at h
    dsimp only at h
    split at h
    · rename_i hend
      obtain ⟨-, rfl⟩ := Prod.mk.inj (Option.some.inj h)
      split at hend
      · exact (suffix_of_blanksThen? hend).trans
          ((List.suffix_cons _ _).trans (List.suffix_cons _ _))
      · cases hend
    · obtain ⟨⟨first, second⟩, hcut, heq⟩ := Option.map_eq_some_iff.mp h
      obtain ⟨-, rfl⟩ := Prod.mk.inj heq
      exact (ih hcut).trans (List.suffix_cons c cs)

/-- What is left behind a marked section is a rest of the text. -/
theorem suffix_of_cutMarked? {double : Bool} {content : List Char}
    (h : cutMarked? double cs = some (content, rest)) : rest <:+ cs := by
  induction cs generalizing content with
  | nil => cases h
  | cons c cs ih =>
    -- either the end is found right here, or one character further
    refine List.IsSuffix.trans ?_ (List.suffix_cons c cs)
    rw [cutMarked?] at h
    split at h
    · rename_i hend
      obtain ⟨-, rfl⟩ := Prod.mk.inj (Option.some.inj h)
      split at hend
      · cases hend
      · split at hend
        · obtain ⟨inner, hinner, hlast⟩ := Option.bind_eq_some_iff.mp hend
          exact (suffix_of_blanksThen? hlast).trans (suffix_of_blanksThen? hinner)
        · exact suffix_of_blanksThen? hend
    · obtain ⟨⟨first, second⟩, hcut, heq⟩ := Option.map_eq_some_iff.mp h
      obtain ⟨-, rfl⟩ := Prod.mk.inj heq
      exact ih hcut

/-- What is left behind the name of an end tag is a rest of the text. -/
theorem suffix_of_closingName? {name : List Char} (h : closingName? cs = some (name, rest)) :
    rest <:+ cs := by
  rw [closingName?] at h
  split at h
  · cases h
  · split at h
    · obtain ⟨behind, hbehind, heq⟩ := Option.map_eq_some_iff.mp h
      obtain ⟨-, rfl⟩ := Prod.mk.inj heq
      exact (suffix_of_blanksThen? hbehind).trans
        ((List.drop_suffix _ _).trans (List.dropWhile_suffix _))
    · cases h

/-- The end tag of an element of character data begins a rest of the text. -/
theorem suffix_of_cutClosing? {name content tag : List Char}
    (h : cutClosing? name cs = some (content, tag)) : tag <:+ cs := by
  induction cs generalizing content with
  | nil => cases h
  | cons c cs ih =>
    obtain ⟨here, hhere⟩ : ∃ here : Bool, cutClosing? name (c :: cs) =
        if here then some ([], c :: cs)
        else (cutClosing? name cs).map (fun p => (c :: p.1, p.2)) := ⟨_, cutClosing?.eq_def ..⟩
    rw [hhere] at h
    split at h
    · obtain ⟨-, rfl⟩ := Prod.mk.inj (Option.some.inj h)
      exact List.suffix_refl _
    · obtain ⟨⟨first, second⟩, hcut, heq⟩ := Option.map_eq_some_iff.mp h
      obtain ⟨-, rfl⟩ := Prod.mk.inj heq
      exact (ih hcut).trans (List.suffix_cons c cs)

/-- What is left of an unfinished tag is a rest of the text. -/
theorem unfinished_suffix (cs : List Char) : (unfinished cs).2 <:+ cs := by
  cases cs with
  | nil => exact List.suffix_refl _
  | cons c more =>
    refine List.IsSuffix.trans ?_ (List.suffix_cons c more)
    rw [unfinished]
    split
    · exact suffix_of_cutAt? ‹_›
    · split
      · exact List.drop_suffix _ _
      · exact List.suffix_refl _

/-! ## Opening tags -/

/-- What is left behind blanks and slashes is a rest of the text. -/
theorem skipFiller_suffix (cs : List Char) : skipFiller cs <:+ cs := by
  induction cs with
  | nil => exact List.suffix_refl _
  | cons c cs ih =>
    rw [skipFiller]
    split
    · exact ih.trans (List.suffix_cons c cs)
    · exact List.suffix_refl _

/-- What is left behind characters of a kind is a rest of the text. -/
theorem span_snd_suffix (p : Char → Bool) (cs : List Char) : (cs.span p).2 <:+ cs := by
  rw [List.span_eq_takeWhile_dropWhile]
  exact List.dropWhile_suffix p

/-- What is left behind the value of an attribute is a rest of the text. -/
theorem suffix_of_readValue? {value : List Char} (h : readValue? cs = some (value, rest)) :
    rest <:+ cs := by
  have hsigns : cs.dropWhile Text.isBlank <:+ cs := List.dropWhile_suffix _
  rw [readValue?] at h
  dsimp only at h
  split at h
  · cases h
  · -- behind the signs, with or without the blanks that follow them
    have hbehind := (List.drop_suffix
      ((cs.dropWhile Text.isBlank).takeWhile (· == '=')).length
      (cs.dropWhile Text.isBlank)).trans hsigns
    have hrest := (List.dropWhile_suffix Text.isBlank).trans hbehind
    split at h
    · rename_i q more heq
      rw [heq] at hrest
      split at h
      · split at h
        · rename_i hspan
          obtain ⟨-, rfl⟩ := Prod.mk.inj (Option.some.inj h)
          have hmore := span_snd_suffix (· != q) more
          rw [hspan] at hmore
          exact (List.suffix_cons _ _).trans (hmore.trans ((List.suffix_cons _ _).trans hrest))
        · split at h
          · obtain ⟨-, rfl⟩ := Prod.mk.inj (Option.some.inj h)
            rw [heq]
            exact hrest
          · split at h
            · have hlast := congrArg Prod.snd (Option.some.inj h)
              rw [← show _ = rest from hlast]
              exact (span_snd_suffix _ _).trans ((List.drop_suffix _ _).trans hsigns)
            · cases h
      · have hlast := congrArg Prod.snd (Option.some.inj h)
        rw [← show _ = rest from hlast, heq]
        exact (span_snd_suffix _ _).trans hrest
    · obtain ⟨-, rfl⟩ := Prod.mk.inj (Option.some.inj h)
      exact List.nil_suffix

/-- What is left behind an attribute is a rest of the text. -/
theorem suffix_of_readAttribute? {before : Option Char}
    {a : List Char × Option (List Char)} (h : readAttribute? before cs = some (a, rest)) :
    rest <:+ cs := by
  cases cs with
  | nil => cases h
  | cons c more =>
    cases before with
    | none => cases h
    | some b =>
      -- an attribute has to stand behind a blank, a slash or the end of a value in quotes
      rw [readAttribute?.eq_def] at h
      dsimp only at h
      split at h
      · split at h
        · rename_i hvalue
          obtain ⟨-, rfl⟩ := Prod.mk.inj (Option.some.inj h)
          exact (suffix_of_readValue? hvalue).trans (List.drop_suffix _ _)
        · obtain ⟨-, rfl⟩ := Prod.mk.inj (Option.some.inj h)
          exact List.drop_suffix _ _
      · cases h

/-- What is left behind all attributes is a rest of the text. -/
theorem readAttributes_suffix (fuel : Nat) (before : Option Char) (cs : List Char) :
    (readAttributes fuel before cs).2 <:+ cs := by
  induction fuel generalizing before cs with
  | zero => exact List.suffix_refl _
  | succ fuel ih =>
    rw [readAttributes]
    split
    · exact List.suffix_refl _
    · rename_i hread
      exact (ih _ _).trans ((skipFiller_suffix _).trans (suffix_of_readAttribute? hread))

/-- An opening tag leaves an end of the text, and its name is at the front of the text. -/
def StartTag.Fits (cs : List Char) : StartTag → Prop
  | .incomplete => True
  | .junk rest => rest <:+ cs
  | .tag _ name _ rest => rest <:+ cs ∧ ∃ raw, raw <+: cs ∧ name = Text.lower raw

/-- Whatever is made of a tag that ends somewhere. -/
theorem finishedTag_fits {found : List (List Char × Option (List Char))} {raw stop : List Char}
    (tail : List Char) (hraw : raw <+: cs) (hstop : stop <:+ cs) : StartTag.Fits cs
      (match Text.trim tail with
        | ['>'] => .tag false (Text.lower raw) (found.map finishAttribute) stop
        | ['/', '>'] => .tag true (Text.lower raw) (found.map finishAttribute) stop
        | _ => .junk stop) := by
  split
  · exact ⟨hstop, raw, hraw, rfl⟩
  · exact ⟨hstop, raw, hraw, rfl⟩
  · exact hstop

/-- A start tag has its name where it stands, and leaves a rest of the text. -/
theorem readStart_fits (cs : List Char) : (readStart cs).Fits cs := by
  have hname : cs.takeWhile isNameChar <+: cs := List.takeWhile_prefix _
  -- what is left when the tag has been gone through
  obtain ⟨atEnd, hatEnd⟩ : ∃ atEnd, atEnd = (readAttributes (cs.length + 1)
      (lastBefore (cs.takeWhile isNameChar).getLast? (cs.drop (cs.takeWhile isNameChar).length)
        ((cs.drop (cs.takeWhile isNameChar).length).dropWhile fun c => Text.isBlank c || c == '/'))
      ((cs.drop (cs.takeWhile isNameChar).length).dropWhile fun c =>
        Text.isBlank c || c == '/')).2.dropWhile Text.isBlank := ⟨_, rfl⟩
  have hsuffix : atEnd <:+ cs := by
    rw [hatEnd]
    exact (List.dropWhile_suffix _).trans ((readAttributes_suffix _ _ _).trans
      ((List.dropWhile_suffix _).trans (List.drop_suffix _ _)))
  rw [readStart]
  dsimp only
  rw [← hatEnd]
  split
  · trivial
  · exact finishedTag_fits _ hname ((List.suffix_cons _ _).trans hsuffix)
  · exact finishedTag_fits _ hname
      ((List.suffix_cons _ _).trans ((List.suffix_cons _ _).trans hsuffix))
  · split
    · trivial
    · exact finishedTag_fits _ hname hsuffix

/-! ## Pieces of markup -/

/-- The name of the tag that an event opens. -/
def Event.tagName? : Event → Option (List Char)
  | .opened tag _ => some tag
  | .lone tag _ => some tag
  | _ => none

/-- A piece of markup leaves an end of the text, and a tag that it opens is named at the front of
`named`. -/
def Step.Fits (named cs : List Char) : Step → Prop
  | .read events _ rest => rest <:+ cs ∧ ∀ e ∈ events, ∀ tag, e.tagName? = some tag →
    ∃ raw, raw <+: named ∧ tag = Text.lower raw
  | _ => True

/-- A piece of markup without a tag. -/
theorem Step.fits_of_tagless {e : Event} {verbatim : Option (List Char)} {named : List Char}
    (he : e.tagName? = none) (h : rest <:+ cs) : (Step.read [e] verbatim rest).Fits named cs := by
  refine ⟨h, fun f hf tag htag => ?_⟩
  rw [List.mem_singleton.mp hf, he] at htag
  cases htag

/-- A piece of markup that opens a tag. -/
theorem Step.fits_of_tag {e : Event} {verbatim : Option (List Char)} {named raw : List Char}
    (he : e.tagName? = some (Text.lower raw)) (hraw : raw <+: named) (h : rest <:+ cs) :
    (Step.read [e] verbatim rest).Fits named cs := by
  refine ⟨h, fun f hf tag htag => ⟨raw, hraw, ?_⟩⟩
  rw [List.mem_singleton.mp hf, he] at htag
  exact (Option.some.inj htag).symm

/-- A step that fits a rest of a text fits the text. -/
theorem Step.Fits.trans {s : Step} {named more : List Char} (h : s.Fits named cs)
    (hcs : cs <:+ more) : s.Fits named more := by
  cases s with
  | incomplete => trivial
  | refused => trivial
  | read events verbatim rest => exact ⟨h.1.trans hcs, h.2⟩

/-- A marked section has no tag and leaves a rest of the text. -/
theorem readMarked_fits (named cs : List Char) : (readMarked cs).Fits named cs := by
  rw [readMarked.eq_def]
  dsimp only
  split
  · trivial
  · split
    · trivial
    · split
      · trivial
      · split
        · trivial
        · split
          · exact Step.fits_of_tagless rfl (suffix_of_cutMarked? ‹_›)
          · trivial

/-- What begins with an exclamation mark has no tag and leaves a rest of the text. -/
theorem readBang_fits (named cs : List Char) : (readBang cs).Fits named cs := by
  rw [readBang.eq_def]
  split
  · split
    · exact Step.fits_of_tagless rfl ((suffix_of_cutComment? ‹_›).trans
        ((List.suffix_cons _ _).trans (List.suffix_cons _ _)))
    · trivial
  · exact (readMarked_fits named _).trans (List.suffix_cons _ _)
  · split
    · split
      · exact Step.fits_of_tagless rfl ((suffix_of_cutAt? ‹_›).trans (List.drop_suffix _ _))
      · trivial
    · split
      · exact Step.fits_of_tagless rfl (suffix_of_cutAt? ‹_›)
      · trivial

/-- An end tag opens nothing and leaves a rest of the text. -/
theorem readClosing_fits (named cs : List Char) : (readClosing cs).Fits named cs := by
  rw [readClosing]
  split
  · trivial
  · rename_i hcut
    split
    · -- a well formed closing tag; behind it come the ways in which one can be malformed
      exact Step.fits_of_tagless rfl (suffix_of_closingName? ‹_›)
    · split
      · split
        · dsimp only
          split
          · exact Step.fits_of_tagless rfl ((suffix_of_cutAt? ‹_›).trans (List.drop_suffix _ _))
          · trivial
        · split
          · exact ⟨suffix_of_cutAt? hcut, List.forall_mem_nil _⟩
          · exact Step.fits_of_tagless rfl (suffix_of_cutAt? hcut)
      · trivial

/-- One step behind an angle bracket leaves a rest of the text, and opens a tag only if its name
stands there. -/
theorem markupStep_fits (cs : List Char) : (markupStep cs).Fits cs cs := by
  rw [markupStep.eq_def]
  split
  · trivial
  · exact (readClosing_fits _ _).trans (List.suffix_cons _ _)
  · exact (readBang_fits _ _).trans (List.suffix_cons _ _)
  · split
    · exact Step.fits_of_tagless rfl ((suffix_of_cutAt? ‹_›).trans (List.suffix_cons _ _))
    · trivial
  · rename_i c more _ _ _
    split
    · -- a start tag ends as junk, as a tag, or as a tag that is closed at once
      have hstart := readStart_fits (c :: more)
      split
      · trivial
      · rename_i hjunk
        rw [hjunk] at hstart
        exact Step.fits_of_tagless rfl hstart
      · rename_i htag
        rw [htag] at hstart
        obtain ⟨hrest, raw, hraw, rfl⟩ := hstart
        exact Step.fits_of_tag rfl hraw hrest
      · rename_i htag
        rw [htag] at hstart
        obtain ⟨hrest, raw, hraw, rfl⟩ := hstart
        exact Step.fits_of_tag rfl hraw hrest
    · exact Step.fits_of_tagless rfl (List.suffix_refl _)

/-! ## References -/

/-- What is left behind a semicolon is a rest of the text. -/
theorem dropSemicolon_suffix (cs : List Char) : dropSemicolon cs <:+ cs := by
  rw [dropSemicolon.eq_def]
  split
  · exact List.suffix_cons _ _
  · exact List.suffix_refl _

/-- What is left behind the number of a reference is a rest of the text. -/
theorem suffix_of_readNumber? {n : Nat} (h : readNumber? cs = some (n, rest)) : rest <:+ cs := by
  -- the number is written in hexadecimal or in decimal digits, and a semicolon may follow
  rw [readNumber?.eq_def] at h
  dsimp only at h
  split at h
  · cases h
  · split at h
    · split at h
      · cases h
      · split at h
        · cases h
        · split at h
          · cases h
          · obtain ⟨-, rfl⟩ := Prod.mk.inj (Option.some.inj h)
            exact (dropSemicolon_suffix _).trans
              ((List.drop_suffix _ _).trans (List.suffix_cons _ _))
    · split at h
      · cases h
      · split at h
        · cases h
        · split at h
          · cases h
          · obtain ⟨-, rfl⟩ := Prod.mk.inj (Option.some.inj h)
            exact (dropSemicolon_suffix _).trans (List.drop_suffix _ _)

/-- What is left behind the name of a reference is a rest of the text. -/
theorem suffix_of_readName? {name : List Char} (h : readName? cs = some (name, rest)) :
    rest <:+ cs := by
  rw [readName?] at h
  split at h
  · cases h
  · split at h
    · cases h
    · split at h
      · rename_i hbehind
        obtain ⟨-, rfl⟩ := Prod.mk.inj (Option.some.inj h)
        rw [← hbehind]
        exact (dropSemicolon_suffix _).trans (List.drop_suffix _ _)
      · dsimp only at h
        split at h
        · cases h
        · obtain ⟨-, rfl⟩ := Prod.mk.inj (Option.some.inj h)
          exact List.drop_suffix _ _

/-- A reference opens no tag, and leaves an end of the text. -/
def ReferenceStep.Fits (cs : List Char) : ReferenceStep → Prop
  | .read events rest => rest <:+ cs ∧ ∀ e ∈ events, e.tagName? = none
  | .stop events rest => rest <:+ '&' :: cs ∧ ∀ e ∈ events, e.tagName? = none

/-- A reference opens no tag and leaves a rest of the text. -/
theorem referenceStep_fits (final : Bool) (cs : List Char) :
    (referenceStep final cs).Fits cs := by
  have hbehind : cs <:+ '&' :: cs := List.suffix_cons _ _
  rw [referenceStep.eq_def]
  split
  · split
    · exact ⟨(suffix_of_readNumber? ‹_›).trans (List.suffix_cons _ _), by simp [Event.tagName?]⟩
    · split
      · exact ⟨(List.suffix_cons _ _).trans hbehind, by simp [Event.tagName?]⟩
      · exact ⟨List.suffix_refl _, List.forall_mem_nil _⟩
  · split
    · exact ⟨suffix_of_readName? ‹_›, by simp [Event.tagName?]⟩
    · split
      · exact ⟨List.suffix_refl _, List.forall_mem_nil _⟩
      · split
        · split
          · exact ⟨hbehind, List.forall_mem_nil _⟩
          · exact ⟨List.suffix_refl _, List.forall_mem_nil _⟩
        · exact ⟨List.suffix_refl _, by simp [Event.tagName?]⟩

/-! ## Whole texts -/

/-- The name stands in a text behind a `<`, up to case. -/
def StandsIn (cs tag : List Char) : Prop := ∃ raw, '<' :: raw <:+: cs ∧ tag = Text.lower raw

/-- A tag that stands in a rest of a text stands in the text. -/
theorem StandsIn.trans {tag : List Char} (h : StandsIn rest tag) (hrest : rest <:+ cs) :
    StandsIn cs tag := by
  obtain ⟨raw, hraw, rfl⟩ := h
  exact ⟨raw, hraw.trans hrest.isInfix, rfl⟩

/-- Events whose tags stand in a text. -/
def TagsStandIn (cs : List Char) (events : List Event) : Prop :=
  ∀ e ∈ events, ∀ tag, e.tagName? = some tag → StandsIn cs tag

/-- The tags of two runs of events stand in a text when those of each do. -/
theorem TagsStandIn.append {first second : List Event} (h : TagsStandIn cs first)
    (h' : TagsStandIn cs second) : TagsStandIn cs (first ++ second) := by
  intro e he
  exact (List.mem_append.mp he).elim (h e) (h' e)

/-- Tags that stand in a rest of a text stand in the text. -/
theorem TagsStandIn.trans {events : List Event} (h : TagsStandIn rest events)
    (hrest : rest <:+ cs) : TagsStandIn cs events :=
  fun e he tag htag => (h e he tag htag).trans hrest

/-- Events without tags have none that does not stand in the text. -/
theorem tagsStandIn_of_tagless {events : List Event} (h : ∀ e ∈ events, e.tagName? = none) :
    TagsStandIn cs events := by
  intro e he tag htag
  rw [h e he] at htag
  cases htag

/-- Character data has no tags. -/
theorem tagsStandIn_dataEvent (s : List Char) : TagsStandIn cs (dataEvent s) := by
  refine tagsStandIn_of_tagless fun e he => ?_
  rw [dataEvent] at he
  split at he
  · cases he
  · rw [List.mem_singleton.mp he]
    rfl

/-- A piece of markup behind its `<`. -/
theorem tagsStandIn_of_fits {events : List Event} {verbatim : Option (List Char)}
    {body : List Char} (h : (Step.read events verbatim rest).Fits body body)
    (hbody : '<' :: body <:+ cs) : rest <:+ cs ∧ TagsStandIn cs events := by
  refine ⟨h.1.trans ((List.suffix_cons _ _).trans hbody), fun e he tag htag => ?_⟩
  obtain ⟨raw, hraw, rfl⟩ := h.2 e he tag htag
  exact ⟨raw, ((List.cons_prefix_cons.mpr ⟨rfl, hraw⟩).isInfix).trans hbody.isInfix, rfl⟩

/-- What stops the reading of plain text. -/
theorem span_snd_cons {p : Char → Bool} {content more : List Char} {c : Char}
    (h : cs.span p = (content, c :: more)) : p c = false := by
  rw [List.span_eq_takeWhile_dropWhile] at h
  have hdrop := (Prod.mk.inj h).2
  have hhead := List.head?_dropWhile_not p cs
  rw [hdrop] at hhead
  simpa using hhead

/-- A pass fits a text if it leaves an end of it and its tags stand in it. -/
def Pass.Fits (p : Pass) (cs : List Char) : Prop := p.rest <:+ cs ∧ TagsStandIn cs p.events

/-- A pass is over, or goes on with an end of the text behind some events. -/
def EndsOrGoesOn (final : Bool) (fuel : Nat) (cs : List Char) (p : Pass) : Prop :=
  p.Fits cs ∨ ∃ events verbatim left q, readPass final fuel verbatim left = some q ∧
    left <:+ cs ∧ TagsStandIn cs events ∧ p = { q with events := events ++ q.events }

section Pass

variable {final : Bool} {fuel : Nat} {verbatim : Option (List Char)} {p : Pass} {c : Char}

/-- A pass that adds events to those of the rest goes on with it. -/
theorem EndsOrGoesOn.of_map {events : List Event} {left : List Char}
    (h : (readPass final fuel verbatim left).map (fun p => { p with events := events ++ p.events }) =
      some p) (hleft : left <:+ cs) (hevents : TagsStandIn cs events) :
    EndsOrGoesOn final fuel cs p := by
  obtain ⟨q, hq, rfl⟩ := Option.map_eq_some_iff.mp h
  exact .inr ⟨events, verbatim, left, q, hq, hleft, hevents, rfl⟩

/-- Inside a tag whose content is not markup, a pass looks for the end of that tag. -/
theorem endsOrGoesOn_of_verbatim {name : List Char}
    (h : readPass final (fuel + 1) (some name) (c :: cs) = some p) :
    EndsOrGoesOn final fuel (c :: cs) p := by
  rw [readPass.eq_def] at h
  dsimp only at h
  split at h
  · rw [← Option.some.inj h]
    exact .inl ⟨List.suffix_refl _, List.forall_mem_nil _⟩
  · rename_i content tag hcut
    -- whatever else stands in the closing tag is passed over
    have hrest : ((cutAt? ['>'] tag).getD ([], [])).2 <:+ c :: cs := by
      refine List.IsSuffix.trans ?_ (suffix_of_cutClosing? hcut)
      cases hend : cutAt? ['>'] tag with
      | none => exact List.nil_suffix
      | some q => exact suffix_of_cutAt? hend
    have htags : ∀ event : Event, event.tagName? = none →
        TagsStandIn (c :: cs) (dataEvent content ++ [event]) := fun event hevent =>
      (tagsStandIn_dataEvent content).append (tagsStandIn_of_tagless (by simpa using hevent))
    split at h
    · exact .of_map (by simpa using h) hrest (htags _ rfl)
    · exact .of_map (by simpa using h) hrest (htags _ rfl)

/-- Elsewhere a pass reads plain text up to a piece of markup or a reference, and that piece. -/
theorem endsOrGoesOn_of_text (h : readPass final (fuel + 1) none (c :: cs) = some p) :
    EndsOrGoesOn final fuel (c :: cs) p := by
  rw [readPass.eq_def] at h
  dsimp only at h
  -- the text goes up to an angle bracket or an ampersand, so one of them is what may follow
  obtain ⟨content, rest, hspan⟩ : ∃ content rest,
      (c :: cs).span (fun c => c != '<' && c != '&') = (content, rest) := ⟨_, _, rfl⟩
  have hrest : rest <:+ c :: cs := by
    have hsuffix := span_snd_suffix (fun c => c != '<' && c != '&') (c :: cs)
    rwa [hspan] at hsuffix
  have hcontent : TagsStandIn (c :: cs) (dataEvent content) := tagsStandIn_dataEvent content
  rw [hspan] at h
  dsimp only at h
  split at h
  · rw [← Option.some.inj h]
    exact .inl ⟨List.nil_suffix, hcontent⟩
  · rename_i body
    have hfits := markupStep_fits body
    split at h
    · cases h
    · rename_i hstep
      rw [hstep] at hfits
      obtain ⟨hleft, htags⟩ := tagsStandIn_of_fits hfits hrest
      exact .of_map h hleft (hcontent.append htags)
    · split at h
      · have hdata : ∀ s, TagsStandIn (c :: cs) [.data s] :=
          fun s => tagsStandIn_of_tagless (by simp [Event.tagName?])
        exact .of_map h ((unfinished_suffix _).trans hrest) (hcontent.append (hdata _))
      · rw [← Option.some.inj h]
        exact .inl ⟨hrest, hcontent⟩
  · rename_i head body hhead
    have hstop : ¬head = '<' → head = '&' := by simpa using span_snd_cons hspan
    -- a reference may be put off until more text is there: then the pass ends here
    obtain rfl := hstop hhead
    have hfits := referenceStep_fits final body
    split at h
    · rename_i hstep
      rw [hstep] at hfits
      exact .of_map h (hfits.1.trans ((List.suffix_cons _ _).trans hrest))
        (hcontent.append (tagsStandIn_of_tagless hfits.2))
    · rename_i hstep
      rw [hstep] at hfits
      rw [← Option.some.inj h]
      exact .inl ⟨hfits.1.trans hrest, hcontent.append (tagsStandIn_of_tagless hfits.2)⟩

/-- A pass leaves an end of the text, and its tags stand in the text. -/
theorem readPass_fits (h : readPass final fuel verbatim cs = some p) : p.Fits cs := by
  induction fuel generalizing verbatim cs p with
  | zero =>
    rw [← Option.some.inj h]
    exact ⟨List.suffix_refl _, List.forall_mem_nil _⟩
  | succ fuel ih =>
    cases cs with
    | nil =>
      rw [readPass] at h
      rw [← Option.some.inj h]
      exact ⟨List.suffix_refl _, List.forall_mem_nil _⟩
    | cons c cs =>
      have hstep : EndsOrGoesOn final fuel (c :: cs) p := by
        cases verbatim with
        | some name => exact endsOrGoesOn_of_verbatim h
        | none => exact endsOrGoesOn_of_text h
      obtain hfits | ⟨events, verbatim', left, q, hq, hleft, hevents, rfl⟩ := hstep
      · exact hfits
      -- what is read is followed by what the rest of the pass reads
      · obtain ⟨hrest, htags⟩ := ih hq
        exact ⟨hrest.trans hleft, hevents.append (htags.trans hleft)⟩

end Pass

/-- The tags of a text stand in it. -/
theorem standsIn_of_readEvents {events : List Event} (h : readEvents cs = some events) :
    TagsStandIn cs events := by
  obtain ⟨first, hfirst, h⟩ := Option.bind_eq_some_iff.mp h
  obtain ⟨second, hsecond, h⟩ := Option.bind_eq_some_iff.mp h
  rw [← Option.some.inj h]
  obtain ⟨hrest, hfirstTags⟩ := readPass_fits hfirst
  obtain ⟨-, hsecondTags⟩ := readPass_fits hsecond
  refine (hfirstTags.append (hsecondTags.trans hrest)).append ?_
  split
  · exact List.forall_mem_nil _
  · exact tagsStandIn_dataEvent _

end NotebookTree.Html

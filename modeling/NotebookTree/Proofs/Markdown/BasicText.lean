import NotebookTree.Markdown.RunningText

/-!
# Running text without extensions

Without extensions, running text is read into nothing but the basic inlines, and no note is referred
to. All that the reader holds on its stack is basic, each step puts basic pieces on it, and the
pieces of a complete stretch become basic inlines as long as no abbreviation is defined.

## Main definitions

* `Inline.Basic`, `Piece.Basic`: what no extension adds.
* `ReadsQuietly`: what is read is of some sort, and no note is referred to.

## Main results

* `readInlines_basic`: running text without extensions.
-/

namespace NotebookTree.Markdown

open Text (isBlank backslash)

/-- An inline that no extension adds, like all those in it. -/
inductive Inline.Basic : Inline → Prop
  | text (s : List Char) : Basic (.text s)
  | emphasis {children : List Inline} (h : ∀ i ∈ children, Basic i) : Basic (.emphasis children)
  | strong {children : List Inline} (h : ∀ i ∈ children, Basic i) : Basic (.strong children)
  | codespan (s : List Char) : Basic (.codespan s)
  | link (url : List Char) (title : Option (List Char))
      (reference : Option (List Char × List Char)) {children : List Inline}
      (h : ∀ i ∈ children, Basic i) : Basic (.link url title reference children)
  | image (url : List Char) (title : Option (List Char))
      (reference : Option (List Char × List Char)) {children : List Inline}
      (h : ∀ i ∈ children, Basic i) : Basic (.image url title reference children)
  | lineBreak : Basic .lineBreak
  | softBreak : Basic .softBreak
  | html (s : List Char) : Basic (.html s)

/-- A piece that no extension adds. -/
def Piece.Basic : Piece → Prop
  | .auto _ target => target.Basic
  | .done i => i.Basic
  | _ => True

variable {ps above below stack : List Piece} {defs : Definitions}

/-! ## The stack -/

/-- Plain text on top leaves basic pieces basic. -/
theorem pushPlain_basic (h : ∀ p ∈ ps, p.Basic) (s : List Char) :
    ∀ p ∈ pushPlain s ps, p.Basic := by
  unfold pushPlain
  split
  · exact List.forall_mem_cons.mpr ⟨trivial, (List.forall_mem_cons.mp h).2⟩
  · exact List.forall_mem_cons.mpr ⟨trivial, h⟩

/-- A basic piece on top leaves basic pieces basic. -/
theorem pushPiece_basic {p : Piece} (hp : p.Basic) (h : ∀ q ∈ stack, q.Basic) :
    ∀ q ∈ pushPiece p stack, q.Basic := by
  unfold pushPiece
  split
  · exact pushPlain_basic h _
  · exact List.forall_mem_cons.mpr ⟨hp, h⟩

/-- Pieces that are put on the stack one by one, each in a basic form. -/
theorem foldl_basic {step : List Piece → Piece → List Piece}
    (hstep : ∀ st p, (∀ q ∈ st, q.Basic) → p.Basic → ∀ q ∈ step st p, q.Basic) :
    ∀ {ps stack : List Piece}, (∀ p ∈ ps, p.Basic) → (∀ q ∈ stack, q.Basic) →
      ∀ q ∈ ps.foldl step stack, q.Basic := by
  intro ps
  induction ps with
  | nil => exact fun _ h => h
  | cons p ps ih =>
    intro stack hps hstack
    obtain ⟨hp, hrest⟩ := List.forall_mem_cons.mp hps
    exact ih hrest (hstep stack p hstack hp)

/-- Basic pieces put on top, one after another, leave basic pieces basic. -/
theorem foldl_pushPiece_basic (hps : ∀ p ∈ ps, p.Basic) (h : ∀ q ∈ stack, q.Basic) :
    ∀ q ∈ ps.foldl (fun st p => pushPiece p st) stack, q.Basic :=
  foldl_basic (fun _ _ hst hp => pushPiece_basic hp hst) hps h

/-- Brackets made plain leave basic pieces basic. -/
theorem plainBrackets_basic (h : ∀ p ∈ ps, p.Basic) : ∀ p ∈ plainBrackets ps, p.Basic := by
  intro p hp
  refine foldl_basic (fun st p hst hp => ?_) h (List.forall_mem_nil _) p (List.mem_reverse.mp hp)
  cases p with
  | opening image active behind => exact pushPlain_basic hst _
  | _ => exact pushPiece_basic hp hst

/-- Dropping links that were made of addresses leaves basic pieces basic. -/
theorem withoutAuto_basic (h : ∀ p ∈ ps, p.Basic) : ∀ p ∈ withoutAuto ps, p.Basic := by
  intro p hp
  refine foldl_basic (fun st p hst hp => ?_) h (List.forall_mem_nil _) p (List.mem_reverse.mp hp)
  cases p with
  | auto shown target => exact pushPlain_basic hst _
  | _ => exact pushPiece_basic hp hst

/-- Joining plain texts leaves basic pieces basic. -/
theorem joinPlain_basic : ∀ {ps stack : List Piece}, (∀ q ∈ stack, q.Basic) → (∀ p ∈ ps, p.Basic) →
    ∀ q ∈ joinPlain stack ps, q.Basic := by
  intro ps
  induction ps with
  | nil => exact fun h _ => h
  | cons p ps ih =>
    intro stack hstack hps
    obtain ⟨hp, hrest⟩ := List.forall_mem_cons.mp hps
    cases p with
    | marks run =>
      rw [joinPlain]
      refine ih ?_ hrest
      split
      · exact hstack
      · exact pushPlain_basic hstack _
    | _ => exact ih (pushPiece_basic hp hstack) hrest

/-! ## Pairing marks -/

/-- Without abbreviations, plain text is one inline. -/
theorem plainInlines_basic (hdefs : defs.abbreviations = []) (s : List Char) :
    ∀ i ∈ plainInlines defs s, i.Basic := by
  rw [plainInlines, hdefs]
  exact List.forall_mem_singleton.mpr (.text s)

/-- What stands inside a basic piece is basic, without abbreviations. -/
theorem inside_basic (hdefs : defs.abbreviations = []) {p : Piece} (hp : p.Basic) :
    ∀ i ∈ p.inside defs, i.Basic := by
  cases p with
  | plain r => exact plainInlines_basic hdefs _
  | marks run => exact List.forall_mem_singleton.mpr (.text _)
  | opening image active behind => exact List.forall_mem_singleton.mpr (.text _)
  | auto shown target => exact List.forall_mem_singleton.mpr hp
  | done i => exact List.forall_mem_singleton.mpr hp

/-- What stands inside basic pieces is basic, without abbreviations. -/
theorem flatMap_inside_basic (hdefs : defs.abbreviations = []) (h : ∀ p ∈ ps, p.Basic) :
    ∀ i ∈ ps.flatMap (Piece.inside defs), i.Basic := by
  intro i hi
  obtain ⟨p, hp, hi⟩ := List.mem_flatMap.mp hi
  exact inside_basic hdefs (h p hp) i hi

/-- Looking for the opener of a run of marks splits basic pieces into basic ones. -/
theorem findOpener_basic {closer run : MarkRun} {rest : List Piece} :
    ∀ {above : List Piece}, (∀ p ∈ above, p.Basic) → (∀ p ∈ stack, p.Basic) →
      findOpener closer above stack = some (ps, run, rest) →
      (∀ p ∈ ps, p.Basic) ∧ ∀ p ∈ rest, p.Basic := by
  induction stack with
  | nil => intro _ _ _ h; cases h
  | cons p below ih =>
    intro above habove hstack h
    obtain ⟨hp, hbelow⟩ := List.forall_mem_cons.mp hstack
    have hmore : ∀ q ∈ p :: above, q.Basic := List.forall_mem_cons.mpr ⟨hp, habove⟩
    cases p with
    | marks own =>
      rw [findOpener] at h
      split at h
      · cases h
        exact ⟨habove, hbelow⟩
      · exact ih hmore hbelow h
    | _ => exact ih hmore hbelow h

/-- A run of marks that closes makes emphasis of basic pieces. -/
theorem closeRun_basic (hdefs : defs.abbreviations = []) : ∀ (fuel : Nat) {stack : List Piece}
    {run : MarkRun}, (∀ p ∈ stack, p.Basic) → ∀ p ∈ closeRun defs fuel stack run, p.Basic := by
  intro fuel
  induction fuel with
  | zero => exact fun h => List.forall_mem_cons.mpr ⟨trivial, h⟩
  | succ fuel ih =>
    intro stack run h
    rw [closeRun]
    split
    · exact List.forall_mem_cons.mpr ⟨trivial, h⟩
    split
    · exact List.forall_mem_cons.mpr ⟨trivial, h⟩
    · rename_i above opener below hfound
      obtain ⟨habove, hbelow⟩ := findOpener_basic (List.forall_mem_nil _) h hfound
      -- what stands between the two runs is wrapped, and the rest of the run may close another
      refine ih (List.forall_mem_cons.mpr ⟨?_, List.forall_mem_cons.mpr ⟨trivial, hbelow⟩⟩)
      show Inline.Basic _
      split
      · exact .strong (flatMap_inside_basic hdefs habove)
      · exact .emphasis (flatMap_inside_basic hdefs habove)

/-- Pairing all marks leaves basic pieces basic. -/
theorem pairMarks_basic (hdefs : defs.abbreviations = []) : ∀ {ps stack : List Piece},
    (∀ q ∈ stack, q.Basic) → (∀ p ∈ ps, p.Basic) → ∀ q ∈ pairMarks defs stack ps, q.Basic := by
  intro ps
  induction ps with
  | nil => exact fun h _ => h
  | cons p ps ih =>
    intro stack hstack hps
    obtain ⟨hp, hrest⟩ := List.forall_mem_cons.mp hps
    cases p with
    | marks run =>
      rw [pairMarks]
      -- a run that may close is tried against the stack, any other waits on it
      refine ih ?_ hrest
      split
      · exact closeRun_basic hdefs _ hstack
      · exact List.forall_mem_cons.mpr ⟨trivial, hstack⟩
    | _ => exact ih (List.forall_mem_cons.mpr ⟨hp, hstack⟩) hrest

/-- A complete stretch of basic pieces becomes basic inlines. -/
theorem finish_basic (hdefs : defs.abbreviations = []) (h : ∀ p ∈ ps, p.Basic) :
    ∀ i ∈ finish defs ps, i.Basic := by
  have hpaired : ∀ p ∈ (pairMarks defs [] (plainBrackets ps)).reverse, p.Basic := fun p hp =>
    pairMarks_basic hdefs (List.forall_mem_nil _) (plainBrackets_basic h) p (List.mem_reverse.mp hp)
  unfold finish
  dsimp only
  split
  · exact List.forall_mem_singleton.mpr (.text [])
  · refine flatMap_inside_basic hdefs fun p hp => ?_
    exact joinPlain_basic (List.forall_mem_nil _) hpaired p (List.mem_reverse.mp hp)

/-! ## Brackets -/

/-- Looking for the opening bracket splits basic pieces into basic ones. -/
theorem splitOpening_basic {bracket : Bool × Bool × List Char} {rest : List Piece} :
    ∀ {above : List Piece}, (∀ p ∈ above, p.Basic) → (∀ p ∈ stack, p.Basic) →
      splitOpening above stack = some (ps, bracket, rest) →
      (∀ p ∈ ps, p.Basic) ∧ ∀ p ∈ rest, p.Basic := by
  induction stack with
  | nil => intro _ _ _ h; cases h
  | cons p below ih =>
    intro above habove hstack h
    obtain ⟨hp, hbelow⟩ := List.forall_mem_cons.mp hstack
    cases p with
    | opening image active behind =>
      cases h
      exact ⟨habove, hbelow⟩
    | _ => exact ih (List.forall_mem_cons.mpr ⟨hp, habove⟩) hbelow h

/-- Brackets that can open no link any more leave basic pieces basic. -/
theorem deactivate_basic (h : ∀ p ∈ ps, p.Basic) : ∀ p ∈ deactivate ps, p.Basic := by
  intro q hq
  obtain ⟨p, hp, rfl⟩ := List.mem_map.mp hq
  cases p with
  | opening image active behind => cases image <;> trivial
  | _ => exact h _ hp

/-- A closing bracket makes a link or an image of basic pieces, or stays plain. -/
theorem closeBracket_basic (hdefs : defs.abbreviations = []) (h : ∀ p ∈ stack, p.Basic)
    (rest : List Char) : ∀ p ∈ (closeBracket defs stack rest).1, p.Basic := by
  unfold closeBracket
  split
  · exact pushPlain_basic h _
  · rename_i above image active behind below hsplit
    obtain ⟨habove, hbelow⟩ := splitOpening_basic (List.forall_mem_nil _) h hsplit
    -- without a target the brackets are plain text around what stood between them
    have hliteral := pushPlain_basic
      (foldl_pushPiece_basic habove (pushPlain_basic hbelow (bracketText image))) [']']
    dsimp only
    split
    · exact hliteral
    split
    · exact hliteral
    split
    · exact List.forall_mem_cons.mpr ⟨.image _ _ _ (finish_basic hdefs habove), hbelow⟩
    · exact List.forall_mem_cons.mpr
        ⟨.link _ _ _ (finish_basic hdefs (withoutAuto_basic habove)), deactivate_basic hbelow⟩

/-! ## Steps -/

/-- A step that puts basic pieces on the stack, if it fits. -/
def Step.Basic (step : Step) : Prop := ∀ s, step = some s → ∀ p ∈ s.1, p.Basic

/-- An escape is basic. -/
theorem escapeStep_basic (cs : List Char) : Step.Basic (escapeStep cs) := by
  intro s hs
  unfold escapeStep at hs
  split at hs
  · split at hs
    · cases hs
      exact List.forall_mem_singleton.mpr .lineBreak
    · cases hs
  · cases hs
    exact List.forall_mem_singleton.mpr (.text _)

/-- A span of code is basic. -/
theorem codeStep_basic (cs : List Char) : ∀ p ∈ (codeStep cs).1, p.Basic := by
  unfold codeStep
  dsimp only
  split
  · exact List.forall_mem_singleton.mpr (.codespan _)
  · exact List.forall_mem_singleton.mpr trivial

/-- A run of marks is basic. -/
theorem marksStep_basic (before : Option Char) (c : Char) (cs : List Char) :
    ∀ p ∈ (marksStep before c cs).1, p.Basic := by
  unfold marksStep
  dsimp only
  split <;> exact List.forall_mem_singleton.mpr trivial

/-- The end of a line is basic. -/
theorem lineEndStep_basic (cs : List Char) : Step.Basic (lineEndStep cs) := by
  intro s hs
  unfold lineEndStep at hs
  dsimp only at hs
  split at hs
  · cases hs
    refine List.forall_mem_singleton.mpr ?_
    split
    · exact .lineBreak
    · exact .softBreak
  · cases hs

/-- What begins with an angle bracket is basic. -/
theorem angleStep_basic (anchored : Bool) (cs : List Char) : Step.Basic (angleStep anchored cs) := by
  -- inside a link an address stays plain text
  have hauto : ∀ url text shown : List Char,
      (if anchored then Piece.plain shown.reverse else autoPiece url text shown).Basic := by
    intro url text shown
    cases anchored with
    | true => trivial
    | false => exact .link _ _ _ (List.forall_mem_singleton.mpr (.text text))
  intro s hs
  unfold angleStep at hs
  dsimp only at hs
  split at hs
  · cases hs
    exact List.forall_mem_singleton.mpr (hauto _ _ _)
  split at hs
  · cases hs
    exact List.forall_mem_singleton.mpr (hauto _ _ _)
  · obtain ⟨p, -, rfl⟩ := Option.map_eq_some_iff.mp hs
    exact List.forall_mem_singleton.mpr (.html _)

/-- Plain text is basic. -/
theorem plainStep_basic (ctx : Context) (c : Char) (cs : List Char) :
    ∀ p ∈ (plainStep ctx c cs).1, p.Basic := by
  unfold plainStep
  split <;> exact List.forall_mem_singleton.mpr trivial

/-! ## Reading -/

/-- What is read is of some sort, and no note is referred to. -/
def ReadsQuietly {α : Type} (P : α → Prop) (reading : Reading α) : Prop :=
  ∀ keys, P (reading.run keys).1 ∧ (reading.run keys).2 = keys

section Quietly

variable {α β : Type} {P : α → Prop} {Q : β → Prop}

/-- A value handed on is read quietly. -/
theorem readsQuietly_pure {a : α} (h : P a) : ReadsQuietly P (pure a : Reading α) :=
  fun _ => ⟨h, rfl⟩

/-- A sequence is read quietly when both halves are. -/
theorem readsQuietly_bind {r : Reading α} {f : α → Reading β} (hr : ReadsQuietly P r)
    (hf : ∀ a, P a → ReadsQuietly Q (f a)) : ReadsQuietly Q (r >>= f) := by
  intro keys
  obtain ⟨ha, hkeys⟩ := hr keys
  obtain ⟨hb, hkeys'⟩ := hf _ ha (r.run keys).2
  exact ⟨hb, hkeys'.trans hkeys⟩

end Quietly

variable {inner : List Char → Reading (List Inline)}

/-- Without extensions, no character has a further construct. -/
theorem extensionStep_none (c : Char) (cs : List Char) :
    extensionStep ⟨[], defs⟩ inner c cs = pure none := by
  simp [extensionStep, Context.has, Context.reaches]

/-- Each step of the scanner reads basic pieces when there are no extensions. -/
theorem tokenStep_basic (anchored : Bool) (before : Option Char) (c : Char) (cs : List Char) :
    ReadsQuietly (fun s : List Piece × List Char => ∀ p ∈ s.1, p.Basic)
      (tokenStep ⟨[], defs⟩ inner anchored before c cs) := by
  have hdone : ∀ {reading : Reading Step}, ReadsQuietly Step.Basic reading → ReadsQuietly
      (fun s : List Piece × List Char => ∀ p ∈ s.1, p.Basic)
      (reading >>= fun step => pure (step.getD (plainStep ⟨[], defs⟩ c cs))) := by
    intro reading h
    refine readsQuietly_bind h fun step hstep => readsQuietly_pure ?_
    cases step with
    | none => exact plainStep_basic _ c cs
    | some s => exact hstep s rfl
  have hsome : ∀ s : List Piece × List Char, (∀ p ∈ s.1, p.Basic) → Step.Basic (some s) := by
    intro s h s' hs'
    exact Option.some.inj hs' ▸ h
  -- the characters that the rules start with, one after another; what none of them takes is plain
  unfold tokenStep
  dsimp only
  split
  · exact hdone (readsQuietly_pure (escapeStep_basic cs))
  split
  · exact hdone (readsQuietly_pure (hsome _ (codeStep_basic cs)))
  split
  · exact hdone (readsQuietly_pure (hsome _ (marksStep_basic before c cs)))
  split
  · exact hdone (readsQuietly_pure (angleStep_basic anchored cs))
  split
  · exact hdone (readsQuietly_pure (lineEndStep_basic (c :: cs)))
  · rw [extensionStep_none]
    exact hdone (readsQuietly_pure fun _ h => nomatch h)

/-- The reader's loop keeps the stack basic. -/
theorem scan_basic (hdefs : defs.abbreviations = []) : ∀ (fuel : Nat) {stack : List Piece}
    (anchored : Bool) (before : Option Char) (cs : List Char), (∀ p ∈ stack, p.Basic) →
    ReadsQuietly (fun ps => ∀ p ∈ ps, p.Basic)
      (scan ⟨[], defs⟩ inner fuel stack anchored before cs) := by
  intro fuel
  induction fuel with
  | zero => exact fun _ _ _ h => readsQuietly_pure h
  | succ fuel ih =>
    intro stack anchored before cs h
    cases cs with
    | nil => exact readsQuietly_pure h
    | cons c cs =>
      -- brackets are handled by the scanner itself, anything else by one step
      have hopening : ∀ image behind, ∀ p ∈ [Piece.opening image true behind], p.Basic :=
        fun _ _ => List.forall_mem_singleton.mpr trivial
      rw [scan]
      dsimp only
      split
      · exact ih _ _ _ (closeBracket_basic hdefs h cs)
      split
      · exact ih _ _ _ (foldl_pushPiece_basic (hopening _ _) h)
      split
      · exact ih _ _ _ (foldl_pushPiece_basic (hopening _ _) h)
      split
      · rename_i haddress
        simp [Context.reaches] at haddress
      · exact readsQuietly_bind (tokenStep_basic anchored before c cs) fun s hs =>
          ih _ _ _ (foldl_pushPiece_basic hs h)

/-- Running text without extensions is read into basic inlines, and refers to no note. -/
theorem readInlines_basic (hdefs : defs.abbreviations = []) (cs : List Char) :
    ReadsQuietly (fun is => ∀ i ∈ is, i.Basic) (readInlines ⟨[], defs⟩ cs) := by
  refine readsQuietly_bind (scan_basic hdefs _ _ _ _ (List.forall_mem_nil _)) fun stack hstack => ?_
  refine readsQuietly_pure (finish_basic hdefs fun p hp => ?_)
  exact hstack p (List.mem_reverse.mp hp)

end NotebookTree.Markdown

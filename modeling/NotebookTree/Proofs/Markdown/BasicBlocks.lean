import NotebookTree.Markdown.Document
import NotebookTree.Proofs.Markdown.BasicText

/-!
# Documents without extensions

Without extensions, a document is read into nothing but the basic blocks, and defines nothing but
link targets. All that has been read so far is basic, whatever line comes next: each rule keeps it
so, given that the parts of quotations and items are read in the same way, and the depth at which
parts nest carries that through.

## Main definitions

* `Block.Basic`, `Progress.Basic`: what no extension adds.
* `KeepsBasic`: a reader of parts under whose rules nothing else comes up.

## Main results

* `readBlocks_basic`: a document without extensions.
-/

namespace NotebookTree.Markdown

open Text (isBlank)

/-- A block that no extension adds, like all those in it. Lists hold items, and nothing else does. -/
inductive Block.Basic : Block → Prop
  | blankLine (count : Option Nat) : Basic (.blankLine count)
  | paragraph (text : List Char) : Basic (.paragraph text)
  | blockText (text : List Char) : Basic (.blockText text)
  | heading (level : Nat) (underlined : Bool) (text : List Char) :
    Basic (.heading level underlined text)
  | thematicBreak : Basic .thematicBreak
  | code (style : CodeStyle) (content : List Char) : Basic (.code style content)
  | quote {children : List Block} (h : ∀ b ∈ children, Basic b) : Basic (.quote children)
  | html (content : List Char) : Basic (.html content)
  | list (tight : Bool) (bullet : Char) (depth : Nat) (ordered : Bool) (start : Option Nat)
      {items : List (List Block)} (h : ∀ item ∈ items, ∀ b ∈ item, Basic b) :
    Basic (.list tight bullet depth ordered start (items.map .item))

/-- Progress with basic blocks, and no abbreviation defined. -/
structure Progress.Basic (p : Progress) : Prop where
  blocks : ∀ b ∈ p.blocks, b.Basic
  abbreviations : p.definitions.abbreviations = []

/-- Rules without extensions. -/
structure Rules.Basic (r : Rules) : Prop where
  extensions : r.extensions = []
  spoilers : r.spoilers = false

/-- A reader of parts that reads basic blocks under rules without extensions, and defines no
abbreviation. -/
def KeepsBasic (part : PartReader) : Prop :=
  ∀ (r : Rules) (defs : Definitions) (ls : List Line), r.Basic → defs.abbreviations = [] →
    (∀ b ∈ (part r defs ls).1, b.Basic) ∧ (part r defs ls).2.abbreviations = []

/-! ## Progress -/

namespace Progress

variable {p p' : Progress}

/-- A basic block can be put on top of basic ones. -/
theorem Basic.push (h : p.Basic) {b : Block} (hb : b.Basic) : (p.push b).Basic :=
  ⟨List.forall_mem_cons.mpr ⟨hb, h.blocks⟩, h.abbreviations⟩

/-- A basic block can be put below the latest ones. -/
theorem Basic.insertBelow (h : p.Basic) {b : Block} (hb : b.Basic) (count : Nat) :
    (p.insertBelow count b).Basic := by
  refine ⟨fun c hc => ?_, h.abbreviations⟩
  obtain hc | hc := List.mem_append.mp hc
  · exact h.blocks c (List.mem_of_mem_take hc)
  · obtain rfl | hc := List.mem_cons.mp hc
    · exact hb
    · exact h.blocks c (List.mem_of_mem_drop hc)

/-- The definitions may change as long as no abbreviation comes in. -/
theorem Basic.define (h : p.Basic) {defs : Definitions} (hdefs : defs.abbreviations = []) :
    Basic { p with definitions := defs } :=
  ⟨h.blocks, hdefs⟩

/-- A line that goes on with a paragraph leaves it one. -/
theorem Basic.extend? (h : p.Basic) {l : Line} (hp : p.extend? l = some p') : p'.Basic := by
  unfold Progress.extend? at hp
  split at hp
  · rename_i text bs hblocks
    cases hp
    have hbs := h.blocks
    rw [hblocks] at hbs
    exact ⟨List.forall_mem_cons.mpr ⟨.paragraph _, (List.forall_mem_cons.mp hbs).2⟩,
      h.abbreviations⟩
  · cases hp

/-- A line of text makes or goes on with a paragraph. -/
theorem Basic.addLine (h : p.Basic) (l : Line) : (p.addLine l).Basic := by
  unfold Progress.addLine
  cases hp : p.extend? l with
  | none => exact h.push (.paragraph _)
  | some p' => exact h.extend? hp

end Progress

section Rules

variable {p p' : Progress} {r : Rules} {part : PartReader} {rest rest' : List Line}

/-! ## Blocks without parts -/

/-- A fenced block of code is basic. -/
theorem readFenced_basic (h : p.Basic) (f : Fence) (rest : List Line) :
    (readFenced p f rest).1.Basic :=
  h.push (.code _ _)

/-- An indented block of code is basic. -/
theorem readIndented_basic (h : p.Basic) (l : Line) (rest : List Line) :
    (readIndented p l rest).1.Basic := by
  unfold readIndented
  split
  · rename_i p' hp
    exact h.extend? hp
  · exact h.push (.code _ _)

/-- Blank lines are basic. -/
theorem readBlank_basic (h : p.Basic) (rest : List Line) : (readBlank p rest).1.Basic :=
  h.push (.blankLine none)

/-- A block of markup is basic. -/
theorem readMarkupBlock_basic (h : p.Basic) (start : MarkupStart) (l : Line) (rest : List Line) :
    (readMarkupBlock p start l rest).1.Basic := by
  cases start with
  | upTo needle behind =>
    simp only [readMarkupBlock]
    split <;> exact h.push (.html _)
  | upToBlank => exact h.push (.html _)
  | lone closing behind =>
    simp only [readMarkupBlock]
    split
    · rename_i p' hp
      exact h.extend? hp
    · exact h.push (.html _)

/-- A heading with a line below it is basic. -/
theorem underlined?_basic (h : p.Basic) {l : Line} (hp : underlined? p l = some p') :
    p'.Basic := by
  unfold underlined? at hp
  split at hp
  · rename_i level text bs hlevel hblocks
    cases hp
    have hbs := h.blocks
    rw [hblocks] at hbs
    exact ⟨List.forall_mem_cons.mpr ⟨.heading _ _ _, (List.forall_mem_cons.mp hbs).2⟩,
      h.abbreviations⟩
  · cases hp

/-- A definition adds a link target, or its line goes to the paragraph above. -/
theorem readLinkDefinition_basic (h : p.Basic) {l : Line}
    (hp : readLinkDefinition p l rest = some (p', rest')) : p'.Basic := by
  unfold readLinkDefinition at hp
  split at hp
  · rename_i q hq
    cases hp
    exact h.extend? hq
  · obtain ⟨d, -, hd⟩ := Option.map_eq_some_iff.mp hp
    cases hd
    exact h.define h.abbreviations

/-! ## Quotations and lists -/

/-- The rules inside quotes and lists are basic when those outside are. -/
theorem Rules.Basic.inside (h : r.Basic) (quotes lists : Bool) : (r.inside quotes lists).Basic :=
  ⟨rfl, h.spoilers⟩

/-- A quote is basic when its part is read to basic blocks. -/
theorem quoteBlock_basic (hpart : KeepsBasic part) (hr : r.Basic) {defs : Definitions}
    (hdefs : defs.abbreviations = []) (body : List QuoteLine) :
    (quoteBlock part r defs body).1.Basic ∧
      (quoteBlock part r defs body).2.abbreviations = [] := by
  have hinner : Rules.Basic { r.inside (r.depth + 1 < maxDepth) true with
      bare := bareUnderlines body } := ⟨rfl, hr.spoilers⟩
  obtain ⟨hblocks, hdefs'⟩ := hpart _ _ (body.map QuoteLine.text) hinner hdefs
  simp only [quoteBlock, hr.spoilers, Bool.false_and, Bool.false_eq_true, if_false, Option.getD_none,
    Option.isSome_none]
  exact ⟨.quote hblocks, hdefs'⟩

/-- The blocks of a tight item are basic when they were before. -/
theorem tighten_basic {bs : List Block} (h : ∀ b ∈ bs, b.Basic) : ∀ b ∈ tighten bs, b.Basic := by
  intro b hb
  obtain ⟨c, hc, rfl⟩ := List.mem_map.mp hb
  split
  · exact .blockText _
  · exact h c hc

/-- What has been found of a list is basic. -/
structure ListExtent.Basic (e : ListExtent) : Prop where
  items : ∀ item ∈ e.items, ∀ b ∈ item, b.Basic
  abbreviations : e.definitions.abbreviations = []

/-- The items of a list are read to basic blocks, from any number of them to come. -/
theorem readItems_basic (hpart : KeepsBasic part) (hr : r.Basic) : ∀ (fuel : Nat) (start : ItemStart)
    (loose : Bool) {defs : Definitions} (rest : List Line), defs.abbreviations = [] →
    (readItems part r p fuel start loose defs rest).Basic := by
  intro fuel
  induction fuel with
  | zero => exact fun _ _ _ _ hdefs => ⟨List.forall_mem_nil _, hdefs⟩
  | succ fuel ih =>
    intro start loose defs rest hdefs
    rw [readItems]
    dsimp only
    split
    · exact ⟨List.forall_mem_nil _, hdefs⟩
    · obtain ⟨hblocks, hdefs'⟩ := hpart r defs _ hr hdefs
      obtain ⟨hitems, hlast⟩ := ih _ _ _ hdefs'
      exact ⟨List.forall_mem_cons.mpr ⟨hblocks, hitems⟩, hlast⟩

/-- A list is basic when its items are, tight or loose. -/
theorem listBlock_basic (hpart : KeepsBasic part) (hr : r.Basic) (depth : Nat) (start : ItemStart)
    {extent : ListExtent} (hextent : extent.Basic) {defs : Definitions}
    (hdefs : defs.abbreviations = []) :
    (listBlock part r depth start extent defs).1.Basic ∧
      (listBlock part r depth start extent defs).2.abbreviations = [] := by
  obtain ⟨hblocks, hdefs'⟩ := hpart r defs extent.last hr hdefs
  refine ⟨?_, hdefs'⟩
  unfold listBlock
  dsimp only
  generalize hloose : (extent.loose || isLoose (part r defs extent.last).1) = loose
  -- the items are tightened first and made blocks then, so that tightening can be looked at alone
  have hsplit : (extent.items ++ [(part r defs extent.last).1]).map
      (fun bs => Block.item (if loose then bs else tighten bs)) =
      ((extent.items ++ [(part r defs extent.last).1]).map
        (fun bs => if loose then bs else tighten bs)).map Block.item := by
    rw [List.map_map]
    rfl
  rw [hsplit]
  refine .list _ _ _ _ _ fun item hitem => ?_
  obtain ⟨bs, hbs, rfl⟩ := List.mem_map.mp hitem
  have hbasic : ∀ b ∈ bs, b.Basic := by
    obtain hbs | hbs := List.mem_append.mp hbs
    · exact hextent.items bs hbs
    · exact List.mem_singleton.mp hbs ▸ hblocks
  cases loose with
  | true => exact hbasic
  | false => exact tighten_basic hbasic

/-- What a line opens is basic, with all that is opened where it ends. -/
theorem readOpening_basic (hpart : KeepsBasic part) (hr : r.Basic) : ∀ (fuel : Nat) {p : Progress}
    (opening : Opening) (l : Line) (rest : List Line), p.Basic →
    (readOpening part r fuel p opening l rest).1.Basic := by
  intro fuel
  induction fuel with
  | zero => exact fun _ _ _ h => h
  | succ fuel ih =>
    intro p opening l rest h
    -- only a quote and a list read other blocks; there the line that ends them may open another
    -- block
    cases opening with
    | blank => exact readBlank_basic h rest
    | thematicBreak => exact h.push .thematicBreak
    | fence f => exact readFenced_basic h f rest
    | heading level text => exact h.push (.heading _ _ _)
    | markup start => exact readMarkupBlock_basic h start l rest
    | quote behind =>
      rw [readOpening]
      dsimp only
      cases (extractQuote p behind rest).2 with
      | close left =>
        obtain ⟨hblock, hdefs⟩ := quoteBlock_basic hpart hr h.abbreviations
          (extractQuote p behind rest).1
        exact (h.insertBelow hblock 0).define hdefs
      | opened next k left =>
        have hnext := ih next k left h
        obtain ⟨hblock, hdefs⟩ := quoteBlock_basic hpart hr hnext.abbreviations
          (extractQuote p behind rest).1
        exact (hnext.insertBelow hblock 1).define hdefs
    | item start =>
      rw [readOpening]
      split
      · rename_i p' hweak
        split at hweak
        · exact h.extend? hweak
        · cases hweak
      · have hinner := hr.inside true (r.depth + 1 < maxDepth)
        have hextent := readItems_basic (p := p) hpart hinner (rest.length + 1) start false rest
          h.abbreviations
        have hfound : Progress.Basic { p with definitions := (readItems part _ p (rest.length + 1)
            start false p.definitions rest).definitions } := h.define hextent.abbreviations
        dsimp only
        split
        · obtain ⟨hblock, hdefs⟩ := listBlock_basic hpart hinner r.depth start hextent
            hfound.abbreviations
          exact (hfound.insertBelow hblock _).define hdefs
        · rename_i next k left hending
          have hnext := ih next k left hfound
          obtain ⟨hblock, hdefs⟩ := listBlock_basic hpart hinner r.depth start hextent
            hnext.abbreviations
          exact (hnext.insertBelow hblock _).define hdefs

/-! ## Lines -/

/-- One line: whichever rule takes it. -/
theorem readStep_basic (hpart : KeepsBasic part) (hr : r.Basic) (h : p.Basic) {l : Line}
    (hp : readStep part r p l rest = some (p', rest')) : p'.Basic := by
  have hopen : ∀ o, some (readOpening part r (rest.length + 2) p o l rest) = some (p', rest') →
      p'.Basic := by
    intro o ho
    have hbasic := readOpening_basic hpart hr (rest.length + 2) o l rest h
    rwa [Option.some.inj ho] at hbasic
  unfold readStep at hp
  simp only [hr.extensions, List.contains_nil, Bool.false_eq_true, if_false] at hp
  -- The rules one after the other, as they are tried.
  split at hp
  · split at hp
    · exact hopen _ hp
    · cases hp
  split at hp
  · have hbasic := readIndented_basic h l rest
    rwa [Option.some.inj hp] at hbasic
  split at hp
  · exact hopen _ hp
  split at hp
  · cases hp
  split at hp
  · rename_i q hq
    cases hp
    exact underlined?_basic h hq
  split at hp
  · split at hp
    · exact hopen _ hp
    split at hp
    · exact hopen _ hp
    · cases hp
  split at hp
  · exact hopen _ hp
  split at hp
  · exact hopen _ hp
  split at hp
  · exact hopen _ hp
  split at hp
  · exact readLinkDefinition_basic h hp
  split at hp
  · split at hp
    · exact hopen _ hp
    · cases hp
  split at hp
  · exact hopen _ hp
  · cases hp

/-- Lines one after the other: a line that no rule takes goes to a paragraph. -/
theorem readLines_basic (hpart : KeepsBasic part) (hr : r.Basic) : ∀ (fuel : Nat) {p : Progress}
    (ls : List Line), p.Basic → (readLines part r fuel p ls).Basic := by
  intro fuel
  induction fuel with
  | zero => exact fun _ h => h
  | succ fuel ih =>
    intro p ls h
    cases ls with
    | nil => exact h
    | cons l rest =>
      rw [readLines]
      cases hstep : readStep part r p l rest with
      | none => exact ih rest (h.addLine l)
      | some next => exact ih next.2 (readStep_basic hpart hr h hstep)

end Rules

/-- What is read of the blank lines in front is basic. -/
theorem readLeadingBlank_basic (ls : List Line) : ∀ b ∈ (readLeadingBlank ls).1, b.Basic := by
  unfold readLeadingBlank
  split
  · dsimp only
    split
    · exact List.forall_mem_nil _
    · exact List.forall_mem_singleton.mpr (.blankLine _)
  · exact List.forall_mem_nil _

/-- Parts are read like the whole, however deep they nest. -/
theorem readPart_basic (fuel : Nat) : KeepsBasic (readPart fuel) := by
  induction fuel with
  | zero =>
    exact fun _ _ ls _ hdefs => ⟨List.forall_mem_singleton.mpr (.paragraph (Text.unlines ls)), hdefs⟩
  | succ fuel ih =>
    intro r defs ls hr hdefs
    have hstart : Progress.Basic ⟨(readLeadingBlank ls).1, defs⟩ :=
      ⟨readLeadingBlank_basic ls, hdefs⟩
    obtain ⟨hblocks, habbreviations⟩ := readLines_basic ih hr
      ((readLeadingBlank ls).2.length + 1) (readLeadingBlank ls).2 hstart
    exact ⟨fun b hb => hblocks b (List.mem_reverse.mp hb), habbreviations⟩

/-- A document without extensions consists of basic blocks, and defines no abbreviation. -/
theorem readBlocks_basic (depth : Nat) {defs : Definitions} (hdefs : defs.abbreviations = [])
    (ls : List Line) :
    (∀ b ∈ (readBlocks [] depth defs ls).1, b.Basic) ∧
      (readBlocks [] depth defs ls).2.abbreviations = [] :=
  readPart_basic (weight ls + 1) (topRules [] depth) defs ls ⟨rfl, rfl⟩ hdefs

end NotebookTree.Markdown

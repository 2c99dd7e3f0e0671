import Mathlib.Data.List.Sort
import NotebookTree.Proofs.Markdown.Vacant.Source
import NotebookTree.Proofs.Notebook.CellRules

/-!
# Empty cells, with Markdown read or not

Whether a Markdown cell is empty is asked in two ways. Its text is blank, as long as it has not been
read; once it has, it has no block other than blank lines. The two answers are not the same for all
texts. They differ for texts that are not blank but vacant, such as those of link definitions, and
for blank ones that are not vacant. These are the only cells that the rule against empty cells drops
from the one tree of a notebook and not from the other.

## Main definitions

* `LeftAt`: the positions at which the rule leaves cells of a tree.
* `KeptUnread`, `KeptRead`: the texts of which a cell is kept in one of the two trees only.

## Main results

* `removeEmpty_positions`: where the cells are that are left, with Markdown read or not.
-/

namespace NotebookTree

open Store (Holds Refreshes)
open Walk (outcome outcome_bind_ok outcome_children outcome_itemsOf)

/-! ## The rule on its own -/

section Rule

variable {σ : Type} {s : Scene σ} {root : NodeId} {row : RowId} {cells : List Held} {limit : Nat}

/-- The rule against empty cells leaves the root the cells with content. For this alone the tags of
cells may be anything. -/
theorem CellRule.outcome_transform_removeEmpty
    (hc : s.store.HasChildren root row (cells.map Held.item))
    (htype : s.store.attribute? (.node root) "type" = some (.plain (.text "root")))
    (hholds : ∀ q ∈ cells, Holds s.store q) (hlegible : ∀ q ∈ cells, q.tree.Legible)
    (hquiet : ∀ q ∈ cells, Quiet "root" s.store limit q.item) (reverse : Bool) :
    ∃ next row', outcome (Walk.transform (limit + 1) (.node root)
        (CellRule.callback .removeEmpty) reverse) s = (.ok (.node root), next) ∧
      next.store.HasChildren root row'
        ((cells.filter fun q => q.tree.hasContent).map Held.item) := by
  have hrule : removeEmpty.isFilter = true := rfl
  obtain ⟨refreshed, hrefreshed, hrun⟩ := outcome_transform hc htype
    (List.forall_mem_map.mpr hquiet) hrule reverse
  obtain ⟨row', hc'⟩ := hrefreshed.hasChildren hc
  -- the test reads off the tree of a cell, wherever the store still has what it was loaded from
  have htests : ∀ i ∈ cells.map Held.item, outcome (Walk.hasContent i) { s with store := refreshed } =
      (.ok (s.store.view i).hasContent, { s with store := refreshed }) := by
    refine List.forall_mem_map.mpr fun q hq => ?_
    obtain ⟨c, others, hchildren, -⟩ := hlegible q hq
    have hshows : ShowsContent refreshed q.item q.tree :=
      .of_holds (hholds q hq) hrefreshed hchildren (fun _ _ _ _ heq => heq ▸ rfl)
        fun _ _ _ _ _ _ _ heq => heq
    rw [(hholds q hq).view, Walk.outcome_hasContent hshows (hlegible q hq)]
  have hkept : (cells.map Held.item).filter (fun i => (s.store.view i).hasContent) =
      (cells.filter fun q => q.tree.hasContent).map Held.item := by
    rw [List.filter_map]
    refine congrArg _ (List.filter_congr fun q hq => ?_)
    rw [Function.comp_apply, (hholds q hq).view]
  obtain ⟨last, row'', hkeep, hleft⟩ : ∃ last row'',
      outcome (Walk.keepCells (.node root) Walk.hasContent) { s with store := refreshed } =
        (.ok (), { s with store := last }) ∧
      last.HasChildren root row'' ((cells.filter fun q => q.tree.hasContent).map Held.item) :=
    ⟨_, _, hkept ▸ Walk.outcome_keepCells hc' htests, Store.hasChildren_withChildren hc'.knows _⟩
  have happly : ∃ next : Scene σ, outcome (removeEmpty.applyToRoot (.node root))
      { s with store := refreshed } = (.ok (), next) ∧ next.store = last := by
    rw [applyToRoot, outcome_bind_ok (outcome_children hc'), outcome_bind_ok (outcome_itemsOf hc'),
      outcome_bind_ok hkeep, outcome_bind_ok (outcome_children (s := { s with store := last }) hleft),
      outcome_bind_ok (outcome_itemsOf (s := { s with store := last }) hleft)]
    exact ⟨_, rfl, rfl⟩
  obtain ⟨next, hnext, rfl⟩ := happly
  exact ⟨next, row'', hrun next hnext, hleft⟩

/-! ## Positions -/

/-- The rule against empty cells, in a transform of a tree that has been loaded, comes back to the
root, and leaves those of its children that stand at the given positions, in this order. -/
def LeftAt (limit : Nat) (reverse : Bool) (tree : Value) (s : Scene σ) (positions : List Nat) :
    Prop :=
  ∃ id row items next row' left, (s.store.load tree).1 = .node id ∧
    (s.store.load tree).2.HasChildren id row items ∧ items.Nodup ∧
    items.length = (tree.children?.getD []).length ∧
    outcome (Walk.transform limit (.node id) (CellRule.callback .removeEmpty) reverse)
      { s with store := (s.store.load tree).2 } = (.ok (.node id), next) ∧
    next.store.HasChildren id row' left ∧ left.map some = positions.map (items[·]?)

/-- In a list without repetitions there is one way to say where some of it stands. -/
theorem eq_of_map_getElem? {α : Type} {xs : List α} (hnodup : xs.Nodup) :
    ∀ {ys : List α} {positions others : List Nat}, ys.map some = positions.map (xs[·]?) →
      ys.map some = others.map (xs[·]?) → positions = others
  | [], positions, others, h, h' => by
    rw [List.map_eq_nil_iff.mp h.symm, List.map_eq_nil_iff.mp h'.symm]
  | y :: ys, positions, others, h, h' => by
    obtain ⟨i, is, rfl, hi, his⟩ := List.map_eq_cons_iff.mp h.symm
    obtain ⟨j, js, rfl, hj, hjs⟩ := List.map_eq_cons_iff.mp h'.symm
    obtain ⟨hlt, -⟩ := List.getElem?_eq_some_iff.mp hi
    rw [(List.getElem?_inj hlt hnodup).mp (hi.trans hj.symm),
      eq_of_map_getElem? hnodup his.symm hjs.symm]

/-- There is one answer to where cells are left. -/
theorem LeftAt.unique {reverse : Bool} {tree : Value} {positions others : List Nat}
    (h : LeftAt limit reverse tree s positions) (h' : LeftAt limit reverse tree s others) :
    positions = others := by
  obtain ⟨id, row, items, next, row', left, hid, hc, hnodup, -, hrun, hleft, hat⟩ := h
  obtain ⟨id', _, items', next', _, left', hid', hc', -, -, hrun', hleft', hat'⟩ := h'
  obtain rfl := Item.node.inj (hid.symm.trans hid')
  obtain ⟨-, rfl⟩ := hc.unique hc'
  obtain rfl := (Prod.mk.inj (hrun.symm.trans hrun')).2
  obtain ⟨-, rfl⟩ := hleft.unique hleft'
  exact eq_of_map_getElem? hnodup hat hat'

/-- The places that are found are those whose item passes. -/
theorem mem_findIdxs {α : Type} {p : α → Bool} {xs : List α} {i : Nat} :
    i ∈ xs.findIdxs p ↔ ∃ x, xs[i]? = some x ∧ p x = true := by
  rw [List.mem_findIdxs_iff_exists_getElem_pos]
  simp [List.getElem?_eq_some_iff]

/-- What stands at the positions at which a test holds is what passes it. -/
theorem map_findIdxs {α β : Type} (f : α → β) (p : α → Bool) (xs : List α) :
    (xs.findIdxs p).map ((xs.map f)[·]?) = ((xs.filter p).map f).map some := by
  induction xs with
  | nil => rfl
  | cons x xs ih =>
    have hrest : (xs.findIdxs p 1).map (((x :: xs).map f)[·]?) = ((xs.filter p).map f).map some := by
      rw [List.findIdxs_start, List.map_map, ← ih]
      rfl
    rw [List.findIdxs_cons, List.filter_cons]
    split
    · rw [List.map_cons, Nat.zero_add, hrest]
      rfl
    · exact hrest

/-- Of a tree that is held the rule leaves the cells with content. -/
theorem leftAt_of_levels {tree : Value} {trees : List Value} (htree : IsTree tree)
    (htype : tree.type? = some (.text "root")) (hchildren : tree.children? = some trees)
    (hcells : ∀ c ∈ trees, c.Legible ∧ FreeOf "root" c) (hlimit : tree.levels ≤ limit)
    (reverse : Bool) (s : Scene σ) :
    LeftAt limit reverse tree s (trees.findIdxs Value.hasContent) := by
  obtain ⟨ids, hholds, -, -⟩ := Store.load_holds htree s.store
  obtain ⟨id, row, cells, hitem, rfl, hc, hparts, hnodup⟩ := hholds.exists_parts hchildren
  have hroot : (s.store.load tree).2.attribute? (.node id) "type" =
      some (.plain (.text "root")) := by
    rw [← hitem, hholds.attribute? (by decide), ← Value.type?, htype, Option.map_some]
  have hcell : ∀ q ∈ cells, q.tree.Legible ∧ FreeOf "root" q.tree := fun q hq =>
    hcells q.tree (List.mem_map_of_mem hq)
  have hlevels : ∀ q ∈ cells, q.tree.levels < limit := fun q hq =>
    Nat.lt_of_lt_of_le (htree.levels_lt (by rw [hchildren]; exact List.mem_map_of_mem hq)) hlimit
  obtain ⟨limit, rfl⟩ : ∃ n, limit = n + 1 := by
    have hpos := htree.levels_pos
    exact ⟨limit - 1, by omega⟩
  -- the rule answers the root alone, which no cell holds, so the cells stay as they are loaded
  have hquiet : ∀ q ∈ cells, Quiet "root" (s.store.load tree).2 limit q.item := fun q hq =>
    .of_holds (hparts q hq) (hcell q hq).2 (Nat.le_of_lt_succ (hlevels q hq))
  obtain ⟨next, row', hrun, hleft⟩ := CellRule.outcome_transform_removeEmpty
    (s := { s with store := (s.store.load tree).2 }) hc hroot hparts
    (fun q hq => (hcell q hq).1) hquiet reverse
  refine ⟨id, row, _, next, row', _, hitem, hc, hnodup, ?_, hrun, hleft, ?_⟩
  · rw [hchildren, List.length_map, Option.getD_some, List.length_map]
  · rw [List.findIdxs_map, map_findIdxs]
    rfl

end Rule

namespace Notebook

open Markdown (Vacant sourceLines readDocument elementsOf isIndentedCode isPlainBlank)
open Settings (withMarkdown)

variable {settings language : Value} {files : Folder} {source : Source} {root tree : Value}
  {log log' : List Log.Entry}

/-- Of a notebook that has been read the rule leaves the cells with content. -/
theorem leftAt_of_read {σ : Type} (hread : (read files settings source).outcome = (.ok root, log))
    {limit : Nat} (hlimit : root.levels ≤ limit) (reverse : Bool) (s : Scene σ) :
    LeftAt limit reverse root s ((root.children?.getD []).findIdxs Value.hasContent) := by
  have htree := isTree_of_read hread
  obtain ⟨options, es, path, entries, language, cells, -, -, -, -, rfl, hshapes, -⟩ :=
    read_cases hread
  refine leftAt_of_levels htree rfl rfl (fun c hc => ?_) hlimit reverse s
  obtain ⟨v, -, hof⟩ := exists_of_forall₂_of_mem hshapes hc
  exact ⟨legible_cell hof, freeOf_root_of_cellOf hof⟩

/-! ## The two answers -/

/-- A text of which a Markdown cell is kept only as long as it has not been read: there is something
in it, but its lines are vacant. -/
def KeptUnread (text : String) : Prop :=
  (∃ c ∈ text.toList, Text.isBlank c = false) ∧ Vacant (sourceLines text.toList)

/-- A text of which a Markdown cell is kept only once it has been read: it is blank, but its first
line counts as code, or there are blanks in it that are not among those of blank lines. -/
def KeptRead (text : String) : Prop :=
  (∀ c ∈ text.toList, Text.isBlank c = true) ∧
    (isIndentedCode ((sourceLines text.toList).headD []) = true ∨
      ∃ c ∈ text.toList, isPlainBlank c = false)

/-- A text is blank if nothing is left of it without the blanks at its ends. -/
theorem isEmpty_trim {cs : List Char} :
    (Text.trim cs).isEmpty = true ↔ ∀ c ∈ cs, Text.isBlank c = true := by
  rw [List.isEmpty_iff, Text.trim, Text.strip, Text.stripEnd, List.reverse_eq_nil_iff,
    List.dropWhile_eq_nil_iff, Text.stripStart]
  refine ⟨fun h => ?_, fun h c hc => h c ((List.dropWhile_suffix _).mem (List.mem_reverse.mp hc))⟩
  -- what is left at the front would start with something else
  have hfirst := List.head?_dropWhile_not Text.isBlank cs
  cases hdrop : cs.dropWhile Text.isBlank with
  | nil => exact List.dropWhile_eq_nil_iff.mp hdrop
  | cons c rest =>
    rw [hdrop] at hfirst h
    have hblank := h c (List.mem_reverse.mpr List.mem_cons_self)
    rw [hfirst] at hblank
    cases hblank

/-- An unread cell of Markdown has content when its text is not blank. -/
theorem hasContent_unread (text : String) (metadata : Value) :
    (bare .markdownCell [("children", .list [unread text]), ("metadata", metadata)]).hasContent =
      !(Text.trim text.toList).isEmpty := rfl

/-- A cell of Markdown that was read has content when some block is no blank line. -/
theorem hasContent_read (elements : List Value) (data metadata : Value) :
    (bare .markdownCell [("children", .list [.node .parsedMarkdown [("children", .list elements),
        ("data", data), ("position", .null)]]), ("metadata", metadata)]).hasContent =
      elements.any fun e => !e.hasType "blank_line" := rfl

/-- What is asked of the node for an entry, with Markdown read or not. Only for a Markdown cell it is
not the same. -/
theorem hasContent_cases {v c c' : Value}
    (h : CellOf (Settings.usual .parseSettings) language v c)
    (h' : CellOf (withMarkdown .null) language v c') :
    (markdownText? c = none ∧ c'.hasContent = c.hasContent) ∨
      ∃ text : String, markdownText? c = some (.text text) ∧
        c.hasContent = !(Text.trim text.toList).isEmpty ∧
        c'.hasContent = (elementsOf (readDocument [] text.toList)).any
          fun e => !e.hasType "blank_line" := by
  cases h with
  | code type =>
    cases h' with
    | code => exact .inl ⟨rfl, rfl⟩
    | markdown type' => rw [type] at type'; simp at type'
    | other notCode => exact absurd type notCode
  -- a cell of another sort is made alike; one of Markdown has a text here and blocks there
  | markdown type holds =>
    cases h' with
    | code type' => rw [type] at type'; simp at type'
    | other _ notMarkdown => exact absurd type notMarkdown
    | markdown _ holds' =>
      rw [contentOf_usual holds]
      cases holds' with
      | unread asked no =>
        obtain rfl := Except.ok.inj asked
        cases no
      | read _ _ chosen parsed =>
        obtain rfl := Except.ok.inj chosen
        have hnone : Markdown.extensionsFor .null = .ok [] := rfl
        rw [elementsFor_of_extensions hnone] at parsed
        obtain rfl := Except.ok.inj parsed
        exact .inr ⟨_, rfl, hasContent_unread _ _, hasContent_read _ _ _⟩
  | other notCode notMarkdown =>
    cases h' with
    | code type => exact absurd type notCode
    | markdown type => exact absurd type notMarkdown
    | other => exact .inl ⟨rfl, rfl⟩

/-- A cell is kept in the one tree and not in the other, or the other way round, for the texts that
the names say. -/
theorem hasContent_differs {v c c' : Value}
    (h : CellOf (Settings.usual .parseSettings) language v c)
    (h' : CellOf (withMarkdown .null) language v c') :
    ((c.hasContent = true ∧ c'.hasContent = false) ↔
      ∃ text : String, markdownText? c = some (.text text) ∧ KeptUnread text) ∧
    ((c.hasContent = false ∧ c'.hasContent = true) ↔
      ∃ text : String, markdownText? c = some (.text text) ∧ KeptRead text) := by
  obtain ⟨hnone, hsame⟩ | ⟨text, htext, hcontent, hcontent'⟩ := hasContent_cases h h'
  · rw [hnone, hsame]
    simp
  · -- both sides are said by the text: blank here, and no block but blank lines there
    have hblank : c.hasContent = false ↔ ∀ d ∈ text.toList, Text.isBlank d = true := by
      rw [hcontent, ← isEmpty_trim, Bool.not_eq_false']
    have hvacant : c'.hasContent = false ↔ Vacant (sourceLines text.toList) := by
      rw [hcontent', Markdown.any_elements_iff]
    have hsome : c.hasContent = true ↔ ∃ d ∈ text.toList, Text.isBlank d = false := by
      rw [← Bool.not_eq_false, hblank]
      simp
    have hsolid : c'.hasContent = true ↔ ¬ Vacant (sourceLines text.toList) := by
      rw [← Bool.not_eq_false, hvacant]
    simp only [htext, Option.some.injEq, Value.text.injEq, exists_eq_left', KeptUnread, KeptRead,
      hblank, hvacant, hsome, hsolid, true_and]
    refine and_congr_right fun hall => ?_
    rw [Markdown.vacant_iff_of_blank hall, not_and_or]
    simp

/-! ## Positions in both trees -/

/-- Related lists have related items at each place, or none on both sides. -/
theorem forall₂_getElem? {α β : Type} {R : α → β → Prop} {as : List α} {bs : List β}
    (h : List.Forall₂ R as bs) (i : Nat) :
    (as[i]? = none ∧ bs[i]? = none) ∨ ∃ a b, as[i]? = some a ∧ bs[i]? = some b ∧ R a b := by
  induction h generalizing i with
  | nil => exact .inl ⟨rfl, rfl⟩
  | cons hab _ ih =>
    cases i with
    | zero => exact .inr ⟨_, _, rfl, rfl, hab⟩
    | succ i => exact ih i

/-- At each position both trees of a notebook have a cell for the same entry, or neither has one. -/
theorem getElem?_cases (hread : (read files .null source).outcome = (.ok root, log))
    (hread' : (read files (withMarkdown .null) source).outcome = (.ok tree, log')) (i : Nat) :
    ((root.children?.getD [])[i]? = none ∧ (tree.children?.getD [])[i]? = none) ∨
      ∃ language v c c', (root.children?.getD [])[i]? = some c ∧
        (tree.children?.getD [])[i]? = some c' ∧
        CellOf (Settings.usual .parseSettings) language v c ∧
        CellOf (withMarkdown .null) language v c' := by
  obtain ⟨options, es, path, entries, language, cells, hoptions, hdata, hcells, hlanguage, rfl,
    hshapes, -⟩ := read_cases hread
  obtain ⟨options', es', path', entries', language', cells', hoptions', hdata', hcells', hlanguage',
    rfl, hshapes', -⟩ := read_cases hread'
  obtain rfl := Except.ok.inj hoptions
  obtain rfl := Except.ok.inj hoptions'
  obtain ⟨hes, -⟩ := Prod.mk.inj (Except.ok.inj (hdata.symm.trans hdata'))
  obtain rfl := Value.record.inj hes
  obtain rfl := Value.list.inj (Option.some.inj (hcells.symm.trans hcells'))
  obtain rfl := Except.ok.inj (hlanguage.symm.trans hlanguage')
  -- both readings saw the same entries, so place for place they made a cell of the same one
  obtain ⟨hv, hc⟩ | ⟨v, c, hv, hc, hof⟩ := forall₂_getElem? hshapes i
  · obtain ⟨-, hc'⟩ | ⟨v', c', hv', -⟩ := forall₂_getElem? hshapes' i
    · exact .inl ⟨hc, hc'⟩
    · rw [hv] at hv'
      cases hv'
  · obtain ⟨hv', -⟩ | ⟨v', c', hv', hc', hof'⟩ := forall₂_getElem? hshapes' i
    · rw [hv] at hv'
      cases hv'
    · obtain rfl := Option.some.inj (hv.symm.trans hv')
      exact .inr ⟨language, v, c, c', hc, hc', hof, hof'⟩

/-- The text of the Markdown cell at a position. -/
def markdownTextAt? (root : Value) (i : Nat) : Option Value :=
  (root.children?.getD [])[i]?.bind markdownText?

/-- The texts of the Markdown cells are those at some place. -/
theorem mem_markdownTexts {v : Value} :
    v ∈ markdownTexts root ↔ ∃ i, markdownTextAt? root i = some v := by
  rw [markdownTexts, List.mem_filterMap]
  constructor
  · rintro ⟨c, hc, hv⟩
    obtain ⟨i, hi⟩ := List.mem_iff_getElem?.mp hc
    exact ⟨i, Option.bind_eq_some_iff.mpr ⟨c, hi, hv⟩⟩
  · rintro ⟨i, hi⟩
    obtain ⟨c, hc, hv⟩ := Option.bind_eq_some_iff.mp hi
    exact ⟨c, List.mem_of_getElem? hc, hv⟩

/-- Of a notebook that has been read, with its Markdown or without, the rule against empty cells
leaves the cells with content. Where it leaves a cell without Markdown read and none with it, there
is a Markdown cell with a text that is not blank but vacant; where it is the other way round, one
with a blank text that is not vacant. So the positions are the same if there are no such cells, and
only then. -/
theorem removeEmpty_positions {σ : Type}
    (hread : (read files .null source).outcome = (.ok root, log))
    (hread' : (read files (withMarkdown .null) source).outcome = (.ok tree, log'))
    {limit limit' : Nat} (hlimit : root.levels ≤ limit) (hlimit' : tree.levels ≤ limit')
    (reverse reverse' : Bool) (s s' : Scene σ) :
    let kept := (root.children?.getD []).findIdxs Value.hasContent
    let kept' := (tree.children?.getD []).findIdxs Value.hasContent
    LeftAt limit reverse root s kept ∧ LeftAt limit' reverse' tree s' kept' ∧
      (∀ i, (i ∈ kept ∧ i ∉ kept') ↔
        ∃ text : String, markdownTextAt? root i = some (.text text) ∧ KeptUnread text) ∧
      (∀ i, (i ∉ kept ∧ i ∈ kept') ↔
        ∃ text : String, markdownTextAt? root i = some (.text text) ∧ KeptRead text) ∧
      (kept = kept' ↔ ∀ text : String, .text text ∈ markdownTexts root →
        ¬ KeptUnread text ∧ ¬ KeptRead text) := by
  intro kept kept'
  have hkept : ∀ i, i ∈ kept ↔ ∃ c, (root.children?.getD [])[i]? = some c ∧ c.hasContent = true :=
    fun i => mem_findIdxs
  have hkept' : ∀ i, i ∈ kept' ↔ ∃ c, (tree.children?.getD [])[i]? = some c ∧ c.hasContent = true :=
    fun i => mem_findIdxs
  have hdiffers : ∀ i,
      ((i ∈ kept ∧ i ∉ kept') ↔
        ∃ text : String, markdownTextAt? root i = some (.text text) ∧ KeptUnread text) ∧
      ((i ∉ kept ∧ i ∈ kept') ↔
        ∃ text : String, markdownTextAt? root i = some (.text text) ∧ KeptRead text) := by
    intro i
    obtain ⟨hc, hc'⟩ | ⟨language, v, c, c', hc, hc', hof, hof'⟩ := getElem?_cases hread hread' i
    · simp [hkept, hkept', markdownTextAt?, hc, hc']
    · simpa [hkept, hkept', markdownTextAt?, hc, hc'] using hasContent_differs hof hof'
  refine ⟨leftAt_of_read hread hlimit reverse s, leftAt_of_read hread' hlimit' reverse' s',
    fun i => (hdiffers i).1, fun i => (hdiffers i).2, fun heq text htext => ?_, fun hnone => ?_⟩
  · obtain ⟨i, hi⟩ := mem_markdownTexts.mp htext
    refine ⟨fun h => ?_, fun h => ?_⟩
    · obtain ⟨hin, hout⟩ := (hdiffers i).1.mpr ⟨text, hi, h⟩
      exact hout (heq ▸ hin)
    · obtain ⟨hout, hin⟩ := (hdiffers i).2.mpr ⟨text, hi, h⟩
      exact hout (heq ▸ hin)
  · -- both are in order, so that it is enough that they have the same members
    refine List.pairwise_findIdxs.eq_of_mem_iff List.pairwise_findIdxs fun i => ?_
    have hno : ∀ text : String, markdownTextAt? root i = some (.text text) →
        ¬ KeptUnread text ∧ ¬ KeptRead text := fun text htext =>
      hnone text (mem_markdownTexts.mpr ⟨i, htext⟩)
    refine ⟨fun hin => by_contra fun hout => ?_, fun hin => by_contra fun hout => ?_⟩
    · obtain ⟨text, htext, h⟩ := (hdiffers i).1.mp ⟨hin, hout⟩
      exact (hno text htext).1 h
    · obtain ⟨text, htext, h⟩ := (hdiffers i).2.mp ⟨hout, hin⟩
      exact (hno text htext).2 h

/-- A notebook with code, a link definition, a blank line that counts as code, text, and a blank cell
of another type. -/
def emptySample : Source :=
  .data (.record [("cells", .list
    [.record [("cell_type", .text "code"), ("source", .text "1")],
     .record [("cell_type", .text "markdown"), ("source", .text "[a]: /u")],
     .record [("cell_type", .text "markdown"), ("source", .text "     ")],
     .record [("cell_type", .text "markdown"), ("source", .text "b")],
     .record [("cell_type", .text "raw"), ("source", .text " ")]])])

/-- What the two readings of the notebook keep, computed. -/
theorem read_emptySample :
    ∃ root log tree log', (read [] .null emptySample).outcome = (.ok root, log) ∧
      (read [] (withMarkdown .null) emptySample).outcome = (.ok tree, log') ∧
      root.levels ≤ Command.depthLimit ∧ tree.levels ≤ Command.depthLimit ∧
      (root.children?.getD []).findIdxs Value.hasContent = [0, 1, 3, 4] ∧
      (tree.children?.getD []).findIdxs Value.hasContent = [0, 2, 3, 4] := by
  have hfacts : ((read [] .null emptySample).outcome.1.toOption.bind fun root =>
      (read [] (withMarkdown .null) emptySample).outcome.1.toOption.map fun tree =>
        (decide (root.levels ≤ Command.depthLimit), decide (tree.levels ≤ Command.depthLimit),
          (root.children?.getD []).findIdxs Value.hasContent,
          (tree.children?.getD []).findIdxs Value.hasContent)) =
      some (true, true, [0, 1, 3, 4], [0, 2, 3, 4]) := by
    decide +kernel
  -- the trees are not written out: what was computed rules the failures out
  rcases hread : (read [] .null emptySample).outcome with ⟨e | root, log⟩
  · rw [hread] at hfacts
    cases hfacts
  rcases hread' : (read [] (withMarkdown .null) emptySample).outcome with ⟨e | tree, log'⟩
  · rw [hread, hread'] at hfacts
    cases hfacts
  rw [hread, hread'] at hfacts
  obtain ⟨hlimit, hlimit', hkept, hkept'⟩ := by
    simpa only [Prod.mk.injEq] using Option.some.inj hfacts
  exact ⟨root, log, tree, log', rfl, rfl, of_decide_eq_true hlimit, of_decide_eq_true hlimit',
    hkept, hkept'⟩

/-- Read before, the notebook keeps other cells than unread. -/
theorem removeEmpty_positions_sample :
    ∃ root log tree log', (read [] .null emptySample).outcome = (.ok root, log) ∧
      (read [] (withMarkdown .null) emptySample).outcome = (.ok tree, log') ∧
      LeftAt Command.depthLimit false root (⟨{}, [], ()⟩ : Scene Unit) [0, 1, 3, 4] ∧
      LeftAt Command.depthLimit true tree (⟨{}, [], ()⟩ : Scene Unit) [0, 2, 3, 4] ∧
      (∃ text : String, markdownTextAt? root 1 = some (.text text) ∧ KeptUnread text) ∧
      ∃ text : String, markdownTextAt? root 2 = some (.text text) ∧ KeptRead text := by
  obtain ⟨root, log, tree, log', hread, hread', hlimit, hlimit', hkept, hkept'⟩ := read_emptySample
  obtain ⟨hleft, hleft', honly, honly', -⟩ := removeEmpty_positions hread hread' hlimit hlimit'
    false true (⟨{}, [], ()⟩ : Scene Unit) ⟨{}, [], ()⟩
  rw [hkept] at hleft
  rw [hkept'] at hleft'
  refine ⟨root, log, tree, log', hread, hread', hleft, hleft', (honly 1).mp ?_, (honly' 2).mp ?_⟩
  · rw [hkept, hkept']
    decide
  · rw [hkept, hkept']
    decide

/-- There the positions are not the same. -/
theorem removeEmpty_positions_differ :
    ∃ root log tree log', (read [] .null emptySample).outcome = (.ok root, log) ∧
      (read [] (withMarkdown .null) emptySample).outcome = (.ok tree, log') ∧
      ¬ ∃ positions, LeftAt Command.depthLimit false root (⟨{}, [], ()⟩ : Scene Unit) positions ∧
        LeftAt Command.depthLimit false tree (⟨{}, [], ()⟩ : Scene Unit) positions := by
  obtain ⟨root, log, tree, log', hread, hread', hlimit, hlimit', hkept, hkept'⟩ := read_emptySample
  refine ⟨root, log, tree, log', hread, hread', ?_⟩
  rintro ⟨positions, hleft, hleft'⟩
  have hat := leftAt_of_read hread hlimit false (⟨{}, [], ()⟩ : Scene Unit)
  have hat' := leftAt_of_read hread' hlimit' false (⟨{}, [], ()⟩ : Scene Unit)
  rw [hkept] at hat
  rw [hkept'] at hat'
  have hsame : [0, 1, 3, 4] = [0, 2, 3, 4] := (hleft.unique hat).symm.trans (hleft'.unique hat')
  exact absurd hsame (by decide)

end Notebook

end NotebookTree

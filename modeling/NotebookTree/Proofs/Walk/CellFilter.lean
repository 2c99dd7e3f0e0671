import NotebookTree.Proofs.Walk.CellTests
import NotebookTree.Proofs.Walk.Quiet

/-!
# Rules for cells as one filter

The rules for cells act on the root of a notebook only. Some drop cells, one drops the outputs of
code cells. A transform with any of them leaves of the children of each node what `Leaves` says, and
that depends on which rules have been applied so far, and not on their order or on how often.

What carries the induction over the rules is that a cell which has passed all rules so far has its
first child still, and all that lies below its children, so that the next rule comes to the answer
that it would have come to at first.

## Main definitions

* `CellRule.passes`, `CellRule.childrenLeft`: the filter.
* `HoldsNotebook`: a store holds a root with cells.
* `Leaves`: what rules have left of the children of a node.

## Main results

* `CellRule.transform_leaves`: the transform with one rule.
* `CellRule.applyAll_leaves`: the transforms with some rules, one after the other.
* `CellRule.applyAll_tooDeep`: the same for a notebook that is too deep.
-/

namespace NotebookTree

open Store (Holds Reads Reseats Refreshes)

namespace CellRule

/-! ## The filter -/

/-- Whether a rule is one for cells. -/
def isFilter : CellRule → Bool
  | readMarkdown _ => false
  | _ => true

/-- Whether a cell passes a rule. -/
def keeps : CellRule → Value → Bool
  | removeEmpty, cell => cell.hasContent
  | removeTagged tags, cell => !cell.isTagged tags
  | keepTagged tags, cell => cell.isTagged tags
  | _, _ => true

/-- Whether a rule drops outputs. -/
def dropsOutputs : CellRule → Bool
  | removeOutputs => true
  | _ => false

/-- Whether a cell passes all of some rules. -/
def passes (rules : List CellRule) (cell : Value) : Bool := rules.all fun rule => rule.keeps cell

/-- What rules leave of the children of a cell that passes them. -/
def childrenLeft {α : Type} (rules : List CellRule) (cell : Value) (children : List α) : List α :=
  if rules.any dropsOutputs && cell.isCellOf "code" then children.take 1 else children

/-- A cell that passes rules, as they leave it. -/
def leave (rules : List CellRule) (cell : Value) : Value :=
  cell.withChildren (childrenLeft rules cell (cell.children?.getD []))

/-- A notebook as rules leave it. -/
def filtered (rules : List CellRule) (root : Value) : Value :=
  root.withChildren (((root.children?.getD []).filter (passes rules)).map (leave rules))

variable {rules others : List CellRule} {rule : CellRule} {cell : Value}

/-- A cell passes the rules when it passes the first and the others. -/
theorem passes_cons (rule : CellRule) (rules : List CellRule) (cell : Value) :
    passes (rule :: rules) cell = (rule.keeps cell && passes rules cell) := List.all_cons

/-- Neither the order of the rules nor how often they occur matters. -/
theorem passes_congr (h : ∀ rule, rule ∈ rules ↔ rule ∈ others) (cell : Value) :
    passes rules cell = passes others cell := by
  rw [Bool.eq_iff_iff, passes, passes, List.all_eq_true, List.all_eq_true]
  simp only [h]

/-- The children that are left do not depend on the order of the rules, or on how often one is
there. -/
theorem childrenLeft_congr {α : Type} (h : ∀ rule, rule ∈ rules ↔ rule ∈ others) (cell : Value)
    (children : List α) : childrenLeft rules cell children = childrenLeft others cell children := by
  have hany : rules.any dropsOutputs = others.any dropsOutputs := by
    rw [Bool.eq_iff_iff, List.any_eq_true, List.any_eq_true]
    simp only [h]
  rw [childrenLeft, childrenLeft, hany]

/-- A rule that drops no outputs leaves the children that the others leave. -/
theorem childrenLeft_cons {α : Type} (h : rule.dropsOutputs = false) (cell : Value)
    (children : List α) :
    childrenLeft (rule :: rules) cell children = childrenLeft rules cell children := by
  rw [childrenLeft, childrenLeft, List.any_cons, h, Bool.false_or]

/-- Of code the first child stays when outputs go, whether or not they have gone before. -/
theorem take_childrenLeft {α : Type} (h : cell.isCellOf "code" = true) (children : List α) :
    (childrenLeft rules cell children).take 1 =
      childrenLeft (removeOutputs :: rules) cell children := by
  have hany : (removeOutputs :: rules).any dropsOutputs = true := by
    rw [List.any_cons]
    rfl
  rw [childrenLeft, childrenLeft, hany, h]
  split
  · rw [List.take_take]
    rfl
  · rfl

/-- A cell that is not code keeps its children. -/
theorem childrenLeft_of_not_code {α : Type} (h : cell.isCellOf "code" = false)
    (children : List α) : childrenLeft rules cell children = children := by
  rw [childrenLeft, h, Bool.and_false]
  rfl

/-- The first child of a cell stays. -/
theorem head?_childrenLeft {α : Type} (rules : List CellRule) (cell : Value) (children : List α) :
    (childrenLeft rules cell children).head? = children.head? := by
  rw [childrenLeft]
  split
  · cases children <;> rfl
  · rfl

/-- Which children are left hangs on their places alone. -/
theorem childrenLeft_map {α β : Type} (rules : List CellRule) (cell : Value) (f : α → β)
    (children : List α) :
    childrenLeft rules cell (children.map f) = (childrenLeft rules cell children).map f := by
  rw [childrenLeft, childrenLeft]
  split
  · rw [List.map_take]
  · rfl

/-- The children that are left are children. -/
theorem childrenLeft_subset {α : Type} (rules : List CellRule) (cell : Value) (children : List α) :
    childrenLeft rules cell children ⊆ children := by
  rw [childrenLeft]
  split
  · exact List.take_subset 1 children
  · exact List.Subset.refl children

end CellRule

/-! ## Notebooks in a store -/

/-- A cell of a notebook, with nothing below it that could be taken for a cell or for a root. -/
structure Value.IsCell (cell : Value) : Prop where
  type : cell.type? = some (.text "cell")
  legible : cell.Legible
  tagged : cell.isWellTagged = true
  below : ∀ c ∈ cell.children?.getD [], FreeOf "root" c ∧ FreeOf "cell" c

/-- No node of a cell is a root. -/
theorem Value.IsCell.freeOf_root {cell : Value} (h : cell.IsCell) : FreeOf "root" cell :=
  freeOf_of_children h.type (by decide) fun c hc => (h.below c hc).1

/-- A store holds a root with cells. -/
structure HoldsNotebook (s : Store) (root : NodeId) (cells : List Held) : Prop where
  children : ∃ row, s.HasChildren root row (cells.map Held.item)
  type : s.attribute? (.node root) "type" = some (.plain (.text "root"))
  holds : ∀ q ∈ cells, Holds s q
  isCell : ∀ q ∈ cells, q.tree.IsCell

/-- What rules have left of the items `xs` that were the children of a node when the store was `s`:
of the root, the cells that pass all rules; of a cell that does, what they leave of its children; of
a node that is neither root nor cell, all. -/
structure Leaves (s : Store) (root : NodeId) (cells : List Held) (rules : List CellRule)
    (id : NodeId) (xs ys : List Item) : Prop where
  subset : ys ⊆ xs
  ofRoot : id = root → ys = xs.filter fun c => CellRule.passes rules (s.view c)
  ofCell : ∀ q ∈ cells, q.item = .node id → CellRule.passes rules q.tree = true →
    ys = CellRule.childrenLeft rules q.tree xs
  ofOther : id ≠ root → (∀ q ∈ cells, q.item ≠ .node id) → ys = xs

/-- What the rules leave does not depend on their order, or on how often one is there. -/
theorem Leaves.congr {s : Store} {root id : NodeId} {cells : List Held}
    {rules others : List CellRule} {xs ys : List Item} (h : Leaves s root cells rules id xs ys)
    (hrules : ∀ rule, rule ∈ rules ↔ rule ∈ others) : Leaves s root cells others id xs ys where
  subset := h.subset
  ofRoot hid := by simp only [h.ofRoot hid, CellRule.passes_congr hrules]
  ofCell q hq hitem hpasses := by
    rw [← CellRule.passes_congr hrules] at hpasses
    rw [← CellRule.childrenLeft_congr hrules]
    exact h.ofCell q hq hitem hpasses
  ofOther := h.ofOther

namespace HoldsNotebook

variable {s s' : Store} {root id : NodeId} {cells : List Held} {rules : List CellRule}

/-- The cells of a notebook have the type of cells. -/
theorem attribute?_type (h : HoldsNotebook s root cells) {q : Held} (hq : q ∈ cells) :
    s.attribute? q.item "type" = some (.plain (.text "cell")) := by
  rw [(h.holds q hq).attribute? (by decide), ← Value.type?, (h.isCell q hq).type, Option.map_some]

/-- The root is no cell. -/
theorem item_ne_root (h : HoldsNotebook s root cells) {q : Held} (hq : q ∈ cells) :
    q.item ≠ .node root := by
  intro heq
  have htype := h.attribute?_type hq
  rw [heq, h.type] at htype
  simp at htype

/-- Nothing below the children of cells is the root or a cell. -/
theorem of_below (h : HoldsNotebook s root cells) {q u : Held} {c : Value} (hq : q ∈ cells)
    (hc : c ∈ q.tree.children?.getD []) (hu : Holds s u) (hbelow : Below u.tree c)
    (hitem : u.item = .node id) : id ≠ root ∧ ∀ p ∈ cells, p.item ≠ .node id := by
  obtain ⟨hroot, hcell⟩ := (h.isCell q hq).below c hc
  have htype : s.attribute? (.node id) "type" = u.tree.type?.map .plain := by
    rw [← hitem, hu.attribute? (by decide), Value.type?]
  refine ⟨fun heq => ?_, fun p hp heq => ?_⟩
  · obtain ⟨type, hu, hne⟩ := hroot u.tree hbelow
    rw [heq, h.type, hu, Option.map_some] at htype
    simp at htype
    exact hne htype.symm
  · obtain ⟨type, hu, hne⟩ := hcell u.tree hbelow
    rw [← heq, h.attribute?_type hp, hu, Option.map_some] at htype
    simp at htype
    exact hne htype.symm

/-- The items of the cells that pass the rules. -/
theorem filter_items (h : HoldsNotebook s root cells) (rules : List CellRule) :
    (cells.map Held.item).filter (fun c => CellRule.passes rules (s.view c)) =
      (cells.filter fun q => CellRule.passes rules q.tree).map Held.item := by
  rw [List.filter_map]
  refine congrArg _ (List.filter_congr fun q hq => ?_)
  rw [Function.comp_apply, (h.holds q hq).view]

/-- The cells that pass the rules are the children of the root. -/
theorem hasChildren (h : HoldsNotebook s root cells)
    (hs : Reseats (Leaves s root cells rules) s s') :
    ∃ row, s'.HasChildren root row
      ((cells.filter fun q => CellRule.passes rules q.tree).map Held.item) := by
  obtain ⟨row, hc⟩ := h.children
  obtain ⟨row', items, hc', hleaves⟩ := hs.children root row _ hc
  rw [hleaves.ofRoot rfl, h.filter_items] at hc'
  exact ⟨row', hc'⟩

/-- The content of a cell that passes the rules can still be read. -/
theorem showsContent (h : HoldsNotebook s root cells)
    (hs : Reseats (Leaves s root cells rules) s s') {q : Held} (hq : q ∈ cells)
    (hpasses : CellRule.passes rules q.tree = true) : ShowsContent s' q.item q.tree := by
  obtain ⟨c, others, hchildren, -⟩ := (h.isCell q hq).legible
  refine .of_holds (h.holds q hq) hs hchildren (fun id xs ys hitem hleaves => ?_)
    fun u id hu htree hitem xs ys hleaves => ?_
  · rw [hleaves.ofCell q hq hitem hpasses, CellRule.head?_childrenLeft]
  · obtain ⟨hroot, hcells⟩ := h.of_below hq (c := c) (by rw [hchildren]; exact List.mem_cons_self)
      hu (htree ▸ .root) hitem
    exact hleaves.ofOther hroot hcells

/-- Before any rule is applied, all is left. -/
theorem leaves_nil (s : Store) (root : NodeId) (cells : List Held) :
    Reseats (Leaves s root cells []) s s := by
  refine .of_children fun id row items hc => ⟨List.Subset.refl items, fun _ => ?_,
    fun q _ _ _ => rfl, fun _ _ => rfl⟩
  exact (List.filter_eq_self.mpr fun _ _ => rfl).symm

end HoldsNotebook

/-! ## What a rule does to the root -/

namespace Walk

variable {σ : Type} {s : Scene σ}

/-- Tests that change nothing. -/
theorem outcome_filterM {items : List Item} {test : Item → Walk σ Bool} {keep : Item → Bool}
    (h : ∀ c ∈ items, outcome (test c) s = (.ok (keep c), s)) :
    outcome (items.filterM test) s = (.ok (items.filter keep), s) := by
  have hloop : ∀ (rest done : List Item), (∀ c ∈ rest, outcome (test c) s = (.ok (keep c), s)) →
      outcome (List.filterAuxM test rest done) s = (.ok ((rest.filter keep).reverse ++ done), s) := by
    intro rest
    induction rest with
    | nil => exact fun done _ => rfl
    | cons c rest ih =>
      intro done hrest
      rw [List.filterAuxM, outcome_bind_ok (hrest c List.mem_cons_self),
        ih _ fun d hd => hrest d (List.mem_cons_of_mem _ hd), List.filter_cons]
      cases keep c <;> simp
  rw [List.filterM, outcome_bind_ok (hloop items [] h)]
  show (Except.ok _, s) = _
  rw [List.append_nil, List.reverse_reverse]

/-- The root gets the cells that pass a test. -/
theorem outcome_keepCells {root : NodeId} {row : RowId} {items : List Item}
    (hc : s.store.HasChildren root row items) {test : Item → Walk σ Bool} {keep : Item → Bool}
    (h : ∀ c ∈ items, outcome (test c) s = (.ok (keep c), s)) :
    outcome (keepCells (.node root) test) s =
      (.ok (), { s with store := s.store.withChildren root (items.filter keep) }) := by
  rw [keepCells, outcome_bind_ok (outcome_children hc), outcome_bind_ok (outcome_itemsOf hc),
    outcome_bind_ok (outcome_filterM h)]
  rfl

/-- Nodes lose all children but the first, if they are among some items and code cells. -/
structure Shortens (items : List Item) (code : Item → Bool) (id : NodeId) (xs ys : List Item) :
    Prop where
  cut : Item.node id ∈ items → code (.node id) = true → ys = xs.take 1
  uncut : Item.node id ∉ items ∨ code (.node id) = false → ys = xs

/-- Shortening brings in nothing. -/
theorem Shortens.subset {items : List Item} {code : Item → Bool} {id : NodeId} {xs ys : List Item}
    (h : Shortens items code id xs ys) : ys ⊆ xs := by
  by_cases hcut : Item.node id ∈ items ∧ code (.node id) = true
  · rw [h.cut hcut.1 hcut.2]
    exact List.take_subset 1 xs
  · have huncut : Item.node id ∉ items ∨ code (.node id) = false := by
      rw [← Bool.not_eq_true]
      exact not_and_or.mp hcut
    rw [h.uncut huncut]
    exact List.Subset.refl xs

/-- What some items lose and what others lose after that. -/
theorem Shortens.trans {i : Item} {items : List Item} {code : Item → Bool} {id : NodeId}
    {xs ys zs : List Item} (h : Shortens [i] code id xs ys) (h' : Shortens items code id ys zs) :
    Shortens (i :: items) code id xs zs := by
  refine ⟨fun hmem hcode => ?_, fun hnone => ?_⟩
  · by_cases hi : Item.node id ∈ [i] <;> by_cases hitems : Item.node id ∈ items
    · rw [h'.cut hitems hcode, h.cut hi hcode, List.take_take]
      rfl
    · rw [h'.uncut (.inl hitems), h.cut hi hcode]
    · rw [h'.cut hitems hcode, h.uncut (.inl hi)]
    · obtain heq | hmem := List.mem_cons.mp hmem
      · exact absurd (List.mem_singleton.mpr heq) hi
      · exact absurd hmem hitems
  · have hfirst : Item.node id ∉ [i] ∨ code (.node id) = false :=
      hnone.imp_left fun hmem hi => hmem (List.mem_cons.mpr (.inl (List.mem_singleton.mp hi)))
    have hrest : Item.node id ∉ items ∨ code (.node id) = false :=
      hnone.imp_left fun hmem hi => hmem (List.mem_cons_of_mem _ hi)
    rw [h'.uncut hrest, h.uncut hfirst]

/-- A code cell is cut down to its first child. -/
theorem outcome_dropOutputs {i : Item} {cell : Value} {code : Item → Bool}
    (hreads : Reads s.store i cell) (hcode : cell.isCellOf "code" = code i)
    (hchildren : ∃ id row items, i = .node id ∧ s.store.HasChildren id row items) :
    ∃ store, outcome (dropOutputs i) s = (.ok (), { s with store := store }) ∧
      Reseats (Shortens [i] code) s.store store := by
  obtain ⟨id, row, items, rfl, hc⟩ := hchildren
  rw [dropOutputs, outcome_getStore_bind, isCellOf_of_reads hreads, hcode]
  cases hid : code (.node id) with
  | false =>
    refine ⟨s.store, rfl, .of_children fun other _ _ _ => ⟨fun hmem hother => ?_, fun _ => rfl⟩⟩
    rw [List.mem_singleton.mp hmem, hid] at hother
    cases hother
  | true =>
    rw [if_neg (by simp), outcome_bind_ok (outcome_children hc), outcome_bind_ok (outcome_itemsOf hc)]
    -- a cell with its source alone is left as it is, and any other gets a row with the first child
    by_cases hlength : items.length ≤ 1
    · rw [if_pos hlength]
      refine ⟨s.store, rfl, .of_children fun other row' xs hxs => ⟨fun hmem _ => ?_, fun _ => rfl⟩⟩
      obtain rfl := Item.node.inj (List.mem_singleton.mp hmem)
      obtain ⟨-, rfl⟩ := hc.unique hxs
      exact (List.take_of_length_le hlength).symm
    · rw [if_neg hlength]
      refine ⟨_, rfl, Store.reseats_withChildren hc ⟨fun _ _ => rfl, fun hnone => ?_⟩
        fun other _ _ hother _ => ⟨fun hmem => ?_, fun _ => rfl⟩⟩
      · obtain hmem | hfalse := hnone
        · exact absurd List.mem_cons_self hmem
        · rw [hid] at hfalse
          cases hfalse
      · exact absurd (Item.node.inj (List.mem_singleton.mp hmem)) hother

/-- Code cells are cut down to their first children, one after the other. -/
theorem outcome_forM_dropOutputs (code : Item → Bool) : ∀ (items : List Item) {s : Scene σ},
    (∀ i ∈ items, ∃ cell, Reads s.store i cell ∧ cell.isCellOf "code" = code i ∧
      ∃ id row children, i = .node id ∧ s.store.HasChildren id row children) →
      ∃ store, outcome (items.forM dropOutputs) s = (.ok (), { s with store := store }) ∧
        Reseats (Shortens items code) s.store store
  | [], s, _ => ⟨s.store, rfl, .of_children fun _ _ _ _ => ⟨fun h => (by cases h), fun _ => rfl⟩⟩
  | i :: items, s, h => by
    obtain ⟨cell, hreads, hcode, hchildren⟩ := h i List.mem_cons_self
    obtain ⟨store, hrun, hstore⟩ := outcome_dropOutputs hreads hcode hchildren
    -- the other cells read as before, since only children were changed
    have hrest : ∀ j ∈ items, ∃ cell, Reads store j cell ∧ cell.isCellOf "code" = code j ∧
        ∃ id row children, j = .node id ∧ store.HasChildren id row children := by
      intro j hj
      obtain ⟨cell, hreads, hcode, id, row, children, rfl, hc⟩ := h j (List.mem_cons_of_mem _ hj)
      obtain ⟨row', children', hc', -⟩ := hstore.children id row children hc
      exact ⟨cell, hreads.of_reseats hstore, hcode, id, row', children', rfl, hc'⟩
    obtain ⟨last, hruns, hlast⟩ :=
      outcome_forM_dropOutputs code items (s := { s with store := store }) hrest
    refine ⟨last, ?_, hstore.trans hlast fun _ _ _ _ hys hzs => hys.trans hzs⟩
    show outcome (dropOutputs i >>= fun _ => items.forM dropOutputs) s = _
    rw [outcome_bind_ok hrun, hruns]

end Walk

/-! ## One rule after the other -/

section Rules

open Walk

variable {σ : Type} {store : Store} {root : NodeId} {cells : List Held} {rules : List CellRule}
  {s : Scene σ}

/-- The root gets the cells among its own that pass one rule more. -/
theorem HoldsNotebook.reseats_withChildren (h : HoldsNotebook store root cells) {s' : Store}
    (hs : Reseats (Leaves store root cells rules) store s') {rule : CellRule}
    (hdrops : rule.dropsOutputs = false) {row : RowId}
    (hc : s'.HasChildren root row
      ((cells.filter fun q => CellRule.passes rules q.tree).map Held.item)) :
    Reseats (Leaves store root cells (rule :: rules)) store (s'.withChildren root
      (((cells.filter fun q => CellRule.passes rules q.tree).map Held.item).filter
        fun c => rule.keeps (store.view c))) := by
  have hset := Store.reseats_withChildren
    (R := fun id ys zs => zs = if id = root then ys.filter fun c => rule.keeps (store.view c)
      else ys) hc (if_pos rfl).symm fun other row' xs hother _ => (if_neg hother).symm
  refine hs.trans hset fun id xs ys zs hleaves hzs => ?_
  subst hzs
  refine ⟨?_, fun hid => ?_, fun q hq hitem hpasses => ?_, fun hid hcells => ?_⟩
  · split
    · exact List.Subset.trans (List.filter_subset_self _) hleaves.subset
    · exact hleaves.subset
  · rw [if_pos hid, hleaves.ofRoot hid, List.filter_filter]
    simp only [CellRule.passes_cons]
  · -- the root is none of the cells, so the cells keep what the rules before left of them
    have hid : id ≠ root := fun heq => h.item_ne_root hq (heq ▸ hitem)
    rw [CellRule.passes_cons, Bool.and_eq_true] at hpasses
    rw [if_neg hid, hleaves.ofCell q hq hitem hpasses.2, CellRule.childrenLeft_cons hdrops]
  · rw [if_neg hid, hleaves.ofOther hid hcells]

/-- Code cells among those that are left lose their outputs. -/
theorem HoldsNotebook.reseats_shortens (h : HoldsNotebook store root cells) {s' s'' : Store}
    (hs : Reseats (Leaves store root cells rules) store s')
    (hshort : Reseats (Shortens
      ((cells.filter fun q => CellRule.passes rules q.tree).map Held.item)
      fun c => (store.view c).isCellOf "code") s' s'') :
    Reseats (Leaves store root cells (.removeOutputs :: rules)) store s'' := by
  have hpasses : ∀ cell, CellRule.passes (.removeOutputs :: rules) cell =
      CellRule.passes rules cell := fun cell => by rw [CellRule.passes_cons]; rfl
  have hmem : ∀ {i : Item}, i ∈ (cells.filter fun q => CellRule.passes rules q.tree).map Held.item →
      ∃ q ∈ cells, q.item = i := by
    intro i hi
    obtain ⟨q, hq, rfl⟩ := List.mem_map.mp hi
    exact ⟨q, (List.mem_filter.mp hq).1, rfl⟩
  refine hs.trans hshort fun id xs ys zs hleaves hzs =>
    ⟨List.Subset.trans hzs.subset hleaves.subset, fun hid => ?_, fun q hq hitem hq' => ?_,
      fun hid hcells => ?_⟩
  · have hnone : Item.node id ∉ (cells.filter fun q => CellRule.passes rules q.tree).map
        Held.item := fun hi => by
      obtain ⟨q, hq, heq⟩ := hmem hi
      exact h.item_ne_root hq (hid ▸ heq)
    rw [hzs.uncut (.inl hnone), hleaves.ofRoot hid]
    simp only [hpasses]
  · rw [hpasses] at hq'
    have hview : store.view (.node id) = q.tree := by rw [← hitem, (h.holds q hq).view]
    have hin : Item.node id ∈ (cells.filter fun q => CellRule.passes rules q.tree).map Held.item :=
      hitem ▸ List.mem_map_of_mem (List.mem_filter.mpr ⟨hq, hq'⟩)
    -- a cell of code is cut to its source, the others keep what they have
    cases hcode : q.tree.isCellOf "code" with
    | true =>
      rw [hzs.cut hin (by rw [hview, hcode]), hleaves.ofCell q hq hitem hq',
        CellRule.take_childrenLeft hcode]
    | false =>
      rw [hzs.uncut (.inr (by rw [hview, hcode])), hleaves.ofCell q hq hitem hq',
        CellRule.childrenLeft_of_not_code hcode, CellRule.childrenLeft_of_not_code hcode]
  · have hnone : Item.node id ∉ (cells.filter fun q => CellRule.passes rules q.tree).map
        Held.item := fun hi => by
      obtain ⟨q, hq, heq⟩ := hmem hi
      exact hcells q hq heq
    rw [hzs.uncut (.inl hnone), hleaves.ofOther hid hcells]

/-- What a rule is asked of a cell that is left is what it would have been asked at first. -/
theorem HoldsNotebook.outcome_keepCells (h : HoldsNotebook store root cells)
    (hs : Reseats (Leaves store root cells rules) store s.store) (rule : CellRule)
    (hdrops : rule.dropsOutputs = false) (test : Item → Walk σ Bool)
    (htest : ∀ q ∈ cells, ShowsContent s.store q.item q.tree →
      outcome (test q.item) s = (.ok (rule.keeps q.tree), s)) :
    ∃ next, outcome (keepCells (.node root) test) s = (.ok (), { s with store := next }) ∧
      Reseats (Leaves store root cells (rule :: rules)) store next := by
  obtain ⟨row, hc⟩ := h.hasChildren hs
  -- a cell that earlier rules have kept still shows the content it was loaded with
  have htests : ∀ c ∈ (cells.filter fun q => CellRule.passes rules q.tree).map Held.item,
      outcome (test c) s = (.ok (rule.keeps (store.view c)), s) := by
    intro c hmem
    obtain ⟨q, hq, rfl⟩ := List.mem_map.mp hmem
    obtain ⟨hq, hpasses⟩ := List.mem_filter.mp hq
    rw [(h.holds q hq).view]
    exact htest q hq (h.showsContent hs hq hpasses)
  exact ⟨_, Walk.outcome_keepCells hc htests, h.reseats_withChildren hs hdrops hc⟩

/-- A rule leaves of the root what it and the rules before it leave. -/
theorem CellRule.applyToRoot_leaves (h : HoldsNotebook store root cells)
    (hs : Reseats (Leaves store root cells rules) store s.store) {rule : CellRule}
    (hrule : rule.isFilter = true) :
    ∃ next, outcome (rule.applyToRoot (.node root)) s = (.ok (), next) ∧ next.own = s.own ∧
      Reseats (Leaves store root cells (rule :: rules)) store next.store := by
  cases rule with
  | removeOutputs =>
    obtain ⟨row, hc⟩ := h.hasChildren hs
    obtain ⟨next, hrun, hnext⟩ := outcome_forM_dropOutputs (s := s)
      (fun c => (store.view c).isCellOf "code")
      ((cells.filter fun q => passes rules q.tree).map Held.item) fun i hi => by
        obtain ⟨q, hq, rfl⟩ := List.mem_map.mp hi
        obtain ⟨hq, hpasses⟩ := List.mem_filter.mp hq
        have hshows := h.showsContent hs hq hpasses
        obtain ⟨id, row, first, rest, -, -, hitem, hc, -⟩ := hshows.content
        exact ⟨q.tree, hshows.reads, by rw [(h.holds q hq).view], id, row, _, hitem, hc⟩
    refine ⟨{ s with store := next }, ?_, rfl, h.reseats_shortens hs hnext⟩
    rw [applyToRoot, outcome_bind_ok (outcome_children hc), outcome_bind_ok (outcome_itemsOf hc),
      hrun]
  | removeEmpty =>
    obtain ⟨row, hc⟩ := h.hasChildren hs
    obtain ⟨next, hrun, hnext⟩ := h.outcome_keepCells hs .removeEmpty rfl Walk.hasContent
      fun q hq hshows => outcome_hasContent hshows (h.isCell q hq).legible
    obtain ⟨row', hc'⟩ := h.hasChildren hnext
    rw [applyToRoot, outcome_bind_ok (outcome_children hc), outcome_bind_ok (outcome_itemsOf hc),
      outcome_bind_ok hrun, outcome_bind_ok (outcome_children (s := { s with store := next }) hc'),
      outcome_bind_ok (outcome_itemsOf (s := { s with store := next }) hc')]
    exact ⟨_, rfl, rfl, hnext⟩
  | removeTagged tags =>
    obtain ⟨next, hrun, hnext⟩ := h.outcome_keepCells hs (.removeTagged tags) rfl
      (fun c => do return !(← Walk.isTagged tags c)) fun q hq hshows => by
        rw [outcome_bind_ok (outcome_isTagged hshows.reads (h.isCell q hq).tagged tags)]
        rfl
    exact ⟨_, hrun, rfl, hnext⟩
  | keepTagged tags =>
    obtain ⟨next, hrun, hnext⟩ := h.outcome_keepCells hs (.keepTagged tags) rfl
      (Walk.isTagged tags) fun q hq hshows => outcome_isTagged hshows.reads (h.isCell q hq).tagged tags
    exact ⟨_, hrun, rfl, hnext⟩
  -- reading Markdown is not among the rules that filter
  | readMarkdown => cases hrule

section Engine

-- only the rule that reads Markdown, which is no filter, asks an engine
variable [Markdown.Engine]

/-- What a rule for cells does when it is called: nothing, but for the root. -/
theorem CellRule.callback_eq {rule : CellRule} (hrule : rule.isFilter = true) (node : Item)
    (index : Option Nat) (parent : Option Item) :
    (rule.callback node index parent : Walk σ (Reply σ)) = (do
      if hasWord (← getStore) node "type" "root" then rule.applyToRoot node
      return .now .nothing) := by
  cases rule with
  | readMarkdown => cases hrule
  | _ => rfl

/-- A rule for cells has something to do for roots only. -/
theorem CellRule.actsOnlyOn_root {rule : CellRule} (hrule : rule.isFilter = true) :
    ActsOnlyOn "root" (rule.callback (σ := σ)) := by
  intro s i index parent htype
  have hcall : outcome (rule.callback i index parent) s = (.ok (.now .nothing), s) := by
    rw [callback_eq hrule, outcome_getStore_bind, htype]
    rfl
  rw [resolve, outcome_bind_ok hcall]
  rfl

/-- A transform with a rule for cells does to the root what the rule does, once the nodes below have
got their children anew. -/
theorem CellRule.outcome_transform {limit : Nat} {row : RowId} {items : List Item}
    (hc : s.store.HasChildren root row items)
    (htype : s.store.attribute? (.node root) "type" = some (.plain (.text "root")))
    (hbelow : ∀ j ∈ items, Quiet "root" s.store limit j) {rule : CellRule}
    (hrule : rule.isFilter = true) (reverse : Bool) :
    ∃ refreshed, Refreshes s.store refreshed ∧ ∀ next,
      outcome (rule.applyToRoot (.node root)) { s with store := refreshed } = (.ok (), next) →
      outcome (transform (limit + 1) (.node root) rule.callback reverse) s =
        (.ok (.node root), next) := by
  obtain ⟨refreshed, hrefreshed, hrun⟩ := outcome_transformNode_below
    (outcome_transformNode_quiet (actsOnlyOn_root hrule) reverse limit) hc hbelow none none
  refine ⟨refreshed, hrefreshed, fun next happly => ?_⟩
  have hroot : hasWord refreshed (.node root) "type" "root" = true := by
    rw [hasWord, Store.fieldView, hrefreshed.attribute? _ (by decide), htype]
    exact Value.equals_text_iff.mpr rfl
  -- the walk comes to the root last, after cells that the rule does not answer
  have hcall : outcome (rule.callback (.node root) none none) { s with store := refreshed } =
      (.ok (.now .nothing), next) := by
    rw [callback_eq hrule, outcome_getStore_bind, hroot, if_pos rfl, outcome_bind_ok happly]
    rfl
  have hresolve : outcome (resolve (rule.callback (.node root) none none))
      { s with store := refreshed } = (.ok .nothing, next) := by
    rw [resolve, outcome_bind_ok hcall]
    rfl
  rw [transform, hrun, answerFor, outcome_bind_ok hresolve, outcome_getStore_bind]
  rfl

/-- A transform with one rule more comes back to the root, and leaves what all the rules leave. -/
theorem CellRule.transform_leaves (h : HoldsNotebook store root cells) {limit : Nat}
    (hquiet : ∀ q ∈ cells, Quiet "root" store limit q.item)
    (hs : Reseats (Leaves store root cells rules) store s.store) {rule : CellRule}
    (hrule : rule.isFilter = true) (reverse : Bool) :
    ∃ next, outcome (transform (limit + 1) (.node root) rule.callback reverse) s =
        (.ok (.node root), next) ∧ next.own = s.own ∧
      Reseats (Leaves store root cells (rule :: rules)) store next.store := by
  obtain ⟨row, hc⟩ := h.hasChildren hs
  have htype : s.store.attribute? (.node root) "type" = some (.plain (.text "root")) := by
    rw [hs.attribute? _ (by decide), h.type]
  have hbelow : ∀ j ∈ (cells.filter fun q => passes rules q.tree).map Held.item,
      Quiet "root" s.store limit j := by
    intro j hj
    obtain ⟨q, hq, rfl⟩ := List.mem_map.mp hj
    exact (hquiet q (List.mem_filter.mp hq).1).of_reseats hs fun _ _ _ hleaves => hleaves.subset
  -- the walk leaves the cells as they are and gives the root a row of its own, on which the rule
  -- then acts
  obtain ⟨refreshed, hrefreshed, hrun⟩ := outcome_transform hc htype hbelow hrule reverse
  obtain ⟨next, happly, hown, hnext⟩ := applyToRoot_leaves (s := { s with store := refreshed }) h
    (hs.refreshes hrefreshed) hrule
  exact ⟨next, hrun next happly, hown, hnext⟩

/-- Transforms with some rules, one after the other, come back to the root, and leave what the rules
leave, after any rules before them. -/
theorem CellRule.applyAll_leaves (h : HoldsNotebook store root cells) {limit : Nat}
    (hquiet : ∀ q ∈ cells, Quiet "root" store limit q.item) (reverse : Bool) :
    ∀ (more : List CellRule) {rules all : List CellRule} {s : Scene σ},
      Reseats (Leaves store root cells rules) store s.store →
      (∀ rule ∈ more, rule.isFilter = true) →
      (∀ rule, rule ∈ all ↔ rule ∈ more ∨ rule ∈ rules) →
      ∃ next, outcome (applyAll (limit + 1) more reverse (.node root)) s =
          (.ok (.node root), next) ∧ next.own = s.own ∧
        Reseats (Leaves store root cells all) store next.store
  | [], rules, all, s, hs, _, hall =>
    ⟨s, rfl, rfl, hs.mono fun _ _ _ hleaves => hleaves.congr fun rule => by simp [hall]⟩
  | rule :: more, rules, all, s, hs, hfilters, hall => by
    obtain ⟨next, hrun, hown, hnext⟩ := transform_leaves h hquiet hs
      (hfilters rule List.mem_cons_self) reverse
    -- the rules that are done and those to come are the same all along
    have hmem : ∀ other, other ∈ all ↔ other ∈ more ∨ other ∈ rule :: rules := fun other => by
      rw [hall, List.mem_cons, List.mem_cons, or_assoc, or_left_comm]
    obtain ⟨last, hruns, hlast, hleaves⟩ := applyAll_leaves h hquiet reverse more hnext
      (fun rule hrule => hfilters rule (List.mem_cons_of_mem _ hrule)) hmem
    refine ⟨last, ?_, hlast.trans hown, hleaves⟩
    rw [applyAll, List.foldlM_cons, outcome_bind_ok hrun]
    exact hruns

/-- The first transform fails if the limit is not enough for what lies below the cells. -/
theorem CellRule.applyAll_tooDeep (h : HoldsNotebook store root cells) {limit : Nat}
    (hdeep : ∃ q ∈ cells, ¬ Quiet "root" store limit q.item) (hs : s.store = store)
    {rule : CellRule} (hrule : rule.isFilter = true) (more : List CellRule) (reverse : Bool) :
    ∃ next, outcome (applyAll (limit + 1) (rule :: more) reverse (.node root)) s =
      (.error .tooDeep, next) := by
  obtain ⟨row, hc⟩ := h.children
  subst hs
  obtain ⟨next, hrun⟩ := outcome_transformNode_below_tooDeep
    (outcome_transformNode_quiet (actsOnlyOn_root hrule) reverse limit)
    (outcome_transformNode_tooDeep (actsOnlyOn_root hrule) reverse limit)
    (fun q hq => ⟨h.holds q hq, (h.isCell q hq).freeOf_root⟩) (.refl _) hc hdeep none none
  refine ⟨next, ?_⟩
  rw [applyAll, List.foldlM_cons, outcome_bind, transform, hrun]

end Engine

end Rules

/-! ## What is seen of it -/

section View

variable {s s' : Store} {root : NodeId} {cells : List Held} {rules : List CellRule}

/-- A cell that passes the rules is seen as they leave it. -/
theorem HoldsNotebook.viewWithin_cell (h : HoldsNotebook s root cells)
    (hs : Reseats (Leaves s root cells rules) s s') {q : Held} (hq : q ∈ cells)
    (hpasses : CellRule.passes rules q.tree = true) {depth : Nat}
    (hdepth : q.identities.length < depth) :
    s'.viewWithin depth q.item = CellRule.leave rules q.tree := by
  obtain ⟨c, others, hchildren, -⟩ := (h.isCell q hq).legible
  have hbelow : ∀ (u : Held) (id : NodeId), ∀ c ∈ q.tree.children?.getD [], Holds s u →
      Below u.tree c → u.item = .node id → id ≠ root ∧ ∀ p ∈ cells, p.item ≠ .node id :=
    fun u id c hc => h.of_below hq hc
  have hholds := h.holds q hq
  obtain ⟨tree, item, identities⟩ := q
  cases hholds with
  | leaf _ hfields =>
    rw [Value.children?_of_childless hfields] at hchildren
    cases hchildren
  | @branch k before after id row parts hk hbefore hafter hnode hrow hparts hnodup =>
    obtain ⟨d, rfl⟩ : ∃ d, depth = d + 3 := ⟨depth - 3, by simp at hdepth; omega⟩
    obtain ⟨row', items, hnode', hrow', hleaves⟩ := hs.node?_between hbefore hafter hnode hrow
    have hitems := hleaves.ofCell _ hq rfl hpasses
    rw [CellRule.childrenLeft_map] at hitems
    subst hitems
    rw [Store.viewWithin_branch hnode' hrow', CellRule.leave, Value.children?_branch hbefore,
      Option.getD_some, Value.withChildren_branch hbefore hafter, CellRule.childrenLeft_map,
      List.map_map]
    -- below a cell nothing has changed, so its children are seen as they were
    have hviews : ∀ u ∈ parts, s'.viewWithin (d + 1) u.item = u.tree := fun u hu => by
      have hmem : u.tree ∈ parts.map Held.tree := List.mem_map_of_mem hu
      refine (hparts u hu).viewWithin_of_reseats hs (fun v id hv hbelow' hitem xs ys hxs => ?_) ?_
      · have hapart := hbelow v id u.tree (by rwa [Value.children?_branch hbefore]) hv hbelow' hitem
        exact hxs.ofOther hapart.1 hapart.2
      · have hle : u.identities.length ≤ (parts.flatMap Held.identities).length :=
          (List.sublist_flatten_of_mem (List.mem_map_of_mem hu)).length_le
        simp only [List.length_cons] at hdepth
        omega
    have hmap : (CellRule.childrenLeft rules
        (.node k (before ++ ("children", .list (parts.map Held.tree)) :: after)) parts).map
          (s'.viewWithin (d + 1) ∘ Held.item) = (CellRule.childrenLeft rules
        (.node k (before ++ ("children", .list (parts.map Held.tree)) :: after)) parts).map
          Held.tree :=
      List.map_congr_left fun u hu => hviews u (CellRule.childrenLeft_subset _ _ _ hu)
    rw [hmap]

/-- What holds a tree of a root with cells holds a notebook, and what is seen of it later are the
cells that pass the rules, as these leave them. -/
theorem exists_holdsNotebook {p : Held} (hp : Holds s p) {trees : List Value}
    (htype : p.tree.type? = some (.text "root")) (hchildren : p.tree.children? = some trees)
    (hcells : ∀ c ∈ trees, c.IsCell) :
    ∃ root cells, p.item = .node root ∧ trees = cells.map Held.tree ∧
      HoldsNotebook s root cells ∧
      ∀ rules s', Reseats (Leaves s root cells rules) s s' →
        s'.view p.item = CellRule.filtered rules p.tree := by
  have hreads := hp.reads
  have hnumber := Store.length_le_of_nodup hp.nodup hp.not_isNew
  cases hp with
  | leaf _ hfields =>
    rw [Value.children?_of_childless hfields] at hchildren
    cases hchildren
  | @branch k before after root row cells hk hbefore hafter hnode hrow hparts hnodup =>
    rw [Value.children?_branch hbefore] at hchildren
    obtain rfl := Option.some.inj hchildren
    have hnotebook : HoldsNotebook s root cells := by
      refine ⟨⟨row, Store.hasChildren_of_between (by rwa [has_plainFields]) hnode hrow⟩, ?_, hparts,
        fun q hq => hcells q.tree (List.mem_map_of_mem hq)⟩
      rw [hreads "type" (by decide), ← Value.type?, htype, Option.map_some]
    refine ⟨root, cells, rfl, rfl, hnotebook, fun rules s' hs => ?_⟩
    obtain ⟨row', items, hnode', hrow', hleaves⟩ := hs.node?_between hbefore hafter hnode hrow
    rw [hleaves.ofRoot rfl, hnotebook.filter_items] at hrow'
    -- the view goes deeper than there are identities in the notebook
    have hsizes : s.nodes.size + s.rows.size ≤ s'.nodes.size + s'.rows.size := by
      rw [hs.nodes_size]
      exact Nat.add_le_add_left hs.rows_le _
    simp only [List.length_cons] at hnumber
    obtain ⟨d, hd⟩ : ∃ d, s'.nodes.size + s'.rows.size + 1 = d + 3 :=
      ⟨s'.nodes.size + s'.rows.size - 2, by omega⟩
    have hviews : ∀ q ∈ cells.filter fun q => CellRule.passes rules q.tree,
        s'.viewWithin (d + 1) q.item = CellRule.leave rules q.tree := by
      intro q hq
      obtain ⟨hq, hpasses⟩ := List.mem_filter.mp hq
      have hle : q.identities.length ≤ (cells.flatMap Held.identities).length :=
        (List.sublist_flatten_of_mem (List.mem_map_of_mem hq)).length_le
      exact hnotebook.viewWithin_cell hs hq hpasses (by omega)
    rw [Store.view, hd, Store.viewWithin_branch hnode' hrow', CellRule.filtered,
      Value.children?_branch hbefore, Value.withChildren_branch hbefore hafter, Option.getD_some,
      List.map_map, List.filter_map, List.map_map]
    refine congrArg (fun children => Value.node k (before ++ ("children", .list children) :: after))
      (List.map_congr_left hviews)

end View

end NotebookTree

import NotebookTree.Proofs.Store.Change

/-!
# Trees of occurrences

What a walk meets is a tree, although it goes through a store: a node that stands at several places
is met at each of them. A `Tree` has one branch or leaf for every such occurrence, whatever the
store shares; `Tree.StandsIn` says of which store it is the tree. Every item from which no walk
goes on without end has one (`Tree.exists_standsIn`).

## Main definitions

* `Tree`: a branch or leaf for every occurrence of a node.
* `Tree.StandsIn`: the stores that a tree stands in.
-/

namespace NotebookTree

/-- The occurrences of nodes below an item. What has no row of children is a leaf. -/
inductive Tree where
  | leaf (item : Item)
  | branch (id : NodeId) (row : RowId) (children : List Tree)

namespace Tree

/-- The item at the root. -/
def item : Tree → Item
  | leaf i => i
  | branch id _ _ => .node id

/-- Whatever holds of leaves, and of branches if it holds of their children, holds of all trees. -/
@[induction_eliminator]
theorem induct {P : Tree → Prop} (leaf : ∀ i, P (leaf i))
    (branch : ∀ id row ts, (∀ t ∈ ts, P t) → P (branch id row ts)) : ∀ t, P t
  | .leaf i => leaf i
  | .branch id row ts => branch id row ts fun t _ => induct leaf branch t

mutual

/-- The number of levels. -/
def height : Tree → Nat
  | leaf _ => 1
  | branch _ _ ts => heightAll ts + 1

/-- The number of levels of the highest of some trees. -/
def heightAll : List Tree → Nat
  | [] => 0
  | t :: ts => max t.height (heightAll ts)

end

mutual

/-- The nodes, one for each occurrence. -/
def ids : Tree → List NodeId
  | leaf (.node id) => [id]
  | leaf _ => []
  | branch id _ ts => id :: idsAll ts

/-- The nodes of some trees. -/
def idsAll : List Tree → List NodeId
  | [] => []
  | t :: ts => t.ids ++ idsAll ts

end

mutual

/-- The tree is what lies below its root in a store. -/
def StandsIn (s : Store) : Tree → Prop
  | leaf i => s.Knows i ∧ s.childRow? i = none
  | branch id row ts => s.HasChildren id row (ts.map item) ∧ StandAll s ts

/-- Some trees are what lies below their roots in a store. -/
def StandAll (s : Store) : List Tree → Prop
  | [] => True
  | t :: ts => t.StandsIn s ∧ StandAll s ts

end

/-- A list of trees is as high as any of them. -/
theorem height_le_heightAll {t : Tree} {ts : List Tree} (h : t ∈ ts) : t.height ≤ heightAll ts := by
  induction ts with
  | nil => simp at h
  | cons u us ih =>
    rw [heightAll]
    rcases List.mem_cons.mp h with rfl | h
    · exact Nat.le_max_left ..
    · exact Nat.le_trans (ih h) (Nat.le_max_right ..)

/-- A list of trees is no higher than what bounds each of them. -/
theorem heightAll_le {ts : List Tree} {n : Nat} (h : ∀ t ∈ ts, t.height ≤ n) :
    heightAll ts ≤ n := by
  induction ts with
  | nil => exact Nat.zero_le n
  | cons t ts ih =>
    rw [heightAll]
    exact Nat.max_le.mpr ⟨h t List.mem_cons_self, ih fun u hu => h u (List.mem_cons_of_mem _ hu)⟩

/-- A tree has a height of one at least. -/
theorem height_pos (t : Tree) : 0 < t.height := by
  cases t with
  | leaf i => exact Nat.one_pos
  | branch id row ts => exact Nat.succ_pos _

/-- A limit that is enough for a tree is left with something below the root. -/
theorem exists_limit {t : Tree} {limit : Nat} (h : t.height ≤ limit) : ∃ n, limit = n + 1 :=
  Nat.exists_eq_add_one_of_ne_zero (Nat.ne_of_gt (Nat.lt_of_lt_of_le t.height_pos h))

/-- The nodes of trees are those of each. -/
theorem idsAll_eq (ts : List Tree) : idsAll ts = ts.flatMap ids := by
  induction ts with
  | nil => rfl
  | cons t ts ih => rw [idsAll, ih, List.flatMap_cons]

/-- Trees stand in a store when each does. -/
theorem standAll_iff {s : Store} {ts : List Tree} : StandAll s ts ↔ ∀ t ∈ ts, t.StandsIn s := by
  induction ts with
  | nil => simp [StandAll]
  | cons t ts ih => rw [StandAll, ih, List.forall_mem_cons]

/-- The nodes of a child are nodes of the branch. -/
theorem mem_ids_of_mem {id : NodeId} {row : RowId} {t : Tree} {ts : List Tree} {other : NodeId}
    (ht : t ∈ ts) (h : other ∈ t.ids) : other ∈ (branch id row ts).ids := by
  rw [ids, idsAll_eq]
  exact List.mem_cons_of_mem _ (List.mem_flatMap.mpr ⟨t, ht, h⟩)

/-- The node that a tree stands for is one of its nodes. -/
theorem mem_ids_of_item {t : Tree} {id : NodeId} (h : t.item = .node id) : id ∈ t.ids := by
  cases t with
  | leaf i =>
    obtain rfl : i = .node id := h
    simp [ids]
  | branch other row ts =>
    obtain rfl : other = id := by simpa [item] using h
    simp [ids]

/-- A leaf has no row of children, whatever happens to nodes that it does not stand for. -/
theorem StandsIn.leaf_of_keeps {s s' : Store} {i : Item} (h : (leaf i).StandsIn s)
    (hkeep : ∀ id, i = .node id → s.KeepsChildrenAt id s') : (leaf i).StandsIn s' := by
  obtain ⟨hk, hnone⟩ := h
  cases i with
  | node id => exact ⟨(hkeep id rfl).knows hk, (hkeep id rfl).childless hk hnone⟩
  | plain v => exact ⟨trivial, hnone⟩
  | row id => exact ⟨trivial, rfl⟩
  | fixedRow id => exact ⟨trivial, rfl⟩

/-- A branch has a branch or leaf for each of its children, and its store has them in its row. -/
theorem standsIn_branch {s : Store} {id : NodeId} {row : RowId} {ts : List Tree} :
    (branch id row ts).StandsIn s ↔
      s.HasChildren id row (ts.map item) ∧ ∀ t ∈ ts, t.StandsIn s := by
  rw [StandsIn, standAll_iff]

/-- What a tree stands for is there when the tree stands in the store. -/
theorem StandsIn.knows_item {s : Store} {t : Tree} (h : t.StandsIn s) : s.Knows t.item := by
  cases t with
  | leaf i => exact h.1
  | branch id row ts => exact (standsIn_branch.mp h).1.knows

/-- The row of the root, if it has one, is in the store. -/
theorem StandsIn.row?_of_childRow? {s : Store} {t : Tree} (h : t.StandsIn s) {row : RowId}
    (hrow : s.childRow? t.item = some row) : ∃ items, s.row? row = some items := by
  cases t with
  | leaf i =>
    rw [item, h.2] at hrow
    cases hrow
  | branch id other ts =>
    have hchildren := (standsIn_branch.mp h).1
    obtain rfl : other = row := Option.some.inj (hchildren.1.symm.trans hrow)
    exact ⟨_, hchildren.2⟩

/-- What has no row in the field of its children is a leaf, whatever else stands there. -/
theorem StandsIn.leaf_iff {s : Store} {t : Tree} (h : t.StandsIn s) :
    (∃ i, t = leaf i) ↔ ∀ row, s.attribute? t.item "children" ≠ some (.row row) := by
  cases t with
  | leaf i =>
    refine ⟨fun _ row hrow => ?_, fun _ => ⟨i, rfl⟩⟩
    have hnone := h.2
    rw [Store.childRow?, show s.attribute? i "children" = some (.row row) from hrow] at hnone
    cases hnone
  | branch id row ts =>
    refine ⟨fun hleaf => ?_, fun hnone => ?_⟩
    · obtain ⟨_, hi⟩ := hleaf
      cases hi
    have hrow : s.attribute? (.node id) "children" = some (.row row) :=
      Store.attribute?_of_childRow? (standsIn_branch.mp h).1.1
    exact absurd hrow (hnone row)

/-- A tree still stands in a store if its nodes have kept their children. -/
theorem StandsIn.of_keeps {s s' : Store} {t : Tree} (h : t.StandsIn s)
    (hkeep : s.KeepsChildren t.ids s') : t.StandsIn s' := by
  induction t with
  | leaf i => exact h.leaf_of_keeps fun id hi => hkeep id (mem_ids_of_item hi)
  | branch id row ts ih =>
    rw [standsIn_branch] at h ⊢
    refine ⟨(hkeep id (by simp [ids])).children row _ h.1, fun t ht => ?_⟩
    exact ih t ht (h.2 t ht) fun other hother => hkeep other (mem_ids_of_mem ht hother)

/-! ## Which items have a tree -/

/-- An item stands in the row of children of another. -/
def IsBelow (s : Store) (j i : Item) : Prop :=
  ∃ id row items, i = .node id ∧ s.HasChildren id row items ∧ j ∈ items

/-- What a store refers to in children is there. -/
def Closed (s : Store) : Prop :=
  ∀ id row, s.childRow? (.node id) = some row →
    ∃ items, s.row? row = some items ∧ ∀ j ∈ items, s.Knows j

/-- Only nodes have a row of children. -/
theorem exists_id_of_childRow? {s : Store} {i : Item} {row : RowId}
    (h : s.childRow? i = some row) : ∃ id, i = .node id := by
  cases i with
  | node id => exact ⟨id, rfl⟩
  | plain v =>
    cases hv : v.attribute? "children" <;> simp [Store.childRow?, Store.attribute?, hv] at h
  | row id => cases h
  | fixedRow id => cases h

/-- Items that each have a tree have a list of trees. -/
theorem exists_forest {P : Tree → Prop} {items : List Item}
    (h : ∀ i ∈ items, ∃ t : Tree, t.item = i ∧ P t) :
    ∃ ts : List Tree, ts.map item = items ∧ ∀ t ∈ ts, P t := by
  induction items with
  | nil => exact ⟨[], rfl, by simp⟩
  | cons i items ih =>
    obtain ⟨t, rfl, ht⟩ := h i List.mem_cons_self
    obtain ⟨ts, rfl, hts⟩ := ih fun j hj => h j (List.mem_cons_of_mem _ hj)
    exact ⟨t :: ts, rfl, List.forall_mem_cons.mpr ⟨ht, hts⟩⟩

/-- Every item below which there is no way without end has a tree, whatever is shared. -/
theorem exists_standsIn {s : Store} {i : Item} (hclosed : Closed s) (hknows : s.Knows i)
    (hacc : Acc (IsBelow s) i) : ∃ t : Tree, t.item = i ∧ t.StandsIn s := by
  induction hacc with
  | intro i _ ih =>
    cases hrow : s.childRow? i with
    | none => exact ⟨leaf i, rfl, hknows, hrow⟩
    | some row =>
      obtain ⟨id, rfl⟩ := exists_id_of_childRow? hrow
      obtain ⟨items, hitems, hall⟩ := hclosed id row hrow
      obtain ⟨ts, rfl, hts⟩ := exists_forest fun j hj =>
        ih j ⟨id, row, items, rfl, ⟨hrow, hitems⟩, hj⟩ (hall j hj)
      exact ⟨branch id row ts, rfl, standsIn_branch.mpr ⟨⟨hrow, hitems⟩, hts⟩⟩

end Tree

/-! ## A small tree -/

/-- A store with a root, which has a parent of one leaf and another leaf. -/
def Store.sample : Store where
  nodes := #[⟨.root, [("children", .row ⟨0⟩)]⟩, ⟨.element, [("children", .row ⟨1⟩)]⟩,
    ⟨.code, []⟩, ⟨.html, []⟩]
  rows := #[[.node ⟨1⟩, .node ⟨2⟩], [.node ⟨3⟩]]

/-- What lies below the root. -/
def Tree.sample : Tree :=
  .branch ⟨0⟩ ⟨0⟩ [.branch ⟨1⟩ ⟨1⟩ [.leaf (.node ⟨3⟩)], .leaf (.node ⟨2⟩)]

/-- The tree stands in the store. -/
theorem Tree.sample_standsIn : Tree.sample.StandsIn Store.sample :=
  ⟨⟨rfl, rfl⟩, ⟨⟨rfl, rfl⟩, ⟨⟨_, rfl⟩, rfl⟩, trivial⟩, ⟨⟨_, rfl⟩, rfl⟩, trivial⟩

end NotebookTree

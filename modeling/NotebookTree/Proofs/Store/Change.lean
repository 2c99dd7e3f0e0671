import NotebookTree.Proofs.Entries
import NotebookTree.Store

/-!
# What changes leave as it is

A walk works on a store that its callbacks work on too, so what can be said of it depends on what is
left as it is meanwhile. There are three measures.

## Main definitions

* `Store.KeepsChildren`: nodes keep the children they have. Their other fields may change.
* `Store.Keeps`: nodes and rows stay just as they are, and none is lost.
* `Store.ChangesOnlyChildren`: no more happens than that some nodes get other rows of children.
-/

namespace NotebookTree

/-- A node but for its children: its kind and its other fields. -/
def NodeState.apart (n : NodeState) : Kind × Entries Item :=
  (n.kind, n.fields.erase "children")

namespace Store

variable {s s' s'' : Store} {id : NodeId} {row : RowId} {items : List Item}

/-! ## Children -/

/-- A node has a row of children, and these are the items of the row. -/
def HasChildren (s : Store) (id : NodeId) (row : RowId) (items : List Item) : Prop :=
  s.childRow? (.node id) = some row ∧ s.row? row = some items

/-- An item is no node that the store has not. -/
def Knows (s : Store) : Item → Prop
  | .node id => ∃ n, s.node? id = some n
  | _ => True

/-- The row of a node's children hangs on the state of the node alone. -/
theorem childRow?_congr (h : s'.node? id = s.node? id) :
    s'.childRow? (.node id) = s.childRow? (.node id) := by
  simp only [childRow?, attribute?, h]

/-- The row of a node's children is what its attribute of that name is. -/
theorem attribute?_of_childRow? {i : Item} (h : s.childRow? i = some row) :
    s.attribute? i "children" = some (.row row) := by
  rw [childRow?] at h
  split at h
  · rename_i id hid
    rw [hid, Option.some.inj h]
  · cases h

/-- A node with a row of children is there. -/
theorem knows_of_childRow? (h : s.childRow? (.node id) = some row) : s.Knows (.node id) := by
  cases hn : s.node? id with
  | none => simp [childRow?, attribute?, hn] at h
  | some n => exact ⟨n, hn⟩

/-- A node that has children is there. -/
theorem HasChildren.knows (h : s.HasChildren id row items) : s.Knows (.node id) :=
  knows_of_childRow? h.1

/-- The items of the row are the children. -/
theorem HasChildren.rowItems (h : s.HasChildren id row items) : s.rowItems row = items := by
  rw [Store.rowItems, h.2, Option.getD_some]

/-- A node has one row of children. -/
theorem HasChildren.unique {row' : RowId} {items' : List Item} (h : s.HasChildren id row items)
    (h' : s.HasChildren id row' items') : row' = row ∧ items' = items := by
  obtain rfl : row' = row := Option.some.inj (h'.1.symm.trans h.1)
  exact ⟨rfl, Option.some.inj (h'.2.symm.trans h.2)⟩

/-! ## Nodes that keep their children -/

/-- A node that is there stays there, with the children it has or without any. -/
structure KeepsChildrenAt (id : NodeId) (s s' : Store) : Prop where
  knows : s.Knows (.node id) → s'.Knows (.node id)
  childless : s.Knows (.node id) → s.childRow? (.node id) = none → s'.childRow? (.node id) = none
  children : ∀ row items, s.HasChildren id row items → s'.HasChildren id row items

/-- The nodes in a list keep their children. -/
def KeepsChildren (ids : List NodeId) (s s' : Store) : Prop :=
  ∀ id ∈ ids, KeepsChildrenAt id s s'

/-- A store keeps the children of its own nodes. -/
theorem KeepsChildrenAt.refl (id : NodeId) (s : Store) : KeepsChildrenAt id s s :=
  ⟨fun h => h, fun _ h => h, fun _ _ h => h⟩

/-- Children that are kept twice are kept. -/
theorem KeepsChildrenAt.trans (h : KeepsChildrenAt id s s') (h' : KeepsChildrenAt id s' s'') :
    KeepsChildrenAt id s s'' where
  knows hk := h'.knows (h.knows hk)
  childless hk hn := h'.childless (h.knows hk) (h.childless hk hn)
  children row items hc := h'.children row items (h.children row items hc)

/-- A store keeps the children of its own nodes, for every list of them. -/
theorem KeepsChildren.refl (ids : List NodeId) (s : Store) : KeepsChildren ids s s :=
  fun id _ => .refl id s

/-! ## Nodes and rows that stay as they are -/

/-- The nodes and rows of two sets that are there stay as they are, and none at all is lost. -/
structure Keeps (N : NodeId → Prop) (R : RowId → Prop) (s s' : Store) : Prop where
  nodes_le : s.nodes.size ≤ s'.nodes.size
  rows_le : s.rows.size ≤ s'.rows.size
  node : ∀ id, N id → ∀ n, s.node? id = some n → s'.node? id = some n
  row : ∀ id, R id → ∀ items, s.row? id = some items → s'.row? id = some items

section Keeps

variable {N : NodeId → Prop} {R : RowId → Prop}

/-- A store keeps what it has. -/
theorem Keeps.refl (s : Store) : Keeps N R s s :=
  ⟨Nat.le_refl _, Nat.le_refl _, fun _ _ _ h => h, fun _ _ _ h => h⟩

/-- What is kept twice is kept. -/
theorem Keeps.trans (h : Keeps N R s s') (h' : Keeps N R s' s'') : Keeps N R s s'' where
  nodes_le := Nat.le_trans h.nodes_le h'.nodes_le
  rows_le := Nat.le_trans h.rows_le h'.rows_le
  node id hid n hn := h'.node id hid n (h.node id hid n hn)
  row id hid items hr := h'.row id hid items (h.row id hid items hr)

/-- Less is kept of the nodes and of the rows. -/
theorem Keeps.mono {N' : NodeId → Prop} {R' : RowId → Prop} (h : Keeps N R s s')
    (hN : ∀ id, N' id → N id) (hR : ∀ id, R' id → R id) : Keeps N' R' s s' where
  nodes_le := h.nodes_le
  rows_le := h.rows_le
  node id hid := h.node id (hN id hid)
  row id hid := h.row id (hR id hid)

/-- What stays as it is keeps its children. -/
theorem Keeps.keepsChildrenAt (h : Keeps N R s s') (hN : N id)
    (hR : ∀ row, s.childRow? (.node id) = some row → R row) : KeepsChildrenAt id s s' := by
  have hnode : s.Knows (.node id) → s'.node? id = s.node? id := by
    rintro ⟨n, hn⟩
    rw [hn, h.node id hN n hn]
  refine ⟨?_, fun hk hnone => ?_, fun row items hc => ⟨?_, ?_⟩⟩
  · rintro ⟨n, hn⟩
    exact ⟨n, h.node id hN n hn⟩
  · rw [childRow?_congr (hnode hk), hnone]
  · rw [childRow?_congr (hnode hc.knows), hc.1]
  · exact h.row row (hR row hc.1) items hc.2

end Keeps

/-! ## Changes of children only -/

/-- All that happens is that the nodes in a set may get other rows of children. -/
structure ChangesOnlyChildren (D : NodeId → Prop) (s s' : Store) : Prop where
  node : ∀ id, ¬ D id → s'.node? id = s.node? id
  apart : ∀ id, (s'.node? id).map NodeState.apart = (s.node? id).map NodeState.apart
  row : ∀ row items, s.row? row = some items → s'.row? row = some items

section ChangesOnlyChildren

variable {D D' : NodeId → Prop}

/-- Changing nothing changes only children. -/
theorem ChangesOnlyChildren.refl (s : Store) : ChangesOnlyChildren D s s :=
  ⟨fun _ _ => rfl, fun _ => rfl, fun _ _ h => h⟩

/-- Changing only children twice, of nodes in one set, changes only children of nodes in that
set. -/
theorem ChangesOnlyChildren.trans (h : ChangesOnlyChildren D s s')
    (h' : ChangesOnlyChildren D s' s'') : ChangesOnlyChildren D s s'' where
  node id hid := (h'.node id hid).trans (h.node id hid)
  apart id := (h'.apart id).trans (h.apart id)
  row row items hr := h'.row row items (h.row row items hr)

/-- The set of the nodes that may change can be taken larger. -/
theorem ChangesOnlyChildren.mono (h : ChangesOnlyChildren D s s') (hD : ∀ id, D id → D' id) :
    ChangesOnlyChildren D' s s' where
  node id hid := h.node id fun hd => hid (hD id hd)
  apart := h.apart
  row := h.row

/-- A node that was there is there when only children change. -/
theorem ChangesOnlyChildren.knows (h : ChangesOnlyChildren D s s') :
    s.Knows (.node id) → s'.Knows (.node id) := by
  rintro ⟨n, hn⟩
  have hmap := h.apart id
  rw [hn] at hmap
  obtain ⟨n', hn', -⟩ := Option.map_eq_some_iff.mp hmap
  exact ⟨n', hn'⟩

/-- A node outside the set keeps its children. -/
theorem ChangesOnlyChildren.keepsChildrenAt (h : ChangesOnlyChildren D s s') (hid : ¬ D id) :
    KeepsChildrenAt id s s' where
  knows := h.knows
  childless _ hnone := by rw [childRow?_congr (h.node id hid), hnone]
  children row items hc := by
    refine ⟨?_, h.row row items hc.2⟩
    rw [childRow?_congr (h.node id hid), hc.1]

end ChangesOnlyChildren

/-! ## A node with other children -/

/-- A store in which a node has a new row of children. -/
def withChildren (s : Store) (id : NodeId) (items : List Item) : Store :=
  (s.newRow items).2.setField id "children" (.row (s.newRow items).1)

/-- Setting a field changes the state of that one node, if it is there. -/
theorem node?_setField (s : Store) (n id : NodeId) (name : String) (i : Item) :
    (s.setField n name i).node? id =
      if id = n then (s.node? id).map fun m => { m with fields := m.fields.put name i }
      else s.node? id := by
  split
  · rename_i h
    subst h
    simp [setField, node?, Array.getElem?_modify]
  · rename_i h
    exact node?_setField_of_ne s name i h

/-- The row that a node's state names is the row of its children. -/
theorem childRow?_of_lookup {n : NodeState} (hn : s.node? id = some n)
    (h : n.fields.lookup "children" = some (.row row)) : s.childRow? (.node id) = some row := by
  simp only [childRow?, attribute?, hn, h]

/-- A node that gets children is as it was, but for the row that is new. -/
theorem node?_withChildren_self {n : NodeState} (h : s.node? id = some n) (items : List Item) :
    (s.withChildren id items).node? id =
      some { n with fields := n.fields.put "children" (.row (s.newRow items).1) } := by
  rw [withChildren, node?_setField, if_pos rfl, node?_newRow, h, Option.map_some]

/-- A node has the children that it gets. -/
theorem hasChildren_withChildren (h : s.Knows (.node id)) (items : List Item) :
    (s.withChildren id items).HasChildren id (s.newRow items).1 items := by
  obtain ⟨n, hn⟩ := h
  exact ⟨childRow?_of_lookup (node?_withChildren_self hn items) (Entries.lookup_put_self _ _ _),
    row?_newRow_self s items⟩

/-- A row that is there is older than the next new one. -/
theorem lt_of_row? (h : s.row? row = some items) : row.index < s.rows.size := by
  rw [row?] at h
  exact (Array.getElem?_eq_some_iff.mp h).1

/-- A node that is there has a number below the number of nodes. -/
theorem lt_of_node? {n : NodeState} (h : s.node? id = some n) : id.index < s.nodes.size := by
  rw [node?] at h
  exact (Array.getElem?_eq_some_iff.mp h).1

/-- The nodes that are there are those with a number below the number of nodes. -/
theorem knows_iff_lt : s.Knows (.node id) ↔ id.index < s.nodes.size := by
  constructor
  · rintro ⟨n, hn⟩
    exact lt_of_node? hn
  · exact fun h => ⟨_, Array.getElem?_eq_getElem h⟩

/-- The rows that are there are those with a number below the number of rows. -/
theorem exists_row?_iff_lt : (∃ items, s.row? row = some items) ↔ row.index < s.rows.size := by
  constructor
  · rintro ⟨items, hitems⟩
    exact lt_of_row? hitems
  · exact fun h => ⟨_, Array.getElem?_eq_getElem h⟩

/-- What is there stays there. -/
theorem Keeps.knows {N : NodeId → Prop} {R : RowId → Prop} (h : Keeps N R s s')
    (hknown : s.Knows (.node id)) : s'.Knows (.node id) :=
  knows_iff_lt.mpr (Nat.lt_of_lt_of_le (knows_iff_lt.mp hknown) h.nodes_le)

/-- Giving a node children changes only the children of that node. -/
theorem withChildren_changesOnlyChildren (s : Store) (id : NodeId) (items : List Item) :
    ChangesOnlyChildren (· = id) s (s.withChildren id items) := by
  refine ⟨fun other h => ?_, fun other => ?_, fun row xs h => ?_⟩
  · rw [withChildren, node?_setField, if_neg h, node?_newRow]
  · rw [withChildren, node?_setField, node?_newRow]
    split
    · rw [Option.map_map]
      refine congrArg (Option.map · _) (funext fun n => ?_)
      simp [NodeState.apart]
    · rfl
  · rw [withChildren, row?_setField, row?_newRow_of_lt s items (lt_of_row? h), h]

/-! ## A copy of a node with other children -/

/-- A store with a copy of a node, which has a new row of children. -/
def withCopy (s : Store) (id : NodeId) (items : List Item) : Store :=
  (((s.newRow items).2.newNode ((s.node? id).getD default)).2).setField ⟨s.nodes.size⟩ "children"
    (.row ⟨s.rows.size⟩)

/-- A copy adds one node. -/
theorem nodes_size_withCopy (s : Store) (id : NodeId) (items : List Item) :
    (s.withCopy id items).nodes.size = s.nodes.size + 1 := by
  simp [withCopy, setField, newNode, newRow]

/-- A copy adds one row, for its children. -/
theorem rows_size_withCopy (s : Store) (id : NodeId) (items : List Item) :
    (s.withCopy id items).rows.size = s.rows.size + 1 := by
  simp [withCopy, setField, newNode, newRow]

/-- A copy is as its original, but for the row of its children. -/
theorem node?_withCopy_self {n : NodeState} (h : s.node? id = some n) (items : List Item) :
    (s.withCopy id items).node? ⟨s.nodes.size⟩ =
      some { n with fields := n.fields.put "children" (.row ⟨s.rows.size⟩) } := by
  have hnew : ((s.newRow items).2.newNode ((s.node? id).getD default)).2.node? ⟨s.nodes.size⟩ =
      some n := by
    rw [h, Option.getD_some]
    exact node?_newNode_self (s.newRow items).2 n
  rw [withCopy, node?_setField, if_pos rfl, hnew, Option.map_some]

/-- The copy has the children it was given. -/
theorem hasChildren_withCopy {n : NodeState} (h : s.node? id = some n) (items : List Item) :
    (s.withCopy id items).HasChildren ⟨s.nodes.size⟩ ⟨s.rows.size⟩ items := by
  refine ⟨childRow?_of_lookup (node?_withCopy_self h items) (Entries.lookup_put_self _ _ _), ?_⟩
  rw [withCopy, row?_setField, row?_newNode]
  exact row?_newRow_self s items

/-- All that was there before stays as it is. -/
theorem withCopy_keeps (s : Store) (id : NodeId) (items : List Item) :
    Keeps (fun _ => True) (fun _ => True) s (s.withCopy id items) where
  nodes_le := by
    rw [nodes_size_withCopy]
    exact Nat.le_succ _
  rows_le := by
    rw [rows_size_withCopy]
    exact Nat.le_succ _
  node other _ n hn := by
    have hlt : other.index < s.nodes.size := lt_of_node? hn
    -- the copy is the first node that the store does not have
    have hne : other ≠ ⟨s.nodes.size⟩ := by
      rintro rfl
      exact Nat.lt_irrefl _ hlt
    rw [withCopy, node?_setField, if_neg hne,
      node?_newNode_of_lt (s.newRow items).2 _ hlt, node?_newRow, hn]
  row row _ xs hrow := by
    rw [withCopy, row?_setField, row?_newNode, row?_newRow_of_lt s items (lt_of_row? hrow), hrow]

end Store

end NotebookTree

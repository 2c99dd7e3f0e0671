import NotebookTree.Proofs.Store.Holds

/-!
# Nodes with other rows of children

A node that gets another row of children keeps its kind, the other fields, and the place of the
children among them. What has been done to a store is then said by a relation between the items that
the children of a node were and those that they are.

## Main definitions

* `Store.Reseats`: nodes get other rows of children, with items in a relation to those they had.
* `Store.Refreshes`: they get rows with the items that they had.
* `Store.Reads`: an item has the fields of a tree, but for the children.

## Main results

* `Store.Holds.viewWithin_of_reseats`: a tree is viewed as before if its nodes have the children
  that they had.
-/

namespace NotebookTree

/-- A node is as it was, or has another row of children in the place of the one that it had. -/
inductive NodeState.Reseated (n : NodeState) : NodeState → Prop
  | same : Reseated n n
  | moved {row : RowId} (h : n.fields.lookup "children" = some (.row row)) (other : RowId) :
      Reseated n { n with fields := n.fields.put "children" (.row other) }

/-- A node that gets another row twice has got another row. -/
theorem NodeState.Reseated.trans {n n' n'' : NodeState} (h : n.Reseated n')
    (h' : n'.Reseated n'') : n.Reseated n'' := by
  cases h with
  | same => exact h'
  | moved hrow other =>
    cases h' with
    | same => exact .moved hrow other
    | moved hrow' last =>
      rw [Entries.put_put]
      exact .moved hrow last

/-- The other fields are what they were. -/
theorem NodeState.Reseated.lookup {n n' : NodeState} (h : n.Reseated n') {name : String}
    (hname : name ≠ "children") : n'.fields.lookup name = n.fields.lookup name := by
  cases h with
  | same => rfl
  | moved => exact Entries.lookup_put_of_ne _ hname

/-- The kind is what it was. -/
theorem NodeState.Reseated.kind_eq {n n' : NodeState} (h : n.Reseated n') : n'.kind = n.kind := by
  cases h <;> rfl

namespace Store

variable {s s' s'' : Store} {R R' R'' : NodeId → List Item → List Item → Prop}

/-- Nodes may get other rows of children, with items in a relation to those that they had. Nothing
else happens to any node or row. -/
structure Reseats (R : NodeId → List Item → List Item → Prop) (s s' : Store) : Prop where
  nodes_size : s'.nodes.size = s.nodes.size
  rows_le : s.rows.size ≤ s'.rows.size
  node : ∀ id n, s.node? id = some n → ∃ n', s'.node? id = some n' ∧ n.Reseated n'
  row : ∀ row items, s.row? row = some items → s'.row? row = some items
  children : ∀ id row items, s.HasChildren id row items →
    ∃ row' items', s'.HasChildren id row' items' ∧ R id items items'

/-- Nodes may get other rows of children with the items that they had. -/
abbrev Refreshes (s s' : Store) : Prop := Reseats (fun _ xs ys => ys = xs) s s'

namespace Reseats

/-- Nothing happens where the children that nodes have are in the relation to themselves. -/
theorem of_children
    (hR : ∀ id row items, s.HasChildren id row items → R id items items) : Reseats R s s where
  nodes_size := rfl
  rows_le := Nat.le_refl _
  node _ n hn := ⟨n, hn, .same⟩
  row _ _ h := h
  children id row items h := ⟨row, items, h, hR id row items h⟩

/-- One change of rows after another relates the items by both relations in turn. -/
theorem trans (h : Reseats R s s') (h' : Reseats R' s' s'')
    (hR : ∀ id xs ys zs, R id xs ys → R' id ys zs → R'' id xs zs) : Reseats R'' s s'' where
  nodes_size := h'.nodes_size.trans h.nodes_size
  rows_le := Nat.le_trans h.rows_le h'.rows_le
  node id n hn := by
    obtain ⟨n', hn', hmoved⟩ := h.node id n hn
    obtain ⟨n'', hn'', hmoved'⟩ := h'.node id n' hn'
    exact ⟨n'', hn'', hmoved.trans hmoved'⟩
  row row items hrow := h'.row row items (h.row row items hrow)
  children id row items hc := by
    obtain ⟨row', items', hc', hitems⟩ := h.children id row items hc
    obtain ⟨row'', items'', hc'', hitems'⟩ := h'.children id row' items' hc'
    exact ⟨row'', items'', hc'', hR id items items' items'' hitems hitems'⟩

/-- The relation of the items can be taken wider. -/
theorem mono (h : Reseats R s s') (hR : ∀ id xs ys, R id xs ys → R' id xs ys) :
    Reseats R' s s' where
  nodes_size := h.nodes_size
  rows_le := h.rows_le
  node := h.node
  row := h.row
  children id row items hc := by
    obtain ⟨row', items', hc', hitems⟩ := h.children id row items hc
    exact ⟨row', items', hc', hR id items items' hitems⟩

/-- No node comes to be there. -/
theorem node?_eq_none (h : Reseats R s s') {id : NodeId} (hn : s.node? id = none) :
    s'.node? id = none := by
  rw [node?, Array.getElem?_eq_none_iff] at hn ⊢
  rwa [h.nodes_size]

/-- What is no child of an item is read as before. -/
theorem attribute? (h : Reseats R s s') (i : Item) {name : String} (hname : name ≠ "children") :
    s'.attribute? i name = s.attribute? i name := by
  cases i with
  | node id =>
    simp only [Store.attribute?]
    cases hn : s.node? id with
    | none => rw [h.node?_eq_none hn]
    | some n =>
      obtain ⟨n', hn', hmoved⟩ := h.node id n hn
      simp only [hn', hmoved.lookup hname, hmoved.kind_eq]
  | _ => rfl

/-- What has no row of children does not get one. -/
theorem childRow?_eq_none (h : Reseats R s s') {i : Item} (hi : s.childRow? i = none) :
    s'.childRow? i = none := by
  cases i with
  | node id =>
    cases hn : s.node? id with
    | none => simp only [childRow?, Store.attribute?, h.node?_eq_none hn]
    | some n =>
      obtain ⟨n', hn', hmoved⟩ := h.node id n hn
      cases hmoved with
      | same => rw [childRow?_congr (hn'.trans hn.symm), hi]
      | moved hrow =>
        rw [childRow?_of_lookup hn hrow] at hi
        cases hi
  | _ => exact hi

/-- The children of a node stand in another row, in the same place among the fields. -/
theorem node?_between (h : Reseats R s s') {k : Kind} {before after : Entries Value} {id : NodeId}
    {row : RowId} {items : List Item} (hbefore : before.has "children" = false)
    (hafter : after.has "children" = false)
    (hnode : s.node? id =
      some ⟨k, plainFields before ++ ("children", .row row) :: plainFields after⟩)
    (hrow : s.row? row = some items) :
    ∃ row' items', s'.node? id =
        some ⟨k, plainFields before ++ ("children", .row row') :: plainFields after⟩ ∧
      s'.row? row' = some items' ∧ R id items items' := by
  rw [← has_plainFields] at hbefore hafter
  obtain ⟨row', items', hc, hitems⟩ :=
    h.children id row items (hasChildren_of_between hbefore hnode hrow)
  obtain ⟨n', hn', hmoved⟩ := h.node id _ hnode
  -- the fields around the row are the same either way, so the state is known but for the row
  have hchanged : ∃ other, n' =
      ⟨k, plainFields before ++ ("children", .row other) :: plainFields after⟩ := by
    cases hmoved with
    | same => exact ⟨row, rfl⟩
    | moved _ other => exact ⟨other, by rw [Entries.put_between _ hbefore hafter]⟩
  obtain ⟨other, rfl⟩ := hchanged
  have hother := childRow?_of_lookup hn' (Entries.lookup_middle hbefore _)
  obtain rfl : other = row' := Option.some.inj (hother.symm.trans hc.1)
  exact ⟨other, items', hn', hc.2, hitems⟩

end Reseats

/-- A store that is left alone is refreshed. -/
theorem Refreshes.refl (s : Store) : Refreshes s s :=
  .of_children fun _ _ _ _ => rfl

/-- What is refreshed twice is refreshed. -/
theorem Refreshes.trans (h : Refreshes s s') (h' : Refreshes s' s'') : Refreshes s s'' :=
  Reseats.trans h h' fun _ _ _ _ hxs hys => hys.trans hxs

/-- A store after which nodes only get rows with the same items. -/
theorem Reseats.refreshes (h : Reseats R s s') (h' : Refreshes s' s'') : Reseats R s s'' :=
  h.trans h' fun _ _ _ _ hR heq => heq ▸ hR

/-- A node has the children that it had, in some row. -/
theorem Refreshes.hasChildren (h : Refreshes s s') {id : NodeId} {row : RowId} {items : List Item}
    (hc : s.HasChildren id row items) : ∃ row', s'.HasChildren id row' items := by
  obtain ⟨row', _, hc', rfl⟩ := h.children id row items hc
  exact ⟨row', hc'⟩

/-- The row of a node's children is what its state names. -/
theorem lookup_of_childRow? {id : NodeId} {row : RowId} {n : NodeState}
    (hrow : s.childRow? (.node id) = some row) (hn : s.node? id = some n) :
    n.fields.lookup "children" = some (.row row) := by
  have hattribute := attribute?_of_childRow? hrow
  simp only [Store.attribute?, hn] at hattribute
  split at hattribute
  · rename_i f hf
    rw [hf, Option.some.inj hattribute]
  · rw [Value.kindAttribute?_children] at hattribute
    cases hattribute

/-- A node with children gets others, and no other node does. -/
theorem reseats_withChildren {id : NodeId} {row : RowId} {old new : List Item}
    (hc : s.HasChildren id row old) (hnew : R id old new)
    (hothers : ∀ other row' xs, other ≠ id → s.HasChildren other row' xs → R other xs xs) :
    Reseats R s (s.withChildren id new) where
  nodes_size := by simp [withChildren, setField, newRow]
  rows_le := by simp [withChildren, setField, newRow]
  node other n hn := by
    rw [withChildren, node?_setField, node?_newRow, hn]
    by_cases hother : other = id
    · subst hother
      rw [if_pos rfl]
      exact ⟨_, rfl, .moved (lookup_of_childRow? hc.1 hn) _⟩
    · rw [if_neg hother]
      exact ⟨n, rfl, .same⟩
  row := (withChildren_changesOnlyChildren s id new).row
  children other row' items hitems := by
    by_cases hother : other = id
    · subst hother
      obtain ⟨-, rfl⟩ := hc.unique hitems
      exact ⟨_, new, hasChildren_withChildren hc.knows new, hnew⟩
    · have hsame := (withChildren_changesOnlyChildren s id new).node other hother
      have hrow := (withChildren_changesOnlyChildren s id new).row row' items hitems.2
      exact ⟨row', items, ⟨(childRow?_congr hsame).trans hitems.1, hrow⟩,
        hothers other row' items hother hitems⟩

/-- A node may get its children again. -/
theorem refreshes_withChildren {id : NodeId} {row : RowId} {items : List Item}
    (hc : s.HasChildren id row items) : Refreshes s (s.withChildren id items) :=
  reseats_withChildren hc rfl fun _ _ _ _ _ => rfl

/-! ## Fields -/

/-- An item has the fields of a tree, but for the children. -/
def Reads (s : Store) (i : Item) (v : Value) : Prop :=
  ∀ name, name ≠ "children" → s.attribute? i name = (v.attribute? name).map .plain

/-- A tree in a store has the fields of that tree. -/
theorem Holds.reads {p : Held} (h : Holds s p) : Reads s p.item p.tree := fun _ hname =>
  h.attribute? hname

/-- Other rows of children leave the fields that are read. -/
theorem Reads.of_reseats {i : Item} {v : Value} (h : Reads s i v) (hs : Reseats R s s') :
    Reads s' i v := fun name hname => by rw [hs.attribute? i hname, h name hname]

/-- A field of the tree is seen as it is in it. -/
theorem Reads.fieldView {i : Item} {v : Value} (h : Reads s i v) {name : String}
    (hname : name ≠ "children") : s.fieldView i name = (v.attribute? name).getD .null := by
  rw [Store.fieldView, h name hname]
  cases v.attribute? name <;> rfl

/-! ## Views -/

/-- A node with a row of children is viewed with what the items of the row are viewed as. -/
theorem viewWithin_branch {k : Kind} {before after : Entries Value} {id : NodeId} {row : RowId}
    {items : List Item} (hnode : s.node? id =
      some ⟨k, plainFields before ++ ("children", .row row) :: plainFields after⟩)
    (hrow : s.row? row = some items) (depth : Nat) :
    s.viewWithin (depth + 3) (.node id) = .node k
      (before ++ ("children", .list (items.map (s.viewWithin (depth + 1)))) :: after) := by
  have hitems : s.rowItems row = items := by rw [rowItems, hrow, Option.getD_some]
  simp only [Store.viewWithin, hnode, List.map_append, List.map_cons, map_viewWithin_plainFields,
    hitems]

/-- A tree is viewed as before when each of its nodes has the children that it had. -/
theorem Holds.viewWithin_of_reseats {p : Held} (h : Holds s p) (hs : Reseats R s s')
    (hsame : ∀ q id, Holds s q → Below q.tree p.tree → q.item = .node id →
      ∀ xs ys, R id xs ys → ys = xs) :
    ∀ {depth : Nat}, p.identities.length < depth → s'.viewWithin depth p.item = p.tree := by
  induction h with
  | @leaf k fields id hk hfields hnode =>
    intro depth hdepth
    obtain ⟨d, rfl⟩ : ∃ d, depth = d + 2 := ⟨depth - 2, by simp at hdepth; omega⟩
    obtain ⟨n', hn', hmoved⟩ := hs.node id _ hnode
    cases hmoved with
    | same => simp only [Store.viewWithin, hn', map_viewWithin_plainFields]
    | moved hrow =>
      -- what has no list of children has no row
      have hnone := childRow?_of_plainFields hnode
      rw [childRow?_of_lookup hnode hrow] at hnone
      cases hnone
  | @branch k before after id row parts hk hbefore hafter hnode hrow hparts hnodup ih =>
    intro depth hdepth
    obtain ⟨d, rfl⟩ : ∃ d, depth = d + 3 := ⟨depth - 3, by simp at hdepth; omega⟩
    obtain ⟨row', items, hnode', hrow', hR⟩ := hs.node?_between hbefore hafter hnode hrow
    obtain rfl : items = parts.map Held.item :=
      hsame _ id (.branch hk hbefore hafter hnode hrow hparts hnodup) .root rfl _ _ hR
    rw [viewWithin_branch hnode' hrow', List.map_map]
    have hviews : parts.map (s'.viewWithin (d + 1) ∘ Held.item) = parts.map Held.tree := by
      refine List.map_congr_left fun p hp => ih p hp (fun q other hq hbelow => ?_) ?_
      · refine hsame q other hq (.child ?_ hbelow)
        rw [Value.children?_branch hbefore]
        exact List.mem_map_of_mem hp
      · have hle : p.identities.length ≤ (parts.flatMap Held.identities).length :=
          (List.sublist_flatten_of_mem (List.mem_map_of_mem hp)).length_le
        simp only [List.length_cons] at hdepth
        omega
    rw [hviews]

end Store

end NotebookTree

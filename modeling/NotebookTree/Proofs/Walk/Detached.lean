import NotebookTree.Proofs.Store.Leads
import NotebookTree.Proofs.Walk.Tree

/-!
# Trees that are held by their rows alone

In a tree whose other fields lead elsewhere, a node of the tree is come to through rows of children
and in no other way. So a change of some nodes of the tree makes no difference to what lies beside
them.

## Main definitions

* `Tree.Detached`: nothing in a tree leads to a set of nodes, but for the rows of children.

## Main statements

* `Detached.avoids_item`: a tree of which no node is in the set avoids the set.
-/

namespace NotebookTree.Tree

open Store (Avoids FieldsAvoid)

variable {D D' : NodeId → Prop} {s s' : Store} {t : Tree}

/-- What stands in a leaf avoids a set of nodes, and so do the fields of the other nodes but for
their rows of children. -/
inductive Detached (D : NodeId → Prop) (s : Store) : Tree → Prop
  | leaf {i : Item}
      (parts : ∀ x, i.identity? = some x → ¬ x.IsNew s ∧ ∀ j ∈ s.parts x, s.Avoids D j) :
      Detached D s (leaf i)
  | branch {id : NodeId} {row : RowId} {ts : List Tree} (fields : s.FieldsAvoid D id)
      (children : ∀ t ∈ ts, Detached D s t) : Detached D s (branch id row ts)

namespace Detached

/-- What keeps apart from a set keeps apart from every smaller one. -/
theorem mono (h : t.Detached D s) (hD : ∀ id, D' id → D id) : t.Detached D' s := by
  induction h with
  | leaf hparts =>
    exact .leaf fun x hx => ⟨(hparts x hx).1, fun j hj => ((hparts x hx).2 j hj).mono hD⟩
  | branch hfields _ ih => exact .branch (hfields.mono hD) ih

/-- Nothing in a tree leads to what comes later. -/
theorem or_isNew (h : t.Detached D s) :
    t.Detached (fun id => D id ∨ (Identity.node id).IsNew s) s := by
  induction h with
  | leaf hparts =>
    exact .leaf fun x hx => ⟨(hparts x hx).1, fun j hj => ((hparts x hx).2 j hj).or_isNew⟩
  | branch hfields _ ih => exact .branch hfields.or_isNew ih

/-- The fields of a branch but the children keep apart from the set. -/
theorem fields {id : NodeId} {row : RowId} {ts : List Tree}
    (h : (Tree.branch id row ts).Detached D s) : s.FieldsAvoid D id := by
  cases h with
  | branch hfields _ => exact hfields

/-- A tree of which no node is in the set avoids the set. -/
theorem avoids_item (h : t.Detached D s) (hstand : t.StandsIn s) (hids : ∀ id ∈ t.ids, ¬ D id) :
    s.Avoids D t.item := by
  induction h with
  | @leaf i hparts =>
    refine Store.avoids_iff.mpr fun x hx => ⟨⟨(hparts x hx).1, fun id hid => ?_⟩, (hparts x hx).2⟩
    exact hids id (mem_ids_of_item (Item.eq_node_of_identity? (hid ▸ hx)))
  | @branch id row ts hfields _ ih =>
    obtain ⟨hchildren, hstands⟩ := standsIn_branch.mp hstand
    refine hfields.avoids hchildren (fun j hj => ?_) (hids id (by simp [ids]))
    obtain ⟨t, ht, rfl⟩ := List.mem_map.mp hj
    exact ih t ht (hstands t ht) fun other hother => hids other (mem_ids_of_mem ht hother)

/-- A tree that leads to nothing that is changed stays as it is. -/
theorem of_keeps (h : t.Detached D s) (hstand : t.StandsIn s) (hD : ∀ id, D' id → D id)
    (hids : ∀ id ∈ t.ids, ¬ D' id) (hkeep : s.Keeps (fun id => ¬ D' id) (fun _ => True) s') :
    t.Detached D s' := by
  have hkeep' : s.Keeps (fun id => ¬ D id) (fun _ => True) s' :=
    hkeep.imp fun id hid hd => hid (hD id hd)
  induction h with
  | @leaf i hparts =>
    refine .leaf fun x hx => ⟨mt (Store.isNew_of_keeps hkeep) (hparts x hx).1, ?_⟩
    have hout : ∀ id, x = .node id → ¬ D' id := fun id hid =>
      hids id (mem_ids_of_item (t := Tree.leaf i) (Item.eq_node_of_identity? (hid ▸ hx)))
    rw [Store.parts_eq_of_keeps hkeep ⟨(hparts x hx).1, hout⟩]
    exact fun j hj => ((hparts x hx).2 j hj).of_keeps hkeep'
  | @branch id row ts hfields _ ih =>
    obtain ⟨hchildren, hstands⟩ := standsIn_branch.mp hstand
    obtain ⟨n, hn⟩ := hchildren.knows
    -- the node keeps its fields, as it is none of those that may change
    refine .branch (hfields.of_keeps hn (hkeep.node id (hids id (by simp [ids])) n hn) hkeep')
      fun t ht => ?_
    exact ih t ht (hstands t ht) fun other hother => hids other (mem_ids_of_mem ht hother)

end Detached

/-- Nothing in the small tree leads anywhere but for the rows of children. -/
theorem sample_detached (D : NodeId → Prop) : sample.Detached D Store.sample := by
  have hfields : ∀ id n row, Store.sample.node? id = some n → n.fields = [("children", .row row)] →
      Store.sample.FieldsAvoid D id := fun id n row hn hrow m hm f hf hother => by
    obtain rfl : n = m := Option.some.inj (hn.symm.trans hm)
    rw [hrow] at hf hother
    rw [List.mem_singleton.mp hf] at hother
    exact absurd rfl (hother rfl)
  have hleaf : ∀ id n, Store.sample.node? id = some n → n.fields = [] →
      (leaf (.node id)).Detached D Store.sample := fun id n hn hempty => by
    refine .leaf fun x hx => ?_
    obtain rfl : Identity.node id = x := Option.some.inj hx
    refine ⟨Store.knows_iff_not_isNew.mp ⟨n, hn⟩, fun j hj => ?_⟩
    rw [Store.parts_node hn, hempty] at hj
    cases hj
  have hbelow : (branch ⟨1⟩ ⟨1⟩ [leaf (.node ⟨3⟩)]).Detached D Store.sample :=
    .branch (hfields _ _ _ rfl rfl) (List.forall_mem_singleton.mpr (hleaf _ _ rfl rfl))
  exact .branch (hfields _ _ _ rfl rfl) (List.forall_mem_cons.mpr
    ⟨hbelow, List.forall_mem_singleton.mpr (hleaf _ _ rfl rfl)⟩)

end NotebookTree.Tree

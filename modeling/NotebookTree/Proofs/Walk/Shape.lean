import NotebookTree.Proofs.Store.Unfolding
import NotebookTree.Proofs.Walk.Detached
import NotebookTree.Proofs.Walk.Outcome

/-!
# Shapes

The shape of a tree has a label for every occurrence and is arranged as the tree. A branch is
labelled with what is seen of its node but for the children, so a node that gets other children, or
a copy of it that gets them, has the label that it had. What is labelled at a leaf depends on what a
walk leaves of leaves.

Two trees, in one store or in two, are seen alike when they have the same shape
(`Tree.unfolding_eq_shape`).

## Main definitions

* `Shape`, `Shape.unfolding`: labels arranged as a tree, and what is seen of it.
* `Tree.shape`: the shape of a tree.
* `Tree.Every`: something holds of all leaves, and something of all branches.
* `Tree.Settled`: a tree that changes elsewhere leave as it is.
* `Walk.SameTree`: two walks return trees that are seen alike.
-/

namespace NotebookTree

/-- Labels arranged as a tree. -/
inductive Shape (α : Type) where
  | leaf (label : α)
  | branch (label : Unfolding) (children : List (Shape α))

variable {α : Type}

namespace Shape

/-- Whatever holds of leaves, and of branches if it holds of their children, holds of all shapes. -/
@[induction_eliminator]
theorem induct {P : Shape α → Prop} (leaf : ∀ a, P (leaf a))
    (branch : ∀ label cs, (∀ c ∈ cs, P c) → P (branch label cs)) : ∀ c, P c
  | .leaf a => leaf a
  | .branch label cs => branch label cs fun c _ => induct leaf branch c

variable (seen : α → Unfolding)

mutual

/-- What is seen of a tree with a shape, of which leaves are seen as their labels say. -/
def unfolding : Shape α → Unfolding
  | leaf a => seen a
  | branch label cs => label.withChildren (.row (unfoldingAll cs))

/-- What is seen of trees with some shapes. -/
def unfoldingAll : List (Shape α) → List Unfolding
  | [] => []
  | c :: cs => unfolding c :: unfoldingAll cs

end

/-- The unfoldings of shapes are those of each. -/
theorem unfoldingAll_eq (cs : List (Shape α)) : unfoldingAll seen cs = cs.map (unfolding seen) := by
  induction cs with
  | nil => rfl
  | cons c cs ih => rw [unfoldingAll, ih, List.map_cons]

end Shape

namespace Tree

/-! ## Leaves and branches -/

/-- Something holds of what stands in all leaves, and something of the nodes of all branches. -/
inductive Every (P : Item → Prop) (B : NodeId → Prop) : Tree → Prop
  | leaf {i : Item} (h : P i) : Every P B (leaf i)
  | branch {id : NodeId} {row : RowId} {ts : List Tree} (h : B id)
      (children : ∀ t ∈ ts, Every P B t) : Every P B (branch id row ts)

/-! ## The shape of a tree -/

section Shape

variable (label : Item → α) (s : Store)

mutual

/-- The shape of a tree in a store, when leaves are labelled in some way. -/
def shape : Tree → Shape α
  | leaf i => .leaf (label i)
  | branch id _ ts => .branch (s.unfolding (.node id)).covered (shapeAll ts)

/-- The shapes of some trees. -/
def shapeAll : List Tree → List (Shape α)
  | [] => []
  | t :: ts => shape t :: shapeAll ts

end

/-- The shapes of trees are those of each. -/
theorem shapeAll_eq (ts : List Tree) : shapeAll label s ts = ts.map (shape label s) := by
  induction ts with
  | nil => rfl
  | cons t ts ih => rw [shapeAll, ih, List.map_cons]

end Shape

variable {P : Item → Prop} {B : NodeId → Prop} {D D' : NodeId → Prop} {s s' : Store} {t : Tree}
  {label label' : Item → α}

/-- A tree has the shape that it had if it leads to nothing that is changed. -/
theorem shape_of_keeps (h : t.Detached D s) (hstand : t.StandsIn s) (hD : ∀ id, D' id → D id)
    (hids : ∀ id ∈ t.ids, ¬ D' id) (hkeep : s.Keeps (fun id => ¬ D' id) (fun _ => True) s')
    (hlabel : ∀ i, s.Avoids D' i → label' i = label i) : t.shape label' s' = t.shape label s := by
  induction h with
  | @leaf i hparts =>
    have havoids := ((Detached.leaf hparts).mono hD).avoids_item hstand hids
    rw [shape, shape, hlabel i havoids]
  | @branch id row ts hfields _ ih =>
    obtain ⟨hchildren, hstands⟩ := standsIn_branch.mp hstand
    obtain ⟨n, hn⟩ := hchildren.knows
    have hn' := hkeep.node id (hids id (by simp [ids])) n hn
    rw [shape, shape, (hfields.mono hD).covered_eq hn hn' hkeep, shapeAll_eq, shapeAll_eq]
    refine congrArg _ (List.map_congr_left fun t ht => ?_)
    exact ih t ht (hstands t ht) fun other hother => hids other (mem_ids_of_mem ht hother)

/-- A tree is seen as its shape says, if its leaves are seen as their labels say and each node has
one field for its children. -/
theorem unfolding_eq_shape {seen : α → Unfolding} (hevery : t.Every P B) (hstand : t.StandsIn s)
    (hdistinct : ∀ id ∈ t.ids, s.DistinctFields id)
    (hleaf : ∀ i, P i → (∀ id, i = .node id → s.DistinctFields id) →
      seen (label i) = s.unfolding i) :
    s.unfolding t.item = (t.shape label s).unfolding seen := by
  induction hevery with
  | @leaf i hi =>
    exact (hleaf i hi fun id hid => hdistinct id (mem_ids_of_item (t := .leaf i) hid)).symm
  | @branch id row ts hid _ ih =>
    obtain ⟨hchildren, hstands⟩ := standsIn_branch.mp hstand
    -- each child by induction; the fields other than the children are in the shape as they are
    have hseen : ∀ t ∈ ts, s.unfolding t.item = (t.shape label s).unfolding seen := fun t ht =>
      ih t ht (hstands t ht) fun other hother => hdistinct other (mem_ids_of_mem ht hother)
    rw [item, Store.unfolding_eq_withChildren (hdistinct id (by simp [ids])),
      Store.childrenUnfolding_of_hasChildren hchildren, shape, Shape.unfolding, shapeAll_eq,
      Shape.unfoldingAll_eq, Unfolding.withChildren_covered, List.map_map, List.map_map]
    exact congrArg _ (congrArg _ (List.map_congr_left hseen))

/-! ## Settled trees -/

/-- A tree stands in a store, nothing in it leads to a set of nodes but for the rows of children,
and each of its nodes has each of its fields once. -/
structure Settled (D : NodeId → Prop) (s : Store) (t : Tree) : Prop where
  stands : t.StandsIn s
  detached : t.Detached D s
  distinct : ∀ id ∈ t.ids, s.DistinctFields id

namespace Settled

/-- The nodes of a settled tree are there. -/
theorem knows (h : t.Settled D s) : ∀ id ∈ t.ids, s.Knows (.node id) := by
  obtain ⟨hstand, -, -⟩ := h
  induction t with
  | leaf i =>
    intro id hid
    cases i with
    | node other =>
      rw [List.mem_singleton.mp hid]
      exact hstand.1
    | _ => cases hid
  | branch root row ts ih =>
    obtain ⟨hchildren, hstands⟩ := standsIn_branch.mp hstand
    intro id hid
    rw [ids, idsAll_eq] at hid
    rcases List.mem_cons.mp hid with rfl | hid
    · exact hchildren.knows
    · obtain ⟨t, ht, hid⟩ := List.mem_flatMap.mp hid
      exact ih t ht (hstands t ht) id hid

/-- What is settled apart from a set is so apart from every smaller one. -/
theorem mono (h : t.Settled D s) (hD : ∀ id, D' id → D id) : t.Settled D' s :=
  ⟨h.stands, h.detached.mono hD, h.distinct⟩

/-- A settled tree leads to no node that is yet to come. -/
theorem or_isNew (h : t.Settled D s) :
    t.Settled (fun id => D id ∨ (Identity.node id).IsNew s) s :=
  ⟨h.stands, h.detached.or_isNew, h.distinct⟩

/-- The children of a settled tree are settled. -/
theorem child {id : NodeId} {row : RowId} {ts : List Tree} (h : (branch id row ts).Settled D s)
    (ht : t ∈ ts) : t.Settled D s := by
  obtain ⟨hstand, hdetached, hdistinct⟩ := h
  cases hdetached with
  | branch _ hbelow =>
    exact ⟨(standsIn_branch.mp hstand).2 t ht, hbelow t ht,
      fun x hx => hdistinct x (mem_ids_of_mem ht hx)⟩

section Keeps

variable (h : t.Settled D s) (hD : ∀ id, D' id → D id) (hids : ∀ id ∈ t.ids, ¬ D' id)
  (hkeep : s.Keeps (fun id => ¬ D' id) (fun _ => True) s')

include h hD hids hkeep

/-- A tree that leads to nothing that is changed stays settled. -/
theorem of_keeps : t.Settled D s' := by
  refine ⟨h.stands.of_keeps fun id hid => hkeep.keepsChildrenAt (hids id hid) fun _ _ => trivial,
    h.detached.of_keeps h.stands hD hids hkeep, fun id hid => ?_⟩
  obtain ⟨n, hn⟩ := h.knows id hid
  exact (h.distinct id hid).of_eq (by rw [hn, hkeep.node id (hids id hid) n hn])

/-- Labels that agree where the tree leads give the same shape. -/
theorem shape_eq (hlabel : ∀ i, s.Avoids D' i → label' i = label i) :
    t.shape label' s' = t.shape label s :=
  shape_of_keeps h.detached h.stands hD hids hkeep hlabel

end Keeps

/-- A complete tree stays settled while the store only grows. -/
theorem of_keepsAll (h : t.Settled (fun _ => False) s) (hkeep : s.KeepsAll s') :
    t.Settled (fun _ => False) s' :=
  h.of_keeps (fun _ hx => hx) (fun _ _ => not_false) hkeep.keeps

end Settled

/-- The tree is settled, whatever the set. -/
theorem sample_settled (D : NodeId → Prop) : sample.Settled D Store.sample := by
  refine ⟨sample_standsIn, sample_detached D, fun id hid n hn => ?_⟩
  have hid : id = ⟨0⟩ ∨ id = ⟨1⟩ ∨ id = ⟨3⟩ ∨ id = ⟨2⟩ := by
    simpa [sample, ids, idsAll] using hid
  rcases hid with rfl | rfl | rfl | rfl <;> rw [← Option.some.inj hn] <;> decide

end Tree

/-! ## Walks that return trees -/

/-- Two walks return, and what they return is seen alike. -/
def Walk.SameTree {σ : Type} (w v : Walk σ Item) (s : Scene σ) : Prop :=
  ∃ x y final final', outcome w s = (.ok x, final) ∧ outcome v s = (.ok y, final') ∧
    final.store.unfolding x = final'.store.unfolding y

end NotebookTree

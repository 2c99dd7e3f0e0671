import NotebookTree.Proofs.Walk.Shape
import NotebookTree.Proofs.Walk.Transform.Direction

/-!
# Relabelled trees

A mapper that hands on the children of each node, and makes the other fields of its answer from the
other fields of the node and its index, relabels the shape of a tree. One after the other, two
relabellings of a shape are one (`Shape.relabel_relabel`).

What stands in the place of a node is the node with other fields, a new node, or, in the place of a
leaf, a node `O` that was there before the walk, is no node of the tree, and never changes. It may
stand at several places then.

## Main definitions

* `Shape.relabel`: labels in the place of others.
* `Store.Relabelled`: what a call for a node leaves.
* `RelabelledAll`: trees that have come in the place of others.
-/

namespace NotebookTree

/-! ## Relabelled shapes -/

/-- What is seen of a leaf but for the children, and what is seen of these. -/
abbrev LeafLabel := Unfolding × Unfolding

/-- What is seen of a leaf with a label. -/
def LeafLabel.seen (a : LeafLabel) : Unfolding := a.1.withChildren a.2

/-- The label of a leaf. -/
def Store.leafLabel (s : Store) (i : Item) : LeafLabel :=
  ((s.unfolding i).covered, s.childrenUnfolding i)

/-- What avoids the nodes that may change has the same label after the change. -/
theorem Store.Avoids.leafLabel_eq {D : NodeId → Prop} {s s' : Store} {i : Item}
    (h : s.Avoids D i) (hkeep : s.Keeps (fun id => ¬ D id) (fun _ => True) s') :
    s'.leafLabel i = s.leafLabel i := by
  rw [leafLabel, leafLabel, h.unfolding_eq hkeep, h.childrenUnfolding_eq hkeep]

namespace Shape

section Relabel

variable (φ : Unfolding → Option Nat → Unfolding)

mutual

/-- A shape with what a function of labels and indices puts in the place of each label. -/
def relabel (index : Option Nat) : Shape LeafLabel → Shape LeafLabel
  | leaf a => leaf ((φ a.1 index).covered, a.2)
  | branch label cs => branch (φ label index).covered (relabelAll 0 cs)

/-- Relabelled shapes, of which the first has index `k`. -/
def relabelAll (k : Nat) : List (Shape LeafLabel) → List (Shape LeafLabel)
  | [] => []
  | c :: cs => relabel (some k) c :: relabelAll (k + 1) cs

end

/-- Shapes are relabelled one by one, each with its index. -/
theorem relabelAll_eq (k : Nat) (cs : List (Shape LeafLabel)) :
    relabelAll φ k cs = (cs.zipIdx k).map fun l => l.1.relabel φ (some l.2) := by
  induction cs generalizing k with
  | nil => rfl
  | cons c cs ih => rw [relabelAll, ih, List.zipIdx_cons, List.map_cons]

end Relabel

/-- One function of labels after another. -/
def followedBy (φ ψ : Unfolding → Option Nat → Unfolding) (label : Unfolding)
    (index : Option Nat) : Unfolding := ψ (φ label index).covered index

/-- Shapes that are relabelled twice are relabelled by one function after the other. -/
theorem relabel_relabel (φ ψ : Unfolding → Option Nat → Unfolding) (c : Shape LeafLabel)
    (index : Option Nat) :
    (c.relabel φ index).relabel ψ index = c.relabel (followedBy φ ψ) index := by
  induction c generalizing index with
  | leaf a => rfl
  | branch label cs ih =>
    rw [relabel, relabel, relabel, followedBy]
    refine congrArg _ ?_
    generalize 0 = k
    induction cs generalizing k with
    | nil => rfl
    | cons c cs ihs =>
      rw [relabelAll, relabelAll, relabelAll, ih c List.mem_cons_self,
        ihs fun d hd => ih d (List.mem_cons_of_mem c hd)]

end Shape

/-! ## One node -/

namespace Store

variable {O : NodeId → Prop} {φ ψ : Unfolding → Option Nat → Unfolding} {index : Option Nat}
  {s s' s'' : Store} {n y z : NodeId}

/-- A node is there, has each field once, and nothing in it leads back to it, unless it never
changes. -/
structure Sound (O : NodeId → Prop) (s : Store) (n : NodeId) : Prop where
  knows : s.Knows (.node n)
  distinct : s.DistinctFields n
  apart : ∀ j ∈ s.parts (.node n), s.Avoids (fun x => x = n ∧ ¬ O x) j

/-- A node has come in the place of another. It has the same children, and what is seen of it
otherwise is what a function says. No other node has changed, and whatever the other fields of the
old node did not lead to, the new one's do not, but for new nodes and those that never change. -/
structure Relabelled (φ : Unfolding → Option Nat → Unfolding) (O : NodeId → Prop)
    (index : Option Nat) (s : Store) (n : NodeId) (s' : Store) (y : NodeId) : Prop where
  keeps : s.Keeps (fun x => x = n → O x) (fun _ => True) s'
  knows : s'.Knows (.node y)
  place : y = n ∨ (Identity.node y).IsNew s ∨ O y ∧ s.childRow? (.node n) = none
  children : s'.attribute? (.node y) "children" = s.attribute? (.node n) "children"
  label : (s'.unfolding (.node y)).covered = (φ (s.unfolding (.node n)).covered index).covered
  distinct : s'.DistinctFields y
  fields : ∀ D : NodeId → Prop, (∀ x, D x → s.Knows (.node x) ∧ ¬ O x) → s.FieldsAvoid D n →
    s'.FieldsAvoid (fun x => D x ∨ x = y ∧ ¬ O x) y

namespace Relabelled

variable (h : Relabelled φ O index s n s' y)

include h

/-- The node has the row of children that it had. -/
theorem childRow?_eq : s'.childRow? (.node y) = s.childRow? (.node n) := by
  rw [childRow?, childRow?, h.children]

/-- The node has the children that it had. -/
theorem hasChildren {row : RowId} {items : List Item} (hc : s.HasChildren n row items) :
    s'.HasChildren y row items :=
  ⟨h.childRow?_eq.trans hc.1, h.keeps.row row trivial items hc.2⟩

/-- What has come in the place of a node with a row of children is the node or new. -/
theorem eq_or_isNew {row : RowId} {items : List Item} (hc : s.HasChildren n row items) :
    y = n ∨ (Identity.node y).IsNew s := by
  rcases h.place with hy | hy | ⟨-, hnone⟩
  · exact .inl hy
  · exact .inr hy
  · rw [hc.1] at hnone
    cases hnone

/-- All but the node itself is kept. -/
theorem keeps_apart : s.Keeps (fun x => ¬ (x = n ∧ ¬ O x)) (fun _ => True) s' :=
  h.keeps.imp fun _ hx => not_and_not_right.mp hx

/-- What stands for the children of the node leads neither to it nor to what came in its place. -/
theorem avoids_children {D : NodeId → Prop} (hn : s.Sound O n) {f : Item}
    (hf : s.attribute? (.node n) "children" = some f) (hD : s.Avoids D f) :
    s'.Avoids (fun x => D x ∨ x = y ∧ ¬ O x) f := by
  have havoids : s.Avoids (fun x => x = n ∧ ¬ O x) f := avoids_attribute hn.apart hf
  have hall := ((hD.or havoids).or_isNew).of_keeps (h.keeps_apart.imp fun x hx hn =>
    hx (.inl (.inr hn)))
  refine hall.mono fun x hx => ?_
  rcases hx with hx | ⟨rfl, hO⟩
  · exact .inl (.inl hx)
  · rcases h.place with hy | hy | ⟨hy, -⟩
    · exact .inl (.inr ⟨hy, hO⟩)
    · exact .inr hy
    · exact absurd hy hO

/-- The children unfold as they did. -/
theorem childrenUnfolding_eq (hn : s.Sound O n) :
    s'.childrenUnfolding (.node y) = s.childrenUnfolding (.node n) := by
  rw [childrenUnfolding, childrenUnfolding, h.children]
  cases hf : s.attribute? (.node n) "children" with
  | none => rfl
  | some f => exact (avoids_attribute hn.apart hf).unfolding_eq h.keeps_apart

/-- A leaf has the new label and the children that it had. -/
theorem leafLabel_eq (hn : s.Sound O n) : s'.leafLabel (.node y) =
    ((φ (s.unfolding (.node n)).covered index).covered, s.childrenUnfolding (.node n)) := by
  rw [leafLabel, h.label, h.childrenUnfolding_eq hn]

/-- All that stands in the new node avoids what the old one's parts avoided. -/
theorem avoids_parts {D : NodeId → Prop} (hn : s.Sound O n)
    (hD : ∀ x, D x → s.Knows (.node x) ∧ ¬ O x) (hparts : ∀ j ∈ s.parts (.node n), s.Avoids D j) :
    ∀ j ∈ s'.parts (.node y), s'.Avoids (fun x => D x ∨ x = y ∧ ¬ O x) j := by
  refine (h.fields D hD fun m hm f hf _ => hparts f.2 ?_).parts fun f hf => ?_
  · rw [parts_node hm]
    exact List.mem_map_of_mem hf
  · rw [h.children] at hf
    exact h.avoids_children hn hf (avoids_attribute hparts hf)

/-- The node is sound after relabelling. -/
theorem sound (hn : s.Sound O n) : s'.Sound O y := by
  refine ⟨h.knows, h.distinct, fun j hj => ?_⟩
  refine (h.avoids_parts (D := fun _ => False) hn (fun _ hx => hx.elim) (fun i hi => ?_) j hj).mono
    fun x hx => .inr hx
  exact (hn.apart i hi).mono fun _ hx => hx.elim

/-- What has come in the place of a node may be relabelled again. -/
theorem trans (h' : Relabelled ψ O index s' y s'' z) :
    Relabelled (Shape.followedBy φ ψ) O index s n s'' z where
  keeps := by
    refine ⟨Nat.le_trans h.keeps.nodes_le h'.keeps.nodes_le,
      Nat.le_trans h.keeps.rows_le h'.keeps.rows_le, fun x hx m hm => ?_,
      fun row _ items hrow => h'.keeps.row row trivial items (h.keeps.row row trivial items hrow)⟩
    refine h'.keeps.node x (fun hxy => ?_) m (h.keeps.node x hx m hm)
    -- the node stayed, is new, or is one from beside the tree without children
    rcases h.place with hy | hy | ⟨hy, -⟩
    · exact hx (hxy.trans hy)
    · exact absurd (lt_of_node? hm) (Nat.not_lt.mpr (hxy ▸ hy))
    · exact hxy ▸ hy
  knows := h'.knows
  place := by
    rcases h'.place with rfl | hz | ⟨hz, hnone⟩
    · exact h.place
    · exact .inr (.inl (Nat.le_trans h.keeps.nodes_le hz))
    · exact .inr (.inr ⟨hz, h.childRow?_eq ▸ hnone⟩)
  children := h'.children.trans h.children
  label := by rw [h'.label, h.label, Shape.followedBy]
  distinct := h'.distinct
  fields D hD hfields := by
    refine (h'.fields _ (fun x hx => ?_) (h.fields D hD hfields)).mono fun x hx => ?_
    · rcases hx with hx | ⟨rfl, hO⟩
      · exact ⟨h.keeps.knows (hD x hx).1, (hD x hx).2⟩
      · exact ⟨h.knows, hO⟩
    · exact hx.imp .inl fun hx => hx

end Relabelled

end Store

/-! ## Trees one after the other -/

/-- The nodes of a list that may change. -/
def Owned (O : NodeId → Prop) (T : List NodeId) (x : NodeId) : Prop := x ∈ T ∧ ¬ O x

/-- The nodes to which only rows of children lead, when trees have come in the place of others: the
nodes `T` of the tree that a walk began with, those that have come in the place of some, and all
that were made by the walk before it came to these. -/
def Reserved (O : NodeId → Prop) (base : Store) (T : List NodeId) (s : Store) (new : List NodeId)
    (x : NodeId) : Prop :=
  ¬ O x ∧ (x ∈ T ∨ x ∈ new ∨ (Identity.node x).IsNew base ∧ ¬ (Identity.node x).IsNew s)

/-- Trees have come in the place of others with their indices. -/
structure RelabelledAll (φ : Unfolding → Option Nat → Unfolding) (O : NodeId → Prop) (base : Store)
    (T : List NodeId) (ks : List (Tree × Option Nat)) (s s' : Store) (us : List Tree) : Prop where
  settled : ∀ u ∈ us, u.Settled (Reserved O base T s (us.flatMap Tree.ids)) s'
  every : ∀ u ∈ us, u.Every (fun i => ∃ id, i = .node id) fun id => ¬ O id
  shapes : us.map (Tree.shape s'.leafLabel s') =
    ks.map fun k => (k.1.shape base.leafLabel base).relabel φ k.2
  height : Tree.heightAll us ≤ Tree.heightAll (ks.map Prod.fst)
  once : (us.flatMap Tree.ids).Pairwise fun a b => a = b → O a
  ids : ∀ x ∈ us.flatMap Tree.ids, O x ∨ (∃ k ∈ ks, x ∈ k.1.ids) ∨ (Identity.node x).IsNew s

namespace RelabelledAll

variable {φ : Unfolding → Option Nat → Unfolding} {O : NodeId → Prop} {base s s' s'' : Store}
  {T : List NodeId} {k : Tree × Option Nat} {ks : List (Tree × Option Nat)} {u : Tree}
  {us : List Tree}

/-- Of no trees none is relabelled. -/
theorem nil (s : Store) : RelabelledAll φ O base T [] s s [] where
  settled := List.forall_mem_nil _
  every := List.forall_mem_nil _
  shapes := rfl
  height := Nat.le_refl _
  once := .nil
  ids := List.forall_mem_nil _

/-- What has come in the place of trees stays, and leads to nothing that comes later, while nothing
else changes that may change. -/
theorem settled_of_keeps (h : RelabelledAll φ O base T ks s s' us) {D : NodeId → Prop}
    (hD : ∀ x, D x → Owned O T x) (hout : ∀ x ∈ us.flatMap Tree.ids, ¬ D x)
    (hkeep : s'.Keeps (fun x => ¬ D x) (fun _ => True) s'') : ∀ u ∈ us,
    u.Settled (fun x => Reserved O base T s (us.flatMap Tree.ids) x ∨ (Identity.node x).IsNew s')
        s'' ∧
      u.shape s''.leafLabel s'' = u.shape s'.leafLabel s' := by
  intro u hu
  have hlater := (h.settled u hu).or_isNew
  have hsub : ∀ x, D x →
      Reserved O base T s (us.flatMap Tree.ids) x ∨ (Identity.node x).IsNew s' := fun x hx =>
    .inl ⟨(hD x hx).2, .inl (hD x hx).1⟩
  have hids : ∀ x ∈ u.ids, ¬ D x := fun x hx => hout x (List.mem_flatMap.mpr ⟨u, hu, hx⟩)
  exact ⟨hlater.of_keeps hsub hids hkeep,
    hlater.shape_eq hsub hids hkeep fun i hi => hi.leafLabel_eq hkeep⟩

/-- The nodes of the relabelled trees are there. -/
theorem knows (h : RelabelledAll φ O base T ks s s' us) :
    ∀ x ∈ us.flatMap Tree.ids, ¬ (Identity.node x).IsNew s' := by
  intro x hx
  obtain ⟨u, hu, hx⟩ := List.mem_flatMap.mp hx
  exact Store.knows_iff_not_isNew.mp ((h.settled u hu).knows x hx)

/-! ### One after the other -/

section Cons

variable (hT : ∀ x ∈ T, ¬ (Identity.node x).IsNew base) (hbase : base.nodes.size ≤ s.nodes.size)
  (hks : ∀ l ∈ k :: ks, l.1.ids ⊆ T) (hparted : ∀ l ∈ ks, k.1.Parted (Owned O T) l.1)
  (h : RelabelledAll φ O base T [k] s s' [u]) (hle : s.nodes.size ≤ s'.nodes.size)
  (h' : RelabelledAll φ O base T ks s' s'' us)

include h in
/-- The nodes of the first tree are shared, its own, or new. -/
theorem ids_first {x : NodeId} (hx : x ∈ u.ids) :
    O x ∨ x ∈ k.1.ids ∨ (Identity.node x).IsNew s := by
  simpa using h.ids x (by simpa using hx)

include hks h' in
/-- The nodes of the other trees are shared, theirs, or new after the first. -/
theorem ids_others {x : NodeId} (hx : x ∈ us.flatMap Tree.ids) :
    O x ∨ x ∈ T ∨ (Identity.node x).IsNew s' := by
  rcases h'.ids x hx with hO | ⟨l, hl, hx⟩ | hnew
  · exact .inl hO
  · exact .inr (.inl (hks l (List.mem_cons_of_mem k hl) hx))
  · exact .inr (.inr hnew)

include hT hbase hparted h in
/-- What came in the place of the first tree is in none of the others, if it may change. -/
theorem not_mem_others {x : NodeId} (hx : x ∈ u.ids) (hown : Owned O T x) :
    ∀ l ∈ ks, x ∉ l.1.ids := fun l hl hmem => by
  rcases h.ids_first hx with hO | hxk | hnew
  · exact hown.2 hO
  · exact hparted l hl x hxk hmem hown
  · exact hT x hown.1 (Nat.le_trans hbase hnew)

include hT hbase hks hparted h h' in
/-- Only shared nodes are in the first tree and in another one. -/
theorem disjoint {x : NodeId} (hx : x ∈ u.ids) (hx' : x ∈ us.flatMap Tree.ids) : O x := by
  refine Classical.byContradiction fun hO => ?_
  have hold := h.knows x (by simpa using hx)
  rcases ids_others hks h' hx' with hxO | hxT | hnew
  · exact hO hxO
  · rcases h'.ids x hx' with hxO | ⟨l, hl, hxl⟩ | hnew
    · exact hO hxO
    · exact not_mem_others hT hbase hparted h hx ⟨hxT, hO⟩ l hl hxl
    · exact hold hnew
  · exact hold hnew

include hks h' in
/-- What is reserved against all trees is so against the first, or is new after it. -/
theorem reserved_first {x : NodeId} (hx : Reserved O base T s ((u :: us).flatMap Tree.ids) x) :
    Reserved O base T s ([u].flatMap Tree.ids) x ∨ (Identity.node x).IsNew s' := by
  obtain ⟨hO, hxT | hx | hold⟩ := hx
  · exact .inl ⟨hO, .inl hxT⟩
  · rw [List.flatMap_cons] at hx
    rcases List.mem_append.mp hx with hx | hx
    · exact .inl ⟨hO, .inr (.inl (by simpa using hx))⟩
    · rcases ids_others hks h' hx with hxO | hxT | hnew
      · exact absurd hxO hO
      · exact .inl ⟨hO, .inl hxT⟩
      · exact .inr hnew
  · exact .inl ⟨hO, .inr (.inr hold)⟩

include hbase hks h hle in
/-- What is reserved against all trees is so against the others. -/
theorem reserved_others {x : NodeId} (hx : Reserved O base T s ((u :: us).flatMap Tree.ids) x) :
    Reserved O base T s' (us.flatMap Tree.ids) x := by
  obtain ⟨hO, hxT | hx | ⟨hnew, hold⟩⟩ := hx
  · exact ⟨hO, .inl hxT⟩
  · rw [List.flatMap_cons] at hx
    rcases List.mem_append.mp hx with hx | hx
    · rcases h.ids_first hx with hxO | hxk | hnew
      · exact absurd hxO hO
      · exact ⟨hO, .inl (hks k List.mem_cons_self hxk)⟩
      · exact ⟨hO, .inr (.inr ⟨Nat.le_trans hbase hnew, h.knows x (by simpa using hx)⟩)⟩
    · exact ⟨hO, .inr (.inl hx)⟩
  · exact ⟨hO, .inr (.inr ⟨hnew, fun hnew' => hold (Nat.le_trans hle hnew')⟩)⟩

include hT hbase hks hparted h hle h' in
/-- Trees come in the place of others one after the other. -/
theorem cons (hkeep : s'.Keeps (fun x => Owned O T x → ∀ l ∈ ks, x ∉ l.1.ids) (fun _ => True) s'') :
    RelabelledAll φ O base T (k :: ks) s s'' (u :: us) := by
  have hu : u ∈ [u] := List.mem_singleton_self u
  -- the others leave what came in the place of the first tree
  have hout : ∀ x ∈ [u].flatMap Tree.ids, ¬ (Owned O T x ∧ ∃ l ∈ ks, x ∈ l.1.ids) := by
    rintro x hx ⟨hown, l, hl, hmem⟩
    exact not_mem_others hT hbase hparted h (by simpa using hx) hown l hl hmem
  obtain ⟨hsettled, hshape⟩ := h.settled_of_keeps (fun x hx => hx.1) hout
    (hkeep.imp fun x hx hown l hl hmem => hx ⟨hown, l, hl, hmem⟩) u hu
  refine ⟨List.forall_mem_cons.mpr ⟨hsettled.mono fun x hx => reserved_first hks h' hx, fun v hv =>
      (h'.settled v hv).mono fun x hx => reserved_others hbase hks h hle hx⟩,
    List.forall_mem_cons.mpr ⟨h.every u hu, h'.every⟩, ?_, ?_, ?_, ?_⟩
  · rw [List.map_cons, List.map_cons, hshape, h'.shapes, (List.cons.inj h.shapes).1]
  · have hone := h.height
    have hothers := h'.height
    simp only [Tree.heightAll, List.map_cons, List.map_nil] at hone hothers ⊢
    omega
  · rw [List.flatMap_cons, List.pairwise_append]
    refine ⟨by simpa using h.once, h'.once, ?_⟩
    rintro x hx _ hy rfl
    exact disjoint hT hbase hks hparted h h' hx hy
  · rw [List.flatMap_cons]
    refine List.forall_mem_append.mpr ⟨fun x hx => ?_, fun x hx => ?_⟩
    · exact (h.ids_first hx).imp_right (.imp_left fun hxk => ⟨k, List.mem_cons_self, hxk⟩)
    · rcases h'.ids x hx with hO | ⟨l, hl, hxl⟩ | hnew
      · exact .inl hO
      · exact .inr (.inl ⟨l, List.mem_cons_of_mem k hl, hxl⟩)
      · exact .inr (.inr (Nat.le_trans hle hnew))

end Cons

/-! ### A leaf -/

section Leaf

variable {index : Option Nat} {n y : NodeId}
  (ht : (Tree.leaf (.node n)).Settled (Owned O T) base)
  (hkeep : base.Keeps (fun x => Owned O T x → x ∈ (Tree.leaf (.node n)).ids) (fun _ => True) s)

include ht hkeep

/-- A leaf that a walk has not come to is as it was. -/
theorem settled_leaf : (Tree.leaf (.node n)).Settled
      (fun x => Owned O T x ∨ (Identity.node x).IsNew base) s ∧
    s.leafLabel (.node n) = base.leafLabel (.node n) := by
  have hsub : ∀ x, Owned O T x ∧ x ∉ (Tree.leaf (.node n)).ids →
      Owned O T x ∨ (Identity.node x).IsNew base := fun x hx => .inl hx.1
  have hkeep' : base.Keeps (fun x => ¬ (Owned O T x ∧ x ∉ (Tree.leaf (.node n)).ids))
      (fun _ => True) s := hkeep.imp fun x => not_and_not_right.mp
  have hlater := ht.or_isNew
  refine ⟨hlater.of_keeps hsub (fun x hx h => h.2 hx) hkeep', Shape.leaf.inj ?_⟩
  exact hlater.shape_eq hsub (fun x hx h => h.2 hx) hkeep' fun i hi => hi.leafLabel_eq hkeep'

/-- Nothing in such a leaf leads back to it. -/
theorem parts_leaf : ∀ j ∈ s.parts (.node n),
    s.Avoids (fun x => Owned O T x ∨ (Identity.node x).IsNew base) j := by
  obtain ⟨⟨-, hdetached, -⟩, -⟩ := settled_leaf ht hkeep
  cases hdetached with
  | leaf hparts => exact (hparts _ rfl).2

/-- A leaf is sound when its turn comes. -/
theorem sound_leaf (hn : n ∈ T) : s.Sound O n := by
  obtain ⟨hsettled, -⟩ := settled_leaf ht hkeep
  have hmem : n ∈ (Tree.leaf (.node n)).ids := List.mem_singleton_self n
  refine ⟨hsettled.knows n hmem, hsettled.distinct n hmem, fun j hj => ?_⟩
  exact (parts_leaf ht hkeep j hj).mono fun x hx => .inl ⟨hx.1 ▸ hn, hx.2⟩

/-- What a call puts in the place of a leaf has come in its place. -/
theorem leaf (hT : ∀ x ∈ T, ¬ (Identity.node x).IsNew base) (hn : n ∈ T)
    (h : s.Relabelled φ O index n s' y) :
    RelabelledAll φ O base T [(.leaf (.node n), index)] s s' [.leaf (.node y)] := by
  obtain ⟨hsettled, hlabel⟩ := settled_leaf ht hkeep
  have hsound := sound_leaf ht hkeep hn
  have hids : ∀ x ∈ [Tree.leaf (.node y)].flatMap Tree.ids, x = y := fun x hx => by
    simpa [Tree.ids] using hx
  refine ⟨List.forall_mem_singleton.mpr ⟨⟨h.knows, h.childRow?_eq.trans hsettled.stands.2⟩,
      .leaf fun x hx => ?_, fun x hx => ?_⟩, List.forall_mem_singleton.mpr (.leaf ⟨y, rfl⟩), ?_,
    Nat.le_refl _, List.pairwise_singleton _ _, fun x hx => ?_⟩
  · obtain rfl : Identity.node y = x := Option.some.inj hx
    refine ⟨Store.knows_iff_not_isNew.mp h.knows, fun j hj => ?_⟩
    -- the set that the parts of the leaf keep apart from, as it was before the call
    let D : NodeId → Prop := fun x => ¬ O x ∧
      (x ∈ T ∨ (Identity.node x).IsNew base ∧ ¬ (Identity.node x).IsNew s)
    refine (h.avoids_parts (D := D) hsound (fun x hx => ⟨?_, hx.1⟩) (fun i hi => ?_) j hj).mono
      fun x hx => ?_
    · refine Store.knows_iff_not_isNew.mpr (hx.2.elim (fun hxT => ?_) And.right)
      exact mt (Store.isNew_of_keeps hkeep) (hT x hxT)
    · refine (parts_leaf ht hkeep i hi).mono fun x hx => ?_
      exact hx.2.imp (fun hxT => ⟨hxT, hx.1⟩) And.left
    · obtain ⟨hO, hx | hx | hx⟩ := hx
      · exact .inl ⟨hO, .inl hx⟩
      · exact .inr ⟨hids x hx, hO⟩
      · exact .inl ⟨hO, .inr hx⟩
  · rw [List.mem_singleton.mp hx]
    exact h.distinct
  · simp only [List.map_cons, List.map_nil, Tree.shape, Shape.relabel, h.leafLabel_eq hsound,
      ← hlabel]
    rfl
  · rw [hids x hx]
    rcases h.place with rfl | hy | ⟨hy, -⟩
    · exact .inr (.inl ⟨_, List.mem_singleton_self _, List.mem_singleton_self _⟩)
    · exact .inr (.inr hy)
    · exact .inl hy

end Leaf

end RelabelledAll

/-! ## A branch -/

/-- All children of a branch are done, and nothing else of it has changed. -/
structure ChildrenDone (φ : Unfolding → Option Nat → Unfolding) (O : NodeId → Prop) (base : Store)
    (T : List NodeId) (id : NodeId) (row : RowId) (ts : List Tree) (s s' : Store) (us : List Tree) :
    Prop where
  old : ∀ x, x ∈ T ∨ O x → ¬ (Identity.node x).IsNew base
  le : base.nodes.size ≤ s.nodes.size
  le_after : s.nodes.size ≤ s'.nodes.size
  settled : (Tree.branch id row ts).Settled (Owned O T) base
  ids : (Tree.branch id row ts).ids ⊆ T
  free : ¬ O id
  root : ∀ t ∈ ts, id ∉ t.ids
  children : RelabelledAll φ O base T (ts.zipIdx.map fun k => (k.1, some k.2)) s s' us
  keeps : base.Keeps (fun x => Owned O T x → x = id) (fun _ => True) s'

namespace ChildrenDone

variable {φ : Unfolding → Option Nat → Unfolding} {O : NodeId → Prop} {base s s' s'' : Store}
  {T : List NodeId} {index : Option Nat} {id y : NodeId} {row : RowId} {ts us : List Tree}
  (h : ChildrenDone φ O base T id row ts s s' us)

include h

/-- The root is owned by the tree. -/
theorem owned : Owned O T id := ⟨h.ids (by simp [Tree.ids]), h.free⟩

/-- The root had its children at the start. -/
theorem hasChildren : base.HasChildren id row (ts.map Tree.item) :=
  (Tree.standsIn_branch.mp h.settled.stands).1

/-- What is new later was new at the start. -/
theorem isNew_base {x : NodeId} (hx : (Identity.node x).IsNew s) : (Identity.node x).IsNew base :=
  Nat.le_trans h.le hx

/-- What has come in the place of the children is part of these, new, or never changes. -/
theorem mem_ids {x : NodeId} (hx : x ∈ us.flatMap Tree.ids) :
    O x ∨ (∃ t ∈ ts, x ∈ t.ids) ∨ (Identity.node x).IsNew s := by
  rcases h.children.ids x hx with hO | ⟨k, hk, hx⟩ | hx
  · exact .inl hO
  · obtain ⟨l, hl, rfl⟩ := List.mem_map.mp hk
    exact .inr (.inl ⟨l.1, List.fst_mem_of_mem_zipIdx hl, hx⟩)
  · exact .inr (.inr hx)

/-- The nodes of the new children that are not shared belong to the tree or are new. -/
theorem mem_or_isNew {x : NodeId} (hx : x ∈ us.flatMap Tree.ids) (hO : ¬ O x) :
    Owned O T x ∨ (Identity.node x).IsNew base := by
  rcases h.mem_ids hx with hxO | ⟨t, ht, hx⟩ | hx
  · exact absurd hxO hO
  · exact .inl ⟨h.ids (Tree.mem_ids_of_mem ht hx), hO⟩
  · exact .inr (h.isNew_base hx)

/-- The root is none of the nodes of its new children. -/
theorem root_not_mem : id ∉ us.flatMap Tree.ids := fun hid => by
  rcases h.mem_ids hid with hO | ⟨t, ht, hid⟩ | hnew
  · exact h.free hO
  · exact h.root t ht hid
  · exact h.old id (.inl h.owned.1) (h.isNew_base hnew)

/-- The root is there. -/
theorem knows : s'.Knows (.node id) := by
  obtain ⟨n, hn⟩ := h.hasChildren.knows
  exact ⟨n, h.keeps.node id (fun _ => rfl) n hn⟩

/-- The node leads to no node of the tree, and to no new one, but by way of its children. -/
theorem fieldsAvoid_withChildren (items : List Item) : (s'.withChildren id items).FieldsAvoid
    (fun x => Owned O T x ∨ (Identity.node x).IsNew base) id :=
  h.settled.detached.fields.or_isNew.withChildren h.hasChildren.knows (.inl h.owned)
    (h.keeps.imp fun _ hx hown => hx (.inl hown))

/-- The new children do not lead to the root. -/
theorem avoids_items : ∀ i ∈ us.map Tree.item, s'.Avoids (· = id) i := by
  intro i hi
  obtain ⟨u, hu, rfl⟩ := List.mem_map.mp hi
  have hsettled := h.children.settled u hu
  refine (hsettled.mono fun x hx => ?_).detached.avoids_item hsettled.stands fun x hx hid => ?_
  · exact hx ▸ ⟨h.free, .inl h.owned.1⟩
  · exact h.root_not_mem (hid ▸ List.mem_flatMap.mpr ⟨u, hu, hx⟩)

/-- The node is seen as before, but for its children. -/
theorem covered_eq : ((s'.withChildren id (us.map Tree.item)).unfolding (.node id)).covered =
    (base.unfolding (.node id)).covered := by
  rw [Store.unfolding_withChildren h.hasChildren h.owned h.settled.detached.fields h.keeps
    h.avoids_items, Unfolding.covered_withChildren]

/-- The root is sound with its new children. -/
theorem sound : (s'.withChildren id (us.map Tree.item)).Sound O id := by
  have hc := Store.hasChildren_withChildren h.knows (us.map Tree.item)
  have hstep : s'.Keeps (fun x => ¬ x = id) (fun _ => True)
      (s'.withChildren id (us.map Tree.item)) := Store.withChildren_keeps _ _ _
  refine ⟨hc.knows, ?_, (h.fieldsAvoid_withChildren _ |>.mono fun x hx => ?_).parts fun f hf => ?_⟩
  · obtain ⟨n, hn⟩ := h.hasChildren.knows
    exact (h.settled.distinct id (by simp [Tree.ids])).of_put hn
      (Store.node?_withChildren_self (h.keeps.node id (fun _ => rfl) n hn) _)
  · exact .inl (hx.1 ▸ h.owned)
  · rw [Store.attribute?_of_childRow? hc.1] at hf
    rw [← Option.some.inj hf]
    refine Store.avoids_row hc.2 fun j hj => ?_
    exact ((h.avoids_items j hj).of_keeps hstep).mono fun x hx => hx.1

section Call

variable (hy : (s'.withChildren id (us.map Tree.item)).Relabelled φ O index id s'' y)

include hy

/-- The answer is the root itself or a new node. -/
theorem eq_or_isNew : y = id ∨ (Identity.node y).IsNew s' :=
  (hy.eq_or_isNew (Store.hasChildren_withChildren h.knows _)).imp_right
    (Nat.le_trans (Store.withChildren_keeps s' id _).nodes_le)

/-- The call leaves what has come in the place of the children as it is. -/
theorem children_stay : ∀ u ∈ us,
    u.Settled (fun x => Reserved O base T s (us.flatMap Tree.ids) x ∨ (Identity.node x).IsNew s')
        s'' ∧
      u.shape s''.leafLabel s'' = u.shape s'.leafLabel s' := by
  refine h.children.settled_of_keeps (D := (· = id)) (fun x hx => hx ▸ h.owned)
    (fun x hx hid => h.root_not_mem (hid ▸ hx)) ?_
  have hstep : s'.Keeps (fun x => ¬ x = id) (fun _ => True)
    (s'.withChildren id (us.map Tree.item)) := Store.withChildren_keeps _ _ _
  exact hstep.trans (hy.keeps.imp fun x hx heq => absurd heq hx)

/-- The other fields of the answer keep apart from what is reserved. -/
theorem fieldsAvoid_call : s''.FieldsAvoid
    (fun x => Reserved O base T s (us.flatMap Tree.ids) x ∨ x = y ∧ ¬ O x) y := by
  refine hy.fields _ (fun x hx => ⟨Store.knows_iff_not_isNew.mpr fun hnew => ?_, hx.1⟩)
    ((h.fieldsAvoid_withChildren _).mono fun x hx => ?_)
  · have hnew' := Nat.le_trans (Store.withChildren_keeps s' id _).nodes_le hnew
    rcases hx.2 with hx | hx | hx
    · exact h.old x (.inl hx) (Nat.le_trans h.keeps.nodes_le hnew')
    · exact h.children.knows x hx hnew'
    · exact hx.2 (Nat.le_trans h.le_after hnew')
  · obtain ⟨hO, hx | hx | hx⟩ := hx
    · exact .inl ⟨hx, hO⟩
    · exact h.mem_or_isNew hx hO
    · exact .inr hx.1

/-- The answer with the new children is a settled tree. -/
theorem settled_branch : (Tree.branch y (s'.newRow (us.map Tree.item)).1 us).Settled
    (Reserved O base T s (y :: us.flatMap Tree.ids)) s'' := by
  have hc := Store.hasChildren_withChildren h.knows (us.map Tree.item)
  have hus := h.children_stay hy
  refine ⟨?_, .branch ((h.fieldsAvoid_call hy).mono fun x hx => ?_) fun u hu =>
    (hus u hu).1.detached.mono fun x hx => ?_, fun x hx => ?_⟩
  · exact Tree.standsIn_branch.mpr ⟨hy.hasChildren hc, fun u hu => (hus u hu).1.stands⟩
  · obtain ⟨hO, hx | hx | hx⟩ := hx
    · exact .inl ⟨hO, .inl hx⟩
    · rcases List.mem_cons.mp hx with rfl | hx
      · exact .inr ⟨rfl, hO⟩
      · exact .inl ⟨hO, .inr (.inl hx)⟩
    · exact .inl ⟨hO, .inr (.inr hx)⟩
  · obtain ⟨hO, hx | hx | hx⟩ := hx
    · exact .inl ⟨hO, .inl hx⟩
    · rcases List.mem_cons.mp hx with rfl | hx
      · -- the answer is the root, which the children do not lead to, or a node that came after them
        rcases h.eq_or_isNew hy with rfl | hnew
        · exact .inl ⟨hO, .inl h.owned.1⟩
        · exact .inr hnew
      · exact .inl ⟨hO, .inr (.inl hx)⟩
    · exact .inl ⟨hO, .inr (.inr hx)⟩
  · rw [Tree.ids, Tree.idsAll_eq] at hx
    rcases List.mem_cons.mp hx with rfl | hx
    · exact hy.distinct
    · obtain ⟨u, hu, hx⟩ := List.mem_flatMap.mp hx
      exact (hus u hu).1.distinct x hx

/-- The answer has the relabelled shape. -/
theorem shape_branch :
    (Tree.branch y (s'.newRow (us.map Tree.item)).1 us).shape s''.leafLabel s'' =
      ((Tree.branch id row ts).shape base.leafLabel base).relabel φ index := by
  have hshapes : us.map (Tree.shape s''.leafLabel s'') =
      (ts.map (Tree.shape base.leafLabel base)).zipIdx.map fun c => c.1.relabel φ (some c.2) := by
    rw [List.map_congr_left fun u hu => (h.children_stay hy u hu).2, h.children.shapes,
      List.map_map, List.zipIdx_map, List.map_map]
    rfl
  rw [Tree.shape, Tree.shape, Tree.shapeAll_eq, Tree.shapeAll_eq, Shape.relabel,
    Shape.relabelAll_eq, hy.label, h.covered_eq, hshapes]

/-- What a call puts in the place of a branch has come in its place. -/
theorem branch : RelabelledAll φ O base T [(.branch id row ts, index)] s s''
    [.branch y (s'.newRow (us.map Tree.item)).1 us] := by
  have hids : [Tree.branch y (s'.newRow (us.map Tree.item)).1 us].flatMap Tree.ids =
      y :: us.flatMap Tree.ids := by
    rw [List.flatMap_singleton, Tree.ids, Tree.idsAll_eq]
  refine ⟨List.forall_mem_singleton.mpr (hids ▸ h.settled_branch hy),
    List.forall_mem_singleton.mpr (.branch ?_ h.children.every),
    congrArg (fun c => [c]) (h.shape_branch hy), ?_, ?_, ?_⟩
  · rcases h.eq_or_isNew hy with rfl | hnew
    · exact h.free
    · -- the answer is the root or a new node, so it is free, apart from its children, and accounted
      -- for
      exact fun hO => h.old y (.inr hO) (Nat.le_trans h.keeps.nodes_le hnew)
  · have hheight := h.children.height
    rw [List.map_map, show Prod.fst ∘ (fun k : Tree × Nat => (k.1, some k.2)) = Prod.fst from rfl,
      List.zipIdx_map_fst] at hheight
    simp only [List.map_cons, List.map_nil, Tree.heightAll, Tree.height]
    omega
  · rw [hids]
    refine List.pairwise_cons.mpr ⟨fun x hx heq => ?_, h.children.once⟩
    rcases h.eq_or_isNew hy with rfl | hnew
    · exact absurd (heq ▸ hx) h.root_not_mem
    · exact absurd hnew (h.children.knows y (heq ▸ hx))
  · rw [hids]
    refine List.forall_mem_cons.mpr ⟨?_, fun x hx => ?_⟩
    · rcases h.eq_or_isNew hy with rfl | hnew
      · exact .inr (.inl ⟨_, List.mem_singleton_self _, by simp [Tree.ids]⟩)
      · exact .inr (.inr (Nat.le_trans h.le_after hnew))
    · rcases h.mem_ids hx with hO | ⟨t, ht, hx⟩ | hnew
      · exact .inl hO
      · exact .inr (.inl ⟨_, List.mem_singleton_self _, Tree.mem_ids_of_mem ht hx⟩)
      · exact .inr (.inr hnew)

end Call

end ChildrenDone

end NotebookTree

import NotebookTree.Proofs.Walk.Tree
import NotebookTree.Walk
import Mathlib.Data.List.Infix
import Mathlib.Data.List.Nodup
import Mathlib.Data.List.Pairwise
import Mathlib.Data.List.Perm.Basic

/-!
# Occurrences in order

The listings of a tree name its occurrences in order, each with its path, its index and its parent.
They do not mention stores or callbacks, so they say what a walk ought to do and not what it does.

A listing is taken apart as a walk goes: the root, and one child after the other
(`listing_branch_first`, `listing_branch_last`, `Tree.spotsBelow`). The children that a loop has not
come to yet are `Ready`.

## Main definitions

* `Spot`, `Place`: an occurrence, and what a callback is told of it.
* `Tree.preorder`, `Tree.postorder`: the occurrences, parents first and parents last.
* `Ready`: children of a node that wait for their turn.
-/

namespace NotebookTree

/-! ## Places -/

/-- There are as many places as children. -/
theorem Walk.length_places (count : Nat) (reverse : Bool) :
    (Walk.places count reverse).length = count := by
  cases reverse <;> simp [Walk.places]

/-- No place comes twice. -/
theorem Walk.nodup_places (count : Nat) (reverse : Bool) : (Walk.places count reverse).Nodup := by
  cases reverse with
  | true => exact List.nodup_reverse.mpr List.nodup_range
  | false => exact List.nodup_range

/-- The node that an item is. -/
def Item.nodeId? : Item → Option NodeId
  | node id => some id
  | _ => none

/-- Only a node has the number of a node. -/
theorem Item.nodeId?_eq_some {i : Item} {id : NodeId} : i.nodeId? = some id ↔ i = .node id := by
  cases i <;> simp [nodeId?]

/-- What a callback is told of an occurrence. -/
structure Place where
  node : Item
  index : Option Nat
  parent : Option Item

/-! ## Listings -/

/-- An occurrence in a tree: the indices on the way to it, the tree below it, and its parent. -/
structure Spot where
  path : List Nat
  tree : Tree
  parent : Option Item

/-- What a callback is told of an occurrence: its index is the last on the way to it. -/
def Spot.place (p : Spot) : Place := ⟨p.tree.item, p.path.getLast?, p.parent⟩

/-- One occurrence lies on the way to another. -/
def Spot.Above (p q : Spot) : Prop := p.path <+: q.path ∧ p.path ≠ q.path

namespace Tree

mutual

/-- The occurrences in a tree that stands at a path, each parent before what lies below it, or with
`last` behind it; children in order, or with `reverse` from the last to the first. -/
def listing (last reverse : Bool) (path : List Nat) (parent : Option Item) : Tree → List Spot
  | leaf i => [⟨path, leaf i, parent⟩]
  | branch id row ts =>
    let below := listingAll last reverse path (.node id) 0 ts
    if last then below ++ [⟨path, branch id row ts, parent⟩]
    else ⟨path, branch id row ts, parent⟩ :: below

/-- The occurrences in the children of a node, of which the first has index `i`. -/
def listingAll (last reverse : Bool) (path : List Nat) (parent : Item) (i : Nat) :
    List Tree → List Spot
  | [] => []
  | t :: ts =>
    let first := listing last reverse (path ++ [i]) (some parent) t
    let others := listingAll last reverse path parent (i + 1) ts
    if reverse then others ++ first else first ++ others

end

/-- The occurrences in a tree, parents first. -/
def preorder (reverse : Bool) (t : Tree) : List Spot := t.listing false reverse [] none

/-- The occurrences in a tree, parents last. -/
def postorder (reverse : Bool) (t : Tree) : List Spot := t.listing true reverse [] none

/-- Trees with their indices, in the order in which a walk takes them. -/
def inOrder (reverse : Bool) (ks : List (Tree × Nat)) : List (Tree × Nat) :=
  if reverse then ks.reverse else ks

/-- Either order goes through the same children. -/
@[simp] theorem mem_inOrder {reverse : Bool} {ks : List (Tree × Nat)} {k : Tree × Nat} :
    k ∈ inOrder reverse ks ↔ k ∈ ks := by
  cases reverse <;> simp [inOrder]

/-- The occurrences in the children of a node are those in one child after the other. -/
theorem listingAll_eq (last reverse : Bool) (path : List Nat) (parent : Item) (i : Nat)
    (ts : List Tree) : listingAll last reverse path parent i ts =
      (inOrder reverse (ts.zipIdx i)).flatMap fun k =>
        k.1.listing last reverse (path ++ [k.2]) (some parent) := by
  induction ts generalizing i with
  | nil => cases reverse <;> rfl
  | cons t ts ih =>
    rw [listingAll, ih]
    cases reverse with
    | true => simp [inOrder, List.zipIdx_cons, List.flatMap_append]
    | false => simp [inOrder, List.zipIdx_cons]

/-- In whatever order, the nodes of some trees are the same. -/
theorem flatMap_inOrder_perm (reverse : Bool) (ts : List Tree) :
    ((inOrder reverse ts.zipIdx).flatMap fun k => k.1.ids).Perm (idsAll ts) := by
  have hfst : ts.zipIdx.flatMap (fun k => k.1.ids) = idsAll ts := by
    rw [idsAll_eq, ← List.flatMap_map Prod.fst, List.zipIdx_map_fst]
  rw [← hfst]
  refine List.Perm.flatMap_right _ ?_
  cases reverse with
  | true => exact List.reverse_perm _
  | false => exact .refl _

/-- The places of the indices are those of the children. -/
theorem places_eq (reverse : Bool) (ts : List Tree) :
    Walk.places ts.length reverse = (inOrder reverse ts.zipIdx).map Prod.snd := by
  have hsnd : ts.zipIdx.map Prod.snd = List.range ts.length := by
    rw [List.zipIdx_map_snd, List.range_eq_range']
  cases reverse with
  | true => simp only [Walk.places, inOrder, List.map_reverse, hsnd, if_true]
  | false => simp only [Walk.places, inOrder, hsnd, Bool.false_eq_true, if_false]

/-- Results taken at the places of the indices, put in order, stand at their indices. -/
theorem mem_zip_places {α : Type} {n : Nat} {reverse : Bool} {xs : List α} (hlength : xs.length = n)
    {i : Nat} {x : α} : (i, x) ∈ (Walk.places n reverse).zip xs ↔
      (if reverse then xs.reverse else xs)[i]? = some x := by
  have hzip : ∀ ys : List α, ys.length = n →
      ((i, x) ∈ (List.range n).zip ys ↔ ys[i]? = some x) := by
    intro ys hys
    rw [List.mem_iff_getElem?]
    constructor
    · rintro ⟨j, hj⟩
      obtain ⟨hi, hx⟩ := List.getElem?_zip_eq_some.mp hj
      obtain ⟨hlt, hji⟩ := List.getElem?_eq_some_iff.mp hi
      obtain rfl : j = i := (List.getElem_range _).symm.trans hji
      exact hx
    · intro hx
      have hlt : i < n := hys ▸ (List.getElem?_eq_some_iff.mp hx).1
      exact ⟨i, List.getElem?_zip_eq_some.mpr ⟨List.getElem?_range hlt, hx⟩⟩
  cases reverse with
  | false => exact hzip xs hlength
  | true =>
    -- indices and results are both read from behind
    have hrev : (List.range n).reverse.zip xs = ((List.range n).zip xs.reverse).reverse := by
      have hmk : (List.zipWith Prod.mk (List.range n) xs.reverse).reverse =
          List.zipWith Prod.mk (List.range n).reverse xs.reverse.reverse :=
        List.reverse_zipWith (by simp [hlength])
      rw [List.reverse_reverse] at hmk
      exact hmk.symm
    rw [Walk.places, if_pos rfl, if_pos rfl, hrev, List.mem_reverse]
    exact hzip xs.reverse (by simp [hlength])

/-- A child and its index stand in the row of its parent. -/
theorem getElem?_of_mem_zipIdx {ts : List Tree} {k : Tree × Nat} (h : k ∈ ts.zipIdx) :
    (ts.map item)[k.2]? = some k.1.item := by
  rw [List.getElem?_map, List.mem_zipIdx_iff_getElem?.mp h, Option.map_some]

/-- The places of a branch are its own and those below its children. -/
theorem mem_listing_branch {last reverse : Bool} {path : List Nat} {parent : Option Item}
    {id : NodeId} {row : RowId} {ts : List Tree} {p : Spot} :
    p ∈ (branch id row ts).listing last reverse path parent ↔
      p = ⟨path, branch id row ts, parent⟩ ∨
        ∃ k ∈ ts.zipIdx, p ∈ k.1.listing last reverse (path ++ [k.2]) (some (.node id)) := by
  rw [listing, listingAll_eq]
  cases last <;> simp [or_comm]

/-- An occurrence in a tree is its root, or its parent is a node of the tree. -/
theorem parent_of_mem_listing {last reverse : Bool} {path : List Nat} {parent : Option Item}
    {t : Tree} {p : Spot} (h : p ∈ t.listing last reverse path parent) :
    p = ⟨path, t, parent⟩ ∨ ∃ id ∈ t.ids, p.parent = some (.node id) := by
  induction t generalizing path parent with
  | leaf i =>
    left
    simpa [listing] using h
  | branch id row ts ih =>
    rcases mem_listing_branch.mp h with rfl | ⟨k, hk, hp⟩
    · exact .inl rfl
    · right
      have hmem : k.1 ∈ ts := List.fst_mem_of_mem_zipIdx hk
      rcases ih k.1 hmem hp with rfl | ⟨other, hother, hparent⟩
      · exact ⟨id, by simp [ids], rfl⟩
      · exact ⟨other, mem_ids_of_mem hmem hother, hparent⟩

/-- The nodes that occur in a tree are its nodes, each as often as it occurs. -/
theorem nodes_listing_perm (last reverse : Bool) (path : List Nat) (parent : Option Item)
    (t : Tree) :
    ((t.listing last reverse path parent).filterMap fun p => p.tree.item.nodeId?).Perm t.ids := by
  induction t generalizing path parent with
  | leaf i => cases i <;> exact .refl _
  | branch id row ts ih =>
    -- the order of the children and the place of the parent only permute the nodes
    have hbelow : ((listingAll last reverse path (.node id) 0 ts).filterMap
        fun p => p.tree.item.nodeId?).Perm (idsAll ts) := by
      rw [listingAll_eq, List.filterMap_flatMap]
      refine List.Perm.trans ?_ (flatMap_inOrder_perm reverse ts)
      refine List.Perm.flatMap_left _ fun k hk => ih k.1 ?_ _ _
      exact List.fst_mem_of_mem_zipIdx (mem_inOrder.mp hk)
    rw [listing, ids]
    cases last with
    | true =>
      rw [if_pos rfl, List.filterMap_append]
      exact (hbelow.append_right [id]).trans (List.perm_append_singleton id _)
    | false => exact hbelow.cons id

/-- The node at a place is one of the tree. -/
theorem mem_ids_of_mem_listing {last reverse : Bool} {path : List Nat} {parent : Option Item}
    {t : Tree} {p : Spot} {id : NodeId} (h : p ∈ t.listing last reverse path parent)
    (hid : p.tree.item = .node id) : id ∈ t.ids := by
  refine (nodes_listing_perm last reverse path parent t).mem_iff.mp (List.mem_filterMap.mpr ?_)
  exact ⟨p, h, by rw [hid, Item.nodeId?]⟩

/-- Each node of a tree is at some place, in either order. -/
theorem exists_spot_of_mem_ids {t : Tree} {id : NodeId} (h : id ∈ t.ids) (last reverse : Bool)
    (path : List Nat) (parent : Option Item) :
    ∃ p ∈ t.listing last reverse path parent, p.tree.item = .node id := by
  have hmem := (nodes_listing_perm last reverse path parent t).mem_iff.mpr h
  obtain ⟨p, hp, hid⟩ := List.mem_filterMap.mp hmem
  exact ⟨p, hp, Item.nodeId?_eq_some.mp hid⟩

/-- What lies below an occurrence stands in the store too. -/
theorem StandsIn.of_mem_listing {s : Store} {last reverse : Bool} {path : List Nat}
    {parent : Option Item} {t : Tree} {p : Spot} (h : t.StandsIn s)
    (hp : p ∈ t.listing last reverse path parent) : p.tree.StandsIn s := by
  induction t generalizing path parent with
  | leaf i =>
    obtain rfl : p = ⟨path, leaf i, parent⟩ := by simpa [listing] using hp
    exact h
  | branch id row ts ih =>
    rcases mem_listing_branch.mp hp with rfl | ⟨k, hk, hp⟩
    · exact h
    · have hmem : k.1 ∈ ts := List.fst_mem_of_mem_zipIdx hk
      exact ih k.1 hmem ((standsIn_branch.mp h).2 k.1 hmem) hp

/-- With parents last, the root comes behind occurrences that lie below nodes of the tree. -/
theorem listing_last (reverse : Bool) (path : List Nat) (parent : Option Item) (t : Tree) :
    ∃ below, t.listing true reverse path parent = below ++ [⟨path, t, parent⟩] ∧
      ∀ p ∈ below, ∃ id ∈ t.ids, p.parent = some (.node id) := by
  cases t with
  | leaf i => exact ⟨[], rfl, by simp⟩
  | branch id row ts =>
    refine ⟨listingAll true reverse path (.node id) 0 ts, rfl, fun p hp => ?_⟩
    rw [listingAll_eq, List.mem_flatMap] at hp
    obtain ⟨k, hk, hp⟩ := hp
    have hmem : k.1 ∈ ts := List.fst_mem_of_mem_zipIdx (mem_inOrder.mp hk)
    rcases parent_of_mem_listing hp with rfl | ⟨other, hother, hparent⟩
    · exact ⟨id, by simp [ids], rfl⟩
    · exact ⟨other, mem_ids_of_mem hmem hother, hparent⟩

/-- The occurrences in children of a node, one child after the other. -/
def spotsBelow (last reverse : Bool) (path : List Nat) (id : NodeId) (ks : List (Tree × Nat)) :
    List Spot :=
  ks.flatMap fun k => k.1.listing last reverse (path ++ [k.2]) (some (.node id))

/-- After its children a branch comes last. -/
theorem listing_branch_last (reverse : Bool) (path : List Nat) (parent : Option Item) (id : NodeId)
    (row : RowId) (ts : List Tree) : (branch id row ts).listing true reverse path parent =
      spotsBelow true reverse path id (inOrder reverse ts.zipIdx) ++
        [⟨path, branch id row ts, parent⟩] := by
  rw [listing, listingAll_eq]
  rfl

/-- Before its children a branch comes first. -/
theorem listing_branch_first (reverse : Bool) (path : List Nat) (parent : Option Item)
    (id : NodeId) (row : RowId) (ts : List Tree) :
    (branch id row ts).listing false reverse path parent =
      ⟨path, branch id row ts, parent⟩ ::
        spotsBelow false reverse path id (inOrder reverse ts.zipIdx) := by
  rw [listing, listingAll_eq]
  rfl

/-- With parents first, the root comes before all others. -/
theorem listing_first (reverse : Bool) (path : List Nat) (parent : Option Item) (t : Tree) :
    ∃ below, t.listing false reverse path parent = ⟨path, t, parent⟩ :: below := by
  cases t with
  | leaf i => exact ⟨[], rfl⟩
  | branch id row ts => exact ⟨_, listing_branch_first ..⟩

/-- The root is among the places. -/
theorem root_mem_listing (last reverse : Bool) (path : List Nat) (parent : Option Item) (t : Tree) :
    ⟨path, t, parent⟩ ∈ t.listing last reverse path parent := by
  cases t with
  | leaf i => exact List.mem_singleton_self _
  | branch id row ts => exact mem_listing_branch.mpr (.inl rfl)

/-- The children of an occurrence are occurrences. -/
theorem child_mem_listing {last reverse : Bool} {path : List Nat} {parent : Option Item} {t : Tree}
    {p : Spot} {id : NodeId} {row : RowId} {ts : List Tree} {k : Tree × Nat}
    (h : p ∈ t.listing last reverse path parent) (hp : p.tree = branch id row ts)
    (hk : k ∈ ts.zipIdx) :
    ⟨p.path ++ [k.2], k.1, some (.node id)⟩ ∈ t.listing last reverse path parent := by
  induction t generalizing path parent with
  | leaf i =>
    obtain rfl : p = ⟨path, leaf i, parent⟩ := by simpa [listing] using h
    cases hp
  | branch other own us ih =>
    rcases mem_listing_branch.mp h with rfl | ⟨l, hl, hbelow⟩
    · obtain ⟨rfl, rfl, rfl⟩ := branch.inj hp
      exact mem_listing_branch.mpr (.inr ⟨k, hk, root_mem_listing ..⟩)
    · exact mem_listing_branch.mpr (.inr ⟨l, hl, ih l.1 (List.fst_mem_of_mem_zipIdx hl) hbelow⟩)

/-- A node stands at one place in a tree whose nodes are all different. -/
theorem eq_of_mem_listing {last reverse : Bool} {path : List Nat} {parent : Option Item} {t : Tree}
    {p q : Spot} {id : NodeId} (hnodup : t.ids.Nodup) (hp : p ∈ t.listing last reverse path parent)
    (hq : q ∈ t.listing last reverse path parent) (hpid : p.tree.item = .node id)
    (hqid : q.tree.item = .node id) : p = q := by
  have hnodes := (nodes_listing_perm last reverse path parent t).nodup_iff.mpr hnodup
  rw [List.Nodup, List.pairwise_filterMap] at hnodes
  have hsymm : Std.Symm fun a b : Spot => ∀ x, a.tree.item.nodeId? = some x →
      ∀ y, b.tree.item.nodeId? = some y → x ≠ y :=
    ⟨fun _ _ h x hx y hy heq => h y hy x hx heq.symm⟩
  by_contra hne
  refine hnodes.forall hp hq hne id ?_ id ?_ rfl
  · rw [hpid, Item.nodeId?]
  · rw [hqid, Item.nodeId?]

/-- The way to an occurrence in a tree goes on from the way to the tree. -/
theorem prefix_of_mem_listing {last reverse : Bool} {path : List Nat} {parent : Option Item}
    {t : Tree} {p : Spot} (h : p ∈ t.listing last reverse path parent) : path <+: p.path := by
  induction t generalizing path parent with
  | leaf i =>
    obtain rfl : p = ⟨path, leaf i, parent⟩ := by simpa [listing] using h
    exact List.prefix_rfl
  | branch id row ts ih =>
    rcases mem_listing_branch.mp h with rfl | ⟨k, hk, hp⟩
    · exact List.prefix_rfl
    · have hmem : k.1 ∈ ts := List.fst_mem_of_mem_zipIdx hk
      exact (List.prefix_append path [k.2]).trans (ih k.1 hmem hp)

/-- With parents last, no occurrence comes before one that lies below it. -/
theorem listing_pairwise (reverse : Bool) (path : List Nat) (parent : Option Item) (t : Tree) :
    (t.listing true reverse path parent).Pairwise fun p q => ¬ p.path <+: q.path := by
  induction t generalizing path parent with
  | leaf i => exact List.pairwise_singleton ..
  | branch id row ts ih =>
    rw [listing_branch_last, spotsBelow, List.pairwise_append, List.pairwise_flatMap]
    refine ⟨⟨fun k hk => ih k.1 ?_ _ _, ?_⟩, List.pairwise_singleton .., ?_⟩
    · exact List.fst_mem_of_mem_zipIdx (mem_inOrder.mp hk)
    · -- two children have two indices, and a way goes through one of them only
      have hindices := Walk.nodup_places ts.length reverse
      rw [places_eq, List.Nodup, List.pairwise_map] at hindices
      refine hindices.imp fun {k k'} hne p hp q hq hpq => hne ?_
      have hk := (prefix_of_mem_listing hp).trans hpq
      have hk' := prefix_of_mem_listing hq
      have heq := List.prefix_of_prefix_length_le hk hk' (by simp)
      simpa using (List.prefix_append_right_inj path).mp heq
    · intro p hp q hq hpq
      obtain ⟨k, -, hp⟩ := List.mem_flatMap.mp hp
      obtain rfl := List.mem_singleton.mp hq
      have hlength := ((prefix_of_mem_listing hp).trans hpq).length_le
      rw [List.length_append, List.length_singleton] at hlength
      exact Nat.not_succ_le_self _ hlength

end Tree

/-! ## Children that wait for their turn -/

/-- Children of a node that wait for their turn: with their indices they are in the row of the node,
each stands in the store, and their nodes are among those in `K`. -/
structure Ready (K : List NodeId) (limit : Nat) (id : NodeId) (row : RowId) (items : List Item)
    (ks : List (Tree × Nat)) (s : Store) : Prop where
  known : id ∈ K
  children : s.HasChildren id row items
  height : ∀ k ∈ ks, k.1.height ≤ limit
  stands : ∀ k ∈ ks, k.1.StandsIn s
  item : ∀ k ∈ ks, items[k.2]? = some k.1.item
  ids : ∀ k ∈ ks, k.1.ids ⊆ K

namespace Ready

variable {K : List NodeId} {limit : Nat} {id : NodeId} {row : RowId} {items : List Item}
  {k : Tree × Nat} {ks : List (Tree × Nat)} {s s' : Store}

/-- When the first child is done, the others are ready if they and the node are as they were. -/
theorem tail (h : Ready K limit id row items (k :: ks) s) (hid : s.KeepsChildrenAt id s')
    (hkeep : ∀ k' ∈ ks, s.KeepsChildren k'.1.ids s') : Ready K limit id row items ks s' where
  known := h.known
  children := hid.children row items h.children
  height k' hk' := h.height k' (List.mem_cons_of_mem _ hk')
  stands k' hk' := (h.stands k' (List.mem_cons_of_mem _ hk')).of_keeps (hkeep k' hk')
  item k' hk' := h.item k' (List.mem_cons_of_mem _ hk')
  ids k' hk' := h.ids k' (List.mem_cons_of_mem _ hk')

/-- If all that is in `K` is as it was, the others are ready whether they share nodes with the first
or not. -/
theorem tail_of_keeps (h : Ready K limit id row items (k :: ks) s) (hkeep : s.KeepsChildren K s') :
    Ready K limit id row items ks s' :=
  h.tail (hkeep id h.known) fun k' hk' y hy =>
    hkeep y (h.ids k' (List.mem_cons_of_mem _ hk') hy)

/-- The children of a branch are ready when the branch stands in the store. -/
theorem of_branch {ts : List Tree} (reverse : Bool) (hstand : (Tree.branch id row ts).StandsIn s)
    (hsub : (Tree.branch id row ts).ids ⊆ K)
    (hlimit : (Tree.branch id row ts).height ≤ limit + 1) :
    Ready K limit id row (ts.map Tree.item) (Tree.inOrder reverse ts.zipIdx) s := by
  obtain ⟨hrow, hstands⟩ := Tree.standsIn_branch.mp hstand
  rw [Tree.height] at hlimit
  have hmem : ∀ k ∈ Tree.inOrder reverse ts.zipIdx, k.1 ∈ ts := fun k hk =>
    List.fst_mem_of_mem_zipIdx (Tree.mem_inOrder.mp hk)
  refine ⟨hsub (by simp [Tree.ids]), hrow, fun k hk => ?_, fun k hk => hstands k.1 (hmem k hk),
    fun k hk => Tree.getElem?_of_mem_zipIdx (Tree.mem_inOrder.mp hk), fun k hk x hx => ?_⟩
  · exact Nat.le_trans (Tree.height_le_heightAll (hmem k hk)) (Nat.le_of_succ_le_succ hlimit)
  · exact hsub (Tree.mem_ids_of_mem (hmem k hk) hx)

end Ready

end NotebookTree

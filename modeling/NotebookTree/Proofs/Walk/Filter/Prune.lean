import NotebookTree.Proofs.Walk.Order
import Mathlib.Data.List.Forall2

/-!
# Pruned trees

What a filter ought to make of a tree, given what its callback thinks of each occurrence. A verdict
for every path says which occurrences are reached, as nothing above them is refused, and which are
kept, as they are not refused either. The result is a tree whose occurrences, in the same order and
at the same depth, stand for those that are kept.

Verdicts are about paths below the root of a tree. When `ok` are those of a branch, those of its
child with index `i` are `fun q => ok (i :: q)`, so a filter and the listings recurse alike.

## Main definitions

* `Reached`, `Kept`: the paths that are reached, and those that are kept.
* `CopyOf`: an occurrence in the result stands for one in the tree.
* `Pruned`: trees in a store are what is kept of others, with new nodes in the place of branches.
-/

namespace NotebookTree

/-- Nothing is null. -/
theorem Item.eq_of_isNothing {i : Item} (h : i.isNothing = true) : i = .plain .null := by
  cases i with
  | plain v =>
    cases v with
    | null => rfl
    | _ => simp [isNothing] at h
  | _ => simp [isNothing] at h

/-! ## Verdicts -/

/-- Nothing on the way to an occurrence is refused. -/
def Reached (ok : List Nat → Bool) (path : List Nat) : Bool := path.inits.dropLast.all ok

/-- Nothing on the way to an occurrence is refused, nor the occurrence itself. -/
def Kept (ok : List Nat → Bool) (path : List Nat) : Bool := path.inits.all ok

section Verdicts

variable (ok : List Nat → Bool) (i : Nat) (path : List Nat)

/-- The root is always reached. -/
@[simp] theorem reached_nil : Reached ok [] = true := rfl

/-- The root is kept when it is accepted. -/
@[simp] theorem kept_nil : Kept ok [] = ok [] := by simp [Kept]

/-- A place below the root is reached when the root is accepted and the place is reached from its
child. -/
theorem reached_cons : Reached ok (i :: path) = (ok [] && Reached (fun q => ok (i :: q)) path) := by
  have hne : path.inits.map (fun t => i :: t) ≠ [] := by
    rw [ne_eq, List.map_eq_nil_iff]
    exact List.ne_nil_of_length_pos (by simp)
  rw [Reached, List.inits_cons, List.dropLast_cons_of_ne_nil hne, List.all_cons,
    ← List.map_dropLast, List.all_map]
  rfl

/-- A place below the root is kept when the root is accepted and the place is kept below its
child. -/
theorem kept_cons : Kept ok (i :: path) = (ok [] && Kept (fun q => ok (i :: q)) path) := by
  rw [Kept, List.inits_cons, List.all_cons, List.all_map]
  rfl

end Verdicts

namespace Tree

/-- The occurrences in a tree at a path that are reached. -/
def reachedIn (ok : List Nat → Bool) (path : List Nat) (parent : Option Item) (t : Tree) :
    List Spot :=
  (t.listing false false path parent).filter fun p => Reached ok (p.path.drop path.length)

/-- The occurrences in a tree at a path that are kept, but for those of nothing. -/
def keptIn (ok : List Nat → Bool) (path : List Nat) (parent : Option Item) (t : Tree) :
    List Spot :=
  (t.listing false false path parent).filter fun p =>
    Kept ok (p.path.drop path.length) && !p.tree.item.isNothing

section Below

variable {ok : List Nat → Bool} {path : List Nat} {parent : Option Item} {id : NodeId} {row : RowId}
  {ts : List Tree} {t : Tree} {p : Spot}

/-- Below a child the rest of the path begins with the index of the child. -/
theorem exists_drop_eq {i : Nat} (h : path ++ [i] <+: p.path) :
    p.path.drop path.length = i :: p.path.drop (path ++ [i]).length := by
  obtain ⟨q, hq⟩ := h
  rw [← hq, List.drop_left, List.append_assoc, List.drop_left, List.singleton_append]

/-- Occurrences below a node are taken together as they are taken for each of its children. -/
theorem filter_spotsBelow {ks : List (Tree × Nat)} {f : Spot → Bool} {g : Nat → Spot → Bool}
    (h : ∀ k ∈ ks, ∀ p : Spot, path ++ [k.2] <+: p.path → f p = g k.2 p) :
    (spotsBelow false false path id ks).filter f = ks.flatMap fun k =>
      (k.1.listing false false (path ++ [k.2]) (some (.node id))).filter (g k.2) := by
  rw [spotsBelow, List.filter_flatMap]
  refine List.flatMap_congr fun k hk => List.filter_congr fun p hp => ?_
  exact h k hk p (prefix_of_mem_listing hp)

/-- Of a tree whose root is refused, only the root is reached. -/
theorem reachedIn_of_refused (h : ok [] = false) (t : Tree) :
    t.reachedIn ok path parent = [⟨path, t, parent⟩] := by
  cases t with
  | leaf i => simp [reachedIn, listing]
  | branch id row ts =>
    rw [reachedIn, listing_branch_first, List.filter_cons_of_pos (by simp)]
    refine congrArg _ (List.filter_eq_nil_iff.mpr fun p hp => ?_)
    obtain ⟨k, -, hp⟩ := List.mem_flatMap.mp hp
    simp [exists_drop_eq (prefix_of_mem_listing hp), reached_cons, h]

/-- A leaf is reached. -/
theorem reachedIn_leaf (i : Item) :
    (leaf i).reachedIn ok path parent = [⟨path, leaf i, parent⟩] := by
  simp [reachedIn, listing]

/-- Of a tree whose root is accepted, the root is reached and what is reached below its children. -/
theorem reachedIn_branch (h : ok [] = true) : (branch id row ts).reachedIn ok path parent =
    ⟨path, branch id row ts, parent⟩ :: ts.zipIdx.flatMap fun k =>
      k.1.reachedIn (fun q => ok (k.2 :: q)) (path ++ [k.2]) (some (.node id)) := by
  rw [reachedIn, listing_branch_first, List.filter_cons_of_pos (by simp)]
  refine congrArg _ (filter_spotsBelow (g := fun i p =>
    Reached (fun q => ok (i :: q)) (p.path.drop (path ++ [i]).length)) fun k _ p hp => ?_)
  rw [exists_drop_eq hp, reached_cons, h, Bool.true_and]

/-- Of a tree whose root is refused, nothing is kept. -/
theorem keptIn_of_refused (h : ok [] = false) (t : Tree) : t.keptIn ok path parent = [] := by
  refine List.filter_eq_nil_iff.mpr fun p _ => ?_
  cases p.path.drop path.length with
  | nil => simp [h]
  | cons i q => simp [kept_cons, h]

/-- An accepted leaf is kept, unless it is null. -/
theorem keptIn_leaf {i : Item} (h : ok [] = true) : (leaf i).keptIn ok path parent =
    if i.isNothing then [] else [⟨path, leaf i, parent⟩] := by
  cases hi : i.isNothing <;> simp [keptIn, listing, item, h, hi]

/-- Of a tree whose root is accepted, the root is kept and what is kept below its children. -/
theorem keptIn_branch (h : ok [] = true) : (branch id row ts).keptIn ok path parent =
    ⟨path, branch id row ts, parent⟩ :: ts.zipIdx.flatMap fun k =>
      k.1.keptIn (fun q => ok (k.2 :: q)) (path ++ [k.2]) (some (.node id)) := by
  rw [keptIn, listing_branch_first, List.filter_cons_of_pos (by simp [h, item, Item.isNothing])]
  refine congrArg _ (filter_spotsBelow (g := fun i p =>
    Kept (fun q => ok (i :: q)) (p.path.drop (path ++ [i]).length) && !p.tree.item.isNothing)
    fun k _ p hp => ?_)
  rw [exists_drop_eq hp, kept_cons, h, Bool.true_and]

end Below

/-! ## Branches -/

mutual

/-- The branches of a tree: the node, the row and the children of each. -/
def branches : Tree → List (NodeId × RowId × List Tree)
  | leaf _ => []
  | branch id row ts => (id, row, ts) :: branchesAll ts

/-- The branches of some trees. -/
def branchesAll : List Tree → List (NodeId × RowId × List Tree)
  | [] => []
  | t :: ts => t.branches ++ branchesAll ts

end

/-- The rows of a tree. -/
def rows (t : Tree) : List RowId := t.branches.map fun b => b.2.1

/-- The branches of trees are those of each. -/
theorem branchesAll_eq (ts : List Tree) : branchesAll ts = ts.flatMap branches := by
  induction ts with
  | nil => rfl
  | cons t ts ih => rw [branchesAll, ih, List.flatMap_cons]

/-- The branches of a child are among those of the whole. -/
theorem mem_branches_of_mem {id : NodeId} {row : RowId} {t : Tree} {ts : List Tree}
    {b : NodeId × RowId × List Tree} (ht : t ∈ ts) (h : b ∈ t.branches) :
    b ∈ (branch id row ts).branches := by
  rw [branches, branchesAll_eq]
  exact List.mem_cons_of_mem _ (List.mem_flatMap.mpr ⟨t, ht, h⟩)

/-- A tree still stands in a store if its nodes and rows are as they were. -/
theorem StandsIn.of_keeps_rows {N : NodeId → Prop} {R : RowId → Prop} {s s' : Store} {t : Tree}
    (h : t.StandsIn s) (hkeep : s.Keeps N R s') (hN : ∀ id ∈ t.ids, N id)
    (hR : ∀ b ∈ t.branches, R b.2.1) : t.StandsIn s' := by
  induction t with
  | leaf i =>
    refine h.leaf_of_keeps fun id hi => ?_
    subst hi
    refine hkeep.keepsChildrenAt (hN id (mem_ids_of_item rfl)) fun row hrow => ?_
    rw [h.2] at hrow
    cases hrow
  | branch id row ts ih =>
    rw [standsIn_branch] at h ⊢
    refine ⟨?_, fun t ht => ih t ht (h.2 t ht) (fun x hx => hN x (mem_ids_of_mem ht hx))
      fun b hb => hR b (mem_branches_of_mem ht hb)⟩
    refine (hkeep.keepsChildrenAt (hN id (by simp [ids])) fun row' hrow => ?_).children row _ h.1
    obtain rfl : row = row' := Option.some.inj (h.1.1.symm.trans hrow)
    exact hR (id, row, ts) (by simp [branches])

end Tree

/-! ## What is kept of a tree -/

/-- An occurrence in the result stands for one in the tree, at the same depth: a leaf is the very
leaf, and a branch has a node with the same fields but for its children. -/
structure CopyOf (s : Store) (p q : Spot) : Prop where
  depth : q.path.length = p.path.length
  leaf : ∀ i, p.tree = .leaf i → q.tree = .leaf i
  branch : ∀ id row ts, p.tree = .branch id row ts → ∃ id' row' us n n',
    q.tree = .branch id' row' us ∧ s.node? id = some n ∧ s.node? id' = some n' ∧
      n'.apart = n.apart

/-- Trees in the store `s` are what is kept of others. Their roots are at a depth, and their
branches have nodes and rows that were not in the store `first`, a node of its own for each. -/
structure Pruned (N : NodeId → Prop) (R : RowId → Prop) (first s : Store) (depth : Nat)
    (kept : List Spot) (us : List Tree) : Prop where
  stands : ∀ u ∈ us, u.StandsIn s
  ids : ∀ u ∈ us, ∀ id ∈ u.ids, N id
  rows : ∀ u ∈ us, ∀ b ∈ u.branches, R b.2.1
  nodup : (us.flatMap fun u => u.branches.map Prod.fst).Nodup
  new : ∀ u ∈ us, ∀ b ∈ u.branches, first.nodes.size ≤ b.1.index ∧ b.1.index < s.nodes.size ∧
    first.rows.size ≤ b.2.1.index
  copies : ∀ (path : Nat → List Nat) (parent : Option Item) (j : Nat),
    (∀ n, (path n).length = depth) → List.Forall₂ (CopyOf s) kept
      ((us.zipIdx j).flatMap fun k => k.1.listing false false (path k.2) parent)

variable {N : NodeId → Prop} {R : RowId → Prop} {first mid s s' : Store} {depth : Nat}
  {kept more : List Spot} {us vs : List Tree}

/-- An occurrence still stands for another if both nodes are as they were. -/
theorem CopyOf.of_keeps {p q : Spot} (h : CopyOf s p q) (hkeep : s.Keeps N R s')
    (hp : ∀ id, p.tree.item = .node id → N id) (hq : ∀ id, q.tree.item = .node id → N id) :
    CopyOf s' p q where
  depth := h.depth
  leaf := h.leaf
  branch id row ts htree := by
    obtain ⟨id', row', us, n, n', htree', hn, hn', hapart⟩ := h.branch id row ts htree
    refine ⟨id', row', us, n, n', htree', hkeep.node id (hp id ?_) n hn,
      hkeep.node id' (hq id' ?_) n' hn', hapart⟩
    · rw [htree, Tree.item]
    · rw [htree', Tree.item]

namespace Pruned

/-- Of no places nothing is left. -/
theorem nil (N : NodeId → Prop) (R : RowId → Prop) (first s : Store) (depth : Nat) :
    Pruned N R first s depth [] [] :=
  ⟨by simp, by simp, by simp, by simp, by simp, fun _ _ _ _ => .nil⟩

/-- A leaf that is kept is left as it is. -/
theorem leaf {i : Item} {path : List Nat} {parent : Option Item} (h : (Tree.leaf i).StandsIn s)
    (hN : ∀ id ∈ (Tree.leaf i).ids, N id) (first : Store) :
    Pruned N R first s path.length [⟨path, .leaf i, parent⟩] [.leaf i] where
  stands u hu := List.mem_singleton.mp hu ▸ h
  ids u hu := List.mem_singleton.mp hu ▸ hN
  rows u hu b hb := by
    rw [List.mem_singleton.mp hu, Tree.branches] at hb
    cases hb
  nodup := by simp [Tree.branches]
  new u hu b hb := by
    rw [List.mem_singleton.mp hu, Tree.branches] at hb
    cases hb
  copies path' parent' j hpath := by
    refine .cons ⟨hpath _, fun _ htree => htree, fun _ _ _ htree => by cases htree⟩ .nil

/-- What is kept stays what it is when the store changes elsewhere. -/
theorem of_keeps (h : Pruned N R first s depth kept us) (hkeep : s.Keeps N R s')
    (hkept : ∀ p ∈ kept, ∀ id, p.tree.item = .node id → N id) :
    Pruned N R first s' depth kept us where
  stands u hu := (h.stands u hu).of_keeps_rows hkeep (h.ids u hu) (h.rows u hu)
  ids := h.ids
  rows := h.rows
  nodup := h.nodup
  new u hu b hb := by
    obtain ⟨hle, hlt, hrow⟩ := h.new u hu b hb
    exact ⟨hle, Nat.lt_of_lt_of_le hlt hkeep.nodes_le, hrow⟩
  copies path parent j hpath := by
    have hcopies := List.forall₂_iff_zip.mp (h.copies path parent j hpath)
    refine List.forall₂_iff_zip.mpr ⟨hcopies.1, fun {p q} hpq => ?_⟩
    -- a copy stands in a new node, which later steps leave as it is, and so does the node that it
    -- copies
    obtain ⟨hp, hq⟩ := List.of_mem_zip hpq
    refine (hcopies.2 hpq).of_keeps hkeep (hkept p hp) fun id hid => ?_
    obtain ⟨k, hk, hq⟩ := List.mem_flatMap.mp hq
    exact h.ids k.1 (List.fst_mem_of_mem_zipIdx hk) id (Tree.mem_ids_of_mem_listing hq hid)

/-- What was not in a store was not in the store before it. -/
theorem of_first (h : Pruned N R mid s depth kept us) (hle : first.Keeps N R mid) :
    Pruned N R first s depth kept us where
  stands := h.stands
  ids := h.ids
  rows := h.rows
  nodup := h.nodup
  new u hu b hb := by
    obtain ⟨hnode, hlt, hrow⟩ := h.new u hu b hb
    exact ⟨Nat.le_trans hle.nodes_le hnode, hlt, Nat.le_trans hle.rows_le hrow⟩
  copies := h.copies

/-- What is kept of some trees, and of others later. -/
theorem append (h : Pruned N R first mid depth kept us) (h' : Pruned N R mid s depth more vs)
    (hle : first.Keeps N R mid) (hkeep : mid.Keeps N R s)
    (hkept : ∀ p ∈ kept, ∀ id, p.tree.item = .node id → N id) :
    Pruned N R first s depth (kept ++ more) (us ++ vs) where
  stands u hu := by
    rcases List.mem_append.mp hu with hu | hu
    · exact (h.of_keeps hkeep hkept).stands u hu
    · exact h'.stands u hu
  ids u hu := (List.mem_append.mp hu).elim (h.ids u) (h'.ids u)
  rows u hu := (List.mem_append.mp hu).elim (h.rows u) (h'.rows u)
  nodup := by
    rw [List.flatMap_append, List.nodup_append]
    refine ⟨h.nodup, h'.nodup, fun x hx y hy hxy => ?_⟩
    -- the nodes of the first were there before those of the others
    obtain ⟨u, hu, hx⟩ := List.mem_flatMap.mp hx
    obtain ⟨v, hv, hy⟩ := List.mem_flatMap.mp hy
    obtain ⟨b, hb, rfl⟩ := List.mem_map.mp hx
    obtain ⟨d, hd, rfl⟩ := List.mem_map.mp hy
    have hlt := (h.new u hu b hb).2.1
    have hge := (h'.new v hv d hd).1
    rw [hxy] at hlt
    omega
  new u hu b hb := by
    rcases List.mem_append.mp hu with hu | hu
    · exact (h.of_keeps hkeep hkept).new u hu b hb
    · exact (h'.of_first hle).new u hu b hb
  copies path parent j hpath := by
    rw [List.zipIdx_append, List.flatMap_append]
    exact List.rel_append ((h.of_keeps hkeep hkept).copies path parent j hpath)
      (h'.copies path parent _ hpath)

/-- What is kept of a branch is a copy of its node, with what is kept of its children below it. -/
theorem branch {id : NodeId} {row : RowId} {ts : List Tree} {path : List Nat}
    {parent : Option Item} {n : NodeState} (h : Pruned N R first s (path.length + 1) kept us)
    (hle : first.Keeps N R s) (hn : s.node? id = some n)
    (hkept : ∀ p ∈ kept, ∀ id, p.tree.item = .node id → N id)
    (hN : N ⟨s.nodes.size⟩) (hR : R ⟨s.rows.size⟩) :
    Pruned N R first (s.withCopy id (us.map Tree.item)) path.length
      (⟨path, .branch id row ts, parent⟩ :: kept)
      [.branch ⟨s.nodes.size⟩ ⟨s.rows.size⟩ us] := by
  have hkeep : s.Keeps (fun _ => True) (fun _ => True) (s.withCopy id (us.map Tree.item)) :=
    Store.withCopy_keeps s id _
  have hlater := h.of_keeps (hkeep.mono (fun _ _ => trivial) fun _ _ => trivial) hkept
  have hbranches : ∀ b, b ∈ (Tree.branch ⟨s.nodes.size⟩ ⟨s.rows.size⟩ us).branches →
      b = (⟨s.nodes.size⟩, ⟨s.rows.size⟩, us) ∨ ∃ u ∈ us, b ∈ u.branches := by
    intro b hb
    rw [Tree.branches, Tree.branchesAll_eq, List.mem_cons, List.mem_flatMap] at hb
    exact hb
  refine ⟨fun u hu => ?_, fun u hu => ?_, fun u hu b hb => ?_, ?_, fun u hu b hb => ?_,
    fun path' parent' j hpath => ?_⟩
  · rw [List.mem_singleton.mp hu]
    exact Tree.standsIn_branch.mpr ⟨Store.hasChildren_withCopy hn _, hlater.stands⟩
  · rw [List.mem_singleton.mp hu, Tree.ids, Tree.idsAll_eq]
    intro x hx
    rcases List.mem_cons.mp hx with rfl | hx
    · exact hN
    · obtain ⟨v, hv, hx⟩ := List.mem_flatMap.mp hx
      exact h.ids v hv x hx
  · rw [List.mem_singleton.mp hu] at hb
    rcases hbranches b hb with rfl | ⟨v, hv, hb⟩
    · exact hR
    · exact h.rows v hv b hb
  · rw [List.flatMap_singleton, Tree.branches, Tree.branchesAll_eq, List.map_cons,
      List.map_flatMap, List.nodup_cons]
    -- the nodes below were in the store when the copy was made
    refine ⟨fun hmem => ?_, h.nodup⟩
    obtain ⟨v, hv, hmem⟩ := List.mem_flatMap.mp hmem
    obtain ⟨b, hb, hb'⟩ := List.mem_map.mp hmem
    have hlt := (h.new v hv b hb).2.1
    rw [hb'] at hlt
    exact Nat.lt_irrefl _ hlt
  · rw [List.mem_singleton.mp hu] at hb
    rcases hbranches b hb with rfl | ⟨v, hv, hb⟩
    · rw [Store.nodes_size_withCopy]
      exact ⟨hle.nodes_le, Nat.lt_succ_self _, hle.rows_le⟩
    · exact hlater.new v hv b hb
  · rw [List.zipIdx_singleton, List.flatMap_singleton, Tree.listing_branch_first]
    refine .cons ⟨hpath _, fun _ htree => (by cases htree), fun x y z htree => ?_⟩ ?_
    · obtain ⟨rfl, rfl, rfl⟩ := Tree.branch.inj htree
      refine ⟨_, _, us, n, _, rfl, hkeep.node id trivial n hn, Store.node?_withCopy_self hn _, ?_⟩
      simp [NodeState.apart]
    · refine hlater.copies (fun m => path' j ++ [m]) _ 0 fun m => ?_
      rw [List.length_append, List.length_singleton, hpath]

/-- As many trees are kept as there are roots. -/
theorem eq_nil_iff (h : Pruned N R first s depth kept us) : kept = [] ↔ us = [] := by
  have hcopies := h.copies (fun _ => List.replicate depth 0) none 0 fun _ => List.length_replicate
  constructor
  · rintro rfl
    cases us with
    | nil => rfl
    | cons u us =>
      obtain ⟨below, hlisting⟩ := u.listing_first false (List.replicate depth 0) none
      rw [List.zipIdx_cons, List.flatMap_cons, hlisting] at hcopies
      cases hcopies
  · rintro rfl
    exact List.forall₂_nil_right_iff.mp hcopies

end Pruned

end NotebookTree

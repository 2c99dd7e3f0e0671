import NotebookTree.Proofs.Store.Leads
import NotebookTree.Proofs.Walk.Quiet
import NotebookTree.Proofs.Walk.Rewriting

/-!
# A rule for transforms

What a transform does to a tree is put together from what it does to the trees below the root, one
after the other, and from the call for the root. Each of these may change what is its own, and
leaves alone what belongs to the others; so when it comes to a tree, this is as it was at the start,
and what has become of the trees before it stays.

`Own` says which nodes may change at all. A node that is not among them may stand at several places.

## Main definitions

* `Tree.Once`: each node that may change stands at one place.
* `Walk.Transforms`: what a transform makes of a tree, and what it leaves alone.
* `Walk.InTurn`: the same of trees one after the other.

## Main statements

* `transforms_leaf`, `transforms_branch`: a transform does to a tree what its calls do.
-/

namespace NotebookTree

variable {σ : Type}

/-! ## Trees of which each node stands at one place -/

namespace Tree

variable {Own : NodeId → Prop}

/-- Each node that may change stands at one place. -/
def Once (Own : NodeId → Prop) (t : Tree) : Prop := t.ids.Pairwise fun a b => a = b → ¬ Own a

/-- A tree with distinct nodes has each of them once. -/
theorem once_of_nodup {t : Tree} (h : t.ids.Nodup) : t.Once Own :=
  List.Pairwise.imp (fun hne heq => absurd heq hne) h

/-- Two trees share no node that may change. -/
def Parted (Own : NodeId → Prop) (t u : Tree) : Prop := ∀ id ∈ t.ids, id ∈ u.ids → ¬ Own id

/-- Trees are parted from each other. -/
theorem Parted.symm {t u : Tree} (h : t.Parted Own u) : u.Parted Own t :=
  fun id hid hid' => h id hid' hid

/-- A branch has each of its own nodes once when the root is none of those below and the children
are parted. -/
theorem once_branch {id : NodeId} {row : RowId} {ts : List Tree} :
    (branch id row ts).Once Own ↔ (∀ t ∈ ts, id ∈ t.ids → ¬ Own id) ∧
      (∀ t ∈ ts, t.Once Own) ∧ ts.Pairwise (Parted Own) := by
  rw [Once, ids, idsAll_eq, List.pairwise_cons, List.pairwise_flatMap]
  refine and_congr ⟨fun h t ht hid => ?_, fun h x hx heq => ?_⟩
    (and_congr Iff.rfl (List.Pairwise.iff fun t u => ?_))
  · exact h id (List.mem_flatMap.mpr ⟨t, ht, hid⟩) rfl
  · obtain ⟨t, ht, hx⟩ := List.mem_flatMap.mp hx
    exact h t ht (heq ▸ hx)
  · exact ⟨fun h x hx hx' => h x hx x hx' rfl, fun h x hx y hy heq => h x hx (heq ▸ hy)⟩

/-- The children of a node share no node that may change, in whatever order they are taken. -/
theorem Once.parted {reverse : Bool} {id : NodeId} {row : RowId} {ts : List Tree}
    (h : (branch id row ts).Once Own) :
    (inOrder reverse ts.zipIdx).Pairwise fun k l => k.1.Parted Own l.1 := by
  have hparted : ts.zipIdx.Pairwise fun k l => k.1.Parted Own l.1 := by
    rw [← List.pairwise_map (f := Prod.fst) (R := Parted Own), List.zipIdx_map_fst]
    exact (once_branch.mp h).2.2
  cases reverse with
  | false => exact hparted
  | true => exact List.pairwise_reverse.mpr (hparted.imp Parted.symm)

end Tree

namespace Walk

variable {callback : Callback σ} {reverse : Bool} {base : Store} {Own : NodeId → Prop}
  {Q : Tree → Option Nat → Store → Store → Item → Prop}

/-! ## One tree and several -/

/-- What a transform makes of a tree that stands in a store, of which nothing has changed meanwhile
that is in the tree or may not change: it returns, it changes nothing but what may change in the
tree, and there is a relation between the tree, its index, the stores before and after, and the
result. -/
def Transforms (callback : Callback σ) (reverse : Bool) (base : Store) (Own : NodeId → Prop)
    (Q : Tree → Option Nat → Store → Store → Item → Prop) (t : Tree) : Prop :=
  ∀ (limit : Nat) (index : Option Nat) (parent : Option Item) (s : Scene σ), t.height ≤ limit →
    base.Keeps (fun id => Own id → id ∈ t.ids) (fun _ => True) s.store →
    ∃ x s', outcome (transformNode callback reverse limit t.item index parent) s = (.ok x, s') ∧
      s.store.Keeps (fun id => Own id → id ∉ t.ids) (fun _ => True) s'.store ∧
      Q t index s.store s'.store x

/-- Trees with their indices have been transformed one after the other. -/
inductive InTurn (Own : NodeId → Prop) (Q : Tree → Option Nat → Store → Store → Item → Prop) :
    List (Tree × Nat) → Store → Store → List Item → Prop
  | nil (s : Store) : InTurn Own Q [] s s []
  | cons {k : Tree × Nat} {ks : List (Tree × Nat)} {s s' s'' : Store} {x : Item} {xs : List Item}
      (first : Q k.1 (some k.2) s s' x)
      (keeps : s.Keeps (fun id => Own id → id ∉ k.1.ids) (fun _ => True) s')
      (others : InTurn Own Q ks s' s'' xs) : InTurn Own Q (k :: ks) s s'' (x :: xs)

namespace InTurn

variable {ks : List (Tree × Nat)} {s s' : Store} {xs : List Item}

/-- What is in none of the trees stays. -/
theorem keeps_outside (h : InTurn Own Q ks s s' xs) :
    s.Keeps (fun id => Own id → ∀ k ∈ ks, id ∉ k.1.ids) (fun _ => True) s' := by
  induction h with
  | nil s => exact .refl s
  | cons _ hkeep _ ih =>
    refine (hkeep.imp fun id hid hown => ?_).trans (ih.imp fun id hid hown k hk => ?_)
    · exact hid hown _ List.mem_cons_self
    · exact hid hown k (List.mem_cons_of_mem _ hk)

/-- What holds of each result when it is there, and is kept while its tree is left alone, holds of
all results in the end. -/
theorem forall₂ {P : Tree × Nat → Store → Item → Prop} (h : InTurn Own Q ks s s' xs)
    (hks : ks.Pairwise fun k l => k.1.Parted Own l.1)
    (hresult : ∀ k ∈ ks, ∀ a b x, s.Keeps (fun id => Own id → ∀ k ∈ ks, id ∉ k.1.ids)
      (fun _ => True) a → Q k.1 (some k.2) a b x → P k b x)
    (hstays : ∀ k ∈ ks, ∀ a b x, P k a x →
      a.Keeps (fun id => Own id → id ∈ k.1.ids) (fun _ => True) b → P k b x) :
    List.Forall₂ (fun k x => P k s' x) ks xs := by
  induction h with
  | nil => exact .nil
  | @cons k ks s s' s'' x xs hfirst hkeep hothers ih =>
    obtain ⟨hparted, hks⟩ := List.pairwise_cons.mp hks
    refine .cons ?_ (ih hks (fun l hl a b y hkeeps => ?_) fun l hl =>
      hstays l (List.mem_cons_of_mem _ hl))
    · -- what the first child became stays while the others have their turns
      refine hstays k List.mem_cons_self _ _ _
        (hresult k List.mem_cons_self _ _ _ (.refl s) hfirst) ?_
      exact hothers.keeps_outside.imp fun id hid hown l hl hmem =>
        hparted l hl id (hid hown) hmem hown
    · refine hresult l (List.mem_cons_of_mem _ hl) a b y ?_
      refine (hkeep.imp fun id hid hown => ?_).trans (hkeeps.imp fun id hid hown k hk => ?_)
      · exact hid hown _ List.mem_cons_self
      · exact hid hown k (List.mem_cons_of_mem _ hk)

end InTurn

/-- What holds of the results as they come holds of the results in order. -/
theorem forall₂_of_inOrder {P : Tree × Nat → Item → Prop} {ks : List (Tree × Nat)} {xs : List Item}
    (h : List.Forall₂ P (Tree.inOrder reverse ks) xs) :
    List.Forall₂ P ks (if reverse then xs.reverse else xs) := by
  cases reverse with
  | false => exact h
  | true =>
    have hreverse := List.rel_reverse h
    rwa [Tree.inOrder, if_pos rfl, List.reverse_reverse] at hreverse

/-- Each item of the second list is related to one of the first. -/
theorem exists_of_mem_forall₂ {α β : Type} {P : α → β → Prop} {as : List α} {bs : List β}
    (h : List.Forall₂ P as bs) {b : β} (hb : b ∈ bs) : ∃ a ∈ as, P a b := by
  induction h with
  | nil => cases hb
  | cons hP _ ih =>
    rcases List.mem_cons.mp hb with rfl | hb
    · exact ⟨_, List.mem_cons_self, hP⟩
    · obtain ⟨a, ha, hab⟩ := ih hb
      exact ⟨a, List.mem_cons_of_mem _ ha, hab⟩

/-- Related items that are sent to the same give the same lists. -/
theorem map_eq_map_of_forall₂ {α β γ : Type} {P : α → β → Prop} {f : α → γ} {g : β → γ}
    {as : List α} {bs : List β} (h : List.Forall₂ P as bs) (hP : ∀ a b, P a b → g b = f a) :
    bs.map g = as.map f := by
  induction h with
  | nil => rfl
  | cons hab _ ih => rw [List.map_cons, List.map_cons, hP _ _ hab, ih]

/-! ## The rule -/

/-- The loop through the children of a node transforms one tree after the other. -/
theorem inTurn_mapM (limit : Nat) (id : NodeId) {ks : List (Tree × Nat)} {row : RowId}
    {items : List Item} {s : Scene σ}
    (htree : ∀ k ∈ ks, Transforms callback reverse base Own Q k.1)
    (hlimit : ∀ k ∈ ks, k.1.height ≤ limit) (hitem : ∀ k ∈ ks, items[k.2]? = some k.1.item)
    (hks : ks.Pairwise fun k l => k.1.Parted Own l.1) (hrow : s.store.row? row = some items)
    (hbase : ∀ k ∈ ks, base.Keeps (fun id => Own id → id ∈ k.1.ids) (fun _ => True) s.store) :
    ∃ xs s', outcome ((ks.map Prod.snd).mapM (transformChild callback reverse limit id row)) s =
        (.ok xs, s') ∧ InTurn Own Q ks s.store s'.store xs := by
  induction ks generalizing s with
  | nil => exact ⟨[], s, rfl, .nil _⟩
  | cons k ks ih =>
    have hk : k ∈ k :: ks := List.mem_cons_self
    obtain ⟨hparted, hks⟩ := List.pairwise_cons.mp hks
    obtain ⟨x, s', hrun, hkeep, hQ⟩ := htree k hk limit (some k.2) (some (.node id)) s
      (hlimit k hk) (hbase k hk)
    have hchild : outcome (transformChild callback reverse limit id row k.2) s = (.ok x, s') := by
      rw [transformChild, outcome_bind_ok (outcome_itemAt s hrow (hitem k hk)), hrun]
    -- the other trees are as they were
    have hothers : ∀ l ∈ ks,
        base.Keeps (fun id => Own id → id ∈ l.1.ids) (fun _ => True) s'.store := fun l hl =>
      (hbase l (List.mem_cons_of_mem k hl)).trans (hkeep.imp fun id hid hown hmem =>
        hparted l hl id hmem (hid hown) hown)
    obtain ⟨xs, s'', hruns, hturn⟩ := ih (fun l hl => htree l (List.mem_cons_of_mem k hl))
      (fun l hl => hlimit l (List.mem_cons_of_mem k hl))
      (fun l hl => hitem l (List.mem_cons_of_mem k hl)) hks (hkeep.row row trivial items hrow)
      hothers
    refine ⟨x :: xs, s'', ?_, .cons hQ hkeep hturn⟩
    rw [List.map_cons, List.mapM_cons, outcome_bind_ok hchild, outcome_bind_ok hruns]
    rfl

/-- A leaf is transformed by the call for it. -/
theorem transforms_leaf {i : Item} (hstand : (Tree.leaf i).StandsIn base)
    (hcall : ∀ (index : Option Nat) (parent : Option Item) (s : Scene σ),
      base.Keeps (fun id => Own id → id ∈ (Tree.leaf i).ids) (fun _ => True) s.store →
      ∃ x s', outcome (answerFor callback ⟨i, index, parent⟩) s = (.ok x, s') ∧
        s.store.Keeps (fun id => Own id → id ∉ (Tree.leaf i).ids) (fun _ => True) s'.store ∧
        Q (.leaf i) index s.store s'.store x) :
    Transforms callback reverse base Own Q (.leaf i) := by
  intro limit index parent s hlimit hbase
  obtain ⟨limit, rfl⟩ := Tree.exists_limit hlimit
  have hnone := (hstand.leaf_of_keeps fun id hi => hbase.keepsChildrenAt
    (fun _ => Tree.mem_ids_of_item (t := .leaf i) hi) fun _ _ => trivial).2
  -- there is no row to go through, so the walk is the call alone
  have hrun : outcome (transformNode callback reverse (limit + 1) i index parent) s =
      outcome (answerFor callback ⟨i, index, parent⟩) s := by
    rw [transformNode, outcome_getStore_bind, hnone]
    rfl
  rw [Tree.item, hrun]
  exact hcall index parent s hbase

/-- A branch is transformed by transforming its children, putting the results in order, and the call
for it. When the call comes, the node is as it was at the start but for its row of children, and so
is all that may not change. -/
theorem transforms_branch {id : NodeId} {row : RowId} {ts : List Tree}
    (hstand : (Tree.branch id row ts).StandsIn base) (honce : (Tree.branch id row ts).Once Own)
    (hown : Own id) (htree : ∀ t ∈ ts, Transforms callback reverse base Own Q t)
    (hcall : ∀ (index : Option Nat) (parent : Option Item) (s s₁ : Scene σ) (xs : List Item),
      base.Keeps (fun x => Own x → x ∈ (Tree.branch id row ts).ids) (fun _ => True) s.store →
      InTurn Own Q (Tree.inOrder reverse ts.zipIdx) s.store s₁.store xs →
      base.Keeps (fun x => Own x → x = id) (fun _ => True) s₁.store →
      ∃ x s', outcome (answerFor callback ⟨.node id, index, parent⟩) { s₁ with
          store := s₁.store.withChildren id (if reverse then xs.reverse else xs) } = (.ok x, s') ∧
        (s₁.store.withChildren id (if reverse then xs.reverse else xs)).Keeps
          (fun x => Own x → x ∉ (Tree.branch id row ts).ids) (fun _ => True) s'.store ∧
        Q (.branch id row ts) index s.store s'.store x) :
    Transforms callback reverse base Own Q (.branch id row ts) := by
  intro limit index parent s hlimit hbase
  obtain ⟨limit, rfl⟩ := Tree.exists_limit hlimit
  rw [Tree.height] at hlimit
  have hmem : ∀ k ∈ Tree.inOrder reverse ts.zipIdx, k.1 ∈ ts := fun k hk =>
    List.fst_mem_of_mem_zipIdx (Tree.mem_inOrder.mp hk)
  have hid : id ∈ (Tree.branch id row ts).ids := by simp [Tree.ids]
  have hchildren : s.store.HasChildren id row (ts.map Tree.item) :=
    (hbase.keepsChildrenAt (fun _ => hid) fun _ _ => trivial).children _ _
      (Tree.standsIn_branch.mp hstand).1
  obtain ⟨xs, s₁, hruns, hturn⟩ := inTurn_mapM limit id
    (fun k hk => htree k.1 (hmem k hk))
    (fun k hk => Nat.le_trans (Tree.height_le_heightAll (hmem k hk))
      (Nat.le_of_succ_le_succ hlimit))
    (fun k hk => Tree.getElem?_of_mem_zipIdx (Tree.mem_inOrder.mp hk)) honce.parted hchildren.2
    fun k hk => hbase.imp fun x hx hownx => Tree.mem_ids_of_mem (hmem k hk) (hx hownx)
  -- no tree below the node is the node, so it is as it was
  have hnode : base.Keeps (fun x => Own x → x = id) (fun _ => True) s₁.store := by
    refine (hbase.imp fun x hx hownx => ?_).trans
      (hturn.keeps_outside.imp fun x hx hownx k hk hxk => ?_)
    · rw [hx hownx]
      exact hid
    · exact (Tree.once_branch.mp honce).1 k.1 (hmem k hk) (hx hownx ▸ hxk) hown
  obtain ⟨x, s', hrun, hkeep, hQ⟩ := hcall index parent s s₁ xs hbase hturn hnode
  refine ⟨x, s', ?_, ?_, hQ⟩
  · rw [Tree.item, outcome_transformNode_of_hasChildren hchildren, List.length_map,
      Tree.places_eq, outcome_bind_ok hruns]
    exact hrun
  · refine ((hturn.keeps_outside.imp fun x hx hownx k hk hxk => ?_).trans
      ((Store.withChildren_keeps s₁.store id _).imp fun x hx heq => ?_)).trans hkeep
    · exact hx hownx (Tree.mem_ids_of_mem (hmem k hk) hxk)
    · exact hx (heq ▸ hown) (heq ▸ hid)

end Walk

end NotebookTree

import NotebookTree.Proofs.Store.Unfolding
import NotebookTree.Proofs.Walk.Detached
import NotebookTree.Proofs.Walk.Rewriting
import NotebookTree.Proofs.Walk.Shape
import NotebookTree.Proofs.Walk.Transform.Rule

/-!
# The direction of a transform

A transform may take the children of a node from the first to the last or from the last to the
first. The calls come in another order then, and so do the changes of the store. For a callback
whose answer depends on nothing but what is seen of the node and on the index, this makes no
difference to what the transform returns: either way it is what `Tree.rewritten` says, which knows
of no order.

## Main definitions

* `Walk.AnswersBy`: a callback answers as a function of unfoldings does.
* `Tree.rewritten`: what becomes of a tree by such a function.

## Main statements

* `transforms_rewritten`: a transform in either direction comes to the rewritten tree.
* `transform_reverse_same`: the two directions return equal trees.
-/

namespace NotebookTree

variable {σ : Type}

/-! ## Rewritten trees -/

namespace Tree

variable (f : Unfolding → Option Nat → Unfolding) (s : Store)

mutual

/-- What becomes of a tree when a function is applied to what is seen of each node with its
rewritten children, and to its index. -/
def rewritten (index : Option Nat) : Tree → Unfolding
  | leaf i => f (s.unfolding i) index
  | branch id _ ts =>
    f ((s.unfolding (.node id)).withChildren (.row (rewrittenAll 0 ts))) index

/-- What becomes of some trees, of which the first has index `k`. -/
def rewrittenAll (k : Nat) : List Tree → List Unfolding
  | [] => []
  | t :: ts => rewritten (some k) t :: rewrittenAll (k + 1) ts

end

/-- Children are rewritten one by one, each with its index. -/
theorem rewrittenAll_eq (k : Nat) (ts : List Tree) :
    rewrittenAll f s k ts = (ts.zipIdx k).map fun l => l.1.rewritten f s (some l.2) := by
  induction ts generalizing k with
  | nil => rfl
  | cons t ts ih => rw [rewrittenAll, ih, List.zipIdx_cons, List.map_cons]

end Tree

/-! ## Nodes with new rows -/

namespace Store

variable {D : NodeId → Prop} {base s : Store} {id : NodeId} {row : RowId} {items ys : List Item}

/-- When a node gets a row with other items, all that was kept but for the node is kept. -/
theorem keeps_withChildren (hid : D id)
    (hkeep : base.Keeps (fun x => D x → x = id) (fun _ => True) s) :
    base.Keeps (fun x => ¬ D x) (fun _ => True) (s.withChildren id ys) := by
  refine (hkeep.imp fun x hx hd => absurd hd hx).trans
    ((withChildren_keeps s id ys).imp fun x hx heq => ?_)
  exact hx (heq ▸ hid)

/-- A node that gets a row with other items is seen as before but for these, if its other fields
and the items avoid what has changed. -/
theorem unfolding_withChildren (hc : base.HasChildren id row items) (hid : D id)
    (hfields : base.FieldsAvoid D id) (hkeep : base.Keeps (fun x => D x → x = id) (fun _ => True) s)
    (hys : ∀ y ∈ ys, s.Avoids (· = id) y) :
    (s.withChildren id ys).unfolding (.node id) =
      (base.unfolding (.node id)).withChildren (.row (ys.map s.unfolding)) := by
  obtain ⟨n, hn⟩ := hc.knows
  have hnode : s.node? id = some n := hkeep.node id (fun _ => rfl) n hn
  have hstep : s.Keeps (fun x => ¬ x = id) (fun _ => True) (s.withChildren id ys) :=
    withChildren_keeps s id ys
  rw [hfields.unfolding_of_put hn (node?_withChildren_self hnode ys) (has_of_childRow? hc.1 hn)
      (keeps_withChildren hid hkeep),
    unfolding_row (hasChildren_withChildren ⟨n, hnode⟩ ys).2]
  congr 2
  exact List.map_congr_left fun y hy => (hys y hy).unfolding_eq hstep

/-- Its other fields avoid what they have avoided. -/
theorem FieldsAvoid.withChildren (h : base.FieldsAvoid D id) (hknows : base.Knows (.node id))
    (hid : D id) (hkeep : base.Keeps (fun x => D x → x = id) (fun _ => True) s) :
    (s.withChildren id ys).FieldsAvoid D id := by
  obtain ⟨n, hn⟩ := hknows
  have hnode : s.node? id = some n := hkeep.node id (fun _ => rfl) n hn
  exact h.of_put hn (node?_withChildren_self hnode ys) (keeps_withChildren hid hkeep)

end Store

namespace Walk

variable {callback : Callback σ} {reverse : Bool} {f : Unfolding → Option Nat → Unfolding}
  {base : Store} {T : List NodeId}

/-- What a callback puts in the place of an item is a function of what is seen of the item and of
its index. In every scene in which all but the nodes `T` is as in a store, the callback answers and
changes nothing that is there; and what it puts in the place of an item leads to nodes in `T` by way
of the item only. -/
def AnswersBy (f : Unfolding → Option Nat → Unfolding) (base : Store) (T : List NodeId)
    (callback : Callback σ) : Prop :=
  ∀ (s : Scene σ) (i : Item) (index : Option Nat) (parent : Option Item),
    base.Keeps (· ∉ T) (fun _ => True) s.store → s.store.Avoids (fun _ => False) i →
    ∃ answer s', outcome (resolve (callback i index parent)) s = (.ok answer, s') ∧
      s.store.KeepsAll s'.store ∧
      let x := if s'.store.isTruthy answer then answer else i
      s'.store.unfolding x = f (s.store.unfolding i) index ∧
        ∀ D : NodeId → Prop, (∀ id, D id → id ∈ T) → s.store.Avoids D i → s'.store.Avoids D x

/-- The call for an item puts in its place what the function says. -/
theorem AnswersBy.answerFor (h : AnswersBy f base T callback) {s : Scene σ} {i : Item}
    (hbase : base.Keeps (· ∉ T) (fun _ => True) s.store) {D : NodeId → Prop}
    (hD : ∀ id, D id → id ∈ T) (hi : s.store.Avoids D i) (index : Option Nat)
    (parent : Option Item) :
    ∃ x s', outcome (answerFor callback ⟨i, index, parent⟩) s = (.ok x, s') ∧
      s.store.KeepsAll s'.store ∧ s'.store.unfolding x = f (s.store.unfolding i) index ∧
      s'.store.Avoids D x := by
  obtain ⟨answer, s', hrun, hkeep, hunfolding, havoids⟩ :=
    h s i index parent hbase (hi.mono fun _ hfalse => hfalse.elim)
  refine ⟨_, s', ?_, hkeep, hunfolding, havoids D hD hi⟩
  rw [Walk.answerFor, outcome_bind_ok hrun, outcome_getStore_bind]
  rfl

/-- What has become of a tree: it is seen as the rewritten tree, and leads to no other node of which
the trees are made. -/
def HasBecome (f : Unfolding → Option Nat → Unfolding) (base : Store) (T : List NodeId) (t : Tree)
    (index : Option Nat) (s : Store) (x : Item) : Prop :=
  s.unfolding x = t.rewritten f base index ∧ s.Avoids (fun id => id ∈ T ∧ id ∉ t.ids) x

/-- What has become of a tree stays while nothing changes but what is in the tree. -/
theorem HasBecome.of_keeps {t : Tree} {index : Option Nat} {s s' : Store} {x : Item}
    (h : HasBecome f base T t index s x)
    (hkeep : s.Keeps (fun id => id ∈ T → id ∈ t.ids) (fun _ => True) s') :
    HasBecome f base T t index s' x := by
  have hkeep' : s.Keeps (fun id => ¬ (id ∈ T ∧ id ∉ t.ids)) (fun _ => True) s' :=
    hkeep.imp fun id => not_and_not_right.mp
  exact ⟨(h.2.unfolding_eq hkeep').trans h.1, h.2.of_keeps hkeep'⟩

section Branch

variable {id : NodeId} {row : RowId} {items ys : List Item} {ts : List Tree} {s : Store}
  (hid : id ∈ T) (honce : (Tree.branch id row ts).Once (· ∈ T))
  (hbecome : List.Forall₂ (fun k x => HasBecome f base T k.1 (some k.2) s x) ts.zipIdx ys)

include hid honce hbecome

/-- What has become of children leads to no node of which the trees are made, but those below the
parent. -/
theorem avoids_of_hasBecome : ∀ y ∈ ys,
    s.Avoids (fun x => x ∈ T ∧ (x = id ∨ x ∉ (Tree.branch id row ts).ids)) y := by
  intro y hy
  obtain ⟨k, hk, -, havoids⟩ := exists_of_mem_forall₂ hbecome hy
  have hk : k.1 ∈ ts := List.fst_mem_of_mem_zipIdx hk
  refine havoids.mono fun x hx => ⟨hx.1, fun hxk => ?_⟩
  obtain ⟨hT, rfl | hx⟩ := hx
  · exact (Tree.once_branch.mp honce).1 k.1 hk hxk hid
  · exact hx (Tree.mem_ids_of_mem hk hxk)

variable (hc : base.HasChildren id row items) (hfields : base.FieldsAvoid (· ∈ T) id)
  (hnode : base.Keeps (fun x => x ∈ T → x = id) (fun _ => True) s)

include hc hfields hnode

/-- A node that gets what has become of its children is seen with the rewritten trees below it. -/
theorem unfolding_of_hasBecome : (s.withChildren id ys).unfolding (.node id) =
    (base.unfolding (.node id)).withChildren (.row (Tree.rewrittenAll f base 0 ts)) := by
  have hys : ∀ y ∈ ys, s.Avoids (· = id) y := fun y hy =>
    (avoids_of_hasBecome hid honce hbecome y hy).mono fun x hx => ⟨hx ▸ hid, .inl hx⟩
  rw [Store.unfolding_withChildren hc hid hfields hnode hys, Tree.rewrittenAll_eq,
    map_eq_map_of_forall₂ hbecome fun _ _ h => h.1]

/-- It leads to no node of which the trees are made, but to itself and those below. -/
theorem avoids_root_of_hasBecome : (s.withChildren id ys).Avoids
    (fun x => x ∈ T ∧ x ∉ (Tree.branch id row ts).ids) (.node id) := by
  have hstep : s.Keeps (fun x => ¬ x = id) (fun _ => True) (s.withChildren id ys) :=
    Store.withChildren_keeps s id ys
  refine ((hfields.withChildren hc.knows hid hnode).mono fun _ h => h.1).avoids
    (Store.hasChildren_withChildren (hnode.knows hc.knows) ys) (fun y hy => ?_)
    fun h => h.2 (by simp [Tree.ids])
  refine ((avoids_of_hasBecome hid honce hbecome y hy).of_keeps
    (hstep.imp fun x hx heq => ?_)).mono fun x hx => ⟨hx.1, .inr hx.2⟩
  exact hx ⟨heq ▸ hid, .inl heq⟩

end Branch

/-- A transform, in either direction, comes to the rewritten tree. -/
theorem transforms_rewritten (hcallback : AnswersBy f base T callback) (reverse : Bool) {t : Tree}
    (hstand : t.StandsIn base) (hdetached : t.Detached (· ∈ T) base) (honce : t.Once (· ∈ T))
    (hsub : t.ids ⊆ T) :
    Transforms callback reverse base (· ∈ T)
      (fun t index _ s x => HasBecome f base T t index s x) t := by
  induction hdetached with
  | @leaf i hparts =>
    refine transforms_leaf hstand fun index parent s hbase => ?_
    have hi : base.Avoids (fun id => id ∈ T ∧ id ∉ (Tree.leaf i).ids) i :=
      ((Tree.Detached.leaf hparts).mono fun _ h => h.1).avoids_item hstand fun id hid h => h.2 hid
    have hkeep : base.Keeps (fun id => ¬ (id ∈ T ∧ id ∉ (Tree.leaf i).ids)) (fun _ => True)
        s.store := hbase.imp fun id => not_and_not_right.mp
    obtain ⟨x, s', hrun, hkept, hunfolding, havoids⟩ := hcallback.answerFor
      (hbase.imp fun id hid hT => absurd hT hid) (fun _ h => h.1) (hi.of_keeps hkeep) index parent
    refine ⟨x, s', hrun, hkept.keeps, ?_, havoids⟩
    rw [hunfolding, hi.unfolding_eq hkeep, Tree.rewritten]
  | @branch id row ts hfields _ ih =>
    obtain ⟨hc, hstands⟩ := Tree.standsIn_branch.mp hstand
    obtain ⟨-, honces, -⟩ := Tree.once_branch.mp honce
    have hid : id ∈ T := hsub (by simp [Tree.ids])
    refine transforms_branch hstand honce hid (fun t ht => ih t ht (hstands t ht) (honces t ht)
      fun x hx => hsub (Tree.mem_ids_of_mem ht hx)) fun index parent s s₁ xs hbase hturn hnode => ?_
    -- in either direction each child has become its rewritten tree when the node is called back
    have hbecome : List.Forall₂ (fun k x => HasBecome f base T k.1 (some k.2) s₁.store x) ts.zipIdx
        (if reverse then xs.reverse else xs) := forall₂_of_inOrder
      (hturn.forall₂ honce.parted (fun _ _ _ _ _ _ h => h) fun _ _ _ _ _ h => h.of_keeps)
    generalize (if reverse then xs.reverse else xs) = ys at hbecome ⊢
    have hready : base.Keeps (· ∉ T) (fun _ => True) (s₁.store.withChildren id ys) :=
      Store.keeps_withChildren hid hnode
    obtain ⟨x, s', hrun, hkept, hunfolding, hout⟩ := hcallback.answerFor
      (s := { s₁ with store := s₁.store.withChildren id ys }) hready (fun _ h => h.1)
      (avoids_root_of_hasBecome hid honce hbecome hc hfields hnode) index parent
    refine ⟨x, s', hrun, hkept.keeps, ?_, hout⟩
    rw [hunfolding, unfolding_of_hasBecome hid honce hbecome hc hfields hnode, Tree.rewritten]

/-! ## Both directions -/

/-- A transform whose callback depends on what is seen of a node and on its index returns equal
trees in both directions, and each is the rewritten tree: of a tree in which each node stands at one
place, and of which nothing else leads to its nodes. -/
theorem transform_reverse_same {t : Tree} {limit : Nat} {s : Scene σ} (hlimit : t.height ≤ limit)
    (hstand : t.StandsIn s.store) (hnodup : t.ids.Nodup)
    (hdetached : t.Detached (· ∈ t.ids) s.store)
    (hcallback : AnswersBy f s.store t.ids callback) :
    SameTree (transform limit t.item callback false) (transform limit t.item callback true) s ∧
      ∀ reverse, ∃ x final, outcome (transform limit t.item callback reverse) s = (.ok x, final) ∧
        final.store.unfolding x = t.rewritten f s.store none := by
  have hrewritten : ∀ reverse, ∃ x final,
      outcome (transform limit t.item callback reverse) s = (.ok x, final) ∧
        final.store.unfolding x = t.rewritten f s.store none := fun reverse => by
    obtain ⟨x, final, hrun, -, hunfolding, -⟩ := transforms_rewritten hcallback reverse
      hstand hdetached (Tree.once_of_nodup hnodup) (List.Subset.refl _) limit none none s hlimit
      (.refl _)
    exact ⟨x, final, hrun, hunfolding⟩
  -- either way the result is the same function of the tree as it was, so the two are alike
  refine ⟨?_, hrewritten⟩
  obtain ⟨x, final, hrun, hx⟩ := hrewritten false
  obtain ⟨y, final', hrun', hy⟩ := hrewritten true
  exact ⟨x, y, final, final', hrun, hrun', hx.trans hy.symm⟩

end Walk

/-! ## Wrapped trees -/

/-- What is seen of an element around something. -/
def Unfolding.wrapped (u : Unfolding) : Unfolding
  | 0 => .null
  | depth + 1 => .node .element [("children", Unfolding.row [u] depth)]

/-- A store with a new element around an item. -/
def Store.withWrapper (s : Store) (i : Item) : Store :=
  ((s.newRow [i]).2.newNode ⟨.element, [("children", .row (s.newRow [i]).1)]⟩).2

section Wrapper

variable (s : Store) (i : Item)

/-- A wrapper leaves all that is there. -/
theorem Store.withWrapper_keepsAll : s.KeepsAll (s.withWrapper i) :=
  (keepsAll_newRow s [i]).trans (keepsAll_newNode _ _)

/-- The wrapper is a new element with a row of children. -/
theorem Store.node?_withWrapper : (s.withWrapper i).node? ⟨s.nodes.size⟩ =
    some ⟨.element, [("children", .row ⟨s.rows.size⟩)]⟩ :=
  node?_newNode_self (s.newRow [i]).2 _

/-- The wrapper has the item for its only child. -/
theorem Store.hasChildren_withWrapper :
    (s.withWrapper i).HasChildren ⟨s.nodes.size⟩ ⟨s.rows.size⟩ [i] :=
  ⟨childRow?_of_lookup (node?_withWrapper s i) rfl, row?_newRow_self s [i]⟩

variable {s i} {D : NodeId → Prop}

/-- The wrapper unfolds into the item, wrapped. -/
theorem Store.unfolding_withWrapper (hi : s.Avoids (fun _ => False) i) :
    (s.withWrapper i).unfolding (.node ⟨s.nodes.size⟩) = (s.unfolding i).wrapped := by
  funext depth
  cases depth with
  | zero => rfl
  | succ depth =>
    rw [unfolding_node (node?_withWrapper s i)]
    simp only [List.map_cons, List.map_nil, unfolding_row (hasChildren_withWrapper s i).2,
      hi.unfolding_eq (withWrapper_keepsAll s i).keeps, Unfolding.wrapped]

/-- The element leads to nothing old but by way of the item. -/
theorem Store.avoids_withWrapper (hi : s.Avoids D i) (hD : ∀ id, D id → s.Knows (.node id)) :
    (s.withWrapper i).Avoids D (.node ⟨s.nodes.size⟩) := by
  refine FieldsAvoid.avoids (fun n hn f hf hother => ?_) (hasChildren_withWrapper s i)
    (fun j hj => ?_) fun hnew => ?_
  · obtain rfl := Option.some.inj ((node?_withWrapper s i).symm.trans hn)
    rw [List.mem_singleton.mp hf] at hother
    exact absurd rfl (hother rfl)
  · rw [List.mem_singleton.mp hj]
    exact hi.of_keeps (withWrapper_keepsAll s i).keeps
  · exact Nat.lt_irrefl _ (knows_iff_lt.mp (hD _ hnew))

end Wrapper

namespace Walk

/-- Puts a new element around an item. -/
def wrapping : Callback σ := fun i _ _ => do
  return .now (← changeStore fun s => (.node ⟨s.nodes.size⟩, s.withWrapper i))

/-- The callback that wraps answers with wrapped nodes. -/
theorem answersBy_wrapping {base : Store} {T : List NodeId} (hT : ∀ id ∈ T, base.Knows (.node id)) :
    AnswersBy (fun u _ => u.wrapped) base T (wrapping : Callback σ) := by
  intro s i index parent hbase hi
  refine ⟨.node ⟨s.store.nodes.size⟩, { s with store := s.store.withWrapper i }, rfl,
    Store.withWrapper_keepsAll _ _, Store.unfolding_withWrapper hi, fun D hD havoids => ?_⟩
  exact Store.avoids_withWrapper havoids fun id hid => hbase.knows (hT id (hD id hid))

/-- Around every node of the small tree comes an element, in both directions. -/
theorem transform_reverse_same_sample :
    let s : Scene Nat := ⟨Store.sample, [], 0⟩
    Tree.sample.ids.Nodup ∧ Tree.sample.Detached (· ∈ Tree.sample.ids) Store.sample ∧
      SameTree (transform 3 Tree.sample.item wrapping false)
        (transform 3 Tree.sample.item wrapping true) s := by
  intro s
  have hnodup : Tree.sample.ids.Nodup := by decide
  have hknown : ∀ id ∈ Tree.sample.ids, Store.sample.Knows (.node id) := by
    intro id hid
    rw [Store.knows_iff_lt]
    revert id
    decide
  have hdetached := Tree.sample_detached (· ∈ Tree.sample.ids)
  exact ⟨hnodup, hdetached, (transform_reverse_same (t := Tree.sample) (by decide)
    Tree.sample_standsIn hnodup hdetached (answersBy_wrapping hknown)).1⟩

end Walk

end NotebookTree

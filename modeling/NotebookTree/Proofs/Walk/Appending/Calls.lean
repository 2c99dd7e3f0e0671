import NotebookTree.Proofs.Walk.Transform.Run

/-!
# Calls that append siblings

A callback may append nodes that it makes to the children of the parent that it is told. The row of
these children then grows while a walk goes through it. A walk has counted the children before, so
nothing depends on what comes behind them; but the row must not be that of another node too, or the
walk would count what was appended when it comes to that node.

What carries a walk is where its calls append: to rows that nodes with children had in the store in
which the walk began (`AppendWithin`). Such a row is the row of one node (`Store.Unshared`), so
nothing is appended below the children that wait for their turn (`Awaits.tail`).

## Main definitions

* `Call.appendedTo`, `Call.Appends`: what a call appended to a row; it did nothing else.
* `Store.Unshared`: no two nodes have the same row, if there is something in it.
* `Awaits`: children that wait for their turn while their row grows.
-/

namespace NotebookTree

variable {σ : Type}

namespace Call

/-- What a call appended to a row. It appends to no other than that of the parent it was told. -/
def appendedTo (c : Call σ) (row : RowId) : List Item :=
  if c.place.parent.bind c.before.store.childRow? = some row then
    (c.after.store.rowItems row).drop (c.before.store.rowItems row).length
  else []

/-- All that a call did to what was in the store is that it appended nodes, which it made, to the
children of the parent it was told. -/
structure Appends (c : Call σ) : Prop where
  node : ∀ id n, c.before.store.node? id = some n → c.after.store.node? id = some n
  row : ∀ row items, c.before.store.row? row = some items →
    c.after.store.row? row = some (items ++ c.appendedTo row)
  fresh : ∀ row, ∀ i ∈ c.appendedTo row, ∃ id, i = .node id ∧ c.MakesNode id

/-- Nothing is appended to a row that is not the parent's. -/
theorem appendedTo_eq_nil {c : Call σ} {row : RowId}
    (h : c.place.parent.bind c.before.store.childRow? ≠ some row) : c.appendedTo row = [] :=
  if_neg h

end Call

namespace Store

variable {s s' : Store} {id : NodeId} {row : RowId} {items : List Item}

/-- A row with something in it is the row of no more than one of the nodes in a list. -/
def Unshared (ids : List NodeId) (s : Store) : Prop :=
  ∀ id ∈ ids, ∀ other ∈ ids, ∀ row items, s.HasChildren id row items → items ≠ [] →
    s.childRow? (.node other) = some row → other = id

/-- Where every node is known and every row is there still, none is lost. -/
theorem sizes_le (hnode : ∀ id, s.Knows (.node id) → s'.Knows (.node id))
    (hrow : ∀ row items, s.row? row = some items → ∃ items', s'.row? row = some items') :
    s.nodes.size ≤ s'.nodes.size ∧ s.rows.size ≤ s'.rows.size := by
  constructor
  · by_contra h
    have hknown := knows_iff_lt.mp (hnode ⟨s'.nodes.size⟩ (knows_iff_lt.mpr (Nat.lt_of_not_le h)))
    exact Nat.lt_irrefl _ hknown
  · by_contra h
    have hlt : (⟨s'.rows.size⟩ : RowId).index < s.rows.size := Nat.lt_of_not_le h
    obtain ⟨items, hitems⟩ := exists_row?_iff_lt.mpr hlt
    exact Nat.lt_irrefl _ (exists_row?_iff_lt.mp (hrow _ items hitems))

/-- Where only children change, nodes outside the set and all rows are kept. -/
theorem ChangesOnlyChildren.keeps {D : NodeId → Prop} (h : ChangesOnlyChildren D s s') :
    Keeps (fun id => ¬ D id) (fun _ => True) s s' := by
  obtain ⟨hnodes, hrows⟩ := sizes_le (fun _ => h.knows) fun row items hr => ⟨items, h.row row items hr⟩
  exact ⟨hnodes, hrows, fun id hid n hn => (h.node id hid).trans hn, fun row _ => h.row row⟩

/-- A node that stays as it is has the row that it had. -/
theorem Keeps.childRow?_eq {N : NodeId → Prop} {R : RowId → Prop} (h : Keeps N R s s') (hid : N id)
    (hknown : s.Knows (.node id)) : s'.childRow? (.node id) = s.childRow? (.node id) := by
  obtain ⟨n, hn⟩ := hknown
  exact childRow?_congr (by rw [hn, h.node id hid n hn])

end Store

/-- A call that appends leaves every node as it is, and every row to which it does not append. -/
theorem Call.Appends.keeps {c : Call σ} (h : c.Appends) :
    c.Keeps (fun _ => True) (fun row => c.appendedTo row = []) := by
  have hknows : ∀ id, c.before.store.Knows (.node id) → c.after.store.Knows (.node id) :=
    fun id ⟨n, hn⟩ => ⟨n, h.node id n hn⟩
  obtain ⟨hnodes, hrows⟩ := Store.sizes_le hknows fun row items hr => ⟨_, h.row row items hr⟩
  refine ⟨hnodes, hrows, fun id _ => h.node id, fun row hnil items hr => ?_⟩
  rw [h.row row items hr, hnil, List.append_nil]

/-! ## Through calls that append -/

namespace Chained

variable {D : NodeId → Prop} {s s' : Scene σ} {calls : List (Call σ)}

/-- A chain leads to each of its calls. -/
theorem exists_before {Move : Scene σ → Scene σ → Prop} (h : Chained Move s calls s') {c : Call σ}
    (hc : c ∈ calls) : ∃ earlier, (∀ d ∈ earlier, d ∈ calls) ∧ Chained Move s earlier c.before := by
  induction calls generalizing s with
  | nil => cases hc
  | cons d ds ih =>
    rcases List.mem_cons.mp hc with rfl | hc
    · exact ⟨[], by simp, h.1⟩
    · obtain ⟨earlier, hsub, hchain⟩ := ih h.2 hc
      refine ⟨d :: earlier, fun e he => ?_, h.1, hchain⟩
      rcases List.mem_cons.mp he with rfl | he
      · exact List.mem_cons_self
      · exact List.mem_cons_of_mem _ (hsub e he)

/-- Nodes that get no other row stay as they are, and so do rows to which nothing is appended. -/
theorem keeps (h : Chained (MovesChildren D) s calls s') (happ : ∀ c ∈ calls, c.Appends) :
    Store.Keeps (fun id => ¬ D id) (fun row => ∀ c ∈ calls, c.appendedTo row = [])
      s.store s'.store :=
  h.rel (fun _ _ _ => Store.Keeps.trans)
    (fun _ _ hmove => hmove.store.keeps.mono (fun _ hid => hid) fun _ _ => trivial)
    fun c hc => (happ c hc).keeps.mono (fun _ _ => trivial) fun _ hrow => hrow c hc

/-- Before each call of a run the nodes outside the set are as they were at the start. -/
theorem keeps_before (h : Chained (MovesChildren D) s calls s') (happ : ∀ c ∈ calls, c.Appends)
    {c : Call σ} (hc : c ∈ calls) :
    Store.Keeps (fun id => ¬ D id) (fun _ => False) s.store c.before.store := by
  obtain ⟨earlier, hsub, hearlier⟩ := h.exists_before hc
  exact (hearlier.keeps fun d hd => happ d (hsub d hd)).mono (fun _ h => h) fun _ h => h.elim

/-- A row has what was appended to it, in the order of the calls, behind what was in it. -/
theorem row?_append (h : Chained (MovesChildren D) s calls s') (happ : ∀ c ∈ calls, c.Appends)
    {row : RowId} {items : List Item} (hrow : s.store.row? row = some items) :
    s'.store.row? row = some (items ++ calls.flatMap fun c => c.appendedTo row) := by
  induction calls generalizing s items with
  | nil =>
    rw [List.flatMap_nil, List.append_nil]
    have hmove : MovesChildren D s s' := h
    exact hmove.store.row row items hrow
  | cons c cs ih =>
    have hbefore := h.1.store.row row items hrow
    have hafter := (happ c List.mem_cons_self).row row items hbefore
    rw [ih h.2 (fun d hd => happ d (List.mem_cons_of_mem _ hd)) hafter, List.flatMap_cons,
      List.append_assoc]

end Chained

/-! ## Where calls append -/

/-- Calls append to the rows of some nodes only, each of which had children in the store in which
the walk began. -/
def AppendWithin (start : Store) (N : NodeId → Prop) (calls : List (Call σ)) : Prop :=
  ∀ c ∈ calls, ∀ row, c.appendedTo row ≠ [] →
    ∃ id items, N id ∧ start.HasChildren id row items ∧ items ≠ []

namespace AppendWithin

variable {start : Store} {N N' : NodeId → Prop} {calls calls' : List (Call σ)}

/-- No calls append anywhere. -/
theorem nil : AppendWithin start N ([] : List (Call σ)) := fun _ hc => by cases hc

/-- Calls that append within a set append within a larger one. -/
theorem mono (h : AppendWithin start N calls) (hN : ∀ id, N id → N' id) :
    AppendWithin start N' calls := by
  intro c hc row hne
  obtain ⟨id, items, hid, hrow⟩ := h c hc row hne
  exact ⟨id, items, hN id hid, hrow⟩

/-- Calls that append within a set, in two runs, do so together. -/
theorem append (h : AppendWithin start N calls) (h' : AppendWithin start N calls') :
    AppendWithin start N (calls ++ calls') := fun c hc =>
  (List.mem_append.mp hc).elim (h c) (h' c)

/-- Nothing is appended to the rows of other nodes. -/
theorem appendedTo_eq_nil (h : AppendWithin start N calls) {K : List NodeId}
    (hrows : start.Unshared K) (hN : ∀ id, N id → id ∈ K) {id : NodeId} {row : RowId}
    (hid : id ∈ K) (hnot : ¬ N id) (hrow : start.childRow? (.node id) = some row) :
    ∀ c ∈ calls, c.appendedTo row = [] := by
  intro c hc
  by_contra hne
  obtain ⟨other, items, hother, hchildren, hfilled⟩ := h c hc row hne
  obtain rfl := hrows other (hN other hother) id hid row items hchildren hfilled hrow
  exact hnot hother

/-- Nothing is appended to rows that have come into the store since. -/
theorem appendedTo_eq_nil_of_new (h : AppendWithin start N calls) {row : RowId}
    (hnew : start.rows.size ≤ row.index) : ∀ c ∈ calls, c.appendedTo row = [] := by
  intro c hc
  by_contra hne
  obtain ⟨_, _, -, hchildren, -⟩ := h c hc row hne
  have := Store.lt_of_row? hchildren.2
  omega

end AppendWithin

/-! ## Trees that have not changed -/

/-- The nodes of a tree that stands in a store are there. -/
theorem Tree.StandsIn.knows {s : Store} {t : Tree} (h : t.StandsIn s) {id : NodeId}
    (hid : id ∈ t.ids) : s.Knows (.node id) := by
  obtain ⟨p, hp, hitem⟩ := Tree.exists_spot_of_mem_ids hid true true [] none
  exact hitem ▸ (h.of_mem_listing hp).knows_item

/-- The parent of a tree lies outside the tree, and has the row of children that it had when the
walk began; what was in the row then is in it still. -/
def ParentStays (start : Store) (K : List NodeId) (t : Tree) (parent : Option Item) (s : Store) :
    Prop :=
  ∀ i, parent = some i → ∃ id row items, i = .node id ∧ id ∈ K ∧ id ∉ t.ids ∧
    start.HasChildren id row items ∧ items ≠ [] ∧ s.childRow? i = some row

namespace ParentStays

variable {start s s' : Store} {K : List NodeId} {t : Tree} {parent : Option Item}

/-- Without a parent there is nothing to stay. -/
theorem none : ParentStays start K t none s := fun _ h => by cases h

/-- The parent is among the nodes that are watched, and not in the tree. -/
theorem mem (h : ParentStays start K t parent s) {id : NodeId} (hid : parent = some (.node id)) :
    id ∈ K ∧ id ∉ t.ids := by
  obtain ⟨other, _, _, hnode, hmem, hnot, -⟩ := h _ hid
  exact Item.node.inj hnode ▸ ⟨hmem, hnot⟩

/-- Nothing happens to the parent while what lies below it changes. -/
theorem of_keeps {R : RowId → Prop} (h : ParentStays start K t parent s)
    (hkeep : Store.Keeps (fun id => id ∉ t.ids) R s s') : ParentStays start K t parent s' := by
  rintro i rfl
  obtain ⟨id, row, items, rfl, hmem, hnot, hchildren, hfilled, hrow⟩ := h _ rfl
  refine ⟨id, row, items, rfl, hmem, hnot, hchildren, hfilled, ?_⟩
  rw [hkeep.childRow?_eq hnot (Store.knows_of_childRow? hrow), hrow]

/-- A call for the root of a tree appends to the children of the parent. -/
theorem appendWithin {c : Call σ} (h : ParentStays start K t parent c.before.store)
    (hc : c.place.parent = parent) :
    AppendWithin start (fun id => parent = some (.node id)) [c] := by
  intro d hd row hne
  obtain rfl := List.mem_singleton.mp hd
  have hrow : parent.bind d.before.store.childRow? = some row := by
    by_contra hnot
    exact hne (Call.appendedTo_eq_nil (hc ▸ hnot))
  cases parent with
  | none => cases hrow
  | some i =>
    obtain ⟨id, own, items, rfl, -, -, hchildren, hfilled, hown⟩ := h i rfl
    obtain rfl : own = row := Option.some.inj (hown.symm.trans hrow)
    exact ⟨id, items, rfl, hchildren, hfilled⟩

end ParentStays

/-- A tree in which nothing has changed since the walk began, below a parent whose children may have
become more. -/
structure Unchanged (start : Store) (K : List NodeId) (limit : Nat) (t : Tree)
    (parent : Option Item) (s : Store) : Prop where
  height : t.height ≤ limit
  began : t.StandsIn start
  stands : t.StandsIn s
  nodup : t.ids.Nodup
  sub : t.ids ⊆ K
  kept : start.Keeps (· ∈ t.ids) (fun _ => False) s
  parent : ParentStays start K t parent s

/-! ## Children whose row grows -/

/-- Children of a node that wait for their turn while their row grows: they are ready, they are where
they were among the `children` that the node had when the walk began, nothing has changed below
them, and they share no node. -/
structure Awaits (start : Store) (K : List NodeId) (limit : Nat) (id : NodeId) (row : RowId)
    (children : List Item) (ks : List (Tree × Nat)) (s : Store) : Prop where
  began : start.HasChildren id row children
  item : ∀ k ∈ ks, children[k.2]? = some k.1.item
  ready : ∃ items, Ready K limit id row items ks s
  kept : start.Keeps (· ∈ id :: ks.flatMap fun k => k.1.ids) (fun _ => False) s
  apart : Walk.Apart id ks
  stands : ∀ k ∈ ks, k.1.StandsIn start

namespace Awaits

variable {start : Store} {K : List NodeId} {limit : Nat} {id : NodeId} {row : RowId}
  {children : List Item} {k : Tree × Nat} {ks : List (Tree × Nat)} {s s' : Scene σ}

/-- When the calls for the first child have appended to the row, and below the child, the others
wait as before. -/
theorem tail {D : NodeId → Prop} {calls : List (Call σ)} (hrows : start.Unshared K)
    (hknown : ∀ x ∈ K, start.Knows (.node x))
    (h : Awaits start K limit id row children (k :: ks) s.store)
    (hchain : Chained (MovesChildren D) s calls s') (hD : ∀ x, D x → x ∈ k.1.ids)
    (happ : ∀ c ∈ calls, c.Appends)
    (hwithin : AppendWithin start (fun x => x = id ∨ x ∈ k.1.ids) calls) :
    Awaits start K limit id row children ks s'.store := by
  obtain ⟨items, hready⟩ := h.ready
  have hfirst : k ∈ k :: ks := List.mem_cons_self
  have hkeep := hchain.keeps happ
  have hwithinK : ∀ x, x = id ∨ x ∈ k.1.ids → x ∈ K := by
    rintro x (rfl | hx)
    · exact hready.known
    · exact hready.ids k hfirst hx
  -- what lies below the others is no node to which something was appended
  have hothers : ∀ k' ∈ ks, s.store.KeepsChildren k'.1.ids s'.store := by
    intro k' hk' y hy
    have hy' : y ∈ ks.flatMap fun k => k.1.ids := List.mem_flatMap.mpr ⟨k', hk', hy⟩
    have hyK : y ∈ K := hready.ids k' (List.mem_cons_of_mem _ hk') hy
    have hout : ¬ (y = id ∨ y ∈ k.1.ids) := by
      rintro (rfl | hyk)
      · exact h.apart.root_cons.2 hy'
      · exact h.apart.disjoint y hyk hy'
    refine hkeep.keepsChildrenAt (fun hd => hout (.inr (hD y hd))) fun row' hrow' => ?_
    refine hwithin.appendedTo_eq_nil hrows hwithinK hyK hout ?_
    rw [← hrow', h.kept.childRow?_eq (List.mem_cons_of_mem _ ?_) (hknown y hyK)]
    rw [List.flatMap_cons]
    exact List.mem_append_right _ hy'
  have hid : ¬ D id := fun hd => h.apart.root_cons.1 (hD id hd)
  refine ⟨h.began, fun k' hk' => h.item k' (List.mem_cons_of_mem _ hk'),
    ⟨_, hready.known, ⟨?_, hchain.row?_append happ hready.children.2⟩,
    fun k' hk' => hready.height k' (List.mem_cons_of_mem _ hk'),
    fun k' hk' => (hready.stands k' (List.mem_cons_of_mem _ hk')).of_keeps (hothers k' hk'),
    fun k' hk' => ?_, fun k' hk' => hready.ids k' (List.mem_cons_of_mem _ hk')⟩,
    ?_, h.apart.tail, fun k' hk' => h.stands k' (List.mem_cons_of_mem _ hk')⟩
  · rw [hkeep.childRow?_eq hid hready.children.knows, hready.children.1]
  · have hitem := hready.item k' (List.mem_cons_of_mem _ hk')
    rw [List.getElem?_append_left (List.getElem?_eq_some_iff.mp hitem).1, hitem]
  · refine (h.kept.mono (fun x hx => ?_) fun _ h => h).trans (hkeep.mono (fun x hx hd => ?_)
      fun _ h => h.elim)
    · rw [List.flatMap_cons]
      exact List.mem_cons.mpr ((List.mem_cons.mp hx).imp_right (List.mem_append_right _))
    · rcases List.mem_cons.mp hx with rfl | hx
      · exact hid hd
      · exact h.apart.disjoint x (hD x hd) hx

/-- The children of a branch wait when the branch has not changed. -/
theorem of_branch {ts : List Tree} {parent : Option Item} {s : Store} (reverse : Bool)
    (h : Unchanged start K (limit + 1) (.branch id row ts) parent s) :
    Awaits start K limit id row (ts.map Tree.item) (Tree.inOrder reverse ts.zipIdx) s where
  began := (Tree.standsIn_branch.mp h.began).1
  item k hk := Tree.getElem?_of_mem_zipIdx (Tree.mem_inOrder.mp hk)
  ready := ⟨_, .of_branch reverse h.stands h.sub h.height⟩
  kept := h.kept.mono (fun x hx => by
    rw [Tree.ids]
    exact List.mem_cons.mpr
      ((List.mem_cons.mp hx).imp_right (Tree.flatMap_inOrder_perm reverse ts).mem_iff.mp))
    fun _ h => h
  apart := .of_branch reverse h.nodup
  stands k hk := (Tree.standsIn_branch.mp h.began).2 k.1
    (List.fst_mem_of_mem_zipIdx (Tree.mem_inOrder.mp hk))

/-- The first child that waits has not changed. -/
theorem head {s : Store} (h : Awaits start K limit id row children (k :: ks) s) :
    Unchanged start K limit k.1 (some (.node id)) s := by
  have hfirst : k ∈ k :: ks := List.mem_cons_self
  obtain ⟨_, hready⟩ := h.ready
  refine ⟨hready.height k hfirst, h.stands k hfirst, hready.stands k hfirst, h.apart.head,
    hready.ids k hfirst, h.kept.mono (fun x hx => ?_) fun _ h => h, ?_⟩
  · rw [List.flatMap_cons]
    exact List.mem_cons_of_mem _ (List.mem_append_left _ hx)
  · rintro i hi
    obtain rfl := Option.some.inj hi
    refine ⟨id, row, children, rfl, hready.known, h.apart.root_cons.1, h.began, ?_,
      hready.children.1⟩
    rintro rfl
    cases h.item k hfirst

end Awaits

end NotebookTree

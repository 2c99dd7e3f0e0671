import NotebookTree.Proofs.Value.Label
import NotebookTree.Proofs.Walk.CellFilter
import NotebookTree.Proofs.Walk.Peeking

/-!
# What rules for cells take away

Rules for cells take children away and do nothing else, whatever the cells are like: tags that are
no tags may end them in a fault, but as long as they return, a node is what it was, with some of the
children that it had. So the tree that is left is made of nodes that were loaded.

## Main definitions

* `Store.Loses`: nodes may lose children, and nothing else happens.
* `HoldsCells`: a store holds a root above nodes with children, none of them a root.
* `Tree.Remains`: what is left of a tree that was held.

## Main statements

* `CellRule.applyAll_loses`: rules that return have only taken children away.
* `Store.Loses.exists_remains`: something remains of every tree.
-/

namespace NotebookTree

open Store (Holds Reads Reseats Refreshes)

/-- Nodes may lose children, and nothing else happens. -/
abbrev Store.Loses (s s' : Store) : Prop := Reseats (fun _ xs ys => ys ⊆ xs) s s'

namespace Store.Loses

variable {s s' s'' : Store}

/-- A store loses nothing of itself. -/
theorem refl (s : Store) : Loses s s := .of_children fun _ _ items _ => List.Subset.refl items

/-- What is lost in two steps is lost. -/
theorem trans (h : Loses s s') (h' : Loses s' s'') : Loses s s'' :=
  Reseats.trans h h' fun _ _ _ _ hys hzs => List.Subset.trans hzs hys

end Store.Loses

/-- A node gets some of the children that it has. -/
theorem Store.loses_withChildren {s : Store} {id : NodeId} {row : RowId} {items kept : List Item}
    (hc : s.HasChildren id row items) (hkept : kept ⊆ items) :
    s.Loses (s.withChildren id kept) :=
  reseats_withChildren hc hkept fun _ _ xs _ _ => List.Subset.refl xs

/-- A store holds a root, and below it nodes with children, none of them a root. -/
structure HoldsCells (s : Store) (root : NodeId) (cells : List Held) : Prop where
  children : ∃ row, s.HasChildren root row (cells.map Held.item)
  type : s.attribute? (.node root) "type" = some (.plain (.text "root"))
  holds : ∀ q ∈ cells, Holds s q
  freeOf : ∀ q ∈ cells, FreeOf "root" q.tree
  branches : ∀ q ∈ cells, ∃ id row items, q.item = .node id ∧ s.HasChildren id row items

/-- What holds a tree of a root with cells holds it so. -/
theorem exists_holdsCells {s : Store} {p : Held} (hp : Holds s p) {trees : List Value}
    (htype : p.tree.type? = some (.text "root")) (hchildren : p.tree.children? = some trees)
    (hcells : ∀ c ∈ trees, FreeOf "root" c ∧ ∃ below, c.children? = some below) :
    ∃ root cells, p.item = .node root ∧ trees = cells.map Held.tree ∧ HoldsCells s root cells := by
  obtain ⟨root, row, cells, hitem, rfl, hc, hholds, -⟩ := hp.exists_parts hchildren
  have htypeItem : s.attribute? (.node root) "type" = some (.plain (.text "root")) := by
    rw [← hitem, hp.attribute? (by decide), ← Value.type?, htype, Option.map_some]
  refine ⟨root, cells, hitem, rfl, ⟨row, hc⟩, htypeItem, hholds, fun q hq => ?_, fun q hq => ?_⟩
  · exact (hcells q.tree (List.mem_map_of_mem hq)).1
  · obtain ⟨below, hbelow⟩ := (hcells q.tree (List.mem_map_of_mem hq)).2
    obtain ⟨id, row, parts, hid, -, hparts, -⟩ := (hholds q hq).exists_parts hbelow
    exact ⟨id, row, _, hid, hparts⟩

/-! ## What a rule does to the root -/

section Rules

open Walk

variable {σ : Type} {store : Store} {root : NodeId} {cells : List Held} {s next : Scene σ}

/-- The root has some of its cells. -/
theorem HoldsCells.exists_row (h : HoldsCells store root cells) (hs : store.Loses s.store) :
    ∃ row items, s.store.HasChildren root row items ∧ items ⊆ cells.map Held.item := by
  obtain ⟨row, hc⟩ := h.children
  obtain ⟨row', items, hc', hsub⟩ := hs.children root row _ hc
  exact ⟨row', items, hc', hsub⟩

/-- Keeping the cells that a test finds takes cells away. -/
theorem keepCells_loses {row : RowId} {items : List Item}
    (hc : s.store.HasChildren root row items) {test : Item → Walk σ Bool}
    (htest : ∀ i, Peeks (test i))
    (hrun : outcome (keepCells (.node root) test) s = (.ok (), next)) :
    s.store.Loses next.store := by
  rw [keepCells, outcome_bind_ok (outcome_children hc),
    outcome_bind_ok (outcome_itemsOf hc)] at hrun
  obtain ⟨kept, mid, hkept, hset⟩ := exists_of_outcome_bind_ok hrun
  obtain rfl : mid = s := (peeks_filterM htest items).eq_of_outcome hkept
  obtain ⟨-, rfl⟩ := Prod.mk.inj hset
  exact Store.loses_withChildren hc (subset_of_outcome_filterM hkept)

/-- Dropping the outputs of cells takes children away. -/
theorem HoldsCells.dropOutputs_loses (h : HoldsCells store root cells)
    (hs : store.Loses s.store) {items : List Item} (hsub : items ⊆ cells.map Held.item)
    (hrun : outcome (items.forM dropOutputs) s = (.ok (), next)) : s.store.Loses next.store := by
  obtain ⟨last, hlast, hshort⟩ := outcome_forM_dropOutputs (s := s)
    (fun c => (store.view c).isCellOf "code") items fun i hi => by
      obtain ⟨q, hq, rfl⟩ := List.mem_map.mp (hsub hi)
      obtain ⟨id, row, below, hid, hc⟩ := h.branches q hq
      obtain ⟨row', below', hc', -⟩ := hs.children id row below hc
      exact ⟨q.tree, (h.holds q hq).reads.of_reseats hs, by rw [(h.holds q hq).view],
        id, row', below', hid, hc'⟩
  obtain ⟨-, rfl⟩ := Prod.mk.inj (hlast.symm.trans hrun)
  exact hshort.mono fun _ _ _ hcut => hcut.subset

/-- A rule for cells that returns has taken children away. -/
theorem CellRule.applyToRoot_loses (h : HoldsCells store root cells) (hs : store.Loses s.store)
    {rule : CellRule} (hrule : rule.isFilter = true)
    (hrun : outcome (rule.applyToRoot (.node root)) s = (.ok (), next)) :
    store.Loses next.store := by
  obtain ⟨row, items, hc, hsub⟩ := h.exists_row hs
  refine hs.trans ?_
  cases rule with
  | removeOutputs =>
    rw [applyToRoot, outcome_bind_ok (outcome_children hc),
      outcome_bind_ok (outcome_itemsOf hc)] at hrun
    exact h.dropOutputs_loses hs hsub hrun
  | removeEmpty =>
    rw [applyToRoot, outcome_bind_ok (outcome_children hc),
      outcome_bind_ok (outcome_itemsOf hc)] at hrun
    obtain ⟨_, mid, hkeep, hcount⟩ := exists_of_outcome_bind_ok hrun
    -- what is done behind it only counts the cells and tells how many are gone
    obtain ⟨children, mid', hchildren, hitems⟩ := exists_of_outcome_bind_ok hcount
    obtain ⟨after, mid'', hafter, htell⟩ := exists_of_outcome_bind_ok hitems
    have hleft := keepCells_loses hc peeks_hasContent hkeep
    rw [← (peeks_fieldOf _ _).eq_of_outcome hchildren,
      ← (peeks_itemsOf _).eq_of_outcome hafter] at hleft
    obtain ⟨-, rfl⟩ := Prod.mk.inj htell
    exact hleft
  | removeTagged tags =>
    exact keepCells_loses hc
      (fun i => peeks_bind (peeks_isTagged i tags) fun _ => peeks_pure _) hrun
  | keepTagged tags => exact keepCells_loses hc (fun i => peeks_isTagged i tags) hrun
  | readMarkdown => cases hrule

/-! ## One rule after the other -/

section Engine

variable [Markdown.Engine]

/-- A transform with a rule that returns comes back to the root, and has taken children away. -/
theorem CellRule.transform_loses (h : HoldsCells store root cells) {limit : Nat}
    (hquiet : ∀ q ∈ cells, Quiet "root" store limit q.item) (hs : store.Loses s.store)
    {rule : CellRule} (hrule : rule.isFilter = true) {reverse : Bool} {item : Item}
    (hrun : outcome (transform (limit + 1) (.node root) rule.callback reverse) s =
      (.ok item, next)) : item = .node root ∧ store.Loses next.store := by
  obtain ⟨row, items, hc, hsub⟩ := h.exists_row hs
  have hbelow : ∀ j ∈ items, Quiet "root" s.store limit j := by
    intro j hj
    obtain ⟨q, hq, rfl⟩ := List.mem_map.mp (hsub hj)
    exact (hquiet q hq).of_reseats hs fun _ _ _ hloses => hloses
  obtain ⟨refreshed, hrefreshed, hcalled⟩ := outcome_transformNode_below
    (outcome_transformNode_quiet (actsOnlyOn_root hrule) reverse limit) hc hbelow none none
  have hloses : store.Loses refreshed := hs.refreshes hrefreshed
  rw [transform, hcalled, answerFor] at hrun
  obtain ⟨answer, last, hanswer, hlast⟩ := exists_of_outcome_bind_ok hrun
  rw [resolve, callback_eq hrule] at hanswer
  obtain ⟨reply, last', hreply, hnow⟩ := exists_of_outcome_bind_ok hanswer
  have hroot : hasWord refreshed (.node root) "type" "root" = true := by
    rw [hasWord, Store.fieldView, hloses.attribute? _ (by decide), h.type]
    exact Value.equals_text_iff.mpr rfl
  rw [outcome_getStore_bind, hroot, if_pos rfl] at hreply
  obtain ⟨_, last'', happly, hdone⟩ := exists_of_outcome_bind_ok hreply
  have hleft := applyToRoot_loses (s := { s with store := refreshed }) h hloses hrule happly
  -- the answer is nothing, so the root stays where it is
  obtain ⟨hnothing, rfl⟩ := Prod.mk.inj hdone
  obtain rfl := Except.ok.inj hnothing
  obtain ⟨hnone, rfl⟩ := Prod.mk.inj hnow
  obtain rfl := Except.ok.inj hnone
  obtain ⟨hitem, rfl⟩ := Prod.mk.inj hlast
  exact ⟨(Except.ok.inj hitem).symm, hleft⟩

/-- Rules that return, one after the other, have taken children away. -/
theorem CellRule.applyAll_quiet_loses (h : HoldsCells store root cells) {limit : Nat}
    (hquiet : ∀ q ∈ cells, Quiet "root" store limit q.item) {reverse : Bool} :
    ∀ {rules : List CellRule} {s : Scene σ} {item : Item}, store.Loses s.store →
      (∀ rule ∈ rules, rule.isFilter = true) →
      outcome (applyAll (limit + 1) rules reverse (.node root)) s = (.ok item, next) →
      item = .node root ∧ store.Loses next.store
  | [], s, item, hs, _, hrun => by
    obtain ⟨hitem, rfl⟩ := Prod.mk.inj hrun
    exact ⟨(Except.ok.inj hitem).symm, hs⟩
  | rule :: rules, s, item, hs, hrules, hrun => by
    rw [applyAll, List.foldlM_cons] at hrun
    obtain ⟨first, mid, hfirst, hrest⟩ := exists_of_outcome_bind_ok hrun
    obtain ⟨rfl, hmid⟩ := transform_loses h hquiet hs (hrules rule List.mem_cons_self) hfirst
    exact applyAll_quiet_loses h hquiet hmid
      (fun other hother => hrules other (List.mem_cons_of_mem _ hother)) hrest

/-- Rules that return have taken children away, and come back to the root. If there are any, the
limit has been enough for the tree. -/
theorem CellRule.applyAll_loses (h : HoldsCells store root cells) {limit : Nat} {reverse : Bool}
    {rules : List CellRule} (hrules : ∀ rule ∈ rules, rule.isFilter = true)
    (hs : s.store = store) {item : Item}
    (hrun : outcome (applyAll (limit + 1) rules reverse (.node root)) s = (.ok item, next)) :
    item = .node root ∧ store.Loses next.store := by
  subst hs
  by_cases hquiet : ∀ q ∈ cells, Quiet "root" s.store limit q.item
  · exact applyAll_quiet_loses h hquiet (.refl s.store) hrules hrun
  cases rules with
  | nil =>
    obtain ⟨hitem, rfl⟩ := Prod.mk.inj hrun
    exact ⟨(Except.ok.inj hitem).symm, .refl s.store⟩
  | cons rule rules =>
    -- the first transform would have failed
    obtain ⟨row, hc⟩ := h.children
    have hrule := hrules rule List.mem_cons_self
    obtain ⟨last, hfails⟩ := outcome_transformNode_below_tooDeep
      (outcome_transformNode_quiet (actsOnlyOn_root hrule) reverse limit)
      (outcome_transformNode_tooDeep (actsOnlyOn_root hrule) reverse limit)
      (fun q hq => ⟨h.holds q hq, h.freeOf q hq⟩) (.refl _) hc (by simpa using hquiet) none none
    rw [applyAll, List.foldlM_cons] at hrun
    obtain ⟨first, mid, hfirst, -⟩ := exists_of_outcome_bind_ok hrun
    rw [transform, hfails] at hfirst
    cases (Prod.mk.inj hfirst).1

end Engine

end Rules

/-! ## The tree that is left -/

section Left

variable {store s : Store} {p : Held}

/-- What is left of a tree that was held: it stands in the store, is no higher, and each of its
nodes was in the tree. -/
structure Tree.Remains (store s : Store) (p : Held) (t : Tree) : Prop where
  standsIn : t.StandsIn s
  height_le : t.height ≤ p.tree.levels
  held : ∀ (last reverse : Bool) (path : List Nat) (parent : Option Item),
    ∀ u ∈ t.listing last reverse path parent,
      ∃ q, Holds store q ∧ Below q.tree p.tree ∧ q.item = u.tree.item

/-- A node remains of its tree, with what remains of its children below it. -/
theorem Tree.Remains.branch {id : NodeId} {row : RowId} {ts : List Tree} (hp : Holds store p)
    (hid : p.item = .node id) (hc : s.HasChildren id row (ts.map Tree.item))
    (hts : ∀ t ∈ ts, ∃ q : Held, q.tree ∈ p.tree.children?.getD [] ∧ t.Remains store s q) :
    (Tree.branch id row ts).Remains store s p where
  standsIn := by
    refine Tree.standsIn_branch.mpr ⟨hc, fun t ht => ?_⟩
    obtain ⟨q, -, hq⟩ := hts t ht
    exact hq.standsIn
  -- what stands for children is lower than they were, so the branch is no higher than before
  height_le := by
    refine Nat.add_le_of_le_sub hp.isTree.levels_pos (Tree.heightAll_le fun t ht => ?_)
    obtain ⟨q, hchild, hq⟩ := hts t ht
    exact Nat.le_sub_one_of_lt (Nat.lt_of_le_of_lt hq.height_le (hp.isTree.levels_lt hchild))
  held := by
    intro last reverse path parent u hu
    -- the branch itself is held by `p`, and whatever stands below it by something below `p`
    rcases Tree.mem_listing_branch.mp hu with rfl | ⟨k, hk, hu⟩
    · exact ⟨p, hp, .root, hid⟩
    · obtain ⟨q, hchild, hq⟩ := hts k.1 (List.fst_mem_of_mem_zipIdx hk)
      obtain ⟨r, hr, hbelow, hitem⟩ := hq.held _ _ _ _ u hu
      exact ⟨r, hr, .child hchild hbelow, hitem⟩

/-- Something remains of every tree that was held, in the place of its root. -/
theorem Store.Loses.exists_remains (hs : store.Loses s) (hp : Holds store p) :
    ∃ t : Tree, t.item = p.item ∧ t.Remains store s p := by
  induction hp with
  | @leaf k fields id hk hfields hnode =>
    have hholds : Holds store ⟨.node k fields, .node id, [.node id]⟩ := .leaf hk hfields hnode
    obtain ⟨n, hn, -⟩ := hs.node id _ hnode
    have hnone := hs.childRow?_eq_none (Store.childRow?_of_plainFields hnode)
    refine ⟨.leaf (.node id), rfl, ⟨⟨n, hn⟩, hnone⟩, hholds.isTree.levels_pos, ?_⟩
    intro last reverse path parent u hu
    rw [Tree.listing, List.mem_singleton] at hu
    subst hu
    exact ⟨_, hholds, .root, rfl⟩
  | @branch k before after id row parts hk hbefore hafter hnode hrow hparts hnodup ih =>
    have hholds := Holds.branch hk hbefore hafter hnode hrow hparts hnodup
    obtain ⟨row', items, hc, hsub⟩ := hs.children id row _
      (Store.hasChildren_of_between (by rwa [has_plainFields]) hnode hrow)
    have hchild : ∀ q ∈ parts, q.tree ∈ (Value.node k
        (before ++ ("children", .list (parts.map Held.tree)) :: after)).children?.getD [] := by
      intro q hq
      rw [Value.children?_branch hbefore]
      exact List.mem_map_of_mem hq
    -- something remains of each child that is left
    have hkids : ∀ i ∈ items, ∃ t : Tree, t.item = i ∧
        ∃ q : Held, q.tree ∈ (Value.node k (before ++
          ("children", .list (parts.map Held.tree)) :: after)).children?.getD [] ∧
            t.Remains store s q := by
      intro i hi
      obtain ⟨q, hq, rfl⟩ := List.mem_map.mp (hsub hi)
      obtain ⟨t, hitem, ht⟩ := ih q hq
      exact ⟨t, hitem, q, hchild q hq, ht⟩
    obtain ⟨ts, rfl, hts⟩ := Tree.exists_forest hkids
    exact ⟨.branch id row' ts, rfl, .branch hholds rfl hc hts⟩

/-- A field of a node is seen in the view of the node. -/
theorem Store.attribute?_view {id : NodeId} {n : NodeState} (hn : s.node? id = some n)
    {name : String} {v? : Option Value} (h : s.attribute? (.node id) name = v?.map .plain) :
    (s.view (.node id)).attribute? name = v? := by
  obtain ⟨d, hd⟩ : ∃ d, s.nodes.size + s.rows.size + 1 = d + 2 := by
    have hlt := Store.lt_of_node? hn
    exact ⟨s.nodes.size + s.rows.size - 1, by omega⟩
  -- viewing goes from field to field, so it changes nothing about which field is found
  have hlookup : ∀ fields : Entries Item,
      (fields.map fun f => (f.1, s.viewWithin (d + 1) f.2)).lookup name =
        (fields.lookup name).map (s.viewWithin (d + 1)) := by
    intro fields
    induction fields with
    | nil => rfl
    | cons f fields ih =>
      rw [List.map_cons, List.lookup_cons, List.lookup_cons, ih]
      cases name == f.1 <;> rfl
  simp only [Store.attribute?, hn] at h
  rw [Store.view, hd]
  simp only [Store.viewWithin, hn, Value.attribute?, hlookup]
  cases hf : n.fields.lookup name with
  | some f =>
    rw [hf] at h
    cases v? with
    | none => cases h
    | some v =>
      obtain rfl : f = .plain v := Option.some.inj h
      rfl
  | none =>
    rw [hf] at h
    exact Option.map_injective (fun _ _ => Item.plain.inj) h

/-- A node that was loaded is seen with the fields that it has had, but for the children. -/
theorem Store.Loses.sameButChildren (hs : store.Loses s) (hp : Holds store p) :
    Value.SameButChildren (s.view p.item) p.tree := by
  intro name hname
  obtain ⟨id, hitem, -⟩ := hp.exists_node
  have hreads := (hp.reads.of_reseats hs) name hname
  rw [hitem] at hreads ⊢
  have hknown : ∃ n, store.node? id = some n := by
    cases hp with
    | leaf _ _ hnode => exact ⟨_, Item.node.inj hitem ▸ hnode⟩
    | branch _ _ _ hnode => exact ⟨_, Item.node.inj hitem ▸ hnode⟩
  obtain ⟨n, hn⟩ := hknown
  obtain ⟨n', hn', -⟩ := hs.node id n hn
  exact Store.attribute?_view hn' hreads

end Left

end NotebookTree

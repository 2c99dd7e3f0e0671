import NotebookTree.Proofs.Walk.Transform.Run

/-!
# Transforms from the root

`Rewrites` says what a transform has done after some calls, wherever in a store it began. Here it
began at the root of a tree in which no node stands twice.

* `transform_bottomUp`: no call failed, so every occurrence was called for, and every node with
  children has the results of the calls for its children.
* `transform_abandoned`: a call failed, so the transform ended there. What comes behind in the order
  of calls, and so whatever lies above, is as it was.

Nothing is asked of the callback but what the statements say of its calls: it may keep things for
itself, answer late, and make nodes of its own.
-/

namespace NotebookTree

variable {σ : Type}

namespace Tree

variable {t : Tree} {reverse : Bool} {finished rest : List Spot} {n p q : Spot} {id : NodeId}

/-- Before an occurrence, with parents last, there is none that lies above it. -/
theorem mem_rest_of_above (h : t.postorder reverse = finished ++ n :: rest)
    (hp : p ∈ t.postorder reverse) (habove : p.Above n) : p ∈ rest := by
  have horder := t.listing_pairwise reverse [] none
  rw [← postorder, h, List.pairwise_append] at horder
  rw [h, List.mem_append, List.mem_cons] at hp
  rcases hp with hp | rfl | hp
  · exact absurd habove.1 (horder.2.2 p hp n List.mem_cons_self)
  · exact absurd rfl habove.2
  · exact hp

/-- No node stands at two places in a tree whose nodes are all different. -/
theorem ne_of_mem_rest (h : t.postorder reverse = finished ++ n :: rest) (hnodup : t.ids.Nodup)
    (hp : p ∈ finished ++ [n]) (hq : q ∈ rest) (hid : p.tree.item = .node id) :
    q.tree.item ≠ .node id := by
  have hnodes := (t.nodes_listing_perm true reverse [] none).nodup_iff.mpr hnodup
  rw [← postorder, h, List.append_cons, List.filterMap_append, List.nodup_append] at hnodes
  intro hq'
  refine hnodes.2.2 id (List.mem_filterMap.mpr ⟨p, hp, ?_⟩) id
    (List.mem_filterMap.mpr ⟨q, hq, ?_⟩) rfl
  · rw [hid, Item.nodeId?]
  · rw [hq', Item.nodeId?]

end Tree

namespace Walk

variable {t : Tree} {callback : Callback σ} {reverse : Bool} {limit : Nat} {s final : Scene σ}
  {result : Except Fault Item} {calls : List (Call σ)}

/-- A transform calls back after the children of each node, and ends with the call for the root. -/
theorem rewrites_transform (hlimit : t.height ≤ limit) (hstand : t.StandsIn s.store)
    (hnodup : t.ids.Nodup)
    (hrun : record (transform limit t.item (recorded callback) reverse) s = (result, final, calls))
    (hkeep : ∀ c ∈ calls, c.KeepsChildren t.ids) :
    Rewrites (t.postorder reverse) s final calls ∧
      ∃ c, calls.getLast? = some c ∧ result = c.answer.map fun _ => c.result :=
  rewritesTree callback reverse t.ids t limit [] none s final result calls hlimit hstand hnodup
    (List.Subset.refl _) (fun _ _ => by simp) hrun hkeep

/-- A node of the tree is called for if its occurrence is among those done. -/
theorem called_of_mem_done {done : List Spot} {p : Spot} {id : NodeId}
    (hplaces : calls.map Call.place = done.map Spot.place) (hp : p ∈ done)
    (hid : p.tree.item = .node id) : Called calls id := by
  have hmem : p.place ∈ calls.map Call.place := hplaces ▸ List.mem_map_of_mem hp
  obtain ⟨c, hc, hplace⟩ := List.mem_map.mp hmem
  exact ⟨c, hc, by rw [hplace]; exact hid⟩

/-! ## A transform that is not cut short -/

/-- A transform puts what its callback answers in the place of every node, children first. The
callback is called once for each occurrence, and for nothing else: not for what it answered, nor for
what lies below that. Behind the last call every node with children has a row with the results for
its children, each where its child stood, and between two calls nothing else has changed. -/
theorem transform_bottomUp (hlimit : t.height ≤ limit) (hstand : t.StandsIn s.store)
    (hnodup : t.ids.Nodup)
    (hrun : record (transform limit t.item (recorded callback) reverse) s = (result, final, calls))
    (hreturn : ∀ c ∈ calls, ¬ c.Fails) (hkeep : ∀ c ∈ calls, c.KeepsChildren t.ids) :
    outcome (transform limit t.item callback reverse) s = (result, final) ∧
      calls.map Call.place = (t.postorder reverse).map Spot.place ∧
      (calls.filterMap fun c => c.place.node.nodeId?).Perm t.ids ∧
      (∃ c, calls.getLast? = some c ∧ c.place = ⟨t.item, none, none⟩ ∧ result = .ok c.result) ∧
      (∀ p ∈ t.postorder reverse, ∀ id row ts, p.tree = .branch id row ts →
        ∃ row' items, final.store.HasChildren id row' items ∧
          HoldsResults calls id (ts.map Tree.item) items) ∧
      (∀ p ∈ t.postorder reverse, (∃ i, p.tree = .leaf i) ↔
        ∀ row, s.store.attribute? p.tree.item "children" ≠ some (.row row)) ∧
      Chained (MovesChildren (IsParent (t.postorder reverse))) s calls final := by
  obtain ⟨hrw, c, hlast, hresult⟩ := rewrites_transform hlimit hstand hnodup hrun hkeep
  have hplaces := hrw.cut.whole hreturn
  obtain ⟨below, hlisting, -⟩ := t.listing_last reverse [] none
  refine ⟨outcome_of_record ?_ hrun, hplaces, ?_, ⟨c, hlast, ?_, ?_⟩, ?_, fun p hp => ?_, ?_⟩
  · exact transform_alike (recorded_alike callback) limit t.item reverse
  · -- the nodes that are called back are those of the listing, which has each of them once
    have hnodes : calls.filterMap (fun c => c.place.node.nodeId?) =
        (t.postorder reverse).filterMap fun p => p.tree.item.nodeId? := by
      have hmap := congrArg (List.filterMap fun place => place.node.nodeId?) hplaces
      rw [List.filterMap_map, List.filterMap_map] at hmap
      exact hmap
    rw [hnodes]
    exact t.nodes_listing_perm true reverse [] none
  · have hroot := congrArg List.getLast? hplaces
    rw [Tree.postorder, hlisting, List.getLast?_map, hlast, List.getLast?_map,
      List.getLast?_concat] at hroot
    exact Option.some.inj hroot
  · obtain ⟨i, hi⟩ := Call.not_fails_iff.mp (hreturn c (List.mem_of_getLast? hlast))
    rw [hresult, hi]
    rfl
  · intro p hp id row ts htree
    exact hrw.held p hp id row ts htree
      (called_of_mem_done hplaces hp (by rw [htree, Tree.item]))
  · exact (hstand.of_mem_listing hp).leaf_iff
  · exact hrw.chained.mono fun _ _ hm => hm.mono fun _ h => h.1

/-- From the last child to the first, with text in the place of the leaf that comes first. -/
theorem transform_bottomUp_sample :
    let callback := counting fun k _ => .ok (if k = 0 then .plain (.text "new") else .nothing)
    ∃ result final calls, record (transform 3 Tree.sample.item (recorded callback) true)
        ⟨Store.sample, [], 0⟩ = (result, final, calls) ∧
      (∀ c ∈ calls, ¬ c.Fails ∧ c.KeepsChildren Tree.sample.ids) ∧
      calls.map Call.place = (Tree.sample.postorder true).map Spot.place ∧
      ∃ row items, final.store.HasChildren ⟨0⟩ row items ∧
        HoldsResults calls ⟨0⟩ [.node ⟨1⟩, .node ⟨2⟩] items := by
  intro callback
  have hcalls := forall_mem_of_record
    (P := fun c => ¬ c.Fails ∧ c.KeepsChildren Tree.sample.ids) callback
    (fun R h => ⟨_, transform_alike h 3 Tree.sample.item true⟩)
    (fun place s => ⟨Call.not_fails_iff.mpr ⟨_, rfl⟩, .refl _ _⟩) ⟨Store.sample, [], 0⟩
  rcases hrun : record (transform 3 Tree.sample.item (recorded callback) true)
    ⟨Store.sample, [], 0⟩ with ⟨result, final, calls⟩
  -- the calls need not be written out: none fails, and each keeps the children
  rw [hrun] at hcalls
  obtain ⟨-, hplaces, -, -, hheld, -⟩ := transform_bottomUp (t := Tree.sample) (by decide)
    Tree.sample_standsIn (by decide) hrun (fun c hc => (hcalls c hc).1)
    fun c hc => (hcalls c hc).2
  exact ⟨result, final, calls, rfl, hcalls, hplaces, hheld ⟨[], Tree.sample, none⟩
    (List.mem_iff_getElem?.mpr ⟨3, rfl⟩) ⟨0⟩ ⟨0⟩ _ rfl⟩

/-! ## A transform that is cut short -/

/-- What a transform leaves of a tree when the calls for `done`, and for none of `rest`, were made
and the last of them failed. The store was `s` and is `s'`. -/
structure LeftOver (t : Tree) (reverse : Bool) (n : Spot) (done rest : List Spot)
    (calls : List (Call σ)) (s s' : Store) : Prop where
  /-- What lies above the node whose call failed has its children, in the row it had. -/
  above : ∀ p ∈ t.postorder reverse, p.Above n → ∀ id row ts, p.tree = .branch id row ts →
    s'.HasChildren id row (ts.map Tree.item)
  /-- A result of no other calls than for children of what lies above is in no row of the tree
  in which it was not before. -/
  dropped : ∀ x, (∀ c ∈ calls, c.result = x →
      ∃ p ∈ t.postorder reverse, p.Above n ∧ c.place.parent = some p.tree.item) →
    ∀ id ∈ t.ids, ∀ row items, s'.HasChildren id row items → x ∈ items →
      s.HasChildren id row items
  /-- What was called for has a row with the results for its children. -/
  held : ∀ p ∈ done, ∀ id row ts, p.tree = .branch id row ts →
    ∃ row' items, s'.HasChildren id row' items ∧ HoldsResults calls id (ts.map Tree.item) items
  /-- What was not called for is as it was. -/
  untouched : ∀ p ∈ rest, ∀ id, p.tree.item = .node id → s'.node? id = s.node? id
  /-- What is no parent, or lies outside the tree, is as it was. -/
  others : ∀ id, s.Knows (.node id) → ¬ IsParent done id → s'.node? id = s.node? id
  /-- Nothing has changed in any node but its children. -/
  apart : ∀ id, s.Knows (.node id) →
    (s'.node? id).map NodeState.apart = (s.node? id).map NodeState.apart
  /-- No row has changed. -/
  row : ∀ row items, s.row? row = some items → s'.row? row = some items

/-- What comes behind the last call is not called for, as no node stands at two places. -/
theorem not_called_of_mem_rest {finished rest : List Spot} {n p : Spot} {id : NodeId}
    (horder : t.postorder reverse = finished ++ n :: rest) (hnodup : t.ids.Nodup)
    (hplaces : calls.map Call.place = (finished ++ [n]).map Spot.place) (hp : p ∈ rest)
    (hid : p.tree.item = .node id) : ¬ Called calls id := by
  rintro ⟨c, hc, hnode⟩
  have hmem : c.place ∈ (finished ++ [n]).map Spot.place := hplaces ▸ List.mem_map_of_mem hc
  obtain ⟨q, hq, hplace⟩ := List.mem_map.mp hmem
  refine Tree.ne_of_mem_rest horder hnodup hq hp ?_ hid
  rw [← hnode, ← hplace, Spot.place]

/-- A node of the tree without a new row is as it was. -/
theorem node?_of_not_rewritten {id : NodeId} (hrw : Rewrites (t.postorder reverse) s final calls)
    (hkeep : ∀ c ∈ calls, c.Keeps (fun _ => True) (fun _ => True))
    (hknows : s.store.Knows (.node id)) (hid : ¬ Rewritten (t.postorder reverse) calls id) :
    final.store.node? id = s.store.node? id := by
  obtain ⟨m, hm⟩ := hknows
  rw [hm, hrw.node?_of_keeps hid hkeep hm]

/-- A node of the tree without a new row has the row that it had. -/
theorem hasChildren_of_not_rewritten {id : NodeId} {row : RowId} {items : List Item}
    (hrw : Rewrites (t.postorder reverse) s final calls) (hstand : t.StandsIn s.store)
    (hkeep : ∀ c ∈ calls, c.Keeps (fun _ => True) (fun _ => True)) (hid : id ∈ t.ids)
    (hnot : ¬ Rewritten (t.postorder reverse) calls id)
    (hrow : final.store.HasChildren id row items) : s.store.HasChildren id row items := by
  obtain ⟨p, hp, hpid⟩ := Tree.exists_spot_of_mem_ids hid true reverse [] none
  have hstandp := hstand.of_mem_listing hp
  have hnode := node?_of_not_rewritten hrw hkeep (hpid ▸ hstandp.knows_item) hnot
  have hchild : s.store.childRow? (.node id) = some row := by
    rw [← Store.childRow?_congr hnode]
    exact hrow.1
  obtain ⟨items', hrow'⟩ := hstandp.row?_of_childRow? (hpid ▸ hchild)
  obtain ⟨-, rfl⟩ := Store.HasChildren.unique ⟨hrow.1, hrw.row?_of_keeps hkeep hrow'⟩ hrow
  exact ⟨hchild, hrow'⟩

/-- What is in a new row is the result of a call for a child of its node. -/
theorem exists_call_of_rewritten {id : NodeId} {row : RowId} {items : List Item} {x : Item}
    (hrw : Rewrites (t.postorder reverse) s final calls)
    (hid : Rewritten (t.postorder reverse) calls id)
    (hrow : final.store.HasChildren id row items) (hx : x ∈ items) :
    ∃ c ∈ calls, c.place.parent = some (.node id) ∧ c.result = x := by
  obtain ⟨⟨q, hq, row', ts, htree⟩, hcall⟩ := hid
  obtain ⟨row'', items', hrow', hres⟩ := hrw.held q hq id row' ts htree hcall
  obtain ⟨rfl, rfl⟩ := hrow'.unique hrow
  obtain ⟨i, hi⟩ := List.mem_iff_getElem?.mp hx
  obtain ⟨c, hc, -, hparent, hresult⟩ := (hres.result i x).mp hi
  exact ⟨c, hc, hparent, hresult⟩

/-- What a transform has left when it stops after the call for a node. -/
theorem leftOver_of_rewrites {finished rest : List Spot} {n : Spot}
    (hrw : Rewrites (t.postorder reverse) s final calls) (hstand : t.StandsIn s.store)
    (hnodup : t.ids.Nodup)
    (hkeep : ∀ c ∈ calls, c.Keeps (fun _ => True) (fun _ => True))
    (horder : t.postorder reverse = finished ++ n :: rest)
    (hplaces : calls.map Call.place = (finished ++ [n]).map Spot.place) :
    LeftOver t reverse n (finished ++ [n]) rest calls s.store final.store := by
  have hall : t.postorder reverse = finished ++ [n] ++ rest := by rw [horder, List.append_cons]
  have hrest : ∀ p ∈ rest, p ∈ t.postorder reverse := fun p hp => by
    rw [hall]
    exact List.mem_append_right _ hp
  -- what is not called for has no new row, and nothing else changes a node
  have hnot : ∀ p ∈ rest, ∀ id, p.tree.item = .node id → ¬ Called calls id := fun p hp id =>
    not_called_of_mem_rest horder hnodup hplaces hp
  have hsame : ∀ id, s.store.Knows (.node id) → ¬ Rewritten (t.postorder reverse) calls id →
      final.store.node? id = s.store.node? id := fun _ => node?_of_not_rewritten hrw hkeep
  have huntouched : ∀ p ∈ rest, ∀ id, p.tree.item = .node id →
      final.store.node? id = s.store.node? id := fun p hp id hid =>
    hsame id (hid ▸ (hstand.of_mem_listing (hrest p hp)).knows_item) fun h => hnot p hp id hid h.2
  have hrows : ∀ row items, s.store.row? row = some items → final.store.row? row = some items :=
    fun _ _ => hrw.row?_of_keeps hkeep
  refine ⟨fun p hp habove id row ts htree => ?_, fun x hx id hid row items hrow hmem => ?_,
    fun p hp id row ts htree => ?_, huntouched, fun id hid hnone => hsame id hid ?_,
    fun id hid => ?_, hrows⟩
  · have hchildren := (Tree.standsIn_branch.mp (htree ▸ hstand.of_mem_listing hp)).1
    refine ⟨?_, hrows row _ hchildren.2⟩
    rw [Store.childRow?_congr (huntouched p (Tree.mem_rest_of_above horder hp habove) id ?_)]
    · exact hchildren.1
    · rw [htree, Tree.item]
  · by_cases hcalled : Rewritten (t.postorder reverse) calls id
    · -- `id` would lie above `n`, and what lies above has not been called for
      obtain ⟨c, hc, hparent, hresult⟩ := exists_call_of_rewritten hrw hcalled hrow hmem
      obtain ⟨a, ha, habove, hitem⟩ := hx c hc hresult
      have haid : a.tree.item = .node id := Option.some.inj (hitem.symm.trans hparent)
      exact absurd hcalled.2 (hnot a (Tree.mem_rest_of_above horder ha habove) id haid)
    · exact hasChildren_of_not_rewritten hrw hstand hkeep hid hcalled hrow
  · refine hrw.held p ?_ id row ts htree (called_of_mem_done hplaces hp ?_)
    · rw [hall]
      exact List.mem_append_left _ hp
    · rw [htree, Tree.item]
  · rintro ⟨⟨p, hp, row, ts, htree⟩, hcall⟩
    rw [hall, List.mem_append] at hp
    rcases hp with hp | hp
    · exact hnone ⟨p, hp, row, ts, htree⟩
    · exact hnot p hp id (by rw [htree, Tree.item]) hcall
  · obtain ⟨m, hm⟩ := hid
    rw [hrw.apart_of_keeps hkeep hm, hm, Option.map_some]

/-- A transform ends with the first call that fails, and hands on its fault. The calls that it made
are for the occurrences in order up to one of them, `n`. What lies above `n` has its children still,
so a result of a call for one of these is given up; what was called for has the results for its
children; and everything else is as it was. -/
theorem transform_abandoned {c : Call σ} {e : Fault} (hlimit : t.height ≤ limit)
    (hstand : t.StandsIn s.store) (hnodup : t.ids.Nodup)
    (hrun : record (transform limit t.item (recorded callback) reverse) s = (result, final, calls))
    (hkeep : ∀ c ∈ calls, c.Keeps (fun _ => True) (fun _ => True)) (hc : c ∈ calls)
    (hfail : c.answer = .error e) :
    outcome (transform limit t.item callback reverse) s = (.error e, final) ∧
      ∃ finished n rest, t.postorder reverse = finished ++ n :: rest ∧
        calls.map Call.place = (finished ++ [n]).map Spot.place ∧
        calls.getLast? = some c ∧ c.place = n.place ∧
        LeftOver t reverse n (finished ++ [n]) rest calls s.store final.store := by
  have hchildren : ∀ c ∈ calls, c.KeepsChildren t.ids := fun c hc id _ =>
    (hkeep c hc).keepsChildrenAt trivial fun _ _ => trivial
  obtain ⟨hrw, d, hlast, rfl⟩ := rewrites_transform hlimit hstand hnodup hrun hchildren
  -- a call that fails ends the run, so it is the last one
  have hend := hrw.cut.getLast?_of_ends hc ⟨e, hfail⟩
  obtain rfl : d = c := Option.some.inj (hlast.symm.trans hend)
  have houtcome := outcome_of_record
    (transform_alike (recorded_alike callback) limit t.item reverse) hrun
  rw [hfail] at houtcome
  obtain ⟨finished, n, rest, horder, hplaces, hn⟩ := hrw.cut.exists_split hlast
  exact ⟨houtcome, finished, n, rest, horder, hplaces, hlast, hn,
    leftOver_of_rewrites hrw hstand hnodup hkeep horder hplaces⟩

/-- The first leaf is to become text, and the call for the second fails. -/
theorem transform_abandoned_sample :
    let callback := counting fun k _ =>
      if k < 2 then .ok (.plain (.text "new")) else .error .wrongType
    ∃ result final calls, record (transform 3 Tree.sample.item (recorded callback) false)
        ⟨Store.sample, [], 0⟩ = (result, final, calls) ∧
      ∃ c ∈ calls, c.answer = .error .wrongType ∧ ∃ finished n rest,
        Tree.sample.postorder false = finished ++ n :: rest ∧ c.place = n.place ∧
        LeftOver Tree.sample false n (finished ++ [n]) rest calls Store.sample final.store := by
  intro callback
  have hcalls := forall_mem_of_record
    (P := fun c => c.Keeps (fun _ => True) (fun _ => True)) callback
    (fun R h => ⟨_, transform_alike h 3 Tree.sample.item false⟩) (fun place s => .refl _)
    ⟨Store.sample, [], 0⟩
  -- the third call is the one that fails
  have hfails : ∃ c ∈ (record (transform 3 Tree.sample.item (recorded callback) false)
      ⟨Store.sample, [], 0⟩).2.2, c.answer = .error .wrongType :=
    ⟨_, List.mem_iff_getElem?.mpr ⟨2, rfl⟩, rfl⟩
  rcases hrun : record (transform 3 Tree.sample.item (recorded callback) false)
    ⟨Store.sample, [], 0⟩ with ⟨result, final, calls⟩
  rw [hrun] at hcalls hfails
  obtain ⟨c, hc, hfail⟩ := hfails
  obtain ⟨-, finished, n, rest, horder, -, -, hn, hleft⟩ := transform_abandoned (t := Tree.sample)
    (by decide) Tree.sample_standsIn (by decide) hrun hcalls hc hfail
  exact ⟨result, final, calls, rfl, c, hc, hfail, finished, n, rest, horder, hn, hleft⟩

end Walk

end NotebookTree

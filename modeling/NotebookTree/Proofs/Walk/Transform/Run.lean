import NotebookTree.Proofs.Walk.Transform.Rewrite

/-!
# The run of a transform

A transform rewrites every tree that stands in the store and in which no node stands twice
(`rewritesTree`). The induction is on the tree: a node reads the row of its children, goes through
them one after the other (`rewrites_mapM`), gets its new row and is called for (`finishNode`).

What carries the loop is that the children that wait for their turn share no node with those that
are done (`Apart`), so that they stand in the store still (`ready_tail`).
-/

namespace NotebookTree

variable {σ : Type}

namespace Walk

variable {callback : Callback σ} {reverse : Bool}

/-- The call for a node and what is made of its answer. -/
def answerFor (callback : Callback σ) (place : Place) : Walk σ Item := do
  let answer ← resolve (callback place.node place.index place.parent)
  return if (← getStore).isTruthy answer then answer else place.node

/-- The callback is called once, and its answer decides between itself and the node. -/
theorem record_answerFor (callback : Callback σ) (place : Place) (s : Scene σ) :
    record (answerFor (recorded callback) place) s =
      ((callOf callback place s).answer.map fun _ => (callOf callback place s).result,
        (callOf callback place s).after, [callOf callback place s]) := by
  have hcall := record_call callback place.node place.index place.parent s
  cases h : (callOf callback place s).answer with
  | error e =>
    rw [answerFor, record_bind_error (hcall.trans (by rw [h]))]
    rfl
  | ok i =>
    rw [answerFor, record_bind_ok (f := _) ?_ (hcall.trans (by rw [h])) rfl]
    · simp only [Call.result, h]
      rfl
    · exact fun _ => alike_bind alike_getStore fun _ => alike_pure _

/-- A node without children is transformed by one call. -/
theorem transformNode_childless {node : Item} {s : Scene σ} (h : s.store.childRow? node = none)
    (limit : Nat) (index : Option Nat) (parent : Option Item) :
    record (transformNode (recorded callback) reverse (limit + 1) node index parent) s =
      record (answerFor (recorded callback) ⟨node, index, parent⟩) s := by
  rw [transformNode, record_getStore_bind, h]
  rfl

/-- The transform of the child of a node with an index. -/
def transformChild (callback : Callback σ) (reverse : Bool) (limit : Nat) (id : NodeId)
    (row : RowId) (i : Nat) : Walk σ Item := do
  transformNode callback reverse limit (← itemAt row i) (some i) (some (.node id))

/-- What is left to do for a node when there are results for its children. -/
def finishNode (callback : Callback σ) (reverse : Bool) (place : Place) (results : List Item) :
    Walk σ Item := do
  setChildren place.node (if reverse then results.reverse else results)
  answerFor callback place

/-- A node with children is transformed after they are, each in its turn. -/
theorem transformNode_of_children {s : Scene σ} {id : NodeId} {row : RowId} {items : List Item}
    (h : s.store.HasChildren id row items) (limit : Nat) (index : Option Nat)
    (parent : Option Item) :
    record (transformNode (recorded callback) reverse (limit + 1) (.node id) index parent) s =
      record ((places items.length reverse).mapM
          (transformChild (recorded callback) reverse limit id row) >>=
        finishNode (recorded callback) reverse ⟨.node id, index, parent⟩) s := by
  rw [transformNode, record_getStore_bind, h.1, ← h.rowItems]
  rfl

/-- Asking for an answer only adds calls to the record. -/
theorem recording_answerFor (callback : Callback σ) (place : Place) :
    Recording (answerFor (recorded callback) place) := fun noted =>
  alike_bind (recorded_recording callback noted _ _ _) fun _ =>
    alike_bind alike_getStore fun _ => alike_pure _

/-- Ending with a node only adds calls to the record. -/
theorem recording_finishNode (callback : Callback σ) (reverse : Bool) (place : Place)
    (results : List Item) : Recording (finishNode (recorded callback) reverse place results) :=
  fun noted => alike_bind (alike_changeStore _) fun _ => recording_answerFor callback place noted

/-- The node gets its new children and is called back then. -/
theorem record_finishNode (callback : Callback σ) (reverse : Bool) (id : NodeId)
    (index : Option Nat) (parent : Option Item) (results : List Item) (s : Scene σ) :
    record (finishNode (recorded callback) reverse ⟨.node id, index, parent⟩ results) s =
      record (answerFor (recorded callback) ⟨.node id, index, parent⟩)
        (s.withChildren id (if reverse then results.reverse else results)) := rfl

/-- Transforming a node only adds calls to the record. -/
theorem recording_transformNode (callback : Callback σ) (reverse : Bool) (limit : Nat) (node : Item)
    (index : Option Nat) (parent : Option Item) :
    Recording (transformNode (recorded callback) reverse limit node index parent) := fun noted =>
  transformNode_alike (recorded_recording callback noted) reverse limit node index parent

/-- Transforming a child only adds calls to the record. -/
theorem recording_transformChild (callback : Callback σ) (reverse : Bool) (limit : Nat)
    (id : NodeId) (row : RowId) (i : Nat) :
    Recording (transformChild (recorded callback) reverse limit id row i) := fun noted =>
  alike_bind (alike_itemAt row i) fun _ =>
    recording_transformNode callback reverse limit _ _ _ noted

/-- The transform of a tree, wherever it stands, rewrites it, and its result is that of its last
call. The nodes in `K` are those that calls are known to leave their children. -/
def RewritesTree (callback : Callback σ) (reverse : Bool) (K : List NodeId) (t : Tree) : Prop :=
  ∀ (limit : Nat) (path : List Nat) (parent : Option Item) (s s' : Scene σ) (r : Except Fault Item)
    (calls : List (Call σ)), t.height ≤ limit → t.StandsIn s.store → t.ids.Nodup → t.ids ⊆ K →
    (∀ id ∈ t.ids, parent ≠ some (.node id)) →
    record (transformNode (recorded callback) reverse limit t.item path.getLast? parent) s =
      (r, s', calls) →
    (∀ c ∈ calls, c.KeepsChildren K) →
    Rewrites (t.listing true reverse path parent) s s' calls ∧
      ∃ c, calls.getLast? = some c ∧ r = c.answer.map fun _ => c.result

/-- A leaf is rewritten by one call. -/
theorem rewritesTree_leaf (i : Item) (K : List NodeId) :
    RewritesTree callback reverse K (.leaf i) := by
  intro limit path parent s s' r calls hlimit hstand _ _ _ hrun _
  obtain ⟨limit, rfl⟩ := Tree.exists_limit hlimit
  rw [Tree.item, transformNode_childless hstand.2, record_answerFor] at hrun
  obtain ⟨rfl, rfl, rfl⟩ := by simpa only [Prod.mk.injEq] using hrun
  have hleaf := Rewrites.leaf (p := ⟨path, .leaf i, parent⟩)
    (c := callOf callback ⟨i, path.getLast?, parent⟩ s) rfl rfl
  exact ⟨hleaf, _, rfl, rfl⟩

/-- When a tree below a node is done, one call in it is for a child of the node: its last. -/
theorem last_of_done {t : Tree} {path : List Nat} {id : NodeId} {s s' : Scene σ}
    {calls : List (Call σ)} {c : Call σ}
    (h : Rewrites (t.listing true reverse path (some (.node id))) s s' calls) (hid : id ∉ t.ids)
    (hgo : ∀ c ∈ calls, ¬ c.Fails) (hlast : calls.getLast? = some c) :
    c.place = ⟨t.item, path.getLast?, some (.node id)⟩ ∧
      ∀ d ∈ calls, d.place.parent = some (.node id) → d = c := by
  obtain ⟨below, hlisting, hbelow⟩ := t.listing_last reverse path (some (.node id))
  have hplaces := h.cut.whole hgo
  rw [hlisting, List.map_append, List.map_singleton] at hplaces
  obtain ⟨before, last, rfl, hbefore, hl⟩ := List.map_eq_append_iff.mp hplaces
  obtain ⟨d, rfl, hd⟩ := List.map_eq_singleton_iff.mp hl
  obtain rfl : d = c := by simpa using hlast
  refine ⟨hd, fun e he hparent => ?_⟩
  rcases List.mem_append.mp he with he | he
  · -- calls below the root are for children of nodes of the tree
    have hmem : e.place ∈ below.map Spot.place := hbefore ▸ List.mem_map_of_mem he
    obtain ⟨p, hp, hplace⟩ := List.mem_map.mp hmem
    obtain ⟨other, hother, hpp⟩ := hbelow p hp
    rw [← hplace] at hparent
    obtain rfl : other = id := by
      have := hpp.symm.trans hparent
      simpa using this
    exact absurd hother hid
  · exact List.mem_singleton.mp he

/-- How the loop through the children of a node ends: with a call that failed, or with the results
of the calls for the children. -/
structure LoopEnds (id : NodeId) (children : List Item) (indices : List Nat)
    (r : Except Fault (List Item)) (calls : List (Call σ)) : Prop where
  failed : ∀ e, r = .error e → ∃ c, calls.getLast? = some c ∧ c.answer = .error e
  returns : ∀ xs, r = .ok xs → ∀ c ∈ calls, ¬ c.Fails
  length : ∀ xs, r = .ok xs → xs.length = indices.length
  node : ∀ xs, r = .ok xs → ∀ c ∈ calls, ∀ i x, c.Gives id i x → children[i]? = some c.place.node
  result : ∀ xs, r = .ok xs → ∀ i x, (i, x) ∈ indices.zip xs ↔ ∃ c ∈ calls, c.Gives id i x

namespace LoopEnds

variable {id : NodeId} {children : List Item} {index : Nat} {indices : List Nat}
  {calls more : List (Call σ)} {c : Call σ}

/-- The loop over no children ends at once. -/
theorem nil : LoopEnds id children [] (.ok []) ([] : List (Call σ)) where
  failed _ he := by cases he
  returns _ _ _ hc := absurd hc List.not_mem_nil
  length xs hxs := by
    rw [← Except.ok.inj hxs]
    rfl
  node _ _ _ hc := absurd hc List.not_mem_nil
  result xs hxs i x := by
    rw [← Except.ok.inj hxs]
    simp

/-- The loop ends with the fault of its last call. -/
theorem of_failed {e : Fault} (hlast : calls.getLast? = some c) (hfail : c.answer = .error e) :
    LoopEnds id children indices (.error e) calls where
  failed _ hf := ⟨c, hlast, by rw [hfail, Except.error.inj hf]⟩
  returns _ hxs := by cases hxs
  length _ hxs := by cases hxs
  node _ hxs := by cases hxs
  result _ hxs := by cases hxs

/-- A loop ends as its rest does when the first child is done. -/
theorem cons {r : Except Fault (List Item)} {node : Item} (h : LoopEnds id children indices r more)
    (hgo : ∀ c ∈ calls, ¬ c.Fails) (hc : c ∈ calls)
    (hplace : c.place = ⟨node, some index, some (.node id)⟩)
    (honly : ∀ d ∈ calls, d.place.parent = some (.node id) → d = c)
    (hitem : children[index]? = some node) :
    LoopEnds id children (index :: indices) (r.map (c.result :: ·)) (calls ++ more) := by
  -- of the calls for this child only the one for its root has the node for its parent
  have hgives : ∀ i x, (∃ d ∈ calls, d.Gives id i x) ↔ i = index ∧ x = c.result := by
    intro i x
    constructor
    · rintro ⟨d, hd, hindex, hparent, rfl⟩
      obtain rfl := honly d hd hparent
      rw [hplace] at hindex
      exact ⟨(Option.some.inj hindex).symm, rfl⟩
    · rintro ⟨rfl, rfl⟩
      exact ⟨c, hc, by rw [hplace], by rw [hplace], rfl⟩
  cases r with
  | error e =>
    obtain ⟨d, hd, hfail⟩ := h.failed e rfl
    exact of_failed (e := e) (by rw [List.getLast?_append, hd, Option.some_or]) hfail
  | ok xs =>
    have hall : ∀ ys, (Except.ok xs : Except Fault _).map (c.result :: ·) = .ok ys →
        c.result :: xs = ys := fun ys hys => Except.ok.inj hys
    refine ⟨fun _ he => (by cases he), fun _ _ d hd => ?_, fun ys hys => ?_,
      fun _ _ d hd i x hg => ?_, fun ys hys i x => ?_⟩
    · exact (List.mem_append.mp hd).elim (hgo d) (h.returns xs rfl d)
    · rw [← hall ys hys, List.length_cons, List.length_cons, h.length xs rfl]
    · rcases List.mem_append.mp hd with hd | hd
      · obtain ⟨rfl, -⟩ := (hgives i x).mp ⟨d, hd, hg⟩
        obtain rfl := honly d hd hg.2.1
        rw [hitem, hplace]
      · exact h.node xs rfl d hd i x hg
    · rw [← hall ys hys, List.zip_cons_cons, List.mem_cons, h.result xs rfl, Prod.mk.injEq,
        ← hgives]
      simp only [List.mem_append, or_and_right, exists_or]

end LoopEnds

/-- Children of a node share no node with each other or with the node. -/
structure Apart (id : NodeId) (ks : List (Tree × Nat)) : Prop where
  root : id ∉ ks.flatMap fun k => k.1.ids
  nodup : (ks.flatMap fun k => k.1.ids).Nodup

namespace Apart

variable {id : NodeId} {k : Tree × Nat} {ks : List (Tree × Nat)}

/-- The children of a branch with distinct nodes are apart from it and from each other. -/
theorem of_branch {row : RowId} {ts : List Tree} (reverse : Bool)
    (h : (Tree.branch id row ts).ids.Nodup) : Apart id (Tree.inOrder reverse ts.zipIdx) := by
  rw [Tree.ids, List.nodup_cons] at h
  have hperm := Tree.flatMap_inOrder_perm reverse ts
  exact ⟨fun hid => h.1 (hperm.mem_iff.mp hid), hperm.nodup_iff.mpr h.2⟩

/-- The root is in none of the children. -/
theorem root_cons (h : Apart id (k :: ks)) :
    id ∉ k.1.ids ∧ id ∉ ks.flatMap fun k => k.1.ids := by
  have hroot := h.root
  rw [List.flatMap_cons, List.mem_append] at hroot
  exact not_or.mp hroot

/-- The first child has distinct nodes. -/
theorem head (h : Apart id (k :: ks)) : k.1.ids.Nodup := by
  have hnodup := h.nodup
  rw [List.flatMap_cons, List.nodup_append] at hnodup
  exact hnodup.1

/-- The other children are apart from the root and from each other. -/
theorem tail (h : Apart id (k :: ks)) : Apart id ks := by
  have hnodup := h.nodup
  rw [List.flatMap_cons, List.nodup_append] at hnodup
  exact ⟨h.root_cons.2, hnodup.2.1⟩

/-- The nodes of the first child are in none of the others. -/
theorem disjoint (h : Apart id (k :: ks)) :
    ∀ x ∈ k.1.ids, x ∉ ks.flatMap fun k => k.1.ids := by
  intro x hx hx'
  have hnodup := h.nodup
  rw [List.flatMap_cons, List.nodup_append] at hnodup
  exact hnodup.2.2 x hx x hx' rfl

end Apart

/-- The places below a node are within its children. -/
theorem within_spotsBelow (reverse : Bool) (path : List Nat) (id : NodeId)
    (ks : List (Tree × Nat)) :
    Within (ks.flatMap fun k => k.1.ids) (some (.node id))
      (Tree.spotsBelow true reverse path id ks) :=
  .flatMap fun k _ => k.1.within_listing true reverse (path ++ [k.2]) (some (.node id))

section Children

variable {K : List NodeId} {limit : Nat} {id : NodeId} {row : RowId} {items : List Item}
  {path : List Nat} {k : Tree × Nat} {ks : List (Tree × Nat)} {s s' s'' : Scene σ}
  {calls more : List (Call σ)}

/-- A child is taken from the row and transformed at its place. -/
theorem record_transformChild (hready : Ready K limit id row items (k :: ks) s.store) :
    record (transformChild (recorded callback) reverse limit id row k.2) s =
      record (transformNode (recorded callback) reverse limit k.1.item (some k.2)
        (some (.node id))) s := by
  rw [transformChild, record_itemAt_bind hready.children.2 (hready.item k List.mem_cons_self)]

/-- The transform of the first child rewrites it. -/
theorem rewrites_child {r : Except Fault Item} (path : List Nat)
    (htree : RewritesTree callback reverse K k.1)
    (hready : Ready K limit id row items (k :: ks) s.store) (hapart : Apart id (k :: ks))
    (hrun : record (transformChild (recorded callback) reverse limit id row k.2) s =
      (r, s', calls)) (hkeep : ∀ c ∈ calls, c.KeepsChildren K) :
    Rewrites (k.1.listing true reverse (path ++ [k.2]) (some (.node id))) s s' calls ∧
      ∃ c, calls.getLast? = some c ∧ r = c.answer.map fun _ => c.result := by
  have hk : k ∈ k :: ks := List.mem_cons_self
  rw [record_transformChild hready] at hrun
  refine htree limit (path ++ [k.2]) (some (.node id)) s s' r calls (hready.height k hk)
    (hready.stands k hk) hapart.head (hready.ids k hk) (fun x hx heq => ?_) ?_ hkeep
  · obtain rfl : id = x := by simpa using heq
    exact hapart.root_cons.1 hx
  · rw [List.getLast?_concat, hrun]

/-- When the first child is done, the others are ready: what lies outside the child is as it was. -/
theorem ready_tail (hready : Ready K limit id row items (k :: ks) s.store)
    (hapart : Apart id (k :: ks))
    (hrw : Rewrites (k.1.listing true reverse (path ++ [k.2]) (some (.node id))) s s' calls)
    (hkeep : ∀ c ∈ calls, c.KeepsChildren K) : Ready K limit id row items ks s'.store := by
  have hframe : ∀ y ∈ K, y ∉ k.1.ids → s.store.KeepsChildrenAt y s'.store := fun y hy hout =>
    hrw.keepsChildrenAt
      (fun h => hout (hrw.mem_of_rewritten (k.1.within_listing true reverse _ _) h))
      fun c hc => hkeep c hc y hy
  refine hready.tail (hframe id hready.known hapart.root_cons.1) fun k' hk' y hy => ?_
  refine hframe y (hready.ids k' (List.mem_cons_of_mem _ hk') hy) fun hy' => ?_
  exact hapart.disjoint y hy' (List.mem_flatMap.mpr ⟨k', hk', hy⟩)

/-- The first child is done with a result, and the others behind it. -/
theorem rewrites_children {r : Except Fault (List Item)} {c : Call σ}
    (hitem : items[k.2]? = some k.1.item) (hapart : Apart id (k :: ks))
    (hrw : Rewrites (k.1.listing true reverse (path ++ [k.2]) (some (.node id))) s s' calls)
    (hlast : calls.getLast? = some c) (hreturns : ¬ c.Fails)
    (hrws : Rewrites (Tree.spotsBelow true reverse path id ks) s' s'' more)
    (hends : LoopEnds id items (ks.map Prod.snd) r more)
    (hkeep : ∀ c ∈ more, c.KeepsChildren k.1.ids) :
    Rewrites (Tree.spotsBelow true reverse path id (k :: ks)) s s'' (calls ++ more) ∧
      LoopEnds id items ((k :: ks).map Prod.snd) (r.map (c.result :: ·)) (calls ++ more) := by
  -- the last call of a child is that for the child itself, so if it returns, all before it did
  have hgo : ∀ d ∈ calls, ¬ d.Fails := hrw.cut.forall_of_getLast? hlast hreturns
  obtain ⟨hplace, honly⟩ := last_of_done hrw hapart.root_cons.1 hgo hlast
  rw [List.getLast?_concat] at hplace
  rw [Tree.spotsBelow, List.flatMap_cons]
  refine ⟨hrw.append hrws hgo (k.1.within_listing true reverse _ _)
    (within_spotsBelow reverse path id ks) hapart.disjoint (fun x hx heq => ?_) hkeep, ?_⟩
  · obtain rfl : id = x := by simpa using heq
    exact hx.elim hapart.root_cons.1 hapart.root_cons.2
  · exact hends.cons hgo (List.mem_of_getLast? hlast) hplace honly hitem

/-- The loop through the children of a node rewrites one child after the other. -/
theorem rewrites_mapM {r : Except Fault (List Item)} (path : List Nat)
    (htree : ∀ k ∈ ks, RewritesTree callback reverse K k.1)
    (hready : Ready K limit id row items ks s.store) (hapart : Apart id ks)
    (hrun : record ((ks.map Prod.snd).mapM
      (transformChild (recorded callback) reverse limit id row)) s = (r, s', calls))
    (hkeep : ∀ c ∈ calls, c.KeepsChildren K) :
    Rewrites (Tree.spotsBelow true reverse path id ks) s s' calls ∧
      LoopEnds id items (ks.map Prod.snd) r calls := by
  induction ks generalizing s r calls with
  | nil =>
    obtain ⟨rfl, rfl, rfl⟩ : _ ∧ _ ∧ _ := by
      simpa only [List.map_nil, List.mapM_nil, record_pure, Prod.mk.injEq] using hrun
    exact ⟨.nil s, .nil⟩
  | cons k ks ih =>
    have hk : k ∈ k :: ks := List.mem_cons_self
    obtain ⟨e, hchild, rfl⟩ | ⟨x, r₂, s₁, calls₁, calls₂, hchild, hrest, rfl, rfl⟩ :=
      record_mapM_cases (recording_transformChild callback reverse limit id row) hrun
    · -- the loop ends with the first child, and nothing is done for the others
      obtain ⟨hrw, c, hc, hr⟩ := rewrites_child path (htree k hk) hready hapart hchild hkeep
      have hfail : c.answer = .error e := Call.answer_of_map_error hr
      refine ⟨?_, .of_failed hc hfail⟩
      rw [Tree.spotsBelow, List.flatMap_cons]
      exact hrw.append_of_fails (List.mem_of_getLast? hc) ⟨e, hfail⟩
        (k.1.within_listing true reverse _ _) (within_spotsBelow reverse path id ks)
        hapart.disjoint
    · have hkeep₁ : ∀ c ∈ calls₁, c.KeepsChildren K := fun c hc =>
        hkeep c (List.mem_append_left _ hc)
      have hkeep₂ : ∀ c ∈ calls₂, c.KeepsChildren K := fun c hc =>
        hkeep c (List.mem_append_right _ hc)
      -- `x` is the result of the last call for the first child, as no call of it failed
      obtain ⟨hrw, c, hc, hr⟩ := rewrites_child path (htree k hk) hready hapart hchild hkeep₁
      obtain ⟨hreturns, rfl⟩ := Call.returns_of_map_ok hr
      obtain ⟨hrws, hends⟩ := ih (fun k' hk' => htree k' (List.mem_cons_of_mem _ hk'))
        (ready_tail hready hapart hrw hkeep₁) hapart.tail hrest hkeep₂
      exact rewrites_children (hready.item k hk) hapart hrw hc hreturns hrws hends
        fun d hd y hy => hkeep₂ d hd y (hready.ids k hk hy)

/-- The results that the loop ends with are the row of the node, once they are in order. -/
theorem LoopEnds.holdsResults {ts : List Tree} {xs : List Item}
    (h : LoopEnds id (ts.map Tree.item) ((Tree.inOrder reverse ts.zipIdx).map Prod.snd) (.ok xs)
      calls) :
    HoldsResults calls id (ts.map Tree.item) (if reverse then xs.reverse else xs) := by
  have hlength : xs.length = ts.length := by
    rw [h.length xs rfl, ← Tree.places_eq, length_places]
  refine ⟨?_, h.node xs rfl, fun i x => ?_⟩
  · rw [List.length_map, ← hlength]
    split
    · exact List.length_reverse
    · rfl
  · rw [← h.result xs rfl, ← Tree.places_eq, Tree.mem_zip_places hlength]

/-- A branch is rewritten when its children are. -/
theorem rewritesTree_branch {ts : List Tree}
    (htree : ∀ t ∈ ts, RewritesTree callback reverse K t) :
    RewritesTree callback reverse K (.branch id row ts) := by
  intro limit path parent s s' r calls hlimit hstand hnodup hsub hparent hrun hkeep
  obtain ⟨limit, rfl⟩ := Tree.exists_limit hlimit
  have hready : Ready K limit id row (ts.map Tree.item) (Tree.inOrder reverse ts.zipIdx) s.store :=
    .of_branch reverse hstand hsub hlimit
  have hapart := Apart.of_branch reverse hnodup
  rw [Tree.item, transformNode_of_children hready.children, List.length_map, Tree.places_eq] at hrun
  have hbelow : ∀ k ∈ Tree.inOrder reverse ts.zipIdx, RewritesTree callback reverse K k.1 :=
    fun k hk => htree k.1 (List.fst_mem_of_mem_zipIdx (Tree.mem_inOrder.mp hk))
  have hin := within_spotsBelow reverse path id (Tree.inOrder reverse ts.zipIdx)
  rw [Tree.listing_branch_last]
  obtain ⟨e, hloop, rfl⟩ | ⟨xs, s₁, calls₁, more, hloop, hown, rfl⟩ :=
    record_bind_cases (recording_finishNode callback reverse ⟨.node id, path.getLast?, parent⟩) hrun
  · -- a call below failed: the node has its old row still, and is not called for
    obtain ⟨hrw, hends⟩ := rewrites_mapM path hbelow hready hapart hloop hkeep
    obtain ⟨c, hc, hfail⟩ := hends.failed e rfl
    refine ⟨hrw.append_of_fails (List.mem_of_getLast? hc) ⟨e, hfail⟩ hin
      (Within.single ⟨path, .branch id row ts, parent⟩ rfl) fun x hx hx' => ?_, c, hc, ?_⟩
    · exact hapart.root (List.mem_singleton.mp hx' ▸ hx)
    · rw [hfail]
      rfl
  · rw [record_finishNode, record_answerFor] at hown
    cases hown
    have hkeep₁ : ∀ c ∈ calls₁, c.KeepsChildren K := fun c hc =>
      hkeep c (List.mem_append_left _ hc)
    obtain ⟨hrw, hends⟩ := rewrites_mapM path hbelow hready hapart hloop hkeep₁
    -- the node is there to get its row, as nothing below it is the node
    have hknow : s₁.store.Knows (.node id) := by
      refine (hrw.keepsChildrenAt ?_ fun c hc => hkeep₁ c hc id hready.known).knows
        hready.children.knows
      exact fun h => hapart.root (hrw.mem_of_rewritten hin h)
    have hids : ∀ x ∈ id :: (Tree.inOrder reverse ts.zipIdx).flatMap (fun k => k.1.ids),
        x ∈ (Tree.branch id row ts).ids := fun x hx => by
      rw [Tree.ids]
      exact List.mem_cons.mpr
        ((List.mem_cons.mp hx).imp_right (Tree.flatMap_inOrder_perm reverse ts).mem_iff.mp)
    refine ⟨?_, _, List.getLast?_concat, rfl⟩
    exact hrw.branch (p := ⟨path, .branch id row ts, parent⟩) rfl (hends.returns xs rfl) hin
      hapart.root hends.holdsResults hknow rfl rfl (fun x hx => hparent x (hids x hx))
      fun x hx => hkeep _ (by simp) x (hsub (hids x hx))

end Children

/-- A transform rewrites every tree that stands in the store and in which no node stands twice. -/
theorem rewritesTree (callback : Callback σ) (reverse : Bool) (K : List NodeId) (t : Tree) :
    RewritesTree callback reverse K t := by
  induction t with
  | leaf i => exact rewritesTree_leaf i K
  | branch id row ts ih => exact rewritesTree_branch ih

end Walk

end NotebookTree

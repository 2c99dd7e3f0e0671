import NotebookTree.Proofs.Walk.Record

/-!
# What a transform has done

What a transform does to a tree in which no node stands twice. A node gets its row of results when
all calls below it have returned, and right before its own call; so at any time the nodes with new
rows are those for which a call has been made, and everything else is as it was but for what the
calls themselves did.

`Rewrites` says this of the occurrences in a list, of the scenes before and behind, and of the calls
made between. It holds of a leaf (`Rewrites.leaf`), of one list of occurrences behind another
(`Rewrites.append`), and of a branch behind what lies below it (`Rewrites.branch`). A call that
fails ends the walk, and `Rewrites` then holds with the calls so far (`Rewrites.append_of_fails`).

## Main definitions

* `MovesChildren`: what a transform may do between two calls.
* `HoldsResults`: a row holds what calls for the children of a node resulted in.
* `Rewrites`: what a transform has done after some calls.
-/

namespace NotebookTree

variable {σ : Type}

/-- Between two calls, no more happens than that nodes of a set get other rows of children. -/
structure MovesChildren (D : NodeId → Prop) (s s' : Scene σ) : Prop where
  log : s'.log = s.log
  own : s'.own = s.own
  store : s.store.ChangesOnlyChildren D s'.store

namespace MovesChildren

variable {D D' : NodeId → Prop} {s s' s'' : Scene σ}

/-- Nothing moves no children. -/
theorem refl (s : Scene σ) : MovesChildren D s s := ⟨rfl, rfl, .refl _⟩

/-- Moves of children one after the other are a move. -/
theorem trans (h : MovesChildren D s s') (h' : MovesChildren D s' s'') : MovesChildren D s s'' :=
  ⟨h'.log.trans h.log, h'.own.trans h.own, h.store.trans h'.store⟩

/-- The set of the nodes whose children may move can be taken larger. -/
theorem mono (h : MovesChildren D s s') (hD : ∀ id, D id → D' id) : MovesChildren D' s s' :=
  ⟨h.log, h.own, h.store.mono hD⟩

end MovesChildren

/-- A scene in which a node has a new row of children. -/
def Scene.withChildren (s : Scene σ) (id : NodeId) (items : List Item) : Scene σ :=
  { s with store := s.store.withChildren id items }

/-- The call is for the child of a node with an index, and this is what it results in. -/
def Call.Gives (c : Call σ) (id : NodeId) (i : Nat) (x : Item) : Prop :=
  c.place.index = some i ∧ c.place.parent = some (.node id) ∧ c.result = x

/-- Items are what the calls for the children of a node result in, each at the index of the
child. -/
structure HoldsResults (calls : List (Call σ)) (id : NodeId) (children items : List Item) : Prop
    where
  length : items.length = children.length
  node : ∀ c ∈ calls, ∀ i x, c.Gives id i x → children[i]? = some c.place.node
  result : ∀ i x, items[i]? = some x ↔ ∃ c ∈ calls, c.Gives id i x

/-- A call has been made for a node. -/
def Called (calls : List (Call σ)) (id : NodeId) : Prop := ∃ c ∈ calls, c.place.node = .node id

/-- A node with children is among some occurrences. -/
def IsParent (spots : List Spot) (id : NodeId) : Prop :=
  ∃ p ∈ spots, ∃ row ts, p.tree = .branch id row ts

/-- A node with children is among some occurrences, and a call has been made for it. -/
def Rewritten (spots : List Spot) (calls : List (Call σ)) (id : NodeId) : Prop :=
  IsParent spots id ∧ Called calls id

/-- The calls lead from one scene to the other by a transform of some occurrences: they are made for
the occurrences in order up to the first that fails, nothing but rows of children changes between
them, and every node with children that was called for has a row with the results. -/
structure Rewrites (spots : List Spot) (s s' : Scene σ) (calls : List (Call σ)) : Prop where
  cut : CutAt Call.Fails (spots.map Spot.place) calls
  chained : Chained (MovesChildren (Rewritten spots calls)) s calls s'
  held : ∀ p ∈ spots, ∀ id row ts, p.tree = .branch id row ts → Called calls id →
    ∃ row' items, s'.store.HasChildren id row' items ∧
      HoldsResults calls id (ts.map Tree.item) items

/-- Occurrences of the nodes in a list, each below one of them or below a given parent. -/
structure Within (ids : List NodeId) (parent : Option Item) (spots : List Spot) : Prop where
  node : ∀ p ∈ spots, ∀ id, p.tree.item = .node id → id ∈ ids
  parent : ∀ p ∈ spots, p.parent = parent ∨ ∃ id ∈ ids, p.parent = some (.node id)

/-- The places of a tree are within it, but for the parent. -/
theorem Tree.within_listing (last reverse : Bool) (path : List Nat) (parent : Option Item)
    (t : Tree) : Within t.ids parent (t.listing last reverse path parent) where
  node _ hp _ hid := mem_ids_of_mem_listing hp hid
  parent p hp := by
    rcases parent_of_mem_listing hp with rfl | h
    · exact .inl rfl
    · exact .inr h

/-- One place is within its node. -/
theorem Within.single {id : NodeId} (p : Spot) (hp : p.tree.item = .node id) :
    Within [id] p.parent [p] where
  node q hq other hother := by
    rw [List.mem_singleton.mp hq, hp] at hother
    rw [Item.node.inj hother]
    exact List.mem_singleton_self other
  parent q hq := .inl (by rw [List.mem_singleton.mp hq])

/-- The places of trees are within them together. -/
theorem Within.flatMap {ks : List (Tree × Nat)} {parent : Option Item}
    {spots : Tree × Nat → List Spot} (h : ∀ k ∈ ks, Within k.1.ids parent (spots k)) :
    Within (ks.flatMap fun k => k.1.ids) parent (ks.flatMap spots) where
  node p hp id hid := by
    obtain ⟨k, hk, hp⟩ := List.mem_flatMap.mp hp
    exact List.mem_flatMap.mpr ⟨k, hk, (h k hk).node p hp id hid⟩
  parent p hp := by
    obtain ⟨k, hk, hp⟩ := List.mem_flatMap.mp hp
    rcases (h k hk).parent p hp with h | ⟨id, hid, h⟩
    · exact .inl h
    · exact .inr ⟨id, List.mem_flatMap.mpr ⟨k, hk, hid⟩, h⟩

/-- Calls that are for no child of a node do not count for its row. -/
theorem HoldsResults.of_subset {calls more : List (Call σ)} {id : NodeId}
    {children items : List Item} (h : HoldsResults calls id children items)
    (hsub : ∀ c ∈ calls, c ∈ more)
    (hnot : ∀ c ∈ more, c ∉ calls → ∀ i x, ¬ c.Gives id i x) :
    HoldsResults more id children items where
  length := h.length
  node c hc i x hg := by
    by_cases hmem : c ∈ calls
    · exact h.node c hmem i x hg
    · exact absurd hg (hnot c hc hmem i x)
  result i x := by
    rw [h.result i x]
    constructor
    · rintro ⟨c, hc, hg⟩
      exact ⟨c, hsub c hc, hg⟩
    rintro ⟨c, hc, hg⟩
    by_cases hmem : c ∈ calls
    · exact ⟨c, hmem, hg⟩
    · exact absurd hg (hnot c hc hmem i x)

/-- A call that is not among the later ones is among the earlier ones. -/
theorem Called.resolve_right {calls calls' : List (Call σ)} {id : NodeId}
    (h : Called (calls ++ calls') id) (hnot : ¬ Called calls' id) : Called calls id := by
  obtain ⟨c, hc, hnode⟩ := h
  exact ⟨c, (List.mem_append.mp hc).resolve_right fun hc => hnot ⟨c, hc, hnode⟩, hnode⟩

/-- A call that is not among the earlier ones is among the later ones. -/
theorem Called.resolve_left {calls calls' : List (Call σ)} {id : NodeId}
    (h : Called (calls ++ calls') id) (hnot : ¬ Called calls id) : Called calls' id := by
  obtain ⟨c, hc, hnode⟩ := h
  exact ⟨c, (List.mem_append.mp hc).resolve_left fun hc => hnot ⟨c, hc, hnode⟩, hnode⟩

/-- A node that is rewritten by some calls is so by more. -/
theorem Rewritten.mono {spots more : List Spot} {calls calls' : List (Call σ)} {id : NodeId}
    (h : Rewritten spots calls id) (hs : ∀ p ∈ spots, p ∈ more) (hc : ∀ c ∈ calls, c ∈ calls') :
    Rewritten more calls' id := by
  obtain ⟨⟨p, hp, htree⟩, c, hcall, hnode⟩ := h
  exact ⟨⟨p, hs p hp, htree⟩, c, hc c hcall, hnode⟩

namespace Rewrites

variable {spots more : List Spot} {s s' s'' : Scene σ} {calls calls' : List (Call σ)}
  {ids ids' : List NodeId} {parent : Option Item} {id : NodeId}

/-- A call is made for one of the occurrences. -/
theorem exists_spot (h : Rewrites spots s s' calls) {c : Call σ} (hc : c ∈ calls) :
    ∃ p ∈ spots, p.place = c.place :=
  List.mem_map.mp (h.cut.place_mem hc)

/-- A node that is called back is one of the tree. -/
theorem mem_of_called (h : Rewrites spots s s' calls) (hin : Within ids parent spots)
    (hid : Called calls id) : id ∈ ids := by
  obtain ⟨c, hc, hnode⟩ := hid
  obtain ⟨p, hp, hplace⟩ := h.exists_spot hc
  refine hin.node p hp id ?_
  rw [← hnode, ← hplace]
  rfl

/-- A node that is rewritten is one of the tree. -/
theorem mem_of_rewritten (h : Rewrites spots s s' calls) (hin : Within ids parent spots)
    (hid : Rewritten spots calls id) : id ∈ ids :=
  h.mem_of_called hin hid.2

/-- A node that has no new row keeps its children, if the calls keep them. -/
theorem keepsChildrenAt (h : Rewrites spots s s' calls) (hid : ¬ Rewritten spots calls id)
    (hkeep : ∀ c ∈ calls, c.before.store.KeepsChildrenAt id c.after.store) :
    s.store.KeepsChildrenAt id s'.store :=
  h.chained.rel (fun _ _ _ => Store.KeepsChildrenAt.trans)
    (fun _ _ hmove => hmove.store.keepsChildrenAt hid) hkeep

/-- A node that has no new row is as it was, if the calls change no node. -/
theorem node?_of_keeps (h : Rewrites spots s s' calls) (hid : ¬ Rewritten spots calls id)
    (hkeep : ∀ c ∈ calls, c.Keeps (fun _ => True) (fun _ => True)) {n : NodeState}
    (hn : s.store.node? id = some n) : s'.store.node? id = some n :=
  h.chained.stays (f := fun a => a.node? id)
    (fun _ _ hmove _ hm => (hmove.store.node id hid).trans hm)
    (fun c hc => (hkeep c hc).node id trivial) hn

/-- Nothing changes in a node but its children, if the calls change no node. -/
theorem apart_of_keeps (h : Rewrites spots s s' calls)
    (hkeep : ∀ c ∈ calls, c.Keeps (fun _ => True) (fun _ => True)) {n : NodeState}
    (hn : s.store.node? id = some n) :
    (s'.store.node? id).map NodeState.apart = some n.apart := by
  refine h.chained.stays (f := fun a => (a.node? id).map NodeState.apart)
    (fun _ _ hmove _ hx => (hmove.store.apart id).trans hx) (fun c hc x hx => ?_)
    (by rw [hn, Option.map_some])
  obtain ⟨m, hm, rfl⟩ := Option.map_eq_some_iff.mp hx
  rw [(hkeep c hc).node id trivial m hm, Option.map_some]

/-- A row is as it was, if the calls change no row. -/
theorem row?_of_keeps (h : Rewrites spots s s' calls)
    (hkeep : ∀ c ∈ calls, c.Keeps (fun _ => True) (fun _ => True)) {row : RowId}
    {items : List Item} (hrow : s.store.row? row = some items) :
    s'.store.row? row = some items :=
  h.chained.stays (f := fun a => a.row? row) (fun _ _ hmove => hmove.store.row row)
    (fun c hc => (hkeep c hc).row row trivial) hrow

/-- No call is for a child of a node that lies elsewhere. -/
theorem not_gives (h : Rewrites spots s s' calls) (hin : Within ids parent spots)
    (hid : id ∉ ids) (hparent : parent ≠ some (.node id)) {c : Call σ} (hc : c ∈ calls) {i : Nat}
    {x : Item} : ¬ c.Gives id i x := by
  rintro ⟨-, hp, -⟩
  obtain ⟨p, hspot, hplace⟩ := h.exists_spot hc
  rw [← hplace] at hp
  rcases hin.parent p hspot with hpp | ⟨other, hother, hpp⟩
  · exact hparent (hpp ▸ hp)
  · obtain rfl : other = id := by
      have := hpp.symm.trans hp
      simpa using this
    exact hid hother

/-- No calls rewrite nothing. -/
theorem nil (s : Scene σ) : Rewrites [] s s [] :=
  ⟨.nil, .refl s, fun p hp => by simp at hp⟩

/-- Occurrences that are done, and those behind them that lie elsewhere. -/
theorem append (h : Rewrites spots s s' calls) (h' : Rewrites more s' s'' calls')
    (hgo : ∀ c ∈ calls, ¬ c.Fails) (hin : Within ids parent spots)
    (hin' : Within ids' parent more) (hdisj : ∀ x ∈ ids, x ∉ ids')
    (hparent : ∀ x, x ∈ ids ∨ x ∈ ids' → parent ≠ some (.node x))
    (hkeep : ∀ c ∈ calls', c.KeepsChildren ids) :
    Rewrites (spots ++ more) s s'' (calls ++ calls') where
  cut := by
    rw [List.map_append]
    exact h.cut.append hgo h'.cut
  chained := by
    refine Chained.append (fun _ _ _ => MovesChildren.trans) (h.chained.mono fun _ _ hm => ?_)
      (h'.chained.mono fun _ _ hm => ?_)
    · exact hm.mono fun _ hr =>
        hr.mono (fun _ => List.mem_append_left _) fun _ => List.mem_append_left _
    · exact hm.mono fun _ hr =>
        hr.mono (fun _ => List.mem_append_right _) fun _ => List.mem_append_right _
  held p hp id row ts htree hcalled := by
    have hitem : p.tree.item = .node id := by rw [htree]; rfl
    rcases List.mem_append.mp hp with hp | hp
    · -- done before: later calls leave the row alone, and are for no child of `id`
      have hmem : id ∈ ids := hin.node p hp id hitem
      have hnot : ¬ Called calls' id := fun hm => hdisj id hmem (h'.mem_of_called hin' hm)
      obtain ⟨row', items, hc, hres⟩ := h.held p hp id row ts htree (hcalled.resolve_right hnot)
      refine ⟨row', items, ?_, hres.of_subset (fun _ => List.mem_append_left _) fun c hc hn => ?_⟩
      · refine (h'.keepsChildrenAt (fun hm => hnot hm.2) fun c hc => ?_).children _ _ hc
        exact hkeep c hc id hmem
      · have hc' : c ∈ calls' := (List.mem_append.mp hc).resolve_left hn
        exact fun _ _ => h'.not_gives hin' (hdisj id hmem) (hparent id (.inl hmem)) hc'
    · -- done behind: the earlier calls were for no child of `id`
      have hmem : id ∈ ids' := hin'.node p hp id hitem
      have hnot : ¬ Called calls id := fun hm => hdisj id (h.mem_of_called hin hm) hmem
      obtain ⟨row', items, hc, hres⟩ := h'.held p hp id row ts htree (hcalled.resolve_left hnot)
      refine ⟨row', items, hc, hres.of_subset (fun _ => List.mem_append_right _) fun c hc hn => ?_⟩
      have hc' : c ∈ calls := (List.mem_append.mp hc).resolve_right hn
      exact fun _ _ => h.not_gives hin (fun hm => hdisj id hm hmem) (hparent id (.inr hmem)) hc'

/-- After a call that fails, nothing is done for the occurrences that come behind. -/
theorem append_of_fails (h : Rewrites spots s s' calls) {c : Call σ} (hc : c ∈ calls)
    (hfail : c.Fails) (hin : Within ids parent spots) {parent' : Option Item}
    (hin' : Within ids' parent' more)
    (hdisj : ∀ x ∈ ids, x ∉ ids') : Rewrites (spots ++ more) s s' calls where
  cut := by
    rw [List.map_append]
    exact h.cut.append_of_ends hc hfail _
  chained := h.chained.mono fun _ _ hm =>
    hm.mono fun _ hr => hr.mono (fun _ => List.mem_append_left _) fun _ => id
  held p hp id row ts htree hcalled := by
    rcases List.mem_append.mp hp with hp | hp
    · exact h.held p hp id row ts htree hcalled
    · have hitem : p.tree.item = .node id := by rw [htree]; rfl
      exact absurd (hin'.node p hp id hitem) (hdisj id (h.mem_of_called hin hcalled))

/-- A leaf is done with its call. -/
theorem leaf {p : Spot} {i : Item} (hp : p.tree = .leaf i) {c : Call σ} (hc : c.place = p.place) :
    Rewrites [p] c.before c.after [c] where
  cut := by
    rw [List.map_singleton, ← hc]
    exact .single c
  chained := ⟨.refl _, .refl _⟩
  held q hq id row ts htree _ := by
    rw [List.mem_singleton.mp hq, hp] at htree
    cases htree

/-- A branch is done with its row and its call, when what lies below it is done. -/
theorem branch {p : Spot} {row : RowId} {ts : List Tree} {items : List Item}
    (hp : p.tree = .branch id row ts) (h : Rewrites spots s s' calls)
    (hgo : ∀ c ∈ calls, ¬ c.Fails) (hin : Within ids (some (.node id)) spots) (hid : id ∉ ids)
    (hres : HoldsResults calls id (ts.map Tree.item) items) (hknow : s'.store.Knows (.node id))
    {c : Call σ} (hc : c.place = p.place)
    (hbefore : c.before = s'.withChildren id items)
    (hparent : ∀ x ∈ id :: ids, p.parent ≠ some (.node x)) (hkeep : c.KeepsChildren (id :: ids)) :
    Rewrites (spots ++ [p]) s c.after (calls ++ [c]) := by
  have hnode : c.place.node = .node id := by
    rw [hc, Spot.place, hp]
    rfl
  -- the only move in front of the call is that the node gets its row
  have hmove : MovesChildren (· = id) s' c.before := by
    rw [hbefore]
    exact ⟨rfl, rfl, Store.withChildren_changesOnlyChildren ..⟩
  have hself : Rewritten (spots ++ [p]) (calls ++ [c]) id :=
    ⟨⟨p, by simp, row, ts, hp⟩, c, by simp, hnode⟩
  have hnot : ∀ x ∈ id :: ids, ∀ d ∈ [c], ∀ i y, ¬ d.Gives x i y := by
    intro x hx d hd i y hg
    obtain rfl : d = c := List.mem_singleton.mp hd
    exact hparent x hx (by rw [← hg.2.1, hc]; rfl)
  have hlast : ∀ x ∈ id :: ids, ∀ d ∈ calls ++ [c], d ∉ calls → ∀ i y, ¬ d.Gives x i y :=
    fun x hx d hd hn => hnot x hx d ((List.mem_append.mp hd).resolve_left hn)
  refine ⟨?_, ?_, fun q hq x row' ts' htree hcalled => ?_⟩
  · rw [List.map_append, List.map_singleton, ← hc]
    exact h.cut.append hgo (.single c)
  · refine Chained.append (fun _ _ _ => MovesChildren.trans) (h.chained.mono fun _ _ hm => ?_)
      ⟨hmove.mono fun x hx => hx ▸ hself, .refl _⟩
    exact hm.mono fun _ hr =>
      hr.mono (fun _ => List.mem_append_left _) fun _ => List.mem_append_left _
  · rcases List.mem_append.mp hq with hq | hq
    · have hmem : x ∈ ids := hin.node q hq x (by rw [htree]; rfl)
      have hne : x ≠ id := fun h => hid (h ▸ hmem)
      have hnotcalled : ¬ Called [c] x := by
        rintro ⟨d, hd, hdnode⟩
        rw [List.mem_singleton.mp hd, hnode] at hdnode
        exact hne (Item.node.inj hdnode).symm
      obtain ⟨row'', items', hch, hres'⟩ := h.held q hq x row' ts' htree
        (hcalled.resolve_right hnotcalled)
      refine ⟨row'', items', (hkeep x (List.mem_cons_of_mem _ hmem)).children _ _ ?_,
        hres'.of_subset (fun _ => List.mem_append_left _) (hlast x (List.mem_cons_of_mem _ hmem))⟩
      exact (hmove.store.keepsChildrenAt hne).children _ _ hch
    · rw [List.mem_singleton.mp hq, hp] at htree
      obtain ⟨rfl, -, rfl⟩ := Tree.branch.inj htree
      have hch : c.before.store.HasChildren id (s'.store.newRow items).1 items := by
        rw [hbefore]
        exact Store.hasChildren_withChildren hknow items
      exact ⟨_, items, (hkeep id List.mem_cons_self).children _ _ hch,
        hres.of_subset (fun _ => List.mem_append_left _) (hlast id List.mem_cons_self)⟩

end Rewrites

end NotebookTree

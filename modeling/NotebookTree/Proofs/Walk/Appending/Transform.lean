import NotebookTree.Proofs.Walk.Appending.Calls

/-!
# Transforms whose calls append siblings

A node gets its row of results when the calls for its children have returned, so what they appended
goes with the old row. The calls that come later append to rows that were there when the walk began,
and a row of results is none of these (`HasNewRows`): no row of results ever grows.
-/

namespace NotebookTree

variable {σ : Type}

/-- Nodes have rows of children that have come into the store since the walk began, if any. -/
def HasNewRows (start : Store) (ids : List NodeId) (s : Store) : Prop :=
  ∀ id ∈ ids, ∀ row, s.childRow? (.node id) = some row → start.rows.size ≤ row.index

/-- Between the calls of a run only nodes of the tree get other children. -/
theorem Rewrites.moves {spots : List Spot} {s s' : Scene σ} {calls : List (Call σ)}
    {ids : List NodeId} {parent : Option Item} (h : Rewrites spots s s' calls)
    (hin : Within ids parent spots) : Chained (MovesChildren (· ∈ ids)) s calls s' :=
  h.chained.mono fun _ _ hm => hm.mono fun _ => h.mem_of_rewritten hin

namespace HasNewRows

variable {start : Store} {ids : List NodeId} {s s' : Store}

/-- New rows stay with the nodes when these are kept. -/
theorem of_keeps {N : NodeId → Prop} {R : RowId → Prop} (h : HasNewRows start ids s)
    (hkeep : Store.Keeps N R s s') (hN : ∀ id ∈ ids, N id)
    (hknown : ∀ id ∈ ids, s.Knows (.node id)) : HasNewRows start ids s' := by
  intro id hid row hrow
  rw [hkeep.childRow?_eq (hN id hid) (hknown id hid)] at hrow
  exact h id hid row hrow

/-- A node that gets a row of children gets a new one. -/
theorem withChildren {id : NodeId} (h : HasNewRows start ids s)
    (hsize : start.rows.size ≤ s.rows.size) (hid : id ∉ ids)
    (hknown : ∀ x ∈ id :: ids, s.Knows (.node x)) (items : List Item) :
    HasNewRows start (id :: ids) (s.withChildren id items) := by
  intro x hx row hrow
  rcases List.mem_cons.mp hx with rfl | hx'
  · have hown := Store.hasChildren_withChildren (hknown x List.mem_cons_self) items
    obtain rfl : (s.newRow items).1 = row := Option.some.inj (hown.1.symm.trans hrow)
    exact hsize
  · have hne : x ≠ id := fun heq => hid (heq ▸ hx')
    have hkeep := (Store.withChildren_changesOnlyChildren s id items).keeps
    exact h.of_keeps hkeep (N := fun y => ¬ y = id) (fun y hy heq => hid (heq ▸ hy))
      (fun y hy => hknown y (List.mem_cons_of_mem _ hy)) x hx' row hrow

/-- Calls that append to rows that were there before keep the children of nodes with new rows. -/
theorem keepsChildren {D N : NodeId → Prop} {s s' : Scene σ} {calls : List (Call σ)}
    (h : HasNewRows start ids s.store) (hknown : ∀ id ∈ ids, s.store.Knows (.node id))
    (hchain : Chained (MovesChildren D) s calls s') (hD : ∀ id ∈ ids, ¬ D id)
    (happ : ∀ c ∈ calls, c.Appends) (hwithin : AppendWithin start N calls) :
    ∀ c ∈ calls, c.KeepsChildren ids := by
  intro c hc id hid
  refine (happ c hc).keeps.keepsChildrenAt trivial fun row hrow => ?_
  have hbefore := h.of_keeps (hchain.keeps_before happ hc) hD hknown
  exact hwithin.appendedTo_eq_nil_of_new (hbefore id hid row hrow) c hc

end HasNewRows

namespace Walk

variable {callback : Callback σ} {reverse : Bool} {start : Store} {K : List NodeId}

/-- The transform of a tree by calls that append and do not fail, wherever the tree stands. -/
def RewritesAppending (callback : Callback σ) (reverse : Bool) (start : Store) (K : List NodeId)
    (t : Tree) : Prop :=
  ∀ (limit : Nat) (path : List Nat) (parent : Option Item) (s s' : Scene σ) (r : Except Fault Item)
    (calls : List (Call σ)), Unchanged start K limit t parent s.store →
    record (transformNode (recorded callback) reverse limit t.item path.getLast? parent) s =
      (r, s', calls) →
    (∀ c ∈ calls, ¬ c.Fails) → (∀ c ∈ calls, c.Appends) →
    Rewrites (t.listing true reverse path parent) s s' calls ∧
      (∃ c, calls.getLast? = some c ∧ r = .ok c.result) ∧
      AppendWithin start (fun x => parent = some (.node x) ∨ x ∈ t.ids) calls ∧
      HasNewRows start t.ids s'.store

/-- A leaf is transformed by one call. -/
theorem rewritesAppending_leaf (i : Item) : RewritesAppending callback reverse start K (.leaf i) := by
  intro limit path parent s s' r calls h hrun hgo happ
  obtain ⟨limit, rfl⟩ := Tree.exists_limit h.height
  rw [Tree.item, transformNode_childless h.stands.2, record_answerFor] at hrun
  obtain ⟨rfl, rfl, rfl⟩ := by simpa only [Prod.mk.injEq] using hrun
  let c := callOf callback ⟨i, path.getLast?, parent⟩ s
  have hc : c ∈ [c] := List.mem_singleton_self c
  obtain ⟨answer, hanswer⟩ := Call.not_fails_iff.mp (hgo c hc)
  have hleaf := Rewrites.leaf (p := ⟨path, .leaf i, parent⟩) (c := c) rfl rfl
  refine ⟨hleaf, ⟨c, rfl, by rw [hanswer]; rfl⟩, ?_, fun id hid row hrow => ?_⟩
  · exact (ParentStays.appendWithin (c := c) h.parent rfl).mono fun _ => .inl
  · -- a leaf has no row, before its call or behind it
    obtain rfl : i = .node id := by
      cases i <;> simp_all [Tree.ids]
    have hkept : c.after.store.childRow? (.node id) = none := by
      rw [(happ c hc).keeps.childRow?_eq trivial h.stands.1]
      exact h.stands.2
    rw [hkept] at hrow
    cases hrow

section Children

variable {limit : Nat} {id : NodeId} {row : RowId} {children : List Item} {k : Tree × Nat}
  {ks : List (Tree × Nat)} {s s' : Scene σ} {calls : List (Call σ)}

/-- The transform of the first child. -/
theorem rewritesAppending_child {r : Except Fault Item} (path : List Nat)
    (htree : RewritesAppending callback reverse start K k.1)
    (hawaits : Awaits start K limit id row children (k :: ks) s.store)
    (hrun : record (transformChild (recorded callback) reverse limit id row k.2) s =
      (r, s', calls)) (hgo : ∀ c ∈ calls, ¬ c.Fails) (happ : ∀ c ∈ calls, c.Appends) :
    Rewrites (k.1.listing true reverse (path ++ [k.2]) (some (.node id))) s s' calls ∧
      (∃ c, calls.getLast? = some c ∧ r = .ok c.result) ∧
      AppendWithin start (fun x => x = id ∨ x ∈ k.1.ids) calls ∧
      HasNewRows start k.1.ids s'.store := by
  obtain ⟨_, hready⟩ := hawaits.ready
  rw [record_transformChild hready] at hrun
  obtain ⟨hrw, hlast, hwithin, hnew⟩ := htree limit (path ++ [k.2]) (some (.node id)) s s' r calls
    hawaits.head (by rw [List.getLast?_concat, hrun]) hgo happ
  refine ⟨hrw, hlast, hwithin.mono fun x hx => hx.imp_left fun h => ?_, hnew⟩
  exact (Item.node.inj (Option.some.inj h)).symm

/-- The loop through the children of a node rewrites one child after the other. -/
theorem rewritesAppending_mapM {r : Except Fault (List Item)} (path : List Nat)
    (hrows : start.Unshared K) (hknown : ∀ x ∈ K, start.Knows (.node x))
    (htree : ∀ k ∈ ks, RewritesAppending callback reverse start K k.1)
    (hawaits : Awaits start K limit id row children ks s.store)
    (hrun : record ((ks.map Prod.snd).mapM
      (transformChild (recorded callback) reverse limit id row)) s = (r, s', calls))
    (hgo : ∀ c ∈ calls, ¬ c.Fails) (happ : ∀ c ∈ calls, c.Appends) :
    Rewrites (Tree.spotsBelow true reverse path id ks) s s' calls ∧
      (∃ xs, r = .ok xs) ∧ LoopEnds id children (ks.map Prod.snd) r calls ∧
      AppendWithin start (fun x => x = id ∨ x ∈ ks.flatMap fun k => k.1.ids) calls ∧
      HasNewRows start (ks.flatMap fun k => k.1.ids) s'.store := by
  induction ks generalizing s r calls with
  | nil =>
    obtain ⟨rfl, rfl, rfl⟩ : _ ∧ _ ∧ _ := by
      simpa only [List.map_nil, List.mapM_nil, record_pure, Prod.mk.injEq] using hrun
    exact ⟨.nil s, ⟨[], rfl⟩, .nil, .nil, fun _ hid => by cases hid⟩
  | cons k ks ih =>
    have hk : k ∈ k :: ks := List.mem_cons_self
    obtain ⟨e, hchild, rfl⟩ | ⟨x, r₂, s₁, calls₁, calls₂, hchild, hrest, rfl, rfl⟩ :=
      record_mapM_cases (recording_transformChild callback reverse limit id row) hrun
    · -- no call fails, so the first child is done
      obtain ⟨-, ⟨_, -, hr⟩, -⟩ :=
        rewritesAppending_child path (htree k hk) hawaits hchild hgo happ
      cases hr
    · have hgo₁ : ∀ c ∈ calls₁, ¬ c.Fails := fun c hc => hgo c (List.mem_append_left _ hc)
      have happ₁ : ∀ c ∈ calls₁, c.Appends := fun c hc => happ c (List.mem_append_left _ hc)
      have happ₂ : ∀ c ∈ calls₂, c.Appends := fun c hc => happ c (List.mem_append_right _ hc)
      obtain ⟨hrw, ⟨c, hc, hr⟩, hwithin, hnew⟩ :=
        rewritesAppending_child path (htree k hk) hawaits hchild hgo₁ happ₁
      obtain rfl := Except.ok.inj hr
      have hmoves := hrw.moves (k.1.within_listing true reverse _ _)
      obtain ⟨hrws, ⟨xs, hxs⟩, hends, hwithin', hnew'⟩ := ih
        (fun k' hk' => htree k' (List.mem_cons_of_mem _ hk'))
        (hawaits.tail hrows hknown hmoves (fun _ h => h) happ₁ hwithin) hrest
        (fun c hc => hgo c (List.mem_append_right _ hc)) happ₂
      -- the rows of the first child are new, so the calls for the others leave them alone
      have hmoves' := hrws.moves (within_spotsBelow reverse path id ks)
      have hout := hawaits.apart.disjoint
      have hknown₁ : ∀ x ∈ k.1.ids, s₁.store.Knows (.node x) := fun x hx =>
        (hmoves.keeps happ₁).knows (hawaits.head.stands.knows hx)
      have hkeep := hnew.keepsChildren hknown₁ hmoves' hout happ₂ hwithin'
      obtain ⟨hrw', hends'⟩ := rewrites_children (hawaits.item k List.mem_cons_self) hawaits.apart
        hrw hc (hgo₁ c (List.mem_of_getLast? hc)) hrws hends hkeep
      have hnew₂ := hnew.of_keeps (hmoves'.keeps happ₂) hout hknown₁
      refine ⟨hrw', ⟨_, by rw [hxs]; rfl⟩, hends', ?_, ?_⟩
      · rw [List.flatMap_cons]
        exact (hwithin.mono fun x hx => hx.imp_right (List.mem_append_left _)).append
          (hwithin'.mono fun x hx => hx.imp_right (List.mem_append_right _))
      · rw [List.flatMap_cons]
        exact fun x hx => (List.mem_append.mp hx).elim (hnew₂ x) (hnew' x)

/-- The call for a node with children appends beside the node, so the new rows of the node and of
those below it stay as they are. -/
theorem own_call {ids : List NodeId} {ts : List Tree} {parent : Option Item} {items : List Item}
    {c : Call σ} (h : Unchanged start K limit (.branch id row ts) parent s.store)
    (hids : ∀ x, x ∈ id :: ids ↔ x ∈ (Tree.branch id row ts).ids) (hid : id ∉ ids)
    (hmoves : Chained (MovesChildren (· ∈ ids)) s calls s') (happ : ∀ c ∈ calls, c.Appends)
    (hnew : HasNewRows start ids s'.store) (hplace : c.place.parent = parent)
    (hbefore : c.before = s'.withChildren id items) (hc : c.Appends) :
    s'.store.Knows (.node id) ∧ c.KeepsChildren (id :: ids) ∧
      AppendWithin start (fun x => parent = some (.node x)) [c] ∧
      HasNewRows start (id :: ids) c.after.store := by
  have hkeep := hmoves.keeps happ
  have hknown : ∀ x ∈ id :: ids, s'.store.Knows (.node x) := fun x hx =>
    hkeep.knows (h.stands.knows ((hids x).mp hx))
  have hmove : s'.store.ChangesOnlyChildren (· = id) c.before.store := by
    rw [hbefore]
    exact Store.withChildren_changesOnlyChildren ..
  have hnew' : HasNewRows start (id :: ids) c.before.store := by
    rw [hbefore]
    exact hnew.withChildren (h.kept.rows_le.trans hkeep.rows_le) hid hknown items
  -- the calls below changed nodes of this tree alone, and the parent is not one of them
  have hparent : ParentStays start K (.branch id row ts) parent c.before.store := by
    refine h.parent.of_keeps (.trans (hkeep.mono (fun x hx => ?_) fun _ h => h)
      (hmove.keeps.mono (fun x hx => ?_) fun _ _ => trivial))
    · exact fun hmem => hx ((hids x).mp (List.mem_cons_of_mem _ hmem))
    · exact fun heq => hx ((hids x).mp (heq ▸ List.mem_cons_self))
  have hwithin := hparent.appendWithin hplace
  have hknown' : ∀ x ∈ id :: ids, c.before.store.Knows (.node x) := fun x hx =>
    hmove.knows (hknown x hx)
  have hone : ∀ d ∈ [c], d.Appends := fun d hd => List.mem_singleton.mp hd ▸ hc
  have hmoves' : Chained (MovesChildren fun _ => False) c.before [c] c.after :=
    ⟨.refl _, .refl _⟩
  exact ⟨hknown id List.mem_cons_self,
    hnew'.keepsChildren hknown' hmoves' (fun _ _ h => h) hone hwithin c (List.mem_singleton_self c),
    hwithin, hnew'.of_keeps (hmoves'.keeps hone) (fun _ _ h => h) hknown'⟩

/-- A node with children gets its row of results, and is called for. -/
theorem rewritesAppending_branch {ts : List Tree} (hrows : start.Unshared K)
    (hknown : ∀ x ∈ K, start.Knows (.node x))
    (htree : ∀ t ∈ ts, RewritesAppending callback reverse start K t) :
    RewritesAppending callback reverse start K (.branch id row ts) := by
  intro limit path parent s s' r calls h hrun hgo happ
  obtain ⟨limit, rfl⟩ := Tree.exists_limit h.height
  have hawaits := Awaits.of_branch reverse h
  have hchildren := (Tree.standsIn_branch.mp h.stands).1
  rw [Tree.item, transformNode_of_children hchildren, List.length_map, Tree.places_eq] at hrun
  have hbelow : ∀ k ∈ Tree.inOrder reverse ts.zipIdx, RewritesAppending callback reverse start K k.1 :=
    fun k hk => htree k.1 (List.fst_mem_of_mem_zipIdx (Tree.mem_inOrder.mp hk))
  have hin := within_spotsBelow reverse path id (Tree.inOrder reverse ts.zipIdx)
  rw [Tree.listing_branch_last]
  obtain ⟨e, hloop, rfl⟩ | ⟨xs, s₁, calls₁, more, hloop, hown, rfl⟩ :=
    record_bind_cases (recording_finishNode callback reverse ⟨.node id, path.getLast?, parent⟩) hrun
  · -- no call fails, so the loop returns
    obtain ⟨-, ⟨_, hr⟩, -⟩ := rewritesAppending_mapM path hrows hknown hbelow hawaits hloop hgo happ
    cases hr
  · rw [record_finishNode, record_answerFor] at hown
    cases hown
    let c := callOf callback ⟨.node id, path.getLast?, parent⟩
      (s₁.withChildren id (if reverse then xs.reverse else xs))
    have hc : c ∈ calls₁ ++ [c] := List.mem_append_right _ (List.mem_singleton_self c)
    have happ₁ : ∀ d ∈ calls₁, d.Appends := fun d hd => happ d (List.mem_append_left _ hd)
    obtain ⟨hrw, -, hends, hwithin, hnew⟩ := rewritesAppending_mapM path hrows hknown hbelow hawaits
      hloop (fun d hd => hgo d (List.mem_append_left _ hd)) happ₁
    have hids : ∀ x, x ∈ id :: (Tree.inOrder reverse ts.zipIdx).flatMap (fun k => k.1.ids) ↔
        x ∈ (Tree.branch id row ts).ids := fun x => by
      rw [Tree.ids, List.mem_cons, List.mem_cons]
      exact or_congr_right (Tree.flatMap_inOrder_perm reverse ts).mem_iff
    obtain ⟨hknow, hkeep, hwithin', hnew'⟩ := own_call (c := c) h hids hawaits.apart.root
      (hrw.moves hin) happ₁ hnew rfl rfl (happ c hc)
    obtain ⟨answer, hanswer⟩ := Call.not_fails_iff.mp (hgo c hc)
    refine ⟨?_, ⟨c, List.getLast?_concat, by rw [hanswer]; rfl⟩, ?_, fun x hx => ?_⟩
    · exact hrw.branch (p := ⟨path, .branch id row ts, parent⟩) rfl (hends.returns xs rfl) hin
        hawaits.apart.root hends.holdsResults hknow rfl rfl
        (fun x hx hp => (h.parent.mem hp).2 ((hids x).mp hx)) hkeep
    · exact (hwithin.mono fun x hx => .inr ((hids x).mp (List.mem_cons.mpr hx))).append
        (hwithin'.mono fun _ => .inl)
    · exact hnew' x ((hids x).mpr hx)

end Children

/-- Calls that append do not lead a transform astray, wherever the tree stands. -/
theorem rewritesAppending (callback : Callback σ) (reverse : Bool) (hrows : start.Unshared K)
    (hknown : ∀ x ∈ K, start.Knows (.node x)) (t : Tree) :
    RewritesAppending callback reverse start K t := by
  induction t with
  | leaf i => exact rewritesAppending_leaf i
  | branch id row ts ih => exact rewritesAppending_branch hrows hknown ih

end Walk

end NotebookTree

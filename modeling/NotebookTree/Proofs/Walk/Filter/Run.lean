import NotebookTree.Proofs.Walk.Filter.Judge

/-!
# The run of a filter

A filter of a tree makes the calls for the occurrences that are reached, and what it returns is what
is kept (`filtersTree`). The induction is on the tree: a node is called for, and if it is accepted
its children are filtered one after the other (`filters_gather`) and a copy is made
(`pruned_finishCopy`).

The verdicts are put together from those below each child (`verdictsBelow`); for occurrences that
are not reached they may be anything. Nodes may stand at several places: nothing that was there is
written to, so each occurrence is met as it was.
-/

namespace NotebookTree

variable {σ α β : Type}

namespace Walk

variable {callback : Callback σ} {most limit : Nat}

/-- What is kept of the child of a node with an index. -/
def filterChild (accepts : Callback σ) (most limit : Nat) (node : Item) (i : Nat) (child : Item) :
    Walk σ (Option Item) :=
  filterNode accepts most limit child (some i) (some node)

/-- The copy that stands for a node when what is kept of its children is there. -/
def finishCopy (node : Item) (kept : List Item) : Walk σ (Option Item) := do
  return some (← copyWith node (kept.filter (fun i => !i.isNothing)))

/-- What is left to do for a node when its call is answered. -/
def filterBelow (accepts : Callback σ) (most limit : Nat) (node answer : Item) :
    Walk σ (Option Item) := do
  if !(← getStore).isTruthy answer then return none
  match (← getStore).childRow? node with
  | none => return some node
  | some row => gather (filterChild accepts most limit node) row most 0 >>= finishCopy node

/-- The predicate is asked first, and what is done below hangs on its answer. -/
theorem filterNode_eq (accepts : Callback σ) (most limit : Nat) (node : Item) (index : Option Nat)
    (parent : Option Item) :
    filterNode accepts most (limit + 1) node index parent =
      resolve (accepts node index parent) >>= filterBelow accepts most limit node := rfl

/-- A node that is refused is not kept. -/
theorem record_filterBelow_of_refused {node answer : Item} {s : Scene σ}
    (h : s.store.isTruthy answer = false) :
    record (filterBelow (recorded callback) most limit node answer) s = (.ok none, s, []) := by
  rw [filterBelow, record_getStore_bind, h]
  rfl

/-- An accepted node without children is kept as it is. -/
theorem record_filterBelow_of_leaf {node answer : Item} {s : Scene σ}
    (h : s.store.isTruthy answer = true) (hnone : s.store.childRow? node = none) :
    record (filterBelow (recorded callback) most limit node answer) s =
      (.ok (some node), s, []) := by
  rw [filterBelow, record_getStore_bind, h, Bool.not_true, if_neg Bool.false_ne_true,
    record_getStore_bind, hnone]
  rfl

/-- An accepted node with children is copied with what is kept of them. -/
theorem record_filterBelow_of_children {node answer : Item} {s : Scene σ} {row : RowId}
    (h : s.store.isTruthy answer = true) (hrow : s.store.childRow? node = some row) :
    record (filterBelow (recorded callback) most limit node answer) s =
      record (gather (filterChild (recorded callback) most limit node) row most 0 >>=
        finishCopy node) s := by
  rw [filterBelow, record_getStore_bind, h, Bool.not_true, if_neg Bool.false_ne_true,
    record_getStore_bind, hrow]

/-- The copy is a new node with the items that are not null. -/
theorem record_finishCopy (id : NodeId) (kept : List Item) (s : Scene σ) :
    record (finishCopy (.node id) kept : Walk (σ × List (Call σ)) (Option Item)) s =
      (.ok (some (.node ⟨s.store.nodes.size⟩)),
        { s with store := s.store.withCopy id (kept.filter fun i => !i.isNothing) }, []) := rfl

/-- Copying makes no call. -/
theorem recording_finishCopy (node : Item) (kept : List Item) :
    Recording (finishCopy node kept : Walk (σ × List (Call σ)) (Option Item)) := fun _ =>
  alike_bind (alike_changeStore _) fun _ => alike_pure _

/-- Filtering a child only adds calls to the record. -/
theorem recording_filterChild (callback : Callback σ) (most limit : Nat) (node : Item) (i : Nat)
    (child : Item) : Recording (filterChild (recorded callback) most limit node i child) :=
  fun noted => filterNode_alike (recorded_recording callback noted) most limit _ _ _

/-- Filtering below a node only adds calls to the record. -/
theorem recording_filterBelow (callback : Callback σ) (most limit : Nat) (node answer : Item) :
    Recording (filterBelow (recorded callback) most limit node answer) := fun noted => by
  refine alike_bind alike_getStore fun store => ?_
  cases store.isTruthy answer with
  | false => exact alike_pure none
  | true =>
    refine alike_bind alike_getStore fun store => ?_
    cases store.childRow? node with
    | none => exact alike_pure (some node)
    | some row =>
      exact alike_bind (alike_gather
        (fun i child => recording_filterChild callback most limit node i child noted) row most 0)
        fun kept => recording_finishCopy node kept noted

/-- A node is called for. That is all if it is refused, or the call fails, and else its children are
filtered. -/
theorem record_filterNode_cases {place : Place} {s s' : Scene σ} {c : Call σ}
    {r : Except Fault (Option Item)} {calls : List (Call σ)} (hc : callOf callback place s = c)
    (hrun : record (filterNode (recorded callback) most (limit + 1) place.node place.index
      place.parent) s = (r, s', calls)) :
    (c.isTrue = false ∧ r = c.answer.map (fun _ => none) ∧ s' = c.after ∧ calls = [c]) ∨
      ∃ i more, c.answer = .ok i ∧ c.after.store.isTruthy i = true ∧
        record (filterBelow (recorded callback) most limit place.node i) c.after = (r, s', more) ∧
        calls = [c] ++ more := by
  rw [filterNode_eq] at hrun
  obtain ⟨e, hanswer, rfl, rfl, rfl⟩ | ⟨i, more, hanswer, hrest, rfl⟩ :=
    record_call_bind_cases hc (recording_filterBelow callback most limit place.node) hrun
  · exact .inl ⟨Call.isTrue_of_error hanswer, by rw [hanswer]; rfl, rfl, rfl⟩
  · -- whether the answer is true is asked of the store that the call has left
    cases hi : c.after.store.isTruthy i with
    | true => exact .inr ⟨i, more, hanswer, hi, hrest, rfl⟩
    | false =>
      rw [record_filterBelow_of_refused hi] at hrest
      cases hrest
      exact .inl ⟨(Call.isTrue_of_ok hanswer).trans hi, by rw [hanswer]; rfl, rfl, rfl⟩

/-- A filter of a tree, wherever it stands. Calls leave what is in `N` and `R` as it is, and that is
the tree at least; if it is also what the filter makes, the result is what is kept. -/
def FiltersTree (callback : Callback σ) (most : Nat) (t : Tree) : Prop :=
  ∀ (N : NodeId → Prop) (R : RowId → Prop) (limit : Nat) (path : List Nat) (parent : Option Item)
    (s s' : Scene σ) (r : Except Fault (Option Item)) (calls : List (Call σ)),
    t.height ≤ limit → (∀ b ∈ t.branches, b.2.2.length < most) → t.StandsIn s.store →
    (∀ id ∈ t.ids, N id) → (∀ b ∈ t.branches, R b.2.1) →
    record (filterNode (recorded callback) most limit t.item path.getLast? parent) s =
      (r, s', calls) →
    (∀ c ∈ calls, c.Keeps N R) →
    ∃ ok : List Nat → Bool,
      Judges (t.reachedIn ok path parent) (fun p => ok (p.path.drop path.length)) s s' r calls ∧
      ∀ kept, r = .ok kept → HoldNew N R calls s.store s'.store →
        ∃ us : List Tree, kept.toList.filter (fun i => !i.isNothing) = us.map Tree.item ∧
          Pruned N R s.store s'.store path.length (t.keptIn ok path parent) us

/-! ## Children one after the other -/

/-- Children in a row, from an index on, that wait for their turn. -/
structure Waits (N : NodeId → Prop) (R : RowId → Prop) (limit most : Nat) (row : RowId)
    (items : List Item) (i : Nat) (ts : List Tree) (s : Store) : Prop where
  stored : s.row? row = some items
  known : R row
  items : items.drop i = ts.map Tree.item
  height : ∀ t ∈ ts, t.height ≤ limit
  narrow : ∀ t ∈ ts, ∀ b ∈ t.branches, b.2.2.length < most
  stands : ∀ t ∈ ts, t.StandsIn s
  ids : ∀ t ∈ ts, ∀ id ∈ t.ids, N id
  rows : ∀ t ∈ ts, ∀ b ∈ t.branches, R b.2.1

namespace Waits

variable {N : NodeId → Prop} {R : RowId → Prop} {row : RowId} {items : List Item} {i : Nat}
  {t : Tree} {ts : List Tree} {s s' : Store}

/-- The first tree to come stands at the index that is next. -/
theorem head_item (h : Waits N R limit most row items i (t :: ts) s) :
    items[i]? = some t.item := by
  have hitem := congrArg List.head? h.items
  rw [List.head?_drop, List.map_cons, List.head?_cons] at hitem
  exact hitem

/-- After the last tree there is no item any more. -/
theorem no_item (h : Waits N R limit most row items i [] s) : items[i]? = none := by
  have hitem := congrArg List.head? h.items
  rw [List.head?_drop] at hitem
  exact hitem

/-- When the first child is done, the others wait still if nothing they need has changed. -/
theorem tail (h : Waits N R limit most row items i (t :: ts) s) (hkeep : s.Keeps N R s') :
    Waits N R limit most row items (i + 1) ts s' where
  stored := hkeep.row row h.known items h.stored
  known := h.known
  items := by
    rw [← List.tail_drop, h.items]
    rfl
  height u hu := h.height u (List.mem_cons_of_mem t hu)
  narrow u hu := h.narrow u (List.mem_cons_of_mem t hu)
  stands u hu :=
    (h.stands u (List.mem_cons_of_mem t hu)).of_keeps_rows hkeep
      (h.ids u (List.mem_cons_of_mem t hu)) (h.rows u (List.mem_cons_of_mem t hu))
  ids u hu := h.ids u (List.mem_cons_of_mem t hu)
  rows u hu := h.rows u (List.mem_cons_of_mem t hu)

/-- The children of a branch wait when the branch stands in the store. -/
theorem of_branch {id : NodeId} (hstand : (Tree.branch id row ts).StandsIn s)
    (hlimit : (Tree.branch id row ts).height ≤ limit + 1)
    (hmost : ∀ b ∈ (Tree.branch id row ts).branches, b.2.2.length < most)
    (hN : ∀ x ∈ (Tree.branch id row ts).ids, N x)
    (hR : ∀ b ∈ (Tree.branch id row ts).branches, R b.2.1) :
    Waits N R limit most row (ts.map Tree.item) 0 ts s := by
  obtain ⟨hchildren, hstands⟩ := Tree.standsIn_branch.mp hstand
  rw [Tree.height] at hlimit
  refine ⟨hchildren.2, hR (id, row, ts) (by simp [Tree.branches]), rfl, fun t ht => ?_,
    fun t ht b hb => hmost b (Tree.mem_branches_of_mem ht hb), hstands,
    fun t ht x hx => hN x (Tree.mem_ids_of_mem ht hx),
    fun t ht b hb => hR b (Tree.mem_branches_of_mem ht hb)⟩
  exact Nat.le_trans (Tree.height_le_heightAll ht) (Nat.le_of_succ_le_succ hlimit)

end Waits

/-- The verdicts in a tree from those below each child of its root, which is accepted. -/
def verdictsBelow (oks : Nat → List Nat → Bool) : List Nat → Bool
  | [] => true
  | i :: q => oks i q

section Children

variable {N : NodeId → Prop} {R : RowId → Prop} {row : RowId} {items : List Item} {i : Nat}
  {t : Tree} {ts : List Tree} {id : NodeId} {s s' : Scene σ} {path : List Nat}
  {calls : List (Call σ)}

/-- The occurrences in children of a node that are reached, by verdicts below each. -/
def reachedBelow (oks : Nat → List Nat → Bool) (path : List Nat) (id : NodeId)
    (ks : List (Tree × Nat)) : List Spot :=
  ks.flatMap fun k => k.1.reachedIn (oks k.2) (path ++ [k.2]) (some (.node id))

/-- The occurrences in children of a node that are kept, by verdicts below each. -/
def keptBelow (oks : Nat → List Nat → Bool) (path : List Nat) (id : NodeId)
    (ks : List (Tree × Nat)) : List Spot :=
  ks.flatMap fun k => k.1.keptIn (oks k.2) (path ++ [k.2]) (some (.node id))

/-- Verdicts below one child make no difference to the others. -/
theorem update_of_mem_zipIdx {oks : Nat → List Nat → Bool} {ok : List Nat → Bool}
    {k : Tree × Nat} (hk : k ∈ ts.zipIdx (i + 1)) : Function.update oks i ok k.2 = oks k.2 := by
  have hle : i + 1 ≤ k.2 := (List.mem_zipIdx hk).1
  exact Function.update_of_ne (by omega) _ _

/-- What is reached below the children to come, with the verdicts on the first one put in. -/
theorem reachedBelow_update (oks : Nat → List Nat → Bool) (ok : List Nat → Bool) :
    reachedBelow (Function.update oks i ok) path id ((t :: ts).zipIdx i) =
      t.reachedIn ok (path ++ [i]) (some (.node id)) ++
        reachedBelow oks path id (ts.zipIdx (i + 1)) := by
  rw [reachedBelow, List.zipIdx_cons, List.flatMap_cons, Function.update_self, reachedBelow]
  refine congrArg _ (List.flatMap_congr fun k hk => ?_)
  rw [update_of_mem_zipIdx hk]

/-- What is kept below the children to come, with the verdicts on the first one put in. -/
theorem keptBelow_update (oks : Nat → List Nat → Bool) (ok : List Nat → Bool) :
    keptBelow (Function.update oks i ok) path id ((t :: ts).zipIdx i) =
      t.keptIn ok (path ++ [i]) (some (.node id)) ++
        keptBelow oks path id (ts.zipIdx (i + 1)) := by
  rw [keptBelow, List.zipIdx_cons, List.flatMap_cons, Function.update_self, keptBelow]
  refine congrArg _ (List.flatMap_congr fun k hk => ?_)
  rw [update_of_mem_zipIdx hk]

/-- Below the child with an index, the verdicts are those for that child. -/
theorem verdictsBelow_of_mem {oks : Nat → List Nat → Bool} {ok : List Nat → Bool} {p : Spot}
    (hp : p ∈ t.reachedIn ok (path ++ [i]) (some (.node id))) :
    verdictsBelow oks (p.path.drop path.length) =
      oks i (p.path.drop (path ++ [i]).length) := by
  rw [Tree.exists_drop_eq (Tree.prefix_of_mem_listing (List.mem_of_mem_filter hp)), verdictsBelow]

/-- The verdicts below the other children are what they were. -/
theorem verdictsBelow_update {oks : Nat → List Nat → Bool} {ok : List Nat → Bool} {p : Spot}
    (hp : p ∈ reachedBelow oks path id (ts.zipIdx (i + 1))) :
    verdictsBelow (Function.update oks i ok) (p.path.drop path.length) =
      verdictsBelow oks (p.path.drop path.length) := by
  obtain ⟨k, hk, hp⟩ := List.mem_flatMap.mp hp
  rw [verdictsBelow_of_mem hp, verdictsBelow_of_mem hp, update_of_mem_zipIdx hk]

/-- The items of what is kept are in a tree. -/
theorem of_mem_keptIn {ok : List Nat → Bool} {parent : Option Item} (hN : ∀ x ∈ t.ids, N x) :
    ∀ p ∈ t.keptIn ok path parent, ∀ x, p.tree.item = .node x → N x := fun _ hp x hx =>
  hN x (Tree.mem_ids_of_mem_listing (List.mem_of_mem_filter hp) hx)

/-- What is made of a result comes from one. -/
theorem exists_of_map_eq_ok {r : Except Fault α} {f : α → β} {b : β} (h : r.map f = .ok b) :
    ∃ a, r = .ok a ∧ f a = b := by
  cases r with
  | ok a => exact ⟨a, rfl, Except.ok.inj h⟩
  | error e => cases h

/-- The filter of the first child. -/
theorem filters_child (path : List Nat) {r : Except Fault (Option Item)}
    (htree : FiltersTree callback most t)
    (hwait : Waits N R limit most row items i (t :: ts) s.store)
    (hrun : record (filterChild (recorded callback) most limit (.node id) i t.item) s =
      (r, s', calls)) (hkeep : ∀ c ∈ calls, c.Keeps N R) :
    ∃ ok : List Nat → Bool,
      Judges (t.reachedIn ok (path ++ [i]) (some (.node id)))
        (fun p => ok (p.path.drop (path ++ [i]).length)) s s' r calls ∧
      ∀ kept, r = .ok kept → HoldNew N R calls s.store s'.store →
        ∃ us : List Tree, kept.toList.filter (fun i => !i.isNothing) = us.map Tree.item ∧
          Pruned N R s.store s'.store (path.length + 1)
            (t.keptIn ok (path ++ [i]) (some (.node id))) us := by
  have ht : t ∈ t :: ts := List.mem_cons_self
  have h := htree N R limit (path ++ [i]) (some (.node id)) s s' r calls (hwait.height t ht)
    (hwait.narrow t ht) (hwait.stands t ht) (hwait.ids t ht) (hwait.rows t ht)
    (by rw [List.getLast?_concat]; exact hrun) hkeep
  rw [List.length_append, List.length_singleton] at h ⊢
  exact h

/-- The loop through the children of a node filters one child after the other. -/
theorem filters_gather (path : List Nat) {r : Except Fault (List Item)} {m : Nat}
    (htree : ∀ t ∈ ts, FiltersTree callback most t)
    (hwait : Waits N R limit most row items i ts s.store) (hm : ts.length < m)
    (hrun : record (gather (filterChild (recorded callback) most limit (.node id)) row m i) s =
      (r, s', calls)) (hkeep : ∀ c ∈ calls, c.Keeps N R) :
    ∃ oks : Nat → List Nat → Bool,
      Judges (reachedBelow oks path id (ts.zipIdx i))
        (fun p => verdictsBelow oks (p.path.drop path.length)) s s' r calls ∧
      ∀ kept, r = .ok kept → HoldNew N R calls s.store s'.store →
        ∃ us : List Tree, kept.filter (fun i => !i.isNothing) = us.map Tree.item ∧
          Pruned N R s.store s'.store (path.length + 1) (keptBelow oks path id (ts.zipIdx i))
            us := by
  induction ts generalizing i m s r calls with
  | nil =>
    obtain ⟨m, rfl⟩ : ∃ n, m = n + 1 := ⟨m - 1, by omega⟩
    rw [record_gather_end hwait.stored hwait.no_item] at hrun
    obtain ⟨rfl, rfl, rfl⟩ : _ ∧ _ ∧ _ := by simpa only [Prod.mk.injEq] using hrun
    refine ⟨fun _ _ => true, .nil _ s [], fun kept hkept _ => ⟨[], ?_, .nil ..⟩⟩
    rw [← Except.ok.inj hkept]
    rfl
  | cons t ts ih =>
    rw [List.length_cons] at hm
    obtain ⟨m, rfl⟩ : ∃ n, m = n + 1 := ⟨m - 1, by omega⟩
    -- verdicts in the child are those for its index, whatever those for the others
    have hverdict : ∀ (oks : Nat → List Nat → Bool) (ok : List Nat → Bool),
        ∀ p ∈ t.reachedIn ok (path ++ [i]) (some (.node id)),
          verdictsBelow (Function.update oks i ok) (p.path.drop path.length) =
            ok (p.path.drop (path ++ [i]).length) := fun oks ok p hp => by
      rw [verdictsBelow_of_mem hp, Function.update_self]
    obtain ⟨e, hchild, rfl⟩ | ⟨kept₁, r₂, s₁, calls₁, calls₂, hchild, hrest, rfl, rfl⟩ :=
      record_gather_cases (recording_filterChild callback most limit (.node id)) hwait.stored
        hwait.head_item hrun
    · obtain ⟨ok, hjudge, -⟩ :=
        filters_child path (htree t List.mem_cons_self) hwait hchild hkeep
      refine ⟨Function.update (fun _ _ => true) i ok, ?_, fun kept hkept => by cases hkept⟩
      rw [reachedBelow_update]
      exact (hjudge.congr (hverdict _ ok)).append_of_fails _
    · have hkeep₁ : ∀ c ∈ calls₁, c.Keeps N R := fun c hc => hkeep c (List.mem_append_left _ hc)
      have hkeep₂ : ∀ c ∈ calls₂, c.Keeps N R := fun c hc => hkeep c (List.mem_append_right _ hc)
      obtain ⟨ok, hjudge, hfirst⟩ :=
        filters_child path (htree t List.mem_cons_self) hwait hchild hkeep₁
      obtain ⟨oks, hjudges, hothers⟩ := ih (fun u hu => htree u (List.mem_cons_of_mem t hu))
        (hwait.tail (hjudge.keeps hkeep₁)) (by omega) hrest hkeep₂
      -- each part has what it made in the sets, as no call of the other brought it
      refine ⟨Function.update oks i ok, ?_, fun kept hkept hnew => ?_⟩
      · rw [reachedBelow_update]
        exact (hjudge.congr (hverdict oks ok)).append
          ((hjudges.congr fun p hp => verdictsBelow_update hp).map _)
      · obtain ⟨rest, rfl, rfl⟩ := exists_of_map_eq_ok hkept
        obtain ⟨us, hus, hpruned⟩ := hfirst kept₁ rfl (hjudges.holdNew_left hkeep₂ hnew)
        obtain ⟨vs, hvs, hpruned'⟩ := hothers rest rfl (hjudge.holdNew_right hkeep₁ hnew)
        refine ⟨us ++ vs, ?_, ?_⟩
        · rw [List.filter_append, hus, hvs, List.map_append]
        · rw [keptBelow_update]
          exact hpruned.append hpruned' (hjudge.keeps hkeep₁) (hjudges.keeps hkeep₂)
            (of_mem_keptIn (hwait.ids t List.mem_cons_self))

/-- With the verdicts of the children put together, what is reached is the root and what is reached
below. -/
theorem reachedIn_verdictsBelow (oks : Nat → List Nat → Bool) (parent : Option Item) :
    (Tree.branch id row ts).reachedIn (verdictsBelow oks) path parent =
      ⟨path, .branch id row ts, parent⟩ :: reachedBelow oks path id ts.zipIdx :=
  Tree.reachedIn_branch rfl

/-- With the verdicts of the children put together, what is kept is the root and what is kept
below. -/
theorem keptIn_verdictsBelow (oks : Nat → List Nat → Bool) (parent : Option Item) :
    (Tree.branch id row ts).keptIn (verdictsBelow oks) path parent =
      ⟨path, .branch id row ts, parent⟩ :: keptBelow oks path id ts.zipIdx :=
  Tree.keptIn_branch rfl

/-- When its children are filtered, an accepted branch gets its copy. -/
theorem pruned_finishCopy {oks : Nat → List Nat → Bool} {parent : Option Item} {kept : List Item}
    {us : List Tree} (hstand : (Tree.branch id row ts).StandsIn s.store)
    (hN : ∀ x ∈ (Tree.branch id row ts).ids, N x)
    (hjudge : Judges (reachedBelow oks path id ts.zipIdx)
      (fun p => verdictsBelow oks (p.path.drop path.length)) s s' (.ok kept) calls)
    (hkeep : ∀ c ∈ calls, c.Keeps N R)
    (hus : kept.filter (fun i => !i.isNothing) = us.map Tree.item)
    (hpruned : Pruned N R s.store s'.store (path.length + 1) (keptBelow oks path id ts.zipIdx) us)
    (hnew : HoldNew N R calls s.store
      (s'.store.withCopy id (kept.filter fun i => !i.isNothing))) :
    Pruned N R s.store (s'.store.withCopy id (kept.filter fun i => !i.isNothing)) path.length
      ((Tree.branch id row ts).keptIn (verdictsBelow oks) path parent)
      [.branch ⟨s'.store.nodes.size⟩ ⟨s'.store.rows.size⟩ us] := by
  obtain ⟨n, hn⟩ := (Tree.standsIn_branch.mp hstand).1.knows
  have hnodes := hjudge.nodes_bounds hkeep
  have hrows := hjudge.rows_bounds hkeep
  rw [keptIn_verdictsBelow]
  rw [hus] at hnew ⊢
  -- the copy and its row are made behind all calls, so no call has made them
  refine hpruned.branch (hjudge.keeps hkeep)
    ((hjudge.keeps hkeep).node id (hN id (Tree.mem_ids_of_item rfl)) n hn) (fun p hp => ?_) ?_ ?_
  · obtain ⟨k, hk, hp⟩ := List.mem_flatMap.mp hp
    exact of_mem_keptIn
      (fun x hx => hN x (Tree.mem_ids_of_mem (List.fst_mem_of_mem_zipIdx hk) hx)) p hp
  · refine hnew.node _ hnodes.1 ?_ fun c hc hmakes => ?_
    · rw [Store.nodes_size_withCopy]
      exact Nat.lt_succ_self _
    · exact Nat.not_lt_of_le (hnodes.2 c hc).2 hmakes.2
  · refine hnew.row _ hrows.1 ?_ fun c hc hmakes => ?_
    · rw [Store.rows_size_withCopy]
      exact Nat.lt_succ_self _
    · exact Nat.not_lt_of_le (hrows.2 c hc).2 hmakes.2

end Children

/-- What is left to do for a node that is accepted: it is kept, and its children are filtered. -/
theorem filters_below {t : Tree} {N : NodeId → Prop} {R : RowId → Prop} {path : List Nat}
    {parent : Option Item} {answer : Item} {s s' : Scene σ} {r : Except Fault (Option Item)}
    {calls : List (Call σ)}
    (htree : ∀ id row ts, t = .branch id row ts → ∀ u ∈ ts, FiltersTree callback most u)
    (hlimit : t.height ≤ limit + 1) (hmost : ∀ b ∈ t.branches, b.2.2.length < most)
    (hstand : t.StandsIn s.store) (hN : ∀ id ∈ t.ids, N id) (hR : ∀ b ∈ t.branches, R b.2.1)
    (htrue : s.store.isTruthy answer = true)
    (hrun : record (filterBelow (recorded callback) most limit t.item answer) s = (r, s', calls))
    (hkeep : ∀ c ∈ calls, c.Keeps N R) :
    ∃ (ok : List Nat → Bool) (below : List Spot), ok [] = true ∧
      t.reachedIn ok path parent = ⟨path, t, parent⟩ :: below ∧
      Judges below (fun p => ok (p.path.drop path.length)) s s' r calls ∧
      ∀ kept, r = .ok kept → HoldNew N R calls s.store s'.store →
        ∃ us : List Tree, kept.toList.filter (fun i => !i.isNothing) = us.map Tree.item ∧
          Pruned N R s.store s'.store path.length (t.keptIn ok path parent) us := by
  cases t with
  | leaf i =>
    rw [Tree.item, record_filterBelow_of_leaf htrue hstand.2] at hrun
    obtain ⟨rfl, rfl, rfl⟩ : _ ∧ _ ∧ _ := by simpa only [Prod.mk.injEq] using hrun
    refine ⟨fun _ => true, [], rfl, Tree.reachedIn_leaf i, .nil _ s _, fun kept hkept _ => ?_⟩
    rw [← Except.ok.inj hkept, Tree.keptIn_leaf rfl]
    cases hi : i.isNothing with
    | true => exact ⟨[], by simp [hi], .nil ..⟩
    | false => exact ⟨[.leaf i], by simp [hi, Tree.item], .leaf hstand hN _⟩
  | branch id row ts =>
    have hwait : Waits N R limit most row (ts.map Tree.item) 0 ts s.store :=
      .of_branch hstand hlimit hmost hN hR
    have hcount : ts.length < most := hmost (id, row, ts) (by simp [Tree.branches])
    rw [Tree.item,
      record_filterBelow_of_children htrue (Tree.standsIn_branch.mp hstand).1.1] at hrun
    obtain ⟨e, hloop, rfl⟩ | ⟨kept₁, s₁, calls₁, more, hloop, hcopy, rfl⟩ :=
      record_bind_cases (recording_finishCopy (.node id)) hrun
    · -- a fault among the children: no copy is made, and nothing is to be shown of one
      obtain ⟨oks, hjudge, -⟩ :=
        filters_gather path (htree id row ts rfl) hwait hcount hloop hkeep
      exact ⟨verdictsBelow oks, _, rfl, reachedIn_verdictsBelow oks parent,
        hjudge.map fun _ => none, fun kept hkept => by cases hkept⟩
    · rw [record_finishCopy] at hcopy
      cases hcopy
      rw [List.append_nil] at hkeep ⊢
      obtain ⟨oks, hjudge, hresult⟩ :=
        filters_gather path (htree id row ts rfl) hwait hcount hloop hkeep
      -- the copy itself only adds a node and a row
      have hgrow : Grows s₁ { s₁ with
          store := s₁.store.withCopy id (kept₁.filter fun i => !i.isNothing) } :=
        Store.withCopy_keeps s₁.store id _
      refine ⟨verdictsBelow oks, _, rfl, reachedIn_verdictsBelow oks parent,
        hjudge.finish hgrow _, fun kept hkept hnew => ?_⟩
      obtain ⟨us, hus, hpruned⟩ := hresult kept₁ rfl (hnew.of_le hgrow)
      rw [← Except.ok.inj hkept]
      exact ⟨_, rfl, pruned_finishCopy hstand hN hjudge hkeep hus hpruned hnew⟩

/-- A tree is filtered when the trees below it are. -/
theorem filtersTree_of_children {t : Tree}
    (htree : ∀ id row ts, t = .branch id row ts → ∀ u ∈ ts, FiltersTree callback most u) :
    FiltersTree callback most t := by
  intro N R limit path parent s s' r calls hlimit hmost hstand hN hR hrun hkeep
  obtain ⟨limit, rfl⟩ := Tree.exists_limit hlimit
  let c := callOf callback ⟨t.item, path.getLast?, parent⟩ s
  have hfirst : ∀ ok : List Nat → Bool, (¬ c.Fails → ok [] = c.isTrue) →
      Judges [⟨path, t, parent⟩] (fun p => ok (p.path.drop path.length)) s c.after c.answer
        [c] := fun ok hok =>
    Judges.call (c := c) (p := ⟨path, t, parent⟩) rfl fun h => by rw [List.drop_length, hok h]
  obtain ⟨hrefused, hr, rfl, rfl⟩ | ⟨i, calls₁, hanswer, hi, hrest, rfl⟩ :=
    record_filterNode_cases (c := c) rfl hrun
  · -- a verdict that refuses says that nothing below is reached
    refine ⟨fun _ => false, ?_, fun kept hkept _ => ⟨[], ?_, ?_⟩⟩
    · rw [Tree.reachedIn_of_refused rfl, hr]
      exact (hfirst (fun _ => false) fun _ => hrefused.symm).map fun _ => none
    · obtain ⟨-, -, rfl⟩ := exists_of_map_eq_ok (hr.symm.trans hkept)
      rfl
    · rw [Tree.keptIn_of_refused rfl]
      exact .nil ..
  · have hkept : s.store.Keeps N R c.after.store := hkeep c (List.mem_append_left _ (by simp))
    have hkeep₁ : ∀ d ∈ calls₁, d.Keeps N R := fun d hd => hkeep d (List.mem_append_right _ hd)
    obtain ⟨ok, below, hok, hlisting, hjudge, hresult⟩ := filters_below htree hlimit hmost
      (hstand.of_keeps_rows hkept hN hR) hN hR hi hrest hkeep₁
    have hroot := hfirst ok fun _ => hok.trans ((Call.isTrue_of_ok hanswer).trans hi).symm
    rw [hanswer] at hroot
    refine ⟨ok, ?_, fun kept hkept' hnew => ?_⟩
    · rw [hlisting]
      exact hroot.append hjudge
    · have hnew' := hroot.holdNew_right (fun d hd => hkeep d (List.mem_append_left _ hd)) hnew
      obtain ⟨us, hus, hpruned⟩ := hresult kept hkept' hnew'
      exact ⟨us, hus, hpruned.of_first hkept⟩

/-- A filter filters every tree that stands in the store. -/
theorem filtersTree (callback : Callback σ) (most : Nat) (t : Tree) :
    FiltersTree callback most t := by
  induction t with
  | leaf i => exact filtersTree_of_children fun id row ts h => by cases h
  | branch id row ts ih =>
    refine filtersTree_of_children fun id' row' ts' h => ?_
    obtain ⟨-, -, rfl⟩ := Tree.branch.inj h
    exact ih

end Walk

end NotebookTree

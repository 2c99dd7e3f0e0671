import NotebookTree.Proofs.Store.Rows
import NotebookTree.Proofs.Walk.Order
import NotebookTree.Proofs.Walk.Transform.Run
import NotebookTree.Walk.CellRule

/-!
# Transforms that meet nothing to do

A callback may have something to do for nodes of one type only. Where there is no such node, a
transform gives each node with children a new row with the children that it had, and comes back to
where it began; where it goes deeper than the limit, it fails, whatever the callback.

## Main definitions

* `Walk.ActsOnlyOn`: a callback has something to do for nodes of one type only.
* `Quiet`: what a walk with a limit meets below an item has other types, and comes to an end.

## Main results

* `Walk.outcome_transformNode_quiet`: the transform of an item below which it is quiet.
* `Walk.outcome_transformNode_below`: the transform of a node below whose children it is quiet.
* `Walk.outcome_transformNode_tooDeep`: the transform of what lies too deep.
-/

namespace NotebookTree

open Store (Holds Reads Reseats Refreshes)

/-! ## Types -/

/-- An item has a type that is not the given one. -/
def HasOtherType (word : String) (s : Store) (i : Item) : Prop :=
  ∃ type, s.attribute? i "type" = some (.plain (.text type)) ∧ type ≠ word

/-- An item that reads as a tree free of a type has another one. -/
theorem HasOtherType.of_reads {word : String} {s : Store} {i : Item} {v : Value}
    (h : Reads s i v) (hv : FreeOf word v) : HasOtherType word s i := by
  obtain ⟨type, htype, hne⟩ := hv v .root
  exact ⟨type, by rw [h "type" (by decide), ← Value.type?, htype, Option.map_some], hne⟩

/-- An item with another type does not have this one. -/
theorem HasOtherType.hasWord {word : String} {s : Store} {i : Item} (h : HasOtherType word s i) :
    Walk.hasWord s i "type" word = false := by
  obtain ⟨type, htype, hne⟩ := h
  have hview : s.fieldView i "type" = .text type := by
    rw [Store.fieldView, htype]
    rfl
  rw [Walk.hasWord, hview]
  simpa [Value.equals, Value.equalsScalar] using hne

/-- A walk with a limit comes to an end below an item, and meets no node of a type. -/
def Quiet (word : String) (s : Store) : Nat → Item → Prop
  | 0, _ => False
  | limit + 1, i => HasOtherType word s i ∧ ∀ row, s.childRow? i = some row →
      ∃ items, s.row? row = some items ∧ ∀ j ∈ items, Quiet word s limit j

/-- It stays quiet when nodes lose children, but get none. -/
theorem Quiet.of_reseats {word : String} {s s' : Store} {R : NodeId → List Item → List Item → Prop}
    (hs : Reseats R s s') (hR : ∀ id xs ys, R id xs ys → ys ⊆ xs) :
    ∀ {limit : Nat} {i : Item}, Quiet word s limit i → Quiet word s' limit i := by
  intro limit
  induction limit with
  | zero => exact fun h => h.elim
  | succ limit ih =>
    intro i h
    obtain ⟨⟨type, htype, hne⟩, hbelow⟩ := h
    refine ⟨⟨type, by rw [hs.attribute? i (by decide), htype], hne⟩, fun row' hrow' => ?_⟩
    cases hrow : s.childRow? i with
    | none =>
      rw [hs.childRow?_eq_none hrow] at hrow'
      cases hrow'
    | some row =>
      obtain ⟨items, hitems, hquiet⟩ := hbelow row hrow
      obtain ⟨id, rfl⟩ := Tree.exists_id_of_childRow? hrow
      -- the children are some of those that there were, in another row
      obtain ⟨row'', items', hc, hsub⟩ := hs.children id row items ⟨hrow, hitems⟩
      obtain rfl : row'' = row' := Option.some.inj (hc.1.symm.trans hrow')
      exact ⟨items', hc.2, fun j hj => ih (hquiet j (hR id items items' hsub hj))⟩

/-- What is quiet is so when rows are replaced by rows with the same items. -/
theorem Quiet.of_refreshes {word : String} {s s' : Store} {limit : Nat} {i : Item}
    (h : Quiet word s limit i) (hs : Refreshes s s') : Quiet word s' limit i := by
  refine h.of_reseats hs fun id xs ys heq => ?_
  rw [heq]
  exact List.Subset.refl xs

/-- It is quiet in a tree that the limit is enough for and that has no node of the type. -/
theorem Quiet.of_holds {word : String} {s : Store} {p : Held} (h : Holds s p) :
    ∀ {limit : Nat}, FreeOf word p.tree → p.tree.levels ≤ limit → Quiet word s limit p.item := by
  induction h with
  | @leaf k fields id hk hfields hnode =>
    intro limit hfree hlevels
    rw [Value.levels] at hlevels
    obtain ⟨limit, rfl⟩ : ∃ n, limit = n + 1 := ⟨limit - 1, by omega⟩
    refine ⟨.of_reads (Holds.leaf hk hfields hnode).reads hfree, fun row hrow => ?_⟩
    rw [Store.childRow?_of_plainFields hnode] at hrow
    cases hrow
  | @branch k before after id row parts hk hbefore hafter hnode hrow hparts hnodup ih =>
    intro limit hfree hlevels
    rw [Value.levels] at hlevels
    obtain ⟨limit, rfl⟩ : ∃ n, limit = n + 1 := ⟨limit - 1, by omega⟩
    have hholds := Holds.branch hk hbefore hafter hnode hrow hparts hnodup
    have hc := Store.hasChildren_of_between (by rwa [has_plainFields]) hnode hrow
    refine ⟨.of_reads hholds.reads hfree, fun row' hrow' => ?_⟩
    obtain rfl : row = row' := Option.some.inj (hc.1.symm.trans hrow')
    refine ⟨_, hrow, fun j hj => ?_⟩
    obtain ⟨q, hq, rfl⟩ := List.mem_map.mp hj
    have hmem : q.tree ∈ parts.map Held.tree := List.mem_map_of_mem hq
    -- a child is free of the type, and less deep than the whole
    refine ih q hq (hfree.child ?_) ?_
    · rwa [Value.children?_branch hbefore]
    · have hle := levels_le_levelsOfAll hmem
      have hall := levelsOfAll_le_levelsOfFields (parts.map Held.tree) after before
      omega

namespace Walk

variable {σ : Type} {word : String} {callback : Callback σ} {reverse : Bool}

/-- A callback has something to do for nodes of one type only. -/
def ActsOnlyOn (word : String) (callback : Callback σ) : Prop :=
  ∀ (s : Scene σ) (i : Item) (index : Option Nat) (parent : Option Item),
    hasWord s.store i "type" word = false →
      outcome (resolve (callback i index parent)) s = (.ok .nothing, s)

/-- What has another type stays. -/
theorem outcome_answerFor_of_otherType (hcallback : ActsOnlyOn word callback) {s : Scene σ}
    {place : Place} (h : HasOtherType word s.store place.node) :
    outcome (answerFor callback place) s = (.ok place.node, s) := by
  rw [answerFor, outcome_bind_ok (hcallback s _ _ _ h.hasWord), outcome_getStore_bind]
  rfl

/-! ## The children of a node -/

/-- Children with their indices, in the order in which they are transformed. -/
def turns (reverse : Bool) (items : List Item) : List (Item × Nat) :=
  if reverse then items.zipIdx.reverse else items.zipIdx

/-- The turns are the items with their places. -/
theorem mem_turns {items : List Item} {k : Item × Nat} :
    k ∈ turns reverse items ↔ items[k.2]? = some k.1 := by
  rw [← List.mem_zipIdx_iff_getElem?]
  cases reverse <;> simp [turns]

/-- The item of a turn is one of the items. -/
theorem mem_of_mem_turns {items : List Item} {k : Item × Nat} (h : k ∈ turns reverse items) :
    k.1 ∈ items := List.mem_of_getElem? (mem_turns.mp h)

/-- The indices are those of the places that are gone through. -/
theorem map_snd_turns (items : List Item) :
    (turns reverse items).map Prod.snd = places items.length reverse := by
  have hsnd : items.zipIdx.map Prod.snd = List.range items.length := by
    rw [List.zipIdx_map_snd, List.range_eq_range']
  cases reverse with
  | true => simp only [turns, places, List.map_reverse, hsnd, if_true]
  | false => simp only [turns, places, hsnd, Bool.false_eq_true, if_false]

/-- What comes of the children in that order is put in order again. -/
theorem inOrder_map_fst (items : List Item) :
    (let results := (turns reverse items).map Prod.fst
    if reverse then results.reverse else results) = items := by
  cases reverse <;> simp [turns]

/-- A node with children is transformed after its children are. -/
theorem outcome_transformNode_of_hasChildren {limit : Nat} {s : Scene σ} {id : NodeId}
    {row : RowId} {items : List Item} (h : s.store.HasChildren id row items) (index : Option Nat)
    (parent : Option Item) :
    outcome (transformNode callback reverse (limit + 1) (.node id) index parent) s =
      outcome ((places items.length reverse).mapM (transformChild callback reverse limit id row) >>=
        finishNode callback reverse ⟨.node id, index, parent⟩) s := by
  rw [transformNode, outcome_getStore_bind, h.1, ← h.rowItems]
  rfl

/-- A transform comes back to where it began, and nodes may only get new rows of their children. -/
def ComesBack (callback : Callback σ) (reverse : Bool) (limit : Nat) (word : String) : Prop :=
  ∀ (s : Scene σ) (i : Item) (index : Option Nat) (parent : Option Item),
    Quiet word s.store limit i → ∃ store, Refreshes s.store store ∧
      outcome (transformNode callback reverse limit i index parent) s =
        (.ok i, { s with store := store })

/-- The loop through children below which it is quiet comes back to each of them. -/
theorem outcome_mapM_quiet {limit : Nat} (hback : ComesBack callback reverse limit word)
    (id : NodeId) {row : RowId} {items : List Item} {s : Scene σ}
    (hrow : s.store.row? row = some items) : ∀ {ks : List (Item × Nat)},
      (∀ k ∈ ks, items[k.2]? = some k.1 ∧ Quiet word s.store limit k.1) →
        ∃ store, Refreshes s.store store ∧
          outcome ((ks.map Prod.snd).mapM (transformChild callback reverse limit id row)) s =
            (.ok (ks.map Prod.fst), { s with store := store })
  | [], _ => ⟨s.store, .refl _, rfl⟩
  | k :: ks, h => by
    obtain ⟨hitem, hquiet⟩ := h k List.mem_cons_self
    obtain ⟨store, hstore, hrun⟩ := hback s k.1 (some k.2) (some (.node id)) hquiet
    have hchild : outcome (transformChild callback reverse limit id row k.2) s =
        (.ok k.1, { s with store := store }) := by
      rw [transformChild, outcome_bind_ok (outcome_itemAt s hrow hitem), hrun]
    -- transforming the first child left the others quiet
    have htail : ∀ j ∈ ks, items[j.2]? = some j.1 ∧ Quiet word store limit j.1 := fun j hj =>
      ⟨(h j (List.mem_cons_of_mem _ hj)).1,
        (h j (List.mem_cons_of_mem _ hj)).2.of_refreshes hstore⟩
    obtain ⟨last, hlast, hruns⟩ := outcome_mapM_quiet hback id
      (s := { s with store := store }) (hstore.row row items hrow) htail
    refine ⟨last, hstore.trans hlast, ?_⟩
    rw [List.map_cons, List.mapM_cons, outcome_bind_ok hchild, outcome_bind_ok hruns]
    rfl

/-- A node below whose children it is quiet gets its children again, and is then called for. -/
theorem outcome_transformNode_below {limit : Nat} (hback : ComesBack callback reverse limit word)
    {s : Scene σ} {id : NodeId} {row : RowId} {items : List Item}
    (hc : s.store.HasChildren id row items) (hquiet : ∀ j ∈ items, Quiet word s.store limit j)
    (index : Option Nat) (parent : Option Item) :
    ∃ store, Refreshes s.store store ∧
      outcome (transformNode callback reverse (limit + 1) (.node id) index parent) s =
        outcome (answerFor callback ⟨.node id, index, parent⟩) { s with store := store } := by
  have hks : ∀ k ∈ turns reverse items,
      items[k.2]? = some k.1 ∧ Quiet word s.store limit k.1 := fun k hk =>
    ⟨mem_turns.mp hk, hquiet k.1 (mem_of_mem_turns hk)⟩
  obtain ⟨store, hstore, hruns⟩ := outcome_mapM_quiet hback id hc.2 hks
  obtain ⟨row', hc'⟩ := hstore.hasChildren hc
  refine ⟨store.withChildren id items, hstore.trans (Store.refreshes_withChildren hc'), ?_⟩
  rw [outcome_transformNode_of_hasChildren hc, ← map_snd_turns, outcome_bind_ok hruns]
  -- the children come back as they were, so the node gets a row with the same items
  have hfinish : finishNode callback reverse ⟨.node id, index, parent⟩
      ((turns reverse items).map Prod.fst) = (do
        setChildren (.node id) items
        answerFor callback ⟨.node id, index, parent⟩) := by
    rw [finishNode, inOrder_map_fst]
  rw [hfinish]
  rfl

/-- A transform comes back to an item below which it is quiet. -/
theorem outcome_transformNode_quiet (hcallback : ActsOnlyOn word callback) (reverse : Bool)
    (limit : Nat) : ComesBack callback reverse limit word := by
  induction limit with
  | zero => exact fun _ _ _ _ h => h.elim
  | succ limit ih =>
    intro s i index parent h
    obtain ⟨htype, hbelow⟩ := h
    cases hrow : s.store.childRow? i with
    | none =>
      refine ⟨s.store, .refl _, ?_⟩
      have hrun : outcome (transformNode callback reverse (limit + 1) i index parent) s =
          outcome (answerFor callback ⟨i, index, parent⟩) s := by
        rw [transformNode, outcome_getStore_bind, hrow]
        rfl
      -- the callback does nothing for another type
      rw [hrun, outcome_answerFor_of_otherType hcallback htype]
    | some row =>
      obtain ⟨items, hitems, hquiet⟩ := hbelow row hrow
      obtain ⟨id, rfl⟩ := Tree.exists_id_of_childRow? hrow
      obtain ⟨store, hstore, hrun⟩ :=
        outcome_transformNode_below ih ⟨hrow, hitems⟩ hquiet index parent
      obtain ⟨type, hword, hne⟩ := htype
      refine ⟨store, hstore, ?_⟩
      rw [hrun, outcome_answerFor_of_otherType hcallback
        ⟨type, by rw [hstore.attribute? _ (by decide), hword], hne⟩]

/-! ## What lies too deep -/

/-- A transform fails below an item of a tree if the limit is not enough for what lies there. The
store may have been refreshed since it held the tree. -/
def FailsTooDeep (callback : Callback σ) (reverse : Bool) (limit : Nat) (word : String) : Prop :=
  ∀ (store : Store) (s : Scene σ) (p : Held) (index : Option Nat) (parent : Option Item),
    Holds store p → FreeOf word p.tree → Refreshes store s.store →
      ¬ Quiet word store limit p.item →
      ∃ next, outcome (transformNode callback reverse limit p.item index parent) s =
        (.error .tooDeep, next)

/-- The loop through children fails when it comes to the first below which the limit is not
enough. -/
theorem outcome_mapM_tooDeep {limit : Nat} (hback : ComesBack callback reverse limit word)
    (hfails : FailsTooDeep callback reverse limit word) {store : Store} {parts : List Held}
    (hparts : ∀ q ∈ parts, Holds store q ∧ FreeOf word q.tree) (id : NodeId) {row : RowId}
    {items : List Item} : ∀ {ks : List (Item × Nat)} {s : Scene σ}, Refreshes store s.store →
      s.store.row? row = some items →
      (∀ k ∈ ks, items[k.2]? = some k.1 ∧ ∃ q ∈ parts, q.item = k.1) →
      (∃ k ∈ ks, ¬ Quiet word store limit k.1) →
        ∃ next, outcome ((ks.map Prod.snd).mapM (transformChild callback reverse limit id row)) s =
          (.error .tooDeep, next)
  | [], _, _, _, _, hdeep => by
    obtain ⟨k, hk, -⟩ := hdeep
    cases hk
  | k :: ks, s, hs, hrow, h, hdeep => by
    obtain ⟨hitem, q, hq, hqk⟩ := h k List.mem_cons_self
    have hchild : outcome (transformChild callback reverse limit id row k.2) s =
        outcome (transformNode callback reverse limit k.1 (some k.2) (some (.node id))) s := by
      rw [transformChild, outcome_bind_ok (outcome_itemAt s hrow hitem)]
    -- a child that is not too deep comes back, and the one that is comes later
    by_cases hquiet : Quiet word store limit k.1
    · obtain ⟨next, hnext, hrun⟩ :=
        hback s k.1 (some k.2) (some (.node id)) (hquiet.of_refreshes hs)
      obtain ⟨j, hj, hjdeep⟩ := hdeep
      obtain rfl | hj := List.mem_cons.mp hj
      · exact absurd hquiet hjdeep
      obtain ⟨last, hlast⟩ := outcome_mapM_tooDeep hback hfails hparts id
        (s := { s with store := next }) (hs.trans hnext) (hnext.row row items hrow)
        (fun j hj => h j (List.mem_cons_of_mem _ hj)) ⟨j, hj, hjdeep⟩
      refine ⟨last, ?_⟩
      rw [List.map_cons, List.mapM_cons, outcome_bind_ok (hchild.trans hrun), outcome_bind, hlast]
    · obtain ⟨next, hrun⟩ := hfails store s q (some k.2) (some (.node id)) (hparts q hq).1
        (hparts q hq).2 hs (hqk ▸ hquiet)
      rw [hqk] at hrun
      exact ⟨next, by rw [List.map_cons, List.mapM_cons, outcome_bind, hchild, hrun]⟩

/-- A transform fails for a node if the limit is not enough for what lies below its children. -/
theorem outcome_transformNode_below_tooDeep {limit : Nat}
    (hback : ComesBack callback reverse limit word)
    (hfails : FailsTooDeep callback reverse limit word) {store : Store} {s : Scene σ}
    {parts : List Held} (hparts : ∀ q ∈ parts, Holds store q ∧ FreeOf word q.tree)
    (hs : Refreshes store s.store) {id : NodeId} {row : RowId}
    (hc : store.HasChildren id row (parts.map Held.item))
    (hdeep : ∃ q ∈ parts, ¬ Quiet word store limit q.item) (index : Option Nat)
    (parent : Option Item) :
    ∃ next, outcome (transformNode callback reverse (limit + 1) (.node id) index parent) s =
      (.error .tooDeep, next) := by
  obtain ⟨row', hc'⟩ := hs.hasChildren hc
  have hks : ∀ k ∈ turns reverse (parts.map Held.item),
      (parts.map Held.item)[k.2]? = some k.1 ∧ ∃ q ∈ parts, q.item = k.1 := fun k hk =>
    ⟨mem_turns.mp hk, List.mem_map.mp (mem_of_mem_turns hk)⟩
  obtain ⟨q, hq, hquiet⟩ := hdeep
  -- the child that is too deep has a turn of its own
  obtain ⟨i, hi⟩ := List.mem_iff_getElem?.mp (List.mem_map_of_mem (f := Held.item) hq)
  obtain ⟨next, hrun⟩ := outcome_mapM_tooDeep hback hfails hparts id hs hc'.2 hks
    ⟨(q.item, i), mem_turns.mpr hi, hquiet⟩
  refine ⟨next, ?_⟩
  rw [outcome_transformNode_of_hasChildren hc', ← map_snd_turns, outcome_bind, hrun]

/-- A transform fails for an item if the limit is not enough for what lies there. -/
theorem outcome_transformNode_tooDeep (hcallback : ActsOnlyOn word callback) (reverse : Bool)
    (limit : Nat) : FailsTooDeep callback reverse limit word := by
  induction limit with
  | zero => exact fun _ s _ _ _ _ _ _ _ => ⟨s, rfl⟩
  | succ limit ih =>
    intro store s p index parent hp hfree hs hdeep
    cases hp with
    | leaf hk hfields hnode =>
      refine absurd ⟨.of_reads (Holds.leaf hk hfields hnode).reads hfree, fun row hrow => ?_⟩ hdeep
      rw [Store.childRow?_of_plainFields hnode] at hrow
      cases hrow
    | @branch k before after id row parts hk hbefore hafter hnode hrow hparts hnodup =>
      have hc : store.HasChildren id row (parts.map Held.item) :=
        Store.hasChildren_of_between (by rwa [has_plainFields]) hnode hrow
      have hbelow : ∀ q ∈ parts, Holds store q ∧ FreeOf word q.tree := fun q hq => by
        refine ⟨hparts q hq, hfree.child ?_⟩
        rw [Value.children?_branch hbefore]
        exact List.mem_map_of_mem hq
      refine outcome_transformNode_below_tooDeep
        (outcome_transformNode_quiet hcallback reverse limit) ih hbelow hs hc ?_ index parent
      -- if it were quiet below all children, it would be quiet below the node
      refine Classical.byContradiction fun hnone => hdeep ⟨?_, fun row' hrow' => ?_⟩
      · exact .of_reads (Holds.branch hk hbefore hafter hnode hrow hparts hnodup).reads hfree
      · obtain rfl : row = row' := Option.some.inj (hc.1.symm.trans hrow')
        refine ⟨_, hrow, fun j hj => ?_⟩
        obtain ⟨q, hq, rfl⟩ := List.mem_map.mp hj
        exact Classical.byContradiction fun hquiet => hnone ⟨q, hq, hquiet⟩

end Walk

end NotebookTree

import NotebookTree.Proofs.Walk.Appending.Transform
import NotebookTree.Proofs.Walk.Appending.Visit
import NotebookTree.Proofs.Walk.Transform

/-!
# Siblings appended during a walk

A callback that appends nodes to the children of the parent it is told does not prolong the walk: it
is called for the occurrences in the tree as it was when the walk began, and for no other. A visit
leaves what was appended where it is, behind the children; a transform leaves it behind with the old
row.

Rows must not be shared. In a tree of nodes no row with something in it is, if no node stands at two
places (`Tree.StandsIn.unshared`).
-/

namespace NotebookTree

variable {σ : Type}

/-- In a tree of nodes in which no node stands twice, no row with something in it is the row of two
nodes: what is in it would stand twice. -/
theorem Tree.StandsIn.unshared {s : Store} {t : Tree} (hstand : t.StandsIn s)
    (hnodup : t.ids.Nodup) (hnodes : ∀ p ∈ t.preorder false, ∃ id, p.tree.item = .node id) :
    s.Unshared t.ids := by
  -- the children of a node of the tree are those of the branch at which it stands
  have hbranch : ∀ id ∈ t.ids, ∀ row items, s.HasChildren id row items →
      ∃ p ∈ t.preorder false, ∃ ts, p.tree = .branch id row ts ∧ items = ts.map Tree.item := by
    intro id hid row items hchildren
    obtain ⟨p, hp, hpid⟩ := Tree.exists_spot_of_mem_ids hid false false [] none
    have hpstand := hstand.of_mem_listing hp
    cases htree : p.tree with
    | leaf i =>
      rw [htree] at hpid hpstand
      obtain rfl : i = .node id := hpid
      cases hpstand.2.symm.trans hchildren.1
    | branch other own ts =>
      rw [htree] at hpid hpstand
      obtain rfl : other = id := Item.node.inj hpid
      obtain ⟨rfl, rfl⟩ := (Tree.standsIn_branch.mp hpstand).1.unique hchildren
      exact ⟨p, hp, ts, htree, rfl⟩
  intro id hid other hother row items hchildren hfilled hrow
  obtain ⟨p, hp, ts, hts, rfl⟩ := hbranch id hid row items hchildren
  obtain ⟨q, hq, us, hus, hitems⟩ := hbranch other hother row _ ⟨hrow, hchildren.2⟩
  cases ts with
  | nil => exact absurd rfl hfilled
  | cons u ts =>
    cases us with
    | nil => cases hitems
    | cons v us =>
      rw [List.map_cons, List.map_cons, List.cons.injEq] at hitems
      have hu := Tree.child_mem_listing (k := (u, 0)) hp hts (by simp [List.zipIdx_cons])
      have hv := Tree.child_mem_listing (k := (v, 0)) hq hus (by simp [List.zipIdx_cons])
      obtain ⟨y, hy⟩ := hnodes _ hu
      have heq := Tree.eq_of_mem_listing hnodup hu hv hy (hitems.1 ▸ hy)
      exact (Item.node.inj (Option.some.inj (congrArg Spot.parent heq))).symm

namespace Walk

variable {callback : Callback σ} {reverse : Bool} {t : Tree} {limit : Nat} {s final : Scene σ}
  {calls : List (Call σ)}

/-- Before the walk nothing has changed, at the root and in the whole tree. -/
theorem unchanged_root (hlimit : t.height ≤ limit) (hstand : t.StandsIn s.store)
    (hnodup : t.ids.Nodup) : Unchanged s.store t.ids limit t none s.store :=
  ⟨hlimit, hstand, hstand, hnodup, List.Subset.refl _, .refl _, .none⟩

/-- What a call appends was not in the store when the walk began. -/
theorem not_knows_of_mem_appendedTo {D : NodeId → Prop}
    (hchain : Chained (MovesChildren D) s calls final) (happ : ∀ c ∈ calls, c.Appends) {c : Call σ}
    (hc : c ∈ calls) {row : RowId} {i : Item} (hi : i ∈ c.appendedTo row) :
    ¬ s.store.Knows i := by
  obtain ⟨id, rfl, hnew, -⟩ := (happ c hc).fresh row i hi
  intro hknown
  have hlt := Store.knows_iff_lt.mp ((hchain.keeps_before happ hc).knows hknown)
  omega

/-- A visit whose calls append and do not fail visits the tree as it was. -/
theorem visits_of_appends {result : Except Fault Unit} (hlimit : t.height ≤ limit)
    (hstand : t.StandsIn s.store) (hnodup : t.ids.Nodup) (hrows : s.store.Unshared t.ids)
    (hrun : record (visit limit t.item (recorded callback) reverse) s = (result, final, calls))
    (hgo : ∀ c ∈ calls, ¬ c.Fails) (happ : ∀ c ∈ calls, c.Appends) :
    ∃ s' r, Visits (t.preorder reverse) s s' r calls ∧ final.store = s'.store ∧
      result = .ok () := by
  rcases hnode : record (visitNode (recorded callback) reverse limit t.item none none) s with
    ⟨r, s₁, calls₁⟩
  obtain ⟨last, hvisit, hstore, -⟩ := record_visit hnode
  rw [hvisit] at hrun
  obtain ⟨rfl, rfl, rfl⟩ : _ ∧ _ ∧ _ := by simpa only [Prod.mk.injEq] using hrun
  have hvisits := (visitsAppending callback reverse hrows (fun _ => hstand.knows) t limit [] none s
    s₁ r calls₁ (unchanged_root hlimit hstand hnodup) hnode happ).1
  refine ⟨s₁, r, hvisits, hstore, ?_⟩
  -- a fault would be that of a call, and none fails
  cases r with
  | ok goesOn => rfl
  | error e =>
    obtain ⟨c, hc, hstop⟩ := hvisits.exists_stops (by simp)
    obtain ⟨i, hi, histop⟩ := hstop.resolve_left (hgo c hc)
    cases hvisits.stopped c hc i hi histop

/-- Calls that do not fail, and that only append nodes which they make to the children of the parent
they are told, do not prolong a walk through a tree in which no node stands twice and no row with
something in it is shared.

A visit calls back for the occurrences in the tree as it was, up to the first call that answers with
the signal to stop, and for nothing that was appended. Behind the last call every node with children
has those it had, and then what was appended to them, in the order of the calls.

A transform calls back for all the occurrences in the tree as it was, parents last. Behind the last
call every node with children has as many as it had, the results for these, and nothing that was
appended but what is such a result. -/
theorem append_siblings (hlimit : t.height ≤ limit) (hstand : t.StandsIn s.store)
    (hnodup : t.ids.Nodup) (hrows : s.store.Unshared t.ids) :
    (∀ result final calls,
      record (visit limit t.item (recorded callback) reverse) s = (result, final, calls) →
      (∀ c ∈ calls, ¬ c.Fails ∧ c.Appends) →
      outcome (visit limit t.item callback reverse) s = (.ok (), final) ∧
        CutAt Call.Stops ((t.preorder reverse).map Spot.place) calls ∧
        (∀ c ∈ calls, ∀ d ∈ calls, ∀ row, c.place.node ∉ d.appendedTo row) ∧
        ∀ p ∈ t.preorder reverse, ∀ id row ts, p.tree = .branch id row ts →
          final.store.HasChildren id row
            (ts.map Tree.item ++ calls.flatMap fun c => c.appendedTo row)) ∧
      ∀ result final calls,
        record (transform limit t.item (recorded callback) reverse) s = (result, final, calls) →
        (∀ c ∈ calls, ¬ c.Fails ∧ c.Appends) →
        outcome (transform limit t.item callback reverse) s = (result, final) ∧
          calls.map Call.place = (t.postorder reverse).map Spot.place ∧
          (∃ c, calls.getLast? = some c ∧ result = .ok c.result) ∧
          ∀ p ∈ t.postorder reverse, ∀ id row ts, p.tree = .branch id row ts →
            ∃ row' items, final.store.HasChildren id row' items ∧ items.length = ts.length ∧
              HoldsResults calls id (ts.map Tree.item) items ∧
              ∀ c ∈ calls, ∀ old, ∀ x ∈ c.appendedTo old, (∀ d ∈ calls, d.result ≠ x) →
                x ∉ items := by
  refine ⟨fun result final calls hrun hcalls => ?_, fun result final calls hrun hcalls => ?_⟩
  · have happ : ∀ c ∈ calls, c.Appends := fun c hc => (hcalls c hc).2
    obtain ⟨s₁, r, hvisits, hstore, rfl⟩ := visits_of_appends hlimit hstand hnodup hrows hrun
      (fun c hc => (hcalls c hc).1) happ
    have houtcome := outcome_of_record
      (visit_alike (recorded_alike callback) limit t.item reverse) hrun
    refine ⟨houtcome, hvisits.cut, fun c hc d hd row hmem => ?_, fun p hp id row ts htree => ?_⟩
    · -- what is called for was there when the walk began
      obtain ⟨p, hp, hplace⟩ := List.mem_map.mp (hvisits.cut.place_mem hc)
      refine not_knows_of_mem_appendedTo hvisits.moves happ hd hmem ?_
      rw [← hplace]
      exact (hstand.of_mem_listing hp).knows_item
    · have hchildren := (Tree.standsIn_branch.mp (htree ▸ hstand.of_mem_listing hp)).1
      rw [hstore]
      refine ⟨?_, hvisits.moves.row?_append happ hchildren.2⟩
      rw [(hvisits.moves.keeps happ).childRow?_eq (fun h => h) hchildren.knows, hchildren.1]
  · have hgo : ∀ c ∈ calls, ¬ c.Fails := fun c hc => (hcalls c hc).1
    obtain ⟨hrw, hlast, -, -⟩ := rewritesAppending callback reverse hrows (fun _ => hstand.knows) t
      limit [] none s final result calls (unchanged_root hlimit hstand hnodup) hrun hgo
      fun c hc => (hcalls c hc).2
    have hplaces := hrw.cut.whole hgo
    have houtcome := outcome_of_record
      (transform_alike (recorded_alike callback) limit t.item reverse) hrun
    refine ⟨houtcome, hplaces, hlast, fun p hp id row ts htree => ?_⟩
    obtain ⟨row', items, hchildren, hresults⟩ := hrw.held p hp id row ts htree
      (called_of_mem_done hplaces hp (by rw [htree, Tree.item]))
    refine ⟨row', items, hchildren, ?_, hresults, fun c hc old x hx hnot hmem => ?_⟩
    · rw [hresults.length, List.length_map]
    · obtain ⟨i, hi⟩ := List.mem_iff_getElem?.mp hmem
      obtain ⟨d, hd, -, -, hresult⟩ := (hresults.result i x).mp hi
      exact hnot d hd hresult

end Walk

/-! ## A callback that appends -/

namespace Store

variable (s : Store)

/-- A store in which a new node has been appended to the children of an item, if it has any. -/
def withSibling (parent : Option Item) : Store :=
  match parent.bind s.childRow? with
  | none => s
  | some row => (s.newNode ⟨.html, []⟩).2.setRow row (s.rowItems row ++ [.node ⟨s.nodes.size⟩])

/-- A sibling leaves the nodes that are there. -/
theorem node?_withSibling (parent : Option Item) {id : NodeId} {n : NodeState}
    (h : s.node? id = some n) : (s.withSibling parent).node? id = some n := by
  rw [withSibling]
  cases parent.bind s.childRow? with
  | none => exact h
  | some row => exact (node?_newNode_of_lt s _ (lt_of_node? h)).trans h

/-- A sibling is put at the end of one row, that of the parent. -/
theorem row?_withSibling (parent : Option Item) (row : RowId) :
    (s.withSibling parent).row? row = (s.row? row).map fun items =>
      items ++ if parent.bind s.childRow? = some row then [.node ⟨s.nodes.size⟩] else [] := by
  rw [withSibling]
  cases parent.bind s.childRow? with
  | none => cases s.row? row <;> simp
  | some own =>
    -- the sibling goes into the parent's own row, and no other row changes
    by_cases h : row = own
    · subst h
      simp only [if_pos, rowItems, row?, setRow, newNode, Array.getElem?_setIfInBounds_self]
      cases hrow : s.rows[row.index]? with
      | none => simp [Array.getElem?_eq_none_iff.mp hrow]
      | some items => simp [(Array.getElem?_eq_some_iff.mp hrow).1]
    · have hne : some own ≠ some row := fun heq => h (Option.some.inj heq).symm
      simp only [row?_setRow_of_ne _ _ h, row?_newNode, if_neg hne, List.append_nil,
        Option.map_id']

end Store

namespace Walk

/-- A callback that appends a new node to the children of the parent it is told. -/
def appending : Callback σ := fun _ _ parent =>
  return .later (changeStore fun s => (.nothing, s.withSibling parent))

/-- A call appends the new node to the row of its parent, and to no other. -/
theorem appendedTo_appending (place : Place) (s : Scene σ) (row : RowId) :
    (callOf appending place s).appendedTo row =
      if place.parent.bind s.store.childRow? = some row ∧ (s.store.row? row).isSome then
        [.node ⟨s.store.nodes.size⟩] else [] := by
  have hafter : (callOf appending place s).after.store = s.store.withSibling place.parent := rfl
  have hbefore : (callOf appending place s).before = s := rfl
  have hplace : (callOf appending place s).place = place := rfl
  rw [Call.appendedTo, hplace, hbefore, hafter]
  by_cases h : place.parent.bind s.store.childRow? = some row
  · rw [if_pos h, Store.rowItems, Store.rowItems, Store.row?_withSibling]
    cases s.store.row? row with
    | none => simp
    | some items => simp [h]
  · rw [if_neg h, if_neg fun hand => h hand.1]

/-- Each call of the callback appends to the row of its parent alone. -/
theorem appends_appending (place : Place) (s : Scene σ) :
    ¬ (callOf appending place s).Fails ∧ (callOf appending place s).Appends := by
  refine ⟨Call.not_fails_iff.mpr ⟨.nothing, rfl⟩, fun id n => s.store.node?_withSibling _, ?_, ?_⟩
  · intro row items hrow
    have hbefore : s.store.row? row = some items := hrow
    have hafter : (callOf appending place s).after.store = s.store.withSibling place.parent := rfl
    rw [appendedTo_appending, hafter, Store.row?_withSibling, hbefore]
    simp
  · intro row i hi
    rw [appendedTo_appending] at hi
    split at hi
    · rename_i h
      refine ⟨_, List.mem_singleton.mp hi, Nat.le_refl _, ?_⟩
      have hafter : (callOf appending place s).after.store = s.store.withSibling place.parent := rfl
      -- the sibling is a node that was not there before the call
      rw [hafter, Store.withSibling, h.1]
      simp [Store.setRow, Store.newNode]
    · cases hi

/-- Through the sample from the last child to the first: two nodes come to the root. -/
theorem append_siblings_sample :
    (∃ result final calls, record (visit 3 Tree.sample.item (recorded appending) true)
        ⟨Store.sample, [], ()⟩ = (result, final, calls) ∧
      calls.flatMap (fun c => c.appendedTo ⟨0⟩) = [.node ⟨4⟩, .node ⟨5⟩] ∧
      CutAt Call.Stops ((Tree.sample.preorder true).map Spot.place) calls ∧
      final.store.HasChildren ⟨0⟩ ⟨0⟩ [.node ⟨1⟩, .node ⟨2⟩, .node ⟨4⟩, .node ⟨5⟩]) ∧
    ∃ result final calls, record (transform 3 Tree.sample.item (recorded appending) true)
        ⟨Store.sample, [], ()⟩ = (result, final, calls) ∧
      calls.map Call.place = (Tree.sample.postorder true).map Spot.place ∧
      ∃ row items, final.store.HasChildren ⟨0⟩ row items ∧ items.length = 2 := by
  have hnodup : Tree.sample.ids.Nodup := by decide
  have hrows : Store.sample.Unshared Tree.sample.ids := by
    refine Tree.sample_standsIn.unshared hnodup fun p hp => ?_
    simp only [Tree.preorder, Tree.sample, Tree.listing, Tree.listingAll, List.append_nil,
      List.cons_append, List.nil_append, Bool.false_eq_true, if_false, List.mem_cons,
      List.not_mem_nil, or_false] at hp
    rcases hp with rfl | rfl | rfl | rfl <;> exact ⟨_, rfl⟩
  -- the walks are run for what was appended; all else is taken from the theorem
  have happended : ((record (visit 3 Tree.sample.item (recorded appending) true)
      ⟨Store.sample, [], ()⟩).2.2.flatMap fun c => c.appendedTo ⟨0⟩) = [.node ⟨4⟩, .node ⟨5⟩] := rfl
  have hcalls := forall_mem_of_record (P := fun c => ¬ c.Fails ∧ c.Appends) (appending (σ := Unit))
    (fun R h => ⟨_, visit_alike h 3 Tree.sample.item true⟩) appends_appending ⟨Store.sample, [], ()⟩
  have hcalls' := forall_mem_of_record (P := fun c => ¬ c.Fails ∧ c.Appends) (appending (σ := Unit))
    (fun R h => ⟨_, transform_alike h 3 Tree.sample.item true⟩) appends_appending
    ⟨Store.sample, [], ()⟩
  constructor
  · rcases hrun : record (visit 3 Tree.sample.item (recorded appending) true)
      ⟨Store.sample, [], ()⟩ with ⟨result, final, calls⟩
    rw [hrun] at hcalls happended
    obtain ⟨-, hcut, -, hchildren⟩ := (append_siblings (by decide) Tree.sample_standsIn hnodup
      hrows).1 result final calls hrun hcalls
    refine ⟨result, final, calls, rfl, happended, hcut, ?_⟩
    exact happended ▸ hchildren _ (Tree.root_mem_listing ..) ⟨0⟩ ⟨0⟩ _ rfl
  · rcases hrun : record (transform 3 Tree.sample.item (recorded appending) true)
      ⟨Store.sample, [], ()⟩ with ⟨result, final, calls⟩
    rw [hrun] at hcalls'
    obtain ⟨-, hplaces, -, hheld⟩ := (append_siblings (by decide) Tree.sample_standsIn hnodup
      hrows).2 result final calls hrun hcalls'
    obtain ⟨row, items, hchildren, hlength, -⟩ :=
      hheld _ (Tree.root_mem_listing ..) ⟨0⟩ ⟨0⟩ _ rfl
    exact ⟨result, final, calls, rfl, hplaces, row, items, hchildren, hlength⟩

end Walk

end NotebookTree

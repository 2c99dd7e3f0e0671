import NotebookTree.Proofs.Walk.Record

/-!
# Visits

A visit makes the calls for the occurrences in a tree, parents first, up to the first that stops it.
Nodes may stand at several places: a visit changes nothing, so it meets each occurrence as it was,
whatever it has met before.

`Visits` says of the occurrences in a list what a visit has done after some calls, and what it hands
on to the loop above it. It holds of one call (`Visits.call`), and of one list of occurrences behind
another (`Visits.append`, and `Visits.append_of_stops` when the walk is over), so it holds of trees
by induction: `visits_throughout` for the children of a node, `visitsTree` for the node.

## Main statements

* `visit_preorder`: the calls of a visit, and how it ends.
-/

namespace NotebookTree

variable {σ : Type}

/-- The calls lead from one scene to the other by a visit of some occurrences, which goes on, is
over or ends in a fault as `r` says: they are made for the occurrences in order up to the first that
stops the visit, and nothing changes between them. -/
structure Visits (spots : List Spot) (s s' : Scene σ) (r : Except Fault Bool)
    (calls : List (Call σ)) : Prop where
  cut : CutAt Call.Stops (spots.map Spot.place) calls
  chained : Chained (fun a b => b = a) s calls s'
  failed : ∀ c ∈ calls, ∀ e, c.answer = .error e → r = .error e
  stopped : ∀ c ∈ calls, ∀ i, c.answer = .ok i → i.isStop = true → r = .ok false
  ended : (∀ c ∈ calls, ¬ c.Stops) → r = .ok true

namespace Visits

variable {spots more : List Spot} {s s' s'' : Scene σ} {r : Except Fault Bool}
  {calls calls' : List (Call σ)}

/-- Visiting no places goes on without a call. -/
theorem nil (s : Scene σ) : Visits [] s s (.ok true) [] :=
  ⟨.nil, rfl, by simp, by simp, fun _ => rfl⟩

/-- A visit that goes on has not been stopped. -/
theorem not_stops (h : Visits spots s s' (.ok true) calls) : ∀ c ∈ calls, ¬ c.Stops := by
  rintro c hc (⟨e, he⟩ | ⟨i, hi, hstop⟩)
  · have := h.failed c hc e he
    cases this
  · have := h.stopped c hc i hi hstop
    simp at this

/-- A visit that does not go on was stopped by a call. -/
theorem exists_stops (h : Visits spots s s' r calls) (hr : r ≠ .ok true) :
    ∃ c ∈ calls, c.Stops := by
  by_contra hnone
  push Not at hnone
  exact hr (h.ended hnone)

/-- Occurrences that are done, and those behind them. -/
theorem append (h : Visits spots s s' (.ok true) calls) (h' : Visits more s' s'' r calls') :
    Visits (spots ++ more) s s'' r (calls ++ calls') where
  cut := by
    rw [List.map_append]
    exact h.cut.append h.not_stops h'.cut
  chained := Chained.append (fun _ _ _ hab hbc => hbc.trans hab) h.chained h'.chained
  -- if a call of the first part ended the visit, the second part was not reached
  failed c hc e he := by
    rcases List.mem_append.mp hc with hc | hc
    · exact absurd (.inl ⟨e, he⟩) (h.not_stops c hc)
    · exact h'.failed c hc e he
  stopped c hc i hi hstop := by
    rcases List.mem_append.mp hc with hc | hc
    · exact absurd (.inr ⟨i, hi, hstop⟩) (h.not_stops c hc)
    · exact h'.stopped c hc i hi hstop
  ended hall := h'.ended fun c hc => hall c (List.mem_append_right _ hc)

/-- When a visit is over, nothing is done for the occurrences that come behind. -/
theorem append_of_stops (h : Visits spots s s' r calls) (hr : r ≠ .ok true) (more : List Spot) :
    Visits (spots ++ more) s s' r calls where
  cut := by
    obtain ⟨c, hc, hstop⟩ := h.exists_stops hr
    rw [List.map_append]
    exact h.cut.append_of_ends hc hstop _
  chained := h.chained
  failed := h.failed
  stopped := h.stopped
  ended := h.ended

/-- What a visit hands on after a call. -/
theorem call {p : Spot} {c : Call σ} (hc : c.place = p.place) :
    Visits [p] c.before c.after (c.answer.map fun i => !i.isStop) [c] where
  cut := by
    rw [List.map_singleton, ← hc]
    exact .single c
  chained := ⟨rfl, rfl⟩
  failed d hd e he := by
    rw [← List.mem_singleton.mp hd, he]
    rfl
  stopped d hd i hi hstop := by
    rw [← List.mem_singleton.mp hd, hi, Except.map, hstop]
    rfl
  ended hall := by
    -- a call that neither fails nor stops lets the visit go on
    have hgo := hall c (List.mem_singleton_self c)
    obtain ⟨i, hi⟩ := Call.not_fails_iff.mp fun h => hgo (.inl h)
    have hstop : i.isStop = false := by
      by_contra h
      exact hgo (.inr ⟨i, hi, by simpa using h⟩)
    rw [hi, Except.map, hstop]
    rfl

/-- A visit whose calls keep the children keeps them. -/
theorem keepsChildren {K : List NodeId} (h : Visits spots s s' r calls)
    (hkeep : ∀ c ∈ calls, c.KeepsChildren K) : s.store.KeepsChildren K s'.store := by
  intro id hid
  refine h.chained.rel (fun _ _ _ => Store.KeepsChildrenAt.trans) (fun a b hab => ?_)
    fun c hc => hkeep c hc id hid
  rw [hab]
  exact .refl id a.store

end Visits

/-! ## The run of a visit -/

namespace Walk

variable {callback : Callback σ} {reverse : Bool}

/-- The visit of the child of a node with an index. -/
def visitChild (callback : Callback σ) (reverse : Bool) (limit : Nat) (id : NodeId) (row : RowId)
    (i : Nat) : Walk σ Bool := do
  visitNode callback reverse limit (← itemAt row i) (some i) (some (.node id))

/-- What is left to do for a node when its call is answered. -/
def visitBelow (callback : Callback σ) (reverse : Bool) (limit : Nat) (node answer : Item) :
    Walk σ Bool := do
  if answer.isStop then return false
  match (← getStore).childRow? node with
  | none => return true
  | some row =>
    let count := ((← getStore).rowItems row).length
    throughout (fun i => do
      visitNode callback reverse limit (← itemAt row i) (some i) (some node))
      (places count reverse)

/-- The callback is asked first, and what is done below hangs on its answer. -/
theorem visitNode_eq (callback : Callback σ) (reverse : Bool) (limit : Nat) (node : Item)
    (index : Option Nat) (parent : Option Item) :
    visitNode callback reverse (limit + 1) node index parent =
      resolve (callback node index parent) >>= visitBelow callback reverse limit node := rfl

/-- After the signal to stop nothing below is visited. -/
theorem record_visitBelow_of_stop {answer : Item} (h : answer.isStop = true) (limit : Nat)
    (node : Item) (s : Scene σ) :
    record (visitBelow (recorded callback) reverse limit node answer) s = (.ok false, s, []) := by
  rw [visitBelow, h]
  rfl

/-- Below a node without children nothing is visited. -/
theorem record_visitBelow_of_leaf {node answer : Item} {s : Scene σ} (h : answer.isStop = false)
    (hnone : s.store.childRow? node = none) (limit : Nat) :
    record (visitBelow (recorded callback) reverse limit node answer) s = (.ok true, s, []) := by
  rw [visitBelow, h, if_neg Bool.false_ne_true, record_getStore_bind, hnone]
  rfl

/-- Below a node its children are visited in order. -/
theorem record_visitBelow_of_children {answer : Item} {s : Scene σ} {id : NodeId} {row : RowId}
    {items : List Item} (h : answer.isStop = false) (hrow : s.store.HasChildren id row items)
    (limit : Nat) :
    record (visitBelow (recorded callback) reverse limit (.node id) answer) s =
      record (throughout (visitChild (recorded callback) reverse limit id row)
        (places items.length reverse)) s := by
  rw [visitBelow, h, if_neg Bool.false_ne_true, record_getStore_bind, hrow.1, ← hrow.rowItems]
  rfl

/-- Visiting a node only adds calls to the record. -/
theorem recording_visitNode (callback : Callback σ) (reverse : Bool) (limit : Nat) (node : Item)
    (index : Option Nat) (parent : Option Item) :
    Recording (visitNode (recorded callback) reverse limit node index parent) := fun noted =>
  visitNode_alike (recorded_recording callback noted) reverse limit node index parent

/-- Visiting a child only adds calls to the record. -/
theorem recording_visitChild (callback : Callback σ) (reverse : Bool) (limit : Nat) (id : NodeId)
    (row : RowId) (i : Nat) : Recording (visitChild (recorded callback) reverse limit id row i) :=
  fun noted => alike_bind (alike_itemAt row i) fun _ =>
    recording_visitNode callback reverse limit _ _ _ noted

/-- Visiting below a node only adds calls to the record. -/
theorem recording_visitBelow (callback : Callback σ) (reverse : Bool) (limit : Nat)
    (node answer : Item) :
    Recording (visitBelow (recorded callback) reverse limit node answer) := by
  intro noted
  cases h : answer.isStop with
  | true =>
    rw [visitBelow, h]
    exact alike_pure false
  | false =>
    rw [visitBelow, h]
    refine alike_bind alike_getStore fun store => ?_
    cases store.childRow? node with
    | none => exact alike_pure true
    | some row =>
      refine alike_bind alike_getStore fun _ => alike_throughout (fun i => ?_) _
      exact alike_bind (alike_itemAt row i) fun _ => recording_visitNode _ _ _ _ _ _ noted

/-- A node is called for. That is all if the call fails or stops the visit, and else what lies below
the node is visited. -/
theorem record_visitNode_cases {limit : Nat} {place : Place} {s s' : Scene σ} {c : Call σ}
    {r : Except Fault Bool} {calls : List (Call σ)} (hc : callOf callback place s = c)
    (hrun : record (visitNode (recorded callback) reverse (limit + 1) place.node place.index
      place.parent) s = (r, s', calls)) :
    (r = c.answer.map (fun i => !i.isStop) ∧ r ≠ .ok true ∧ s' = c.after ∧ calls = [c]) ∨
      ∃ i more, c.answer = .ok i ∧ i.isStop = false ∧
        record (visitBelow (recorded callback) reverse limit place.node i) c.after = (r, s', more) ∧
        calls = [c] ++ more := by
  rw [visitNode_eq] at hrun
  obtain ⟨e, hanswer, rfl, rfl, rfl⟩ | ⟨i, more, hanswer, hrest, rfl⟩ :=
    record_call_bind_cases hc (recording_visitBelow callback reverse limit place.node) hrun
  · exact .inl ⟨by rw [hanswer]; rfl, by simp, rfl, rfl⟩
  · -- the call went well, so it depends on its answer whether the walk goes below
    cases hstop : i.isStop with
    | false => exact .inr ⟨i, more, hanswer, hstop, hrest, rfl⟩
    | true =>
      rw [record_visitBelow_of_stop hstop] at hrest
      cases hrest
      exact .inl ⟨by rw [hanswer, Except.map, hstop]; rfl, by simp, rfl, rfl⟩

/-- The visit of a tree, wherever it stands. The nodes in `K` are those that calls are known to
leave their children. -/
def VisitsTree (callback : Callback σ) (reverse : Bool) (K : List NodeId) (t : Tree) : Prop :=
  ∀ (limit : Nat) (path : List Nat) (parent : Option Item) (s s' : Scene σ) (r : Except Fault Bool)
    (calls : List (Call σ)), t.height ≤ limit → t.StandsIn s.store → t.ids ⊆ K →
    record (visitNode (recorded callback) reverse limit t.item path.getLast? parent) s =
      (r, s', calls) →
    (∀ c ∈ calls, c.KeepsChildren K) →
    Visits (t.listing false reverse path parent) s s' r calls

section Children

variable {K : List NodeId} {limit : Nat} {id : NodeId} {row : RowId} {items : List Item}
  {k : Tree × Nat} {ks : List (Tree × Nat)} {s s' : Scene σ} {calls : List (Call σ)}
  {r : Except Fault Bool}

/-- The visit of the first child. -/
theorem visits_child (path : List Nat) (htree : VisitsTree callback reverse K k.1)
    (hready : Ready K limit id row items (k :: ks) s.store)
    (hrun : record (visitChild (recorded callback) reverse limit id row k.2) s = (r, s', calls))
    (hkeep : ∀ c ∈ calls, c.KeepsChildren K) :
    Visits (k.1.listing false reverse (path ++ [k.2]) (some (.node id))) s s' r calls := by
  have hk : k ∈ k :: ks := List.mem_cons_self
  rw [visitChild, record_itemAt_bind hready.children.2 (hready.item k hk)] at hrun
  refine htree limit (path ++ [k.2]) (some (.node id)) s s' r calls (hready.height k hk)
    (hready.stands k hk) (hready.ids k hk) ?_ hkeep
  rw [List.getLast?_concat, hrun]

/-- The loop through the children of a node visits one child after the other. -/
theorem visits_throughout (path : List Nat)
    (htree : ∀ k ∈ ks, VisitsTree callback reverse K k.1)
    (hready : Ready K limit id row items ks s.store)
    (hrun : record (throughout (visitChild (recorded callback) reverse limit id row)
      (ks.map Prod.snd)) s = (r, s', calls))
    (hkeep : ∀ c ∈ calls, c.KeepsChildren K) :
    Visits (Tree.spotsBelow false reverse path id ks) s s' r calls := by
  induction ks generalizing s r calls with
  | nil =>
    obtain ⟨rfl, rfl, rfl⟩ : _ ∧ _ ∧ _ := by
      simpa only [List.map_nil, throughout, record_pure, Prod.mk.injEq] using hrun
    exact .nil s
  | cons k ks ih =>
    rw [Tree.spotsBelow, List.flatMap_cons]
    have hk : k ∈ k :: ks := List.mem_cons_self
    obtain ⟨hchild, hover⟩ | ⟨s₁, calls₁, calls₂, hchild, hrest, rfl⟩ :=
      record_throughout_cases (recording_visitChild callback reverse limit id row) hrun
    · -- the visit is over, here and in every loop above
      exact (visits_child path (htree k hk) hready hchild hkeep).append_of_stops hover _
    · have hkeep₁ : ∀ c ∈ calls₁, c.KeepsChildren K := fun c hc =>
        hkeep c (List.mem_append_left _ hc)
      have hvisit := visits_child path (htree k hk) hready hchild hkeep₁
      exact hvisit.append (ih (fun k' hk' => htree k' (List.mem_cons_of_mem _ hk'))
        (hready.tail_of_keeps (hvisit.keepsChildren hkeep₁)) hrest
        fun c hc => hkeep c (List.mem_append_right _ hc))

end Children

/-- What lies below a node is visited when its call has not stopped the visit. -/
theorem visits_below {K : List NodeId} {limit : Nat} {path : List Nat} {parent : Option Item}
    {t : Tree} {answer : Item} {s s' : Scene σ} {r : Except Fault Bool} {calls : List (Call σ)}
    (htree : ∀ id row ts, t = .branch id row ts → ∀ u ∈ ts, VisitsTree callback reverse K u)
    (hlimit : t.height ≤ limit + 1) (hstand : t.StandsIn s.store) (hsub : t.ids ⊆ K)
    (hgo : answer.isStop = false)
    (hrun : record (visitBelow (recorded callback) reverse limit t.item answer) s = (r, s', calls))
    (hkeep : ∀ c ∈ calls, c.KeepsChildren K) :
    ∃ below, t.listing false reverse path parent = ⟨path, t, parent⟩ :: below ∧
      Visits below s s' r calls := by
  cases t with
  | leaf i =>
    rw [Tree.item, record_visitBelow_of_leaf hgo hstand.2] at hrun
    obtain ⟨rfl, rfl, rfl⟩ : _ ∧ _ ∧ _ := by simpa only [Prod.mk.injEq] using hrun
    exact ⟨[], rfl, .nil s⟩
  | branch id row ts =>
    have hready : Ready K limit id row (ts.map Tree.item) (Tree.inOrder reverse ts.zipIdx)
      s.store := .of_branch reverse hstand hsub hlimit
    rw [Tree.item, record_visitBelow_of_children hgo hready.children, List.length_map,
      Tree.places_eq] at hrun
    refine ⟨_, Tree.listing_branch_first .., visits_throughout path (fun k hk => ?_) hready hrun
      hkeep⟩
    -- what has a turn is one of the children
    refine htree id row ts rfl k.1 ?_
    exact List.fst_mem_of_mem_zipIdx (Tree.mem_inOrder.mp hk)

/-- A tree is visited when the trees below it are. -/
theorem visitsTree_of_children {K : List NodeId} {t : Tree}
    (htree : ∀ id row ts, t = .branch id row ts → ∀ u ∈ ts, VisitsTree callback reverse K u) :
    VisitsTree callback reverse K t := by
  intro limit path parent s s' r calls hlimit hstand hsub hrun hkeep
  obtain ⟨limit, rfl⟩ := Tree.exists_limit hlimit
  let c := callOf callback ⟨t.item, path.getLast?, parent⟩ s
  have hfirst : Visits [⟨path, t, parent⟩] s c.after (c.answer.map fun i => !i.isStop) [c] :=
    Visits.call (c := c) (p := ⟨path, t, parent⟩) rfl
  obtain ⟨below, hlisting⟩ := t.listing_first reverse path parent
  rw [hlisting, ← List.singleton_append]
  obtain ⟨rfl, hover, rfl, rfl⟩ | ⟨i, calls₁, hanswer, hgo, hrest, rfl⟩ :=
    record_visitNode_cases (c := c) rfl hrun
  · exact hfirst.append_of_stops hover below
  · rw [hanswer, Except.map, hgo] at hfirst
    -- the row is read behind the call, which has kept the children
    have hkept : s.store.KeepsChildren K c.after.store :=
      hfirst.keepsChildren fun d hd => hkeep d (List.mem_append_left _ hd)
    obtain ⟨below', hlisting', hvisit⟩ := visits_below htree hlimit
      (hstand.of_keeps fun id hid => hkept id (hsub hid)) hsub hgo hrest
      fun d hd => hkeep d (List.mem_append_right _ hd)
    obtain rfl : below' = below := (List.cons.inj (hlisting'.symm.trans hlisting)).2
    exact hfirst.append hvisit

/-- A visit visits every tree that stands in the store. -/
theorem visitsTree (callback : Callback σ) (reverse : Bool) (K : List NodeId) (t : Tree) :
    VisitsTree callback reverse K t := by
  induction t with
  | leaf i => exact visitsTree_of_children fun id row ts h => by cases h
  | branch id row ts ih =>
    refine visitsTree_of_children fun id' row' ts' h => ?_
    obtain ⟨-, -, rfl⟩ := Tree.branch.inj h
    exact ih

/-! ## A visit from the root -/

/-- When all that is left is to say that the visit was stopped. -/
theorem record_visit {limit : Nat} {tree : Item} {s s' : Scene σ} {r : Except Fault Bool}
    {calls : List (Call σ)}
    (h : record (visitNode (recorded callback) reverse limit tree none none) s = (r, s', calls)) :
    ∃ final, record (visit limit tree (recorded callback) reverse) s =
        (r.map fun _ => (), final, calls) ∧ final.store = s'.store ∧ final.own = s'.own := by
  cases r with
  | error e => exact ⟨s', record_bind_error h, rfl, rfl⟩
  | ok goesOn =>
    cases goesOn with
    | true =>
      -- a visit that went on to the end tells nothing more; one that was stopped tells so
      have hrest := record_bind_ok (f := fun goesOn => if !goesOn then
          tell (.debug .walker "Traversal stopped early by visitor") else pure ())
        (fun _ => alike_pure ()) h (record_pure () s')
      rw [List.append_nil] at hrest
      exact ⟨s', hrest, rfl, rfl⟩
    | false =>
      have hrest := record_bind_ok (f := fun goesOn => if !goesOn then
          tell (.debug .walker "Traversal stopped early by visitor") else pure ())
        (fun _ => alike_tell _) h (record_tell _ s')
      rw [List.append_nil] at hrest
      exact ⟨_, hrest, rfl, rfl⟩

/-- A visit calls back for the occurrences in a tree, parents first, up to the first call that fails
or answers with the signal to stop; if none does, for all of them. No other answer makes a
difference. A fault is handed on, and between two calls nothing changes in the store. -/
theorem visit_preorder {t : Tree} {limit : Nat} {s final : Scene σ} {result : Except Fault Unit}
    {calls : List (Call σ)} (hlimit : t.height ≤ limit) (hstand : t.StandsIn s.store)
    (hrun : record (visit limit t.item (recorded callback) reverse) s = (result, final, calls))
    (hkeep : ∀ c ∈ calls, c.KeepsChildren t.ids) :
    outcome (visit limit t.item callback reverse) s = (result, final) ∧
      CutAt Call.Stops ((t.preorder reverse).map Spot.place) calls ∧
      (∀ c ∈ calls, ∀ e, c.answer = .error e → result = .error e) ∧
      ((∀ c ∈ calls, ¬ c.Fails) → result = .ok ()) ∧
      Chained (fun a b => b.store = a.store ∧ b.own = a.own) s calls final := by
  rcases hnode : record (visitNode (recorded callback) reverse limit t.item none none) s with
    ⟨r, s₁, calls₁⟩
  obtain ⟨last, hvisit, hstore, hown⟩ := record_visit hnode
  rw [hvisit] at hrun
  obtain ⟨rfl, rfl, rfl⟩ : _ ∧ _ ∧ _ := by simpa only [Prod.mk.injEq] using hrun
  have h := visitsTree callback reverse t.ids t limit [] none s s₁ r calls₁ hlimit hstand
    (List.Subset.refl _) hnode hkeep
  refine ⟨outcome_of_record (visit_alike (recorded_alike callback) limit t.item reverse) hvisit,
    h.cut, fun c hc e he => ?_, fun hreturn => ?_, ?_⟩
  · rw [h.failed c hc e he]
    rfl
  · cases r with
    | ok goesOn => rfl
    | error e =>
      obtain ⟨c, hc, hstop⟩ := h.exists_stops (by simp)
      obtain ⟨i, hi, histop⟩ := hstop.resolve_left (hreturn c hc)
      -- only a call that fails leads to a fault, and a call that stops does not fail
      cases h.stopped c hc i hi histop
  · have hchained : Chained (fun a b : Scene σ => b.store = a.store ∧ b.own = a.own) s calls₁ s₁ :=
      h.chained.mono fun a b hab => by rw [hab]; exact ⟨rfl, rfl⟩
    exact hchained.move (fun _ _ _ hab hbc => ⟨hbc.1.trans hab.1, hbc.2.trans hab.2⟩)
      ⟨hstore, hown⟩

/-- The third call stops the visit; false answers before it do not. -/
theorem visit_preorder_sample :
    let callback := counting fun k _ => .ok (if k = 2 then .stop else .plain (.bool false))
    ∃ result final calls, record (visit 3 Tree.sample.item (recorded callback) true)
        ⟨Store.sample, [], 0⟩ = (result, final, calls) ∧
      (∀ c ∈ calls, ¬ c.Fails ∧ c.KeepsChildren Tree.sample.ids) ∧ result = .ok () ∧
      CutAt Call.Stops ((Tree.sample.preorder true).map Spot.place) calls := by
  intro callback
  have hcalls := forall_mem_of_record
    (P := fun c => ¬ c.Fails ∧ c.KeepsChildren Tree.sample.ids) callback
    (fun R h => ⟨_, visit_alike h 3 Tree.sample.item true⟩)
    (fun place s => ⟨Call.not_fails_iff.mpr ⟨_, rfl⟩, .refl _ _⟩) ⟨Store.sample, [], 0⟩
  rcases hrun : record (visit 3 Tree.sample.item (recorded callback) true)
    ⟨Store.sample, [], 0⟩ with ⟨result, final, calls⟩
  rw [hrun] at hcalls
  obtain ⟨-, hcut, -, hresult, -⟩ := visit_preorder (t := Tree.sample) (by decide)
    Tree.sample_standsIn hrun fun c hc => (hcalls c hc).2
  exact ⟨result, final, calls, rfl, hcalls, hresult fun c hc => (hcalls c hc).1, hcut⟩

end Walk

end NotebookTree

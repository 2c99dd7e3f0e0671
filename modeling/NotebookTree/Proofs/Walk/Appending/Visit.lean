import NotebookTree.Proofs.Walk.Appending.Calls
import NotebookTree.Proofs.Walk.Visit

/-!
# Visits whose calls append siblings

The loop through the children of a node goes through the indices that it counted first. The calls
for one child append to the row of the node and below the child, so the next child is where it was,
and nothing has changed below it (`Awaits.tail`).
-/

namespace NotebookTree

variable {σ : Type}

/-- Between its calls visiting changes nothing. -/
theorem Visits.moves {spots : List Spot} {s s' : Scene σ} {r : Except Fault Bool}
    {calls : List (Call σ)} (h : Visits spots s s' r calls) :
    Chained (MovesChildren fun _ => False) s calls s' :=
  h.chained.mono fun _ _ hab => hab ▸ .refl _

namespace Walk

variable {callback : Callback σ} {reverse : Bool} {start : Store} {K : List NodeId}

/-- The visit of a tree by calls that append, wherever the tree stands. -/
def VisitsAppending (callback : Callback σ) (reverse : Bool) (start : Store) (K : List NodeId)
    (t : Tree) : Prop :=
  ∀ (limit : Nat) (path : List Nat) (parent : Option Item) (s s' : Scene σ) (r : Except Fault Bool)
    (calls : List (Call σ)), Unchanged start K limit t parent s.store →
    record (visitNode (recorded callback) reverse limit t.item path.getLast? parent) s =
      (r, s', calls) →
    (∀ c ∈ calls, c.Appends) →
    Visits (t.listing false reverse path parent) s s' r calls ∧
      AppendWithin start (fun x => parent = some (.node x) ∨ x ∈ t.ids) calls

section Children

variable {limit : Nat} {id : NodeId} {row : RowId} {children : List Item} {k : Tree × Nat}
  {ks : List (Tree × Nat)} {s s' : Scene σ} {calls : List (Call σ)}

/-- The visit of the first child. -/
theorem visitsAppending_child {r : Except Fault Bool} (path : List Nat)
    (htree : VisitsAppending callback reverse start K k.1)
    (hawaits : Awaits start K limit id row children (k :: ks) s.store)
    (hrun : record (visitChild (recorded callback) reverse limit id row k.2) s = (r, s', calls))
    (happ : ∀ c ∈ calls, c.Appends) :
    Visits (k.1.listing false reverse (path ++ [k.2]) (some (.node id))) s s' r calls ∧
      AppendWithin start (fun x => x = id ∨ x ∈ k.1.ids) calls := by
  obtain ⟨_, hready⟩ := hawaits.ready
  rw [visitChild, record_itemAt_bind hready.children.2 (hready.item k List.mem_cons_self)] at hrun
  obtain ⟨hvisits, hwithin⟩ := htree limit (path ++ [k.2]) (some (.node id)) s s' r calls
    hawaits.head (by rw [List.getLast?_concat, hrun]) happ
  refine ⟨hvisits, hwithin.mono fun x hx => hx.imp_left fun h => ?_⟩
  exact (Item.node.inj (Option.some.inj h)).symm

/-- The loop through the children of a node visits one child after the other. -/
theorem visitsAppending_throughout {r : Except Fault Bool} (path : List Nat)
    (hrows : start.Unshared K) (hknown : ∀ x ∈ K, start.Knows (.node x))
    (htree : ∀ k ∈ ks, VisitsAppending callback reverse start K k.1)
    (hawaits : Awaits start K limit id row children ks s.store)
    (hrun : record (throughout (visitChild (recorded callback) reverse limit id row)
      (ks.map Prod.snd)) s = (r, s', calls))
    (happ : ∀ c ∈ calls, c.Appends) :
    Visits (Tree.spotsBelow false reverse path id ks) s s' r calls ∧
      AppendWithin start (fun x => x = id ∨ x ∈ ks.flatMap fun k => k.1.ids) calls := by
  induction ks generalizing s r calls with
  | nil =>
    obtain ⟨rfl, rfl, rfl⟩ : _ ∧ _ ∧ _ := by
      simpa only [List.map_nil, throughout, record_pure, Prod.mk.injEq] using hrun
    exact ⟨.nil s, .nil⟩
  | cons k ks ih =>
    rw [Tree.spotsBelow, List.flatMap_cons, List.flatMap_cons]
    have hk : k ∈ k :: ks := List.mem_cons_self
    have hfirst : ∀ x, x = id ∨ x ∈ k.1.ids →
        x = id ∨ x ∈ k.1.ids ++ ks.flatMap fun k => k.1.ids := fun x hx =>
      hx.imp_right (List.mem_append_left _)
    obtain ⟨hchild, hover⟩ | ⟨s₁, calls₁, calls₂, hchild, hrest, rfl⟩ :=
      record_throughout_cases (recording_visitChild callback reverse limit id row) hrun
    · obtain ⟨hvisits, hwithin⟩ := visitsAppending_child path (htree k hk) hawaits hchild happ
      exact ⟨hvisits.append_of_stops hover _, hwithin.mono hfirst⟩
    · have happ₁ : ∀ c ∈ calls₁, c.Appends := fun c hc => happ c (List.mem_append_left _ hc)
      obtain ⟨hvisits, hwithin⟩ := visitsAppending_child path (htree k hk) hawaits hchild happ₁
      -- what the first child's calls append goes to rows of that child or to the node's own, behind
      -- the children to come
      have htail := hawaits.tail hrows hknown hvisits.moves (fun _ h => h.elim) happ₁ hwithin
      obtain ⟨hvisits', hwithin'⟩ := ih (fun k' hk' => htree k' (List.mem_cons_of_mem _ hk'))
        htail hrest fun c hc => happ c (List.mem_append_right _ hc)
      refine ⟨hvisits.append hvisits', (hwithin.mono hfirst).append (hwithin'.mono fun x hx => ?_)⟩
      exact hx.imp_right (List.mem_append_right _)

end Children

/-- Nothing changes in a tree when the call for its root appends to the children of the parent. -/
theorem Unchanged.after_call {limit : Nat} {t : Tree} {parent : Option Item} {c : Call σ}
    (hrows : start.Unshared K) (h : Unchanged start K limit t parent c.before.store)
    (hc : c.place.parent = parent) (happ : c.Appends) :
    Unchanged start K limit t parent c.after.store := by
  have hwithin := h.parent.appendWithin hc
  have hkeep : c.before.store.KeepsChildren t.ids c.after.store := by
    intro x hx
    refine happ.keeps.keepsChildrenAt trivial fun row hrow => ?_
    rw [h.kept.childRow?_eq hx (h.began.knows hx)] at hrow
    exact hwithin.appendedTo_eq_nil hrows (fun y hy => (h.parent.mem hy).1) (h.sub hx)
      (fun hp => (h.parent.mem hp).2 hx) hrow c (List.mem_singleton_self c)
  have hnodes : ∀ N : NodeId → Prop, Store.Keeps N (fun _ => False) c.before.store c.after.store :=
    fun N => happ.keeps.mono (fun _ _ => trivial) fun _ h => h.elim
  exact ⟨h.height, h.began, h.stands.of_keeps hkeep, h.nodup, h.sub, h.kept.trans (hnodes _),
    h.parent.of_keeps (hnodes _)⟩

/-- What lies below a node is visited when its call has not stopped the visit. -/
theorem visitsAppending_below {limit : Nat} {path : List Nat} {parent : Option Item} {t : Tree}
    {answer : Item} {s s' : Scene σ} {r : Except Fault Bool} {calls : List (Call σ)}
    (hrows : start.Unshared K) (hknown : ∀ x ∈ K, start.Knows (.node x))
    (htree : ∀ id row ts, t = .branch id row ts →
      ∀ u ∈ ts, VisitsAppending callback reverse start K u)
    (h : Unchanged start K (limit + 1) t parent s.store) (hgo : answer.isStop = false)
    (hrun : record (visitBelow (recorded callback) reverse limit t.item answer) s = (r, s', calls))
    (happ : ∀ c ∈ calls, c.Appends) :
    ∃ below, t.listing false reverse path parent = ⟨path, t, parent⟩ :: below ∧
      Visits below s s' r calls ∧ AppendWithin start (· ∈ t.ids) calls := by
  cases t with
  | leaf i =>
    rw [Tree.item, record_visitBelow_of_leaf hgo h.stands.2] at hrun
    obtain ⟨rfl, rfl, rfl⟩ : _ ∧ _ ∧ _ := by simpa only [Prod.mk.injEq] using hrun
    exact ⟨[], rfl, .nil s, .nil⟩
  | branch id row ts =>
    rw [Tree.item, record_visitBelow_of_children hgo (Tree.standsIn_branch.mp h.stands).1,
      List.length_map, Tree.places_eq] at hrun
    -- the children are visited as they stood when the node was come to
    have htrees : ∀ k ∈ Tree.inOrder reverse ts.zipIdx,
        VisitsAppending callback reverse start K k.1 := fun k hk =>
      htree id row ts rfl k.1 (List.fst_mem_of_mem_zipIdx (Tree.mem_inOrder.mp hk))
    obtain ⟨hvisits, hwithin⟩ := visitsAppending_throughout path hrows hknown htrees
      (.of_branch reverse h) hrun happ
    refine ⟨_, Tree.listing_branch_first .., hvisits, hwithin.mono fun x hx => ?_⟩
    exact List.mem_cons.mpr (hx.imp_right (Tree.flatMap_inOrder_perm reverse ts).mem_iff.mp)

/-- A tree is visited when the trees below it are. -/
theorem visitsAppending_of_children {t : Tree} (hrows : start.Unshared K)
    (hknown : ∀ x ∈ K, start.Knows (.node x))
    (htree : ∀ id row ts, t = .branch id row ts →
      ∀ u ∈ ts, VisitsAppending callback reverse start K u) :
    VisitsAppending callback reverse start K t := by
  intro limit path parent s s' r calls h hrun happ
  obtain ⟨limit, rfl⟩ := Tree.exists_limit h.height
  let c := callOf callback ⟨t.item, path.getLast?, parent⟩ s
  have hfirst : Visits [⟨path, t, parent⟩] s c.after (c.answer.map fun i => !i.isStop) [c] :=
    Visits.call (c := c) (p := ⟨path, t, parent⟩) rfl
  have hown : AppendWithin start (fun x => parent = some (.node x) ∨ x ∈ t.ids) [c] :=
    (ParentStays.appendWithin (c := c) h.parent rfl).mono fun _ => .inl
  obtain ⟨below, hlisting⟩ := t.listing_first reverse path parent
  rw [hlisting, ← List.singleton_append]
  obtain ⟨rfl, hover, rfl, rfl⟩ | ⟨i, calls₁, hanswer, hgo, hrest, rfl⟩ :=
    record_visitNode_cases (c := c) rfl hrun
  · exact ⟨hfirst.append_of_stops hover below, hown⟩
  · rw [hanswer, Except.map, hgo] at hfirst
    -- the children are counted behind the call, which has not appended to them
    have hafter : Unchanged start K (limit + 1) t parent c.after.store :=
      Unchanged.after_call (c := c) hrows h rfl (happ c (by simp))
    obtain ⟨below', hlisting', hvisits, hwithin⟩ := visitsAppending_below hrows hknown htree
      hafter hgo hrest fun d hd => happ d (List.mem_append_right _ hd)
    obtain rfl : below' = below := (List.cons.inj (hlisting'.symm.trans hlisting)).2
    exact ⟨hfirst.append hvisits, hown.append (hwithin.mono fun _ => .inr)⟩

/-- Calls that append do not lead a visit astray, wherever the tree stands. -/
theorem visitsAppending (callback : Callback σ) (reverse : Bool) (hrows : start.Unshared K)
    (hknown : ∀ x ∈ K, start.Knows (.node x)) (t : Tree) :
    VisitsAppending callback reverse start K t := by
  induction t with
  | leaf i => exact visitsAppending_of_children hrows hknown fun id row ts h => by cases h
  | branch id row ts ih =>
    refine visitsAppending_of_children hrows hknown fun id' row' ts' h => ?_
    obtain ⟨-, -, rfl⟩ := Tree.branch.inj h
    exact ih

end Walk

end NotebookTree

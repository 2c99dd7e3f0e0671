import NotebookTree.Proofs.Sequence
import NotebookTree.Proofs.Walk.Visit
import NotebookTree.Walk.Listing

/-!
# Listings in order

A listing keeps one table of depths, in which a node has an entry each time it is met. What makes
the table right for every child is that a node does not stand below itself: while its children are
visited, the last entry for it is the one of the occurrence to which they belong, however many other
nodes are met in between and however often.

`Lists` says of the occurrences in a list what their visit leaves in the table and among the lines.
It holds of one call, and of one list of occurrences behind another, so it holds of trees by
induction.

## Main definitions

* `Spot.line`: the line of an occurrence, how deep it lies and the label of its node.
* `Walk.Lists`: what a visit of some occurrences leaves in the table and among the lines.

## Main statements

* `outcome_listing`: a listing is made of the lines of the occurrences, parents first.
* `listing_preorder`: it has a line for each, with the number of ancestors and the label.
-/

namespace NotebookTree

instance : DecidableRel Spot.Above := fun p q =>
  inferInstanceAs (Decidable (p.path <+: q.path ∧ p.path ≠ q.path))

/-- The line of an occurrence, if its node can be labelled. -/
def Spot.line (s : Store) (p : Spot) : Except Fault Walk.Line := do
  return ⟨p.path.length, ← (s.view p.tree.item).label⟩

/-! ## No node stands below itself -/

namespace Tree

/-- What stands below an occurrence is no higher than the tree. -/
theorem height_le_of_mem_listing {last reverse : Bool} {path : List Nat} {parent : Option Item}
    {t : Tree} {p : Spot} (h : p ∈ t.listing last reverse path parent) :
    p.tree.height ≤ t.height := by
  induction t generalizing path parent with
  | leaf i =>
    obtain rfl : p = ⟨path, leaf i, parent⟩ := by simpa [listing] using h
    exact Nat.le_refl _
  | branch id row ts ih =>
    rcases mem_listing_branch.mp h with rfl | ⟨k, hk, hp⟩
    · exact Nat.le_refl _
    · have hmem : k.1 ∈ ts := List.fst_mem_of_mem_zipIdx hk
      have hle := ih k.1 hmem hp
      have hall := height_le_heightAll hmem
      rw [height]
      omega

/-- A store has one tree for an item at most. -/
theorem StandsIn.eq_of_item {s : Store} {t u : Tree} (ht : t.StandsIn s) (hu : u.StandsIn s)
    (h : t.item = u.item) : t = u := by
  induction t generalizing u with
  | leaf i =>
    cases u with
    | leaf j => exact congrArg leaf h
    | branch id row us =>
      obtain rfl : i = .node id := h
      have hrow := (standsIn_branch.mp hu).1.1
      rw [ht.2] at hrow
      cases hrow
  | branch id row ts ih =>
    obtain ⟨⟨hrow, hitems⟩, hts⟩ := standsIn_branch.mp ht
    cases u with
    | leaf j =>
      obtain rfl : j = .node id := h.symm
      rw [hu.2] at hrow
      cases hrow
    | branch other row' us =>
      obtain ⟨⟨hrow', hitems'⟩, hus⟩ := standsIn_branch.mp hu
      obtain rfl : id = other := Item.node.inj h
      obtain rfl : row = row' := Option.some.inj (hrow.symm.trans hrow')
      have hmap : ts.map item = us.map item := Option.some.inj (hitems.symm.trans hitems')
      -- both have the items of the one row for their children, so they agree child by child
      refine congrArg _ (List.ext_getElem ?_ fun n hn hn' => ?_)
      · simpa using congrArg List.length hmap
      · refine ih _ (List.getElem_mem hn) (hts _ (List.getElem_mem hn))
          (hus _ (List.getElem_mem hn')) ?_
        simpa [hn, hn'] using congrArg (fun is => is[n]?) hmap

/-- A node is not met again below one of its occurrences: its tree would be higher than itself. -/
theorem StandsIn.item_ne_of_below {s : Store} {id : NodeId} {row : RowId} {ts : List Tree}
    (h : (branch id row ts).StandsIn s) {t : Tree} (ht : t ∈ ts) {last reverse : Bool}
    {path : List Nat} {parent : Option Item} {p : Spot}
    (hp : p ∈ t.listing last reverse path parent) : p.tree.item ≠ .node id := by
  intro heq
  have hstand := ((standsIn_branch.mp h).2 t ht).of_mem_listing hp
  have hle := height_le_of_mem_listing hp
  rw [hstand.eq_of_item h heq, height] at hle
  have hall := height_le_heightAll ht
  omega

end Tree

/-! ## Ancestors -/

/-- What stands above another place has a shorter path. -/
theorem Spot.Above.length_lt {p q : Spot} (h : p.Above q) : p.path.length < q.path.length :=
  Nat.lt_of_le_of_ne h.1.length_le fun heq => h.2 (h.1.eq_of_length heq)

namespace Tree

/-- Nothing below a child lies on the way to an occurrence below another. -/
theorem countP_above_of_ne {reverse : Bool} {path : List Nat} {parent : Option Item}
    {k : Tree × Nat} {i : Nat} {p : Spot} (hp : path ++ [i] <+: p.path) (hne : k.2 ≠ i) :
    (k.1.listing false reverse (path ++ [k.2]) parent).countP (·.Above p) = 0 := by
  refine List.countP_eq_zero.mpr fun q hq habove => hne ?_
  have hway := (prefix_of_mem_listing hq).trans (of_decide_eq_true habove).1
  have heq := List.prefix_of_prefix_length_le hway hp (by simp)
  simpa using (List.prefix_append_right_inj path).mp heq

/-- The way to an occurrence has one step for each ancestor in the tree. -/
theorem countP_above {reverse : Bool} {path : List Nat} {parent : Option Item} {t : Tree} {p : Spot}
    (h : p ∈ t.listing false reverse path parent) :
    (t.listing false reverse path parent).countP (·.Above p) + path.length = p.path.length := by
  induction t generalizing path parent with
  | leaf i =>
    obtain rfl : p = ⟨path, leaf i, parent⟩ := by simpa [listing] using h
    simp [listing, Spot.Above]
  | branch id row ts ih =>
    rcases mem_listing_branch.mp h with rfl | ⟨k, hk, hp⟩
    · -- the way to the root is the shortest
      have hnone : ((branch id row ts).listing false reverse path parent).countP
          (·.Above ⟨path, branch id row ts, parent⟩) = 0 :=
        List.countP_eq_zero.mpr fun q hq habove => Nat.not_lt.mpr
          (prefix_of_mem_listing hq).length_le (of_decide_eq_true habove).length_lt
      rw [hnone, Nat.zero_add]
    · -- above are the root, what is above in the tree of the child, and nothing in other children
      have hway := prefix_of_mem_listing hp
      have hroot : Spot.Above ⟨path, branch id row ts, parent⟩ p := by
        refine ⟨(List.prefix_append path [k.2]).trans hway, fun (heq : path = p.path) => ?_⟩
        have hlong := hway.length_le
        rw [← heq, List.length_append, List.length_singleton] at hlong
        exact Nat.not_succ_le_self _ hlong
      have hturn : k ∈ inOrder reverse ts.zipIdx := mem_inOrder.mpr hk
      obtain ⟨before, after, hsplit⟩ := List.append_of_mem hturn
      have hindices : ((before ++ k :: after).map Prod.snd).Nodup := by
        rw [← hsplit, ← places_eq]
        exact Walk.nodup_places ts.length reverse
      rw [List.map_append, List.map_cons, List.nodup_append, List.nodup_cons] at hindices
      have hothers : ∀ ks : List (Tree × Nat), (∀ k' ∈ ks, k'.2 ≠ k.2) →
          (spotsBelow false reverse path id ks).countP (·.Above p) = 0 := by
        intro ks hne
        refine List.countP_eq_zero.mpr fun q hq => ?_
        obtain ⟨k', hk', hq⟩ := List.mem_flatMap.mp hq
        exact List.countP_eq_zero.mp (countP_above_of_ne hway (hne k' hk')) q hq
      have hbefore := hothers before fun k' hk' =>
        hindices.2.2 _ (List.mem_map_of_mem hk') _ List.mem_cons_self
      have hafter := hothers after fun k' hk' heq =>
        hindices.2.1.1 (heq ▸ List.mem_map_of_mem hk')
      have hchild := ih k.1 (List.fst_mem_of_mem_zipIdx hk) hp
      rw [listing_branch_first, List.countP_cons, decide_eq_true hroot, if_pos rfl, hsplit,
        spotsBelow, List.flatMap_append, List.flatMap_cons, List.countP_append,
        List.countP_append]
      rw [spotsBelow] at hbefore hafter
      rw [List.length_append, List.length_singleton] at hchild
      omega

end Tree

/-! ## What a visit notes -/

namespace Walk

variable {σ : Type} {reverse : Bool}

/-- The entry that was made last counts. -/
theorem Listed.depth_add_self (l : Listed) (id : NodeId) (line : Line) :
    (l.add (.node id) line).depth (.node id) = line.depth := by
  simp [add, depth]

/-- Noting a line for one item leaves the depths of the others. -/
theorem Listed.depth_add_of_ne (l : Listed) {node i : Item} (h : node ≠ i) (line : Line) :
    (l.add node line).depth i = l.depth i := by
  cases i with
  | node other =>
    cases node with
    | node id =>
      have hne : (id == other) = false := by simpa using h
      simp [add, depth, hne]
    | _ => rfl
  | _ => rfl

/-- The depth at which the children of a parent stand, by the table. -/
def Listed.below (l : Listed) : Option Item → Nat
  | none => 0
  | some p => l.depth p + 1

/-- The lines of occurrences, if all their nodes can be labelled. -/
def linesOf (s : Store) (spots : List Spot) : Except Fault (List Line) := spots.mapM (Spot.line s)

/-- The lines of places are those of the first and those of the rest. -/
theorem linesOf_append (s : Store) (spots more : List Spot) :
    linesOf s (spots ++ more) = do return (← linesOf s spots) ++ (← linesOf s more) :=
  List.mapM_append

/-- The visit of some occurrences notes their lines up to the first node without a label, and the
depths of their nodes. It goes on if and only if all have labels, and changes nothing else. -/
structure Lists (spots : List Spot) (s s' : Scene (σ × Listed)) (r : Except Fault Bool) :
    Prop where
  store : s'.store = s.store
  log : s'.log = s.log
  own : s'.own.1 = s.own.1
  ended : r = (linesOf s.store spots).map fun _ => true
  lines : ∀ ls, linesOf s.store spots = .ok ls → s'.own.2.lines = s.own.2.lines ++ ls
  depths : ∀ i, (∀ p ∈ spots, p.tree.item ≠ i) → s'.own.2.depth i = s.own.2.depth i

namespace Lists

variable {spots more : List Spot} {s s' s'' : Scene (σ × Listed)} {r : Except Fault Bool}

/-- Listing no places notes nothing. -/
theorem nil (s : Scene (σ × Listed)) : Lists [] s s (.ok true) where
  store := rfl
  log := rfl
  own := rfl
  ended := rfl
  lines ls h := by
    obtain rfl := Except.ok.inj h
    exact (List.append_nil _).symm
  depths _ _ := rfl

/-- A visit that goes on has found all labels. -/
theorem exists_lines {goesOn : Bool} (h : Lists spots s s' (.ok goesOn)) :
    goesOn = true ∧ ∃ ls, linesOf s.store spots = .ok ls := by
  have hended := h.ended
  cases hls : linesOf s.store spots with
  | ok ls =>
    rw [hls] at hended
    exact ⟨Except.ok.inj hended, ls, rfl⟩
  | error e =>
    rw [hls] at hended
    cases hended

/-- A visit that ends in a fault ends in that of the first node without a label. -/
theorem linesOf_eq_error {e : Fault} (h : Lists spots s s' (.error e)) :
    linesOf s.store spots = .error e := by
  have hended := h.ended
  cases hls : linesOf s.store spots with
  | ok ls =>
    rw [hls] at hended
    cases hended
  | error f =>
    rw [hls] at hended
    exact congrArg _ (Except.error.inj hended).symm

/-- Occurrences that are done, and those behind them. -/
theorem append (h : Lists spots s s' (.ok true)) (h' : Lists more s' s'' r) :
    Lists (spots ++ more) s s'' r := by
  obtain ⟨-, ls, hls⟩ := h.exists_lines
  have hended := h'.ended
  have hlines := h'.lines
  rw [h.store] at hended hlines
  -- the first places are all listed, so the lines of the whole hang on the rest
  have hall : linesOf s.store (spots ++ more) = (linesOf s.store more).map (ls ++ ·) := by
    rw [linesOf_append, hls]
    cases linesOf s.store more <;> rfl
  refine ⟨h'.store.trans h.store, h'.log.trans h.log, h'.own.trans h.own, ?_, fun all h₁ => ?_,
    fun i hi => ?_⟩
  · rw [hall, hended]
    cases linesOf s.store more <;> rfl
  · rw [hall] at h₁
    cases hmore : linesOf s.store more with
    | error e =>
      rw [hmore] at h₁
      cases h₁
    | ok rest =>
      rw [hmore] at h₁
      obtain rfl := Except.ok.inj h₁
      rw [hlines rest hmore, h.lines ls hls, List.append_assoc]
  · rw [h'.depths i fun p hp => hi p (List.mem_append_right _ hp),
      h.depths i fun p hp => hi p (List.mem_append_left _ hp)]

/-- Behind a node without a label nothing is noted. -/
theorem append_of_error {e : Fault} (h : Lists spots s s' (.error e)) (more : List Spot) :
    Lists (spots ++ more) s s' (.error e) := by
  have hall : linesOf s.store (spots ++ more) = .error e := by
    rw [linesOf_append, h.linesOf_eq_error]
    rfl
  refine ⟨h.store, h.log, h.own, by rw [hall]; rfl, fun ls hls => ?_, fun i hi => ?_⟩
  · rw [hall] at hls
    cases hls
  · exact h.depths i fun p hp => hi p (List.mem_append_left _ hp)

end Lists

/-- The call for an occurrence that has a label, when the table has the depth of its parent. -/
theorem outcome_noteLine {p : Spot} {s : Scene (σ × Listed)} {line : Line}
    (hdepth : s.own.2.below p.parent = p.path.length) (index : Option Nat)
    (hline : p.line s.store = .ok line) :
    outcome (resolve (noteLine p.tree.item index p.parent)) s =
      (.ok .nothing, { s with own := (s.own.1, s.own.2.add p.tree.item line) }) := by
  obtain ⟨label, hlabel, hlast⟩ := Except.bind_eq_ok.mp hline
  obtain rfl := Except.ok.inj hlast
  rw [← hdepth]
  show outcome (resolve (ofExcept (s.store.view p.tree.item).label >>= _)) s = _
  rw [hlabel]
  rfl

/-- The call for an occurrence without a label notes nothing. -/
theorem outcome_noteLine_of_error {p : Spot} {s : Scene (σ × Listed)} {e : Fault}
    (index : Option Nat) (hline : p.line s.store = .error e) :
    outcome (resolve (noteLine p.tree.item index p.parent)) s = (.error e, s) := by
  have hlabel : (s.store.view p.tree.item).label = .error e := by
    rcases Except.bind_eq_error.mp hline with hlabel | ⟨label, -, hlast⟩
    · exact hlabel
    · cases hlast
  show outcome (resolve (ofExcept (s.store.view p.tree.item).label >>= _)) s = _
  rw [hlabel]
  rfl

/-- What the call for an occurrence notes. -/
theorem lists_call {p : Spot} {s s' : Scene (σ × Listed)} {r : Except Fault Item}
    (hdepth : s.own.2.below p.parent = p.path.length)
    (hcall : outcome (resolve (noteLine p.tree.item p.path.getLast? p.parent)) s = (r, s')) :
    Lists [p] s s' (r.map fun _ => true) ∧
      ∀ a, r = .ok a → a = .nothing ∧
        ∀ id, p.tree.item = .node id → s'.own.2.depth (.node id) = p.path.length := by
  have hlines : linesOf s.store [p] = (p.line s.store).map ([·]) := by
    rw [linesOf, List.mapM_cons, List.mapM_nil]
    cases p.line s.store <;> rfl
  cases hline : p.line s.store with
  | error e =>
    rw [outcome_noteLine_of_error _ hline] at hcall
    rw [hline] at hlines
    obtain ⟨rfl, rfl⟩ := Prod.mk.inj hcall
    refine ⟨⟨rfl, rfl, rfl, by rw [hlines]; rfl, fun ls hls => ?_, fun _ _ => rfl⟩,
      fun a ha => nomatch ha⟩
    rw [hlines] at hls
    cases hls
  | ok line =>
    rw [outcome_noteLine hdepth _ hline] at hcall
    rw [hline] at hlines
    obtain ⟨rfl, rfl⟩ := Prod.mk.inj hcall
    -- the depth is the one that the parent was noted with, and one more
    have hnoted : line.depth = p.path.length := by
      obtain ⟨label, -, hlast⟩ := Except.bind_eq_ok.mp hline
      rw [← Except.ok.inj hlast]
    refine ⟨⟨rfl, rfl, rfl, by rw [hlines]; rfl, fun ls hls => ?_, fun i hi => ?_⟩,
      fun a ha => ⟨(Except.ok.inj ha).symm, fun id hid => ?_⟩⟩
    · rw [hlines] at hls
      obtain rfl := Except.ok.inj hls
      rfl
    · exact Listed.depth_add_of_ne _ (hi p (List.mem_singleton_self p)) line
    · rw [hid, Listed.depth_add_self, hnoted]

/-! ## The run of a listing -/

/-- The visit of a tree notes its occurrences, wherever it stands. -/
def ListsTree (σ : Type) (reverse : Bool) (t : Tree) : Prop :=
  ∀ (limit : Nat) (path : List Nat) (parent : Option Item) (s s' : Scene (σ × Listed))
    (r : Except Fault Bool), t.height ≤ limit → t.StandsIn s.store →
    s.own.2.below parent = path.length →
    outcome (visitNode noteLine reverse limit t.item path.getLast? parent) s = (r, s') →
    Lists (t.listing false reverse path parent) s s' r

/-- The loop through the children of a node notes one child after the other. The node stands below
none of them, so its depth is still in the table when the next one comes. -/
theorem lists_throughout {K : List NodeId} {limit : Nat} {id : NodeId} {row : RowId}
    {items : List Item} {ks : List (Tree × Nat)} {path : List Nat} {s s' : Scene (σ × Listed)}
    {r : Except Fault Bool} (htree : ∀ k ∈ ks, ListsTree σ reverse k.1)
    (hready : Ready K limit id row items ks s.store)
    (hnot : ∀ p ∈ Tree.spotsBelow false reverse path id ks, p.tree.item ≠ .node id)
    (hdepth : s.own.2.depth (.node id) = path.length)
    (hrun : outcome (throughout (visitChild noteLine reverse limit id row)
      (ks.map Prod.snd)) s = (r, s')) :
    Lists (Tree.spotsBelow false reverse path id ks) s s' r := by
  induction ks generalizing s with
  | nil =>
    obtain ⟨rfl, rfl⟩ := Prod.mk.inj hrun
    exact .nil s
  | cons k ks ih =>
    have hk : k ∈ k :: ks := List.mem_cons_self
    rw [Tree.spotsBelow, List.flatMap_cons] at hnot ⊢
    rcases hchild : outcome (visitNode noteLine reverse limit k.1.item (some k.2)
      (some (.node id))) s with ⟨r₁, s₁⟩
    -- the table has the depth of the parent, whatever else has been noted in it
    have hone : Lists (k.1.listing false reverse (path ++ [k.2]) (some (.node id))) s s₁ r₁ := by
      refine htree k hk limit (path ++ [k.2]) (some (.node id)) s s₁ r₁ (hready.height k hk)
        (hready.stands k hk) ?_ ?_
      · rw [Listed.below, hdepth, List.length_append, List.length_singleton]
      · rw [List.getLast?_concat, hchild]
    have hstep : outcome (visitChild noteLine reverse limit id row k.2) s = (r₁, s₁) := by
      rw [visitChild, outcome_bind_ok (outcome_itemAt s hready.children.2 (hready.item k hk)),
        hchild]
    rw [List.map_cons, throughout, outcome_bind, hstep] at hrun
    cases r₁ with
    | error e =>
      obtain ⟨rfl, rfl⟩ := Prod.mk.inj hrun
      exact hone.append_of_error _
    | ok goesOn =>
      obtain ⟨rfl, -⟩ := hone.exists_lines
      refine hone.append (ih (fun k' hk' => htree k' (List.mem_cons_of_mem _ hk')) ?_
        (fun p hp => hnot p (List.mem_append_right _ hp)) ?_ hrun)
      · rw [hone.store]
        exact hready.tail_of_keeps (.refl K s.store)
      · -- below the child no occurrence is one of the parent, so its depth has not been replaced
        rw [hone.depths _ fun p hp => hnot p (List.mem_append_left _ hp), hdepth]

/-- Below a leaf nothing is visited. -/
theorem outcome_visitBelow_of_leaf {node : Item} {s : Scene (σ × Listed)}
    (hnone : s.store.childRow? node = none) (limit : Nat) :
    outcome (visitBelow noteLine reverse limit node .nothing) s = (.ok true, s) := by
  rw [visitBelow, show Item.nothing.isStop = false from rfl, if_neg Bool.false_ne_true,
    outcome_getStore_bind, hnone]
  rfl

/-- Below a node its children are visited in order. -/
theorem outcome_visitBelow_of_children {s : Scene (σ × Listed)} {id : NodeId} {row : RowId}
    {items : List Item} (hrow : s.store.HasChildren id row items) (limit : Nat) :
    outcome (visitBelow noteLine reverse limit (.node id) .nothing) s =
      outcome (throughout (visitChild noteLine reverse limit id row)
        (places items.length reverse)) s := by
  rw [visitBelow, show Item.nothing.isStop = false from rfl, if_neg Bool.false_ne_true,
    outcome_getStore_bind, hrow.1, ← hrow.rowItems]
  rfl

/-- A tree is noted when the trees below it are. -/
theorem listsTree_of_children {t : Tree}
    (htree : ∀ id row ts, t = .branch id row ts → ∀ u ∈ ts, ListsTree σ reverse u) :
    ListsTree σ reverse t := by
  intro limit path parent s s' r hlimit hstand hdepth hrun
  obtain ⟨limit, rfl⟩ := Tree.exists_limit hlimit
  rcases hcall : outcome (resolve (noteLine t.item path.getLast? parent)) s with ⟨r₁, s₁⟩
  obtain ⟨hfirst, hanswer⟩ := lists_call (p := ⟨path, t, parent⟩) hdepth hcall
  rw [visitNode_eq, outcome_bind, hcall] at hrun
  cases r₁ with
  | error e =>
    obtain ⟨rfl, rfl⟩ := Prod.mk.inj hrun
    obtain ⟨below, hlisting⟩ := t.listing_first reverse path parent
    rw [hlisting, ← List.singleton_append]
    exact hfirst.append_of_error below
  | ok a =>
    obtain ⟨rfl, hnoted⟩ := hanswer a rfl
    cases t with
    | leaf i =>
      have hnone : s₁.store.childRow? i = none := by rw [hfirst.store]; exact hstand.2
      replace hrun : outcome (visitBelow noteLine reverse limit i .nothing) s₁ = (r, s') := hrun
      rw [outcome_visitBelow_of_leaf hnone] at hrun
      obtain ⟨rfl, rfl⟩ := Prod.mk.inj hrun
      exact hfirst
    | branch id row ts =>
      -- the call has put the depth of this occurrence in the place of that of an earlier one
      have hready : Ready (Tree.branch id row ts).ids limit id row (ts.map Tree.item)
          (Tree.inOrder reverse ts.zipIdx) s₁.store := by
        rw [hfirst.store]
        exact .of_branch reverse hstand (List.Subset.refl _) hlimit
      have hloop : outcome (throughout (visitChild noteLine reverse limit id row)
          ((Tree.inOrder reverse ts.zipIdx).map Prod.snd)) s₁ = (r, s') := by
        rw [← Tree.places_eq, ← List.length_map (f := Tree.item),
          ← outcome_visitBelow_of_children hready.children]
        exact hrun
      rw [Tree.listing_branch_first, ← List.singleton_append]
      refine hfirst.append (lists_throughout (fun k hk => ?_) hready (fun p hp => ?_)
        (hnoted id rfl) hloop)
      · exact htree id row ts rfl k.1 (List.fst_mem_of_mem_zipIdx (Tree.mem_inOrder.mp hk))
      · obtain ⟨k, hk, hp⟩ := List.mem_flatMap.mp hp
        exact hstand.item_ne_of_below (List.fst_mem_of_mem_zipIdx (Tree.mem_inOrder.mp hk)) hp

/-- A listing notes every tree that stands in the store. -/
theorem listsTree (reverse : Bool) (t : Tree) : ListsTree σ reverse t := by
  induction t with
  | leaf i => exact listsTree_of_children fun id row ts h => by cases h
  | branch id row ts ih =>
    refine listsTree_of_children fun id' row' ts' h => ?_
    obtain ⟨-, -, rfl⟩ := Tree.branch.inj h
    exact ih

/-- A listing is made of the lines of the occurrences in a tree, parents first, or ends in the fault
of the first node that has no label. It changes nothing. -/
theorem outcome_listing {t : Tree} {limit : Nat} {s : Scene σ} (hlimit : t.height ≤ limit)
    (hstand : t.StandsIn s.store) (reverse : Bool) :
    outcome (listing limit t.item reverse) s = (linesOf s.store (t.preorder reverse), s) := by
  let start : Scene (σ × Listed) := ⟨s.store, s.log, (s.own, {})⟩
  rcases hrun : outcome (visitNode noteLine reverse limit t.item none none) start with ⟨r, last⟩
  have hlists : Lists (t.preorder reverse) start last r :=
    listsTree reverse t limit [] none start last r hlimit hstand rfl hrun
  -- a callback that notes lines never stops the walk, so the visit ends as the walk over the root
  -- does
  have hvisit : outcome (visit limit t.item noteLine reverse) start =
      (r.map fun _ => (), last) := by
    rw [visit, outcome_bind, hrun]
    cases r with
    | error e => rfl
    | ok goesOn =>
      obtain ⟨rfl, -⟩ := hlists.exists_lines
      rfl
  have hscene : (⟨last.store, last.log, last.own.1⟩ : Scene σ) = s := by
    rw [hlists.store, hlists.log, hlists.own]
  have hkept : outcome (keeping {} (visit limit t.item noteLine reverse)) s =
      (r.map fun _ => ((), last.own.2), s) := by
    rw [outcome_keeping, hvisit]
    refine Prod.ext ?_ hscene
    cases r <;> rfl
  rw [listing, outcome_bind, hkept]
  cases r with
  | error e => rw [hlists.linesOf_eq_error]; rfl
  | ok goesOn =>
    obtain ⟨-, ls, hls⟩ := hlists.exists_lines
    have hlines := hlists.lines ls hls
    rw [hls, ← List.nil_append ls, ← hlines]
    rfl

/-- There are lines of occurrences whose nodes have labels. -/
theorem exists_linesOf {s : Store} {spots : List Spot}
    (h : ∀ p ∈ spots, ∃ label, (s.view p.tree.item).label = .ok label) :
    ∃ ls, linesOf s spots = .ok ls := by
  obtain ⟨ls, hls, -⟩ | ⟨before, p, after, e, hsplit, -, hp, -⟩ :=
    Except.mapM_cases (Spot.line s) spots
  · exact ⟨ls, hls⟩
  · obtain ⟨label, hlabel⟩ := h p (hsplit ▸ List.mem_append_right _ List.mem_cons_self)
    rw [Spot.line, hlabel] at hp
    cases hp

/-- Lines of occurrences stand in their order. -/
theorem forall₂_of_linesOf {s : Store} {spots : List Spot} {ls : List Line}
    (h : linesOf s spots = .ok ls) :
    List.Forall₂ (fun p l => l.depth = p.path.length ∧ (s.view p.tree.item).label = .ok l.label)
      spots ls := by
  induction spots generalizing ls with
  | nil =>
    obtain rfl := Except.ok.inj h
    exact .nil
  | cons p spots ih =>
    rw [linesOf, List.mapM_cons] at h
    obtain ⟨l, hl, h⟩ := Except.bind_eq_ok.mp h
    obtain ⟨rest, hrest, h⟩ := Except.bind_eq_ok.mp h
    obtain rfl := Except.ok.inj h
    obtain ⟨label, hlabel, hl⟩ := Except.bind_eq_ok.mp hl
    obtain rfl := Except.ok.inj hl
    exact .cons ⟨rfl, hlabel⟩ (ih hrest)

/-- The listing of a tree whose nodes have labels has a line for each occurrence, parents first and
children in the order of the direction. It says how many occurrences lie on the way to this one,
and the label of its node, whether the node stands at other places too or not. -/
theorem listing_preorder {t : Tree} {limit : Nat} {reverse : Bool} {s : Scene σ}
    (hlimit : t.height ≤ limit) (hstand : t.StandsIn s.store)
    (hlabels : ∀ p ∈ t.preorder reverse, ∃ label, (s.store.view p.tree.item).label = .ok label) :
    ∃ ls, outcome (listing limit t.item reverse) s = (.ok ls, s) ∧
      List.Forall₂ (fun p l => l.depth = (t.preorder reverse).countP (·.Above p) ∧
        (s.store.view p.tree.item).label = .ok l.label) (t.preorder reverse) ls := by
  obtain ⟨ls, hls⟩ := exists_linesOf hlabels
  refine ⟨ls, by rw [outcome_listing hlimit hstand, hls], ?_⟩
  have hcount : ∀ p ∈ t.preorder reverse,
      (t.preorder reverse).countP (·.Above p) = p.path.length := fun p hp => Tree.countP_above hp
  refine (List.forall₂_and_left _ _).mpr ⟨hcount, forall₂_of_linesOf hls⟩ |>.imp ?_
  rintro p l ⟨hp, hdepth, hlabel⟩
  exact ⟨hdepth.trans hp.symm, hlabel⟩

/-- A root whose second child stands below its first child too, with a child of its own. -/
def sharing : Store where
  nodes := #[⟨.root, [("children", .row ⟨0⟩)]⟩, ⟨.element, [("children", .row ⟨1⟩)]⟩,
    ⟨.element, [("children", .row ⟨2⟩)]⟩, ⟨.html, [("value", .plain (.text "a"))]⟩]
  rows := #[[.node ⟨1⟩, .node ⟨2⟩], [.node ⟨2⟩], [.node ⟨3⟩]]

/-- What lies below that root. -/
def sharingTree : Tree :=
  let shared := .branch ⟨2⟩ ⟨2⟩ [.leaf (.node ⟨3⟩)]
  .branch ⟨0⟩ ⟨0⟩ [.branch ⟨1⟩ ⟨1⟩ [shared], shared]

/-- The tree stands in the store, with its shared nodes. -/
theorem sharingTree_standsIn : sharingTree.StandsIn sharing :=
  ⟨⟨rfl, rfl⟩, ⟨⟨rfl, rfl⟩, ⟨⟨rfl, rfl⟩, ⟨⟨_, rfl⟩, rfl⟩, trivial⟩, trivial⟩,
    ⟨⟨rfl, rfl⟩, ⟨⟨_, rfl⟩, rfl⟩, trivial⟩, trivial⟩

/-- The shared node and its child are listed twice, each time as deep as they lie there. -/
theorem listing_preorder_sample :
    sharingTree.height ≤ 4 ∧ sharingTree.StandsIn sharing ∧
      (∀ p ∈ sharingTree.preorder true, ∃ label, (sharing.view p.tree.item).label = .ok label) ∧
      ∃ ls, outcome (listing 4 sharingTree.item true) ⟨sharing, [], ()⟩ =
          (.ok ls, ⟨sharing, [], ()⟩) ∧
        ls.map Line.depth = [0, 1, 2, 1, 2, 3] := by
  have hlabels : ∀ p ∈ sharingTree.preorder true, ∃ label,
      (sharing.view p.tree.item).label = .ok label := by
    intro p hp
    simp only [sharingTree, Tree.preorder, Tree.listing, Tree.listingAll, if_true,
      Bool.false_eq_true, if_false, List.nil_append, List.mem_cons, List.mem_append,
      List.not_mem_nil, or_false] at hp
    rcases hp with rfl | ((rfl | rfl) | rfl | rfl | rfl) <;> exact ⟨_, rfl⟩
  have hheight : sharingTree.height ≤ 4 := by decide
  obtain ⟨ls, hls, hlines⟩ := listing_preorder (σ := Unit) (s := ⟨sharing, [], ()⟩) hheight
    sharingTree_standsIn hlabels
  -- the depths are those that the theorem counts
  have hdepths : ls.map Line.depth = (sharingTree.preorder true).map fun p =>
      (sharingTree.preorder true).countP (·.Above p) := by
    have heq : List.Forall₂ Eq ((sharingTree.preorder true).map fun p =>
        (sharingTree.preorder true).countP (·.Above p)) (ls.map Line.depth) :=
      List.forall₂_map_left_iff.mpr (List.forall₂_map_right_iff.mpr
        (hlines.imp fun _ _ h => h.1.symm))
    rw [List.forall₂_eq_eq_eq] at heq
    exact heq.symm
  exact ⟨hheight, sharingTree_standsIn, hlabels, ls, hls, hdepths.trans (by decide)⟩

end Walk

end NotebookTree

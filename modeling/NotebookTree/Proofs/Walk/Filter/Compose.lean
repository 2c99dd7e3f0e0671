import NotebookTree.Proofs.Walk.Filter.Run
import NotebookTree.Proofs.Walk.Shape

/-!
# Filters one after the other

A filter prunes the shape of a tree. What it makes are copies of nodes with other children, so a
predicate that does not look at the children thinks of a copy what it thinks of the node, and a
second filter prunes what the first one has left. Pruning twice is pruning once by both predicates
(`Shape.prune_prune`), whether a subtree is dropped by one of them or by both.

A filter writes to nothing that was there, so nodes may stand at several places.

## Main definitions

* `Shape.prune`: a shape without what a function of labels refuses.
* `Walk.Judging`: a predicate depends on what is seen of a node but for its children.
* `Walk.both`: one predicate and another.

## Main statements

* `filter_leaves`: a filter returns a tree of what is left of the shape.
* `filter_filter_same`: two filters one after the other are one filter.
-/

namespace NotebookTree

variable {σ : Type}

/-! ## Pruned shapes -/

namespace Shape

/-- What is seen of the root but for its children. -/
def label : Shape Unfolding → Unfolding
  | leaf a => a.covered
  | branch l _ => l

section Prune

variable (P : Unfolding → Bool)

mutual

/-- A shape without what lies below it and is refused. -/
def prune : Shape Unfolding → Shape Unfolding
  | leaf a => leaf a
  | branch l cs => branch l (pruneAll cs)

/-- What is left of some shapes. -/
def pruneAll : List (Shape Unfolding) → List (Shape Unfolding)
  | [] => []
  | c :: cs => if P c.label then prune c :: pruneAll cs else pruneAll cs

end

/-- Shapes are pruned one by one. -/
theorem pruneAll_cons (c : Shape Unfolding) (cs : List (Shape Unfolding)) :
    pruneAll P (c :: cs) = pruneAll P [c] ++ pruneAll P cs := by
  simp only [pruneAll]
  split <;> rfl

/-- Pruning makes no list of shapes longer. -/
theorem length_pruneAll_le (cs : List (Shape Unfolding)) : (pruneAll P cs).length ≤ cs.length := by
  induction cs with
  | nil => exact Nat.le_refl _
  | cons c cs ih =>
    rw [pruneAll]
    split
    · exact Nat.succ_le_succ ih
    · exact Nat.le_succ_of_le ih

/-- Pruning leaves the label of the root. -/
@[simp] theorem label_prune (c : Shape Unfolding) : (c.prune P).label = c.label := by
  cases c <;> rfl

end Prune

/-- What is left of what is left is what both leave. -/
theorem prune_prune (P Q : Unfolding → Bool) (c : Shape Unfolding) :
    (c.prune P).prune Q = c.prune fun l => P l && Q l := by
  induction c with
  | leaf a => rfl
  | branch l cs ih =>
    rw [prune, prune, prune]
    refine congrArg _ ?_
    induction cs with
    | nil => rfl
    | cons c cs ihs =>
      have hrest := ihs fun d hd => ih d (List.mem_cons_of_mem c hd)
      rw [pruneAll, pruneAll]
      cases hP : P c.label with
      | false => simpa using hrest
      | true => cases hQ : Q c.label <;> simp [pruneAll, hQ, hrest, ih c List.mem_cons_self]

/-- Where all is accepted, nothing is pruned. -/
theorem prune_true (c : Shape Unfolding) : (c.prune fun _ => true) = c := by
  induction c with
  | leaf a => rfl
  | branch l cs ih =>
    rw [prune]
    refine congrArg _ ?_
    induction cs with
    | nil => rfl
    | cons c cs ihs =>
      rw [pruneAll, if_pos rfl, ih c List.mem_cons_self,
        ihs fun d hd => ih d (List.mem_cons_of_mem c hd)]

end Shape

namespace Tree

/-- A tree that a filter with some limits can copy: of complete nodes with distinct fields, and
without nothing among the children. -/
structure Filterable (limit most : Nat) (s : Store) (t : Tree) : Prop where
  settled : t.Settled (fun _ => False) s
  every : t.Every (fun i => i.isNothing = false) fun _ => True
  height : t.height ≤ limit
  narrow : ∀ b ∈ t.branches, b.2.2.length < most

namespace Filterable

variable {limit most : Nat} {s s' : Store} {t : Tree}

/-- A tree can be filtered after what keeps all that is there. -/
theorem of_keeps (h : t.Filterable limit most s) (hkeep : s.KeepsAll s') :
    t.Filterable limit most s' :=
  ⟨h.settled.of_keepsAll hkeep, h.every, h.height, h.narrow⟩

/-- A tree has the same shape after what keeps all that is there. -/
theorem shape_eq (h : t.Filterable limit most s) (hkeep : s.KeepsAll s') :
    t.shape s'.unfolding s' = t.shape s.unfolding s :=
  h.settled.shape_eq (fun _ hx => hx) (fun _ _ => not_false) hkeep.keeps
    fun _ hi => hi.unfolding_eq hkeep.keeps

/-- The children of a tree that can be filtered can be filtered. -/
theorem child {id : NodeId} {row : RowId} {ts : List Tree}
    (h : (branch id row ts).Filterable (limit + 1) most s) (ht : t ∈ ts) :
    t.Filterable limit most s := by
  refine ⟨h.settled.child ht, ?_, ?_, fun b hb => h.narrow b (mem_branches_of_mem ht hb)⟩
  · cases h.every with
    | branch _ hbelow => exact hbelow t ht
  · exact Nat.le_trans (height_le_heightAll ht) (Nat.le_of_succ_le_succ h.height)

/-- The item of a tree is not null. -/
theorem item_isNothing (h : t.Filterable limit most s) : t.item.isNothing = false := by
  cases h.every with
  | leaf hi => exact hi
  | branch => rfl

/-- All that a tree leads to is there. -/
theorem avoids_item (h : t.Filterable limit most s) : s.Avoids (fun _ => False) t.item :=
  h.settled.detached.avoids_item h.settled.stands fun _ _ hx => hx

/-- Such a tree is seen as its shape says. -/
theorem unfolding_eq (h : t.Filterable limit most s) :
    s.unfolding t.item = (t.shape s.unfolding s).unfolding id :=
  unfolding_eq_shape h.every h.settled.stands h.settled.distinct fun _ _ _ => rfl

end Filterable

/-- The label of a shape is what its item unfolds into, but for the children. -/
theorem label_shape (s : Store) (t : Tree) :
    (t.shape s.unfolding s).label = (s.unfolding t.item).covered := by
  cases t <;> rfl

end Tree

/-! ## What is left of trees -/

/-- Trees are left of others, in a store that has only grown. -/
structure Left (P : Unfolding → Bool) (limit most : Nat) (ts : List Tree) (s s' : Store)
    (us : List Tree) : Prop where
  keeps : s.KeepsAll s'
  filterable : ∀ u ∈ us, u.Filterable limit most s'
  shapes : us.map (Tree.shape s'.unfolding s') =
    Shape.pruneAll P (ts.map (Tree.shape s.unfolding s))

namespace Left

variable {P : Unfolding → Bool} {limit most : Nat} {s s' s'' : Store} {t u : Tree}
  {ts us vs : List Tree}

/-- Of no trees nothing is left. -/
theorem nil (s : Store) : Left P limit most [] s s [] :=
  ⟨.refl s, List.forall_mem_nil _, rfl⟩

/-- What is left of trees was left of them before the store grew. -/
theorem of_keeps (h : Left P limit most ts s' s'' us) (hkeep : s.KeepsAll s')
    (hts : ∀ t ∈ ts, t.Filterable limit most s) : Left P limit most ts s s'' us := by
  refine ⟨hkeep.trans h.keeps, h.filterable, ?_⟩
  rw [h.shapes, List.map_congr_left fun t ht => (hts t ht).shape_eq hkeep]

/-- Trees are filtered one after the other. -/
theorem append (h : Left P limit most [t] s s' us) (h' : Left P limit most ts s' s'' vs)
    (hts : ∀ t ∈ ts, t.Filterable limit most s) :
    Left P limit most (t :: ts) s s'' (us ++ vs) := by
  obtain ⟨hkeep, hvs, hshapes⟩ := h'.of_keeps h.keeps hts
  refine ⟨hkeep, List.forall_mem_append.mpr
    ⟨fun u hu => (h.filterable u hu).of_keeps h'.keeps, hvs⟩, ?_⟩
  rw [List.map_append, List.map_congr_left fun u hu => (h.filterable u hu).shape_eq h'.keeps,
    h.shapes, hshapes, List.map_cons]
  exact (Shape.pruneAll_cons P _ _).symm

/-- No more trees are left than there were. -/
theorem length_le (h : Left P limit most ts s s' us) : us.length ≤ ts.length := by
  have hle := Shape.length_pruneAll_le P (ts.map (Tree.shape s.unfolding s))
  rw [← h.shapes, List.length_map, List.length_map] at hle
  exact hle

/-- Of a tree that is refused nothing is left. -/
theorem refused (hkeep : s.KeepsAll s') (h : P (s.unfolding t.item).covered = false) :
    Left P limit most [t] s s' [] := by
  refine ⟨hkeep, List.forall_mem_nil _, ?_⟩
  simp [Shape.pruneAll, Tree.label_shape, h]

/-- Of a tree that is accepted one tree is left, with its pruned shape. -/
theorem accepted (hkeep : s.KeepsAll s') (h : P (s.unfolding t.item).covered = true)
    (hu : u.Filterable limit most s')
    (hshape : u.shape s'.unfolding s' = (t.shape s.unfolding s).prune P) :
    Left P limit most [t] s s' [u] := by
  refine ⟨hkeep, List.forall_mem_singleton.mpr hu, ?_⟩
  rw [List.map_singleton, List.map_singleton, Shape.pruneAll, Tree.label_shape, if_pos h, hshape,
    Shape.pruneAll]

section Copy

variable {id : NodeId} {row : RowId} (ht : (Tree.branch id row ts).Filterable (limit + 1) most s)
  (h : Left P limit most ts s s' us)

include ht h

/-- A copy of a node for which there is what is left of its children. -/
theorem filterable_copy :
    (Tree.branch ⟨s'.nodes.size⟩ ⟨s'.rows.size⟩ us).Filterable (limit + 1) most
      (s'.withCopy id (us.map Tree.item)) := by
  have hkeep : s'.KeepsAll (s'.withCopy id (us.map Tree.item)) := Store.withCopy_keeps _ _ _
  have hus : ∀ u ∈ us, u.Filterable limit most (s'.withCopy id (us.map Tree.item)) := fun u hu =>
    (h.filterable u hu).of_keeps hkeep
  obtain ⟨n, hn⟩ := (Tree.standsIn_branch.mp ht.settled.stands).1.knows
  have hn' : s'.node? id = some n := h.keeps.node id trivial n hn
  have hcopy := Store.node?_withCopy_self hn' (us.map Tree.item)
  have hall : s.KeepsAll (s'.withCopy id (us.map Tree.item)) := h.keeps.trans hkeep
  refine ⟨⟨Tree.standsIn_branch.mpr ⟨Store.hasChildren_withCopy hn' _, fun u hu =>
      (hus u hu).settled.stands⟩, .branch (ht.settled.detached.fields.of_put hn hcopy hall.keeps)
        fun u hu => (hus u hu).settled.detached, fun x hx => ?_⟩,
    .branch trivial fun u hu => (hus u hu).every, ?_, fun b hb => ?_⟩
  · -- the copy is distinct from all that is left below it, since it is new
    rw [Tree.ids, Tree.idsAll_eq] at hx
    rcases List.mem_cons.mp hx with rfl | hx
    · exact (ht.settled.distinct id (by simp [Tree.ids])).of_put hn hcopy
    · obtain ⟨u, hu, hx⟩ := List.mem_flatMap.mp hx
      exact (hus u hu).settled.distinct x hx
  · exact Nat.succ_le_succ (Tree.heightAll_le fun u hu => (hus u hu).height)
  · rw [Tree.branches, Tree.branchesAll_eq] at hb
    rcases List.mem_cons.mp hb with rfl | hb
    · exact Nat.lt_of_le_of_lt h.length_le (ht.narrow (id, row, ts) (by simp [Tree.branches]))
    · obtain ⟨u, hu, hb⟩ := List.mem_flatMap.mp hb
      exact (hus u hu).narrow b hb

/-- The copy has the pruned shape. -/
theorem shape_copy :
    (Tree.branch ⟨s'.nodes.size⟩ ⟨s'.rows.size⟩ us).shape
        (s'.withCopy id (us.map Tree.item)).unfolding (s'.withCopy id (us.map Tree.item)) =
      ((Tree.branch id row ts).shape s.unfolding s).prune P := by
  have hkeep : s'.KeepsAll (s'.withCopy id (us.map Tree.item)) := Store.withCopy_keeps _ _ _
  have hc := (Tree.standsIn_branch.mp ht.settled.stands).1
  obtain ⟨n, hn⟩ := hc.knows
  have hcopy := Store.node?_withCopy_self (h.keeps.node id trivial n hn) (us.map Tree.item)
  have hall : s.KeepsAll (s'.withCopy id (us.map Tree.item)) := h.keeps.trans hkeep
  have hlabel := ht.settled.detached.fields.unfolding_of_put hn hcopy (Store.has_of_childRow? hc.1 hn)
    hall.keeps
  rw [Tree.shape, Tree.shape, Tree.shapeAll_eq, Tree.shapeAll_eq, Shape.prune, hlabel,
    Unfolding.covered_withChildren, ← h.shapes,
    List.map_congr_left fun u hu => (h.filterable u hu).shape_eq hkeep]

end Copy

end Left

namespace Walk

variable {P Q : Unfolding → Bool} {start : Store} {p q : Callback σ} {limit most : Nat}

/-- A predicate depends on what is seen of an item but for its children. It answers and changes
nothing that is there. -/
def Judging (P : Unfolding → Bool) (start : Store) (p : Callback σ) : Prop :=
  ∀ (s : Scene σ) (i : Item) (index : Option Nat) (parent : Option Item),
    start.KeepsAll s.store → s.store.Avoids (fun _ => False) i →
    ∃ answer s', outcome (resolve (p i index parent)) s = (.ok answer, s') ∧
      s.store.KeepsAll s'.store ∧ s'.store.isTruthy answer = P (s.store.unfolding i).covered

/-- Asks a second predicate if the first one accepts. -/
def both (p q : Callback σ) : Callback σ := fun i index parent =>
  return .later (do
    let answer ← resolve (p i index parent)
    if (← getStore).isTruthy answer then resolve (q i index parent) else return answer)

/-- Two predicates that judge judge together. -/
theorem Judging.both (hp : Judging P start p) (hq : Judging Q start q) :
    Judging (fun l => P l && Q l) start (both p q) := by
  intro s i index parent hstart hi
  obtain ⟨answer, s', hrun, hkeep, htrue⟩ := hp s i index parent hstart hi
  have hi' : s'.store.Avoids (fun _ => False) i := hi.of_keeps hkeep.keeps
  rw [Walk.both, resolve_later, outcome_bind_ok hrun, outcome_getStore_bind, htrue]
  dsimp only
  cases hP : P (s.store.unfolding i).covered with
  | false => exact ⟨answer, s', rfl, hkeep, htrue.trans hP⟩
  | true =>
    obtain ⟨answer', s'', hrun', hkeep'', htrue'⟩ := hq s' i index parent (hstart.trans hkeep) hi'
    refine ⟨answer', s'', hrun', hkeep.trans hkeep'', ?_⟩
    rw [htrue', hi.unfolding_eq hkeep.keeps, Bool.true_and]

/-- A filter of a tree leaves what is left of its shape. -/
def Leaves (p : Callback σ) (P : Unfolding → Bool) (start : Store) (most : Nat) (t : Tree) : Prop :=
  ∀ (limit : Nat) (index : Option Nat) (parent : Option Item) (s : Scene σ),
    start.KeepsAll s.store → t.Filterable limit most s.store →
    ∃ kept us s', outcome (filterNode p most limit t.item index parent) s = (.ok kept, s') ∧
      kept.toList = us.map Tree.item ∧ Left P limit most [t] s.store s'.store us

/-- Filtering children leaves trees of them, one after another, from any index on. -/
theorem leaves_gather (id : NodeId) {row : RowId} {items : List Item} {ts : List Tree} {m i : Nat}
    {s : Scene σ} (htree : ∀ t ∈ ts, Leaves p P start most t) (hstart : start.KeepsAll s.store)
    (hts : ∀ t ∈ ts, t.Filterable limit most s.store) (hrow : s.store.row? row = some items)
    (hitems : items.drop i = ts.map Tree.item) (hm : ts.length < m) :
    ∃ us s', outcome (gather (filterChild p most limit (.node id)) row m i) s =
        (.ok (us.map Tree.item), s') ∧ Left P limit most ts s.store s'.store us := by
  induction ts generalizing i m s with
  | nil =>
    obtain ⟨m, rfl⟩ : ∃ n, m = n + 1 := ⟨m - 1, by omega⟩
    have hnone : items[i]? = none := by simpa using congrArg List.head? hitems
    refine ⟨[], s, ?_, .nil _⟩
    rw [gather, outcome_getStore_bind, Store.rowItems, hrow, Option.getD_some, hnone]
    rfl
  | cons t ts ih =>
    rw [List.length_cons] at hm
    obtain ⟨m, rfl⟩ : ∃ n, m = n + 1 := ⟨m - 1, by omega⟩
    have hsome : items[i]? = some t.item := by simpa using congrArg List.head? hitems
    obtain ⟨kept, us, s', hrun, hkept, hleft⟩ := htree t List.mem_cons_self limit (some i)
      (some (.node id)) s hstart (hts t List.mem_cons_self)
    -- the first child has kept all that is there, so the others can be filtered as before
    obtain ⟨vs, s'', hrest, hleft'⟩ := ih (i := i + 1) (m := m) (s := s')
      (fun u hu => htree u (List.mem_cons_of_mem t hu)) (hstart.trans hleft.keeps)
      (fun u hu => (hts u (List.mem_cons_of_mem t hu)).of_keeps hleft.keeps)
      (hleft.keeps.row row trivial items hrow)
      (by rw [← List.tail_drop, hitems]; rfl) (by omega)
    refine ⟨us ++ vs, s'', ?_, hleft.append hleft' fun u hu => hts u (List.mem_cons_of_mem t hu)⟩
    rw [gather, outcome_getStore_bind, Store.rowItems, hrow, Option.getD_some, hsome]
    dsimp only
    rw [filterChild, outcome_bind_ok hrun, outcome_bind_ok hrest, hkept, List.map_append]
    rfl

/-- A tree is filtered when what is left to do after the call for it leaves what is left of it. -/
theorem leaves_of_below (hp : Judging P start p) {t : Tree}
    (hbelow : ∀ (limit : Nat) (s : Scene σ) (answer : Item), start.KeepsAll s.store →
      t.Filterable (limit + 1) most s.store → s.store.isTruthy answer = true →
      P (s.store.unfolding t.item).covered = true →
      ∃ u s', outcome (filterBelow p most limit t.item answer) s = (.ok (some u.item), s') ∧
        Left P (limit + 1) most [t] s.store s'.store [u]) : Leaves p P start most t := by
  intro limit index parent s hstart ht
  obtain ⟨limit, rfl⟩ := Tree.exists_limit ht.height
  obtain ⟨answer, s₁, hrun, hkeep, htrue⟩ := hp s t.item index parent hstart ht.avoids_item
  rw [filterNode_eq, outcome_bind_ok hrun]
  cases hP : P (s.store.unfolding t.item).covered with
  | false =>
    refine ⟨none, [], s₁, ?_, rfl, .refused hkeep hP⟩
    rw [filterBelow, outcome_getStore_bind, htrue, hP]
    rfl
  | true =>
    -- asking the predicate keeps all that is there, so the node looks as it did
    have hsame : s₁.store.unfolding t.item = s.store.unfolding t.item :=
      ht.avoids_item.unfolding_eq hkeep.keeps
    obtain ⟨u, s', hrest, hleft⟩ := hbelow limit s₁ answer (hstart.trans hkeep)
      (ht.of_keeps hkeep) (htrue.trans hP) (by rw [hsame, hP])
    exact ⟨some u.item, [u], s', hrest, rfl,
      hleft.of_keeps hkeep (List.forall_mem_singleton.mpr ht)⟩

/-- A filter leaves what is left of the shape of every tree. -/
theorem leaves_tree (hp : Judging P start p) (most : Nat) (t : Tree) :
    Leaves p P start most t := by
  induction t with
  | leaf i =>
    refine leaves_of_below hp fun limit s answer _ ht htrue hP => ?_
    refine ⟨.leaf i, s, ?_, .accepted (.refl _) hP ht rfl⟩
    have hnone : s.store.childRow? i = none := ht.settled.stands.2
    rw [Tree.item, filterBelow, outcome_getStore_bind, htrue, Bool.not_true,
      if_neg Bool.false_ne_true, outcome_getStore_bind, hnone]
    rfl
  | branch id row ts ih =>
    refine leaves_of_below hp fun limit s answer hstart ht htrue hP => ?_
    have hc := (Tree.standsIn_branch.mp ht.settled.stands).1
    have hmost : ts.length < most := ht.narrow (id, row, ts) (by simp [Tree.branches])
    obtain ⟨us, s', hrun, hleft⟩ := leaves_gather id (i := 0) ih hstart
      (fun t htmem => ht.child htmem) hc.2 rfl hmost
    have hkeep : s'.store.KeepsAll (s'.store.withCopy id (us.map Tree.item)) :=
      Store.withCopy_keeps _ _ _
    refine ⟨.branch ⟨s'.store.nodes.size⟩ ⟨s'.store.rows.size⟩ us,
      { s' with store := s'.store.withCopy id (us.map Tree.item) }, ?_,
      .accepted (hleft.keeps.trans hkeep) hP (hleft.filterable_copy ht) (hleft.shape_copy ht)⟩
    -- none of the trees that are left is null, so the copy takes all of them
    have hfilter : (us.map Tree.item).filter (fun i => !i.isNothing) = us.map Tree.item := by
      refine List.filter_eq_self.mpr (List.forall_mem_map.mpr fun u hu => ?_)
      rw [(hleft.filterable u hu).item_isNothing]
      rfl
    rw [Tree.item, filterBelow, outcome_getStore_bind, htrue, Bool.not_true,
      if_neg Bool.false_ne_true, outcome_getStore_bind, hc.1]
    dsimp only
    rw [outcome_bind_ok hrun, finishCopy, hfilter]
    rfl

/-- A filter of a tree of which the root is accepted returns what is left of it. -/
theorem filter_leaves (hp : Judging P start p) {t : Tree} {s : Scene σ}
    (hstart : start.KeepsAll s.store) (ht : t.Filterable limit most s.store)
    (hP : P (s.store.unfolding t.item).covered = true) :
    ∃ (u : Tree) (s' : Scene σ), outcome (filter limit most t.item p) s = (.ok u.item, s') ∧
      s.store.KeepsAll s'.store ∧ u.Filterable limit most s'.store ∧
      u.shape s'.store.unfolding s'.store = (t.shape s.store.unfolding s.store).prune P := by
  obtain ⟨kept, us, s', hrun, hkept, hleft⟩ := leaves_tree hp most t limit none none s hstart ht
  have hshapes := hleft.shapes
  rw [List.map_singleton, Shape.pruneAll, Tree.label_shape, if_pos hP, Shape.pruneAll] at hshapes
  obtain ⟨u, rfl⟩ : ∃ u, us = [u] := List.length_eq_one_iff.mp (by
    simpa using congrArg List.length hshapes)
  have hu := hleft.filterable u (List.mem_singleton_self u)
  refine ⟨u, s', ?_, hleft.keeps, hu, (List.cons.inj hshapes).1⟩
  obtain rfl : kept = some u.item := by simpa using hkept
  have hsome := hu.item_isNothing
  rw [filter, outcome_bind_ok hrun]
  -- the result is taken unless it is null, which the item of a tree is not
  generalize u.item = i at hsome
  cases i with
  | plain v =>
    cases v with
    | null => cases hsome
    | _ => rfl
  | _ => rfl

/-! ## Two filters -/

section Two

variable {t : Tree} {s : Scene σ} (ht : t.Filterable limit most s.store)

include ht

/-- Filtering leaves the shape of the tree, pruned by the predicate. -/
theorem filter_once (hp : Judging P s.store p) (hP : P (s.store.unfolding t.item).covered = true) :
    ∃ x final, outcome (filter limit most t.item p) s = (.ok x, final) ∧
      final.store.unfolding x = ((t.shape s.store.unfolding s.store).prune P).unfolding id := by
  obtain ⟨u, s', hrun, -, hu, hshape⟩ := filter_leaves hp (.refl _) ht hP
  exact ⟨u.item, s', hrun, by rw [hu.unfolding_eq, hshape]⟩

/-- Of a tree that is filtered twice is left what both filters leave. -/
theorem filter_twice (hp : Judging P s.store p) (hq : Judging Q s.store q)
    (hP : P (s.store.unfolding t.item).covered = true)
    (hQ : Q (s.store.unfolding t.item).covered = true) :
    ∃ x final, outcome (do let x ← filter limit most t.item p; filter limit most x q) s =
        (.ok x, final) ∧
      final.store.unfolding x =
        ((t.shape s.store.unfolding s.store).prune fun l => P l && Q l).unfolding id := by
  obtain ⟨u, s', hrun, hkeep, hu, hshape⟩ := filter_leaves hp (.refl _) ht hP
  have hroot : (s'.store.unfolding u.item).covered = (s.store.unfolding t.item).covered := by
    rw [← Tree.label_shape, ← Tree.label_shape, hshape, Shape.label_prune]
  obtain ⟨v, s'', hrun', -, hv, hshape'⟩ := filter_leaves hq hkeep hu (by rw [hroot, hQ])
  refine ⟨v.item, s'', by rw [outcome_bind_ok hrun, hrun'], ?_⟩
  rw [hv.unfolding_eq, hshape', hshape, Shape.prune_prune]

/-- Two filters one after the other, of which both accept the root, come to one filter with both
predicates. So a filter does no more when it is applied again, the order of two filters makes no
difference, and one that accepts everything returns a tree that is equal to the given one. -/
theorem filter_filter_same (hp : Judging P s.store p) (hq : Judging Q s.store q)
    (hP : P (s.store.unfolding t.item).covered = true)
    (hQ : Q (s.store.unfolding t.item).covered = true) :
    SameTree (do let x ← filter limit most t.item p; filter limit most x q)
        (filter limit most t.item (both p q)) s ∧
      SameTree (do let x ← filter limit most t.item p; filter limit most x p)
        (filter limit most t.item p) s ∧
      SameTree (do let x ← filter limit most t.item p; filter limit most x q)
        (do let x ← filter limit most t.item q; filter limit most x p) s ∧
      ∀ r : Callback σ, Judging (fun _ => true) s.store r →
        ∃ x final, outcome (filter limit most t.item r) s = (.ok x, final) ∧
          final.store.unfolding x = s.store.unfolding t.item := by
  -- each run prunes the one shape, so the runs are compared by the predicates they prune with
  obtain ⟨x, final, hpq, hx⟩ := filter_twice ht hp hq hP hQ
  obtain ⟨y, final', hboth, hy⟩ := filter_once ht (hp.both hq) (by rw [hP, hQ]; rfl)
  obtain ⟨z, final'', hqp, hz⟩ := filter_twice ht hq hp hQ hP
  obtain ⟨x', last, hpp, hx'⟩ := filter_twice ht hp hp hP hP
  obtain ⟨y', last', hp', hy'⟩ := filter_once ht hp hP
  refine ⟨⟨x, y, final, final', hpq, hboth, hx.trans hy.symm⟩,
    ⟨x', y', last, last', hpp, hp', ?_⟩, ⟨x, z, final, final'', hpq, hqp, ?_⟩, fun r hr => ?_⟩
  · rw [hx', hy']
    simp only [Bool.and_self]
  · rw [hx, hz]
    simp only [Bool.and_comm]
  · obtain ⟨w, s', hrun, hw⟩ := filter_once ht hr rfl
    exact ⟨w, s', hrun, by rw [hw, Shape.prune_true, ht.unfolding_eq]⟩

end Two

/-- Accepts an item as what is seen of it but for its children says. -/
def judgingBy (P : Unfolding → Bool) : Callback σ := fun i _ _ => do
  return .now (.plain (.bool (P ((← getStore).unfolding i).covered)))

/-- A predicate that is computed from what is seen judges by it. -/
theorem judging_judgingBy (P : Unfolding → Bool) :
    Judging P start (judgingBy P : Callback σ) := fun s i _ _ _ _ =>
  ⟨.plain (.bool (P (s.store.unfolding i).covered)), s, rfl, .refl _, rfl⟩

/-- Whether what is seen is a node of another kind. -/
def isOther (kind : Kind) (u : Unfolding) : Bool :=
  match u 1 with
  | .node k _ => k != kind
  | _ => true

/-- From the small tree a filter takes one leaf and another one the other, in either order. -/
theorem filter_filter_same_sample :
    let p : Callback Nat := judgingBy (isOther .html)
    let q : Callback Nat := judgingBy (isOther .code)
    let s : Scene Nat := ⟨Store.sample, [], 0⟩
    Tree.sample.Filterable 3 3 Store.sample ∧
      SameTree (do let x ← filter 3 3 Tree.sample.item p; filter 3 3 x q)
        (filter 3 3 Tree.sample.item (both p q)) s := by
  intro p q s
  have ht : Tree.sample.Filterable 3 3 Store.sample := by
    refine ⟨Tree.sample_settled _, ?_, by decide, ?_⟩
    · exact .branch trivial (List.forall_mem_cons.mpr
        ⟨.branch trivial (List.forall_mem_singleton.mpr (.leaf rfl)),
          List.forall_mem_singleton.mpr (.leaf rfl)⟩)
    · simp [Tree.sample, Tree.branches, Tree.branchesAll]
  exact ⟨ht, (filter_filter_same (s := s) ht (judging_judgingBy _) (judging_judgingBy _) rfl rfl).1⟩

end Walk

end NotebookTree

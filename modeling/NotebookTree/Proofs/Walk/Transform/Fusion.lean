import NotebookTree.Proofs.Walk.Transform.Relabel

/-!
# Mapping twice

Two mappers that relabel, one after the other, come to one mapper that relabels once. The first
leaves a tree in which other nodes stand at the same places, each of its own or never changed, with
rows that the walk has made. So the second may relabel that tree as the first did the old one
(`map_relabels`), and the shapes of what comes out are equal (`Shape.relabel_relabel`).

A mapper may change the node that it is given, make a new one, or put a node from beside the tree in
the place of a leaf.

## Main definitions

* `Walk.Relabels`: a mapper relabels every node that it is given.
* `Walk.composed`: one mapper on what another one answers.
* `Tree.Mappable`: a tree that mappers may relabel.

## Main statements

* `map_relabels`: a mapper relabels the shape of a tree, and leaves a tree to be relabelled again.
* `map_map_same`: mapping twice is mapping once.
-/

namespace NotebookTree

variable {σ : Type}

namespace Tree

variable {P : Item → Prop} {B B' : NodeId → Prop} {t : Tree}

/-- Nodes of branches are nodes of the tree. -/
theorem Every.of_ids (h : t.Every P B) (hB : ∀ id ∈ t.ids, B' id) : t.Every P B' := by
  induction h with
  | leaf hi => exact .leaf hi
  | @branch id row ts _ _ ih =>
    exact .branch (hB id (by simp [ids])) fun t ht =>
      ih t ht fun other hother => hB other (mem_ids_of_mem ht hother)

/-- A tree of nodes that a mapper may relabel. Nodes at several places are among those that never
change, and these are leaves. -/
structure Mappable (O C : NodeId → Prop) (s : Store) (t : Tree) : Prop where
  settled : t.Settled (Owned O t.ids) s
  every : t.Every (fun i => ∃ id, i = .node id) fun id => ¬ O id
  once : t.ids.Pairwise fun a b => a = b → O a
  leaves : ∀ x ∈ t.ids, O x → C x
  old : ∀ x, O x → ¬ (Identity.node x).IsNew s

/-- What has come in the place of a tree may be relabelled again. -/
theorem Mappable.of_relabelled {φ : Unfolding → Option Nat → Unfolding} {O C : NodeId → Prop}
    {s s' : Store} {u : Tree} {T : List NodeId} {k : Tree × Option Nat}
    (h : RelabelledAll φ O s T [k] s s' [u]) (hleaves : ∀ x ∈ u.ids, O x → C x)
    (hold : ∀ x, O x → ¬ (Identity.node x).IsNew s') : u.Mappable O C s' where
  settled := (h.settled u (List.mem_singleton_self u)).mono fun x hx =>
    ⟨hx.2, .inr (.inl (by simpa using hx.1))⟩
  every := h.every u (List.mem_singleton_self u)
  once := by simpa using h.once
  leaves := hleaves
  old := hold

/-- Such a tree is seen as its shape says. -/
theorem Mappable.unfolding_eq {O C : NodeId → Prop} {s : Store} (h : t.Mappable O C s) :
    s.unfolding t.item = (t.shape s.leafLabel s).unfolding LeafLabel.seen := by
  refine unfolding_eq_shape h.every h.settled.stands h.settled.distinct ?_
  rintro _ ⟨id, rfl⟩ hdistinct
  rw [LeafLabel.seen, Store.leafLabel, Unfolding.withChildren_covered,
    ← Store.unfolding_eq_withChildren (hdistinct id rfl)]

end Tree

/-- A tree stays as it is when each node is rewritten to itself. -/
theorem Tree.Settled.rewritten_eq {D : NodeId → Prop} {s : Store} {t : Tree} (h : t.Settled D s)
    (index : Option Nat) : t.rewritten (fun u _ => u) s index = s.unfolding t.item := by
  induction t generalizing index with
  | leaf i => rfl
  | branch id row ts ih =>
    have hc := (standsIn_branch.mp h.stands).1
    have hbelow : (ts.zipIdx.map fun l => l.1.rewritten (fun u _ => u) s (some l.2)) =
        (ts.map item).map s.unfolding := by
      rw [List.map_map, ← List.zipIdx_map_fst 0 ts, List.map_map, List.zipIdx_map_fst]
      refine List.map_congr_left fun l hl => ?_
      have hl := List.fst_mem_of_mem_zipIdx hl
      exact ih l.1 hl (h.child hl) (some l.2)
    rw [rewritten, rewrittenAll_eq, hbelow, item, ← Store.childrenUnfolding_of_hasChildren hc,
      ← Store.unfolding_eq_withChildren (h.distinct id (by simp [ids]))]

namespace Walk

variable {callback f g : Callback σ} {φ ψ : Unfolding → Option Nat → Unfolding}
  {O C : NodeId → Prop} {start base : Store} {T : List NodeId}

/-- A callback puts a node in the place of each node, with the same children, and with other fields
that depend on the other fields of the node and on its index only. Nodes `O` of a store never
change. What the callback is for are the others, which it may change, and those nodes `C` among them
that stand in the place of leaves. -/
def Relabels (φ : Unfolding → Option Nat → Unfolding) (O C : NodeId → Prop) (start : Store)
    (callback : Callback σ) : Prop :=
  ∀ (s : Scene σ) (n : NodeId) (index : Option Nat) (parent : Option Item),
    start.Keeps O (fun _ => True) s.store → s.store.Sound O n → (O n → C n) →
    ∃ y s', outcome (resolve (callback (.node n) index parent)) s = (.ok (.node y), s') ∧
      s.store.Relabelled φ O index n s'.store y ∧ (O y → C y)

/-- One callback on what another one answers. -/
def composed (f g : Callback σ) : Callback σ := fun node index parent =>
  return .later (do
    let x ← resolve (f node index parent)
    resolve (g x index parent))

/-- Two mappers that relabel do so one after the other. -/
theorem Relabels.composed (hf : Relabels φ O C start f) (hg : Relabels ψ O C start g) :
    Relabels (Shape.followedBy φ ψ) O C start (composed f g) := by
  intro s n index parent hstart hn hC
  obtain ⟨y, s', hrun, hy, hyC⟩ := hf s n index parent hstart hn hC
  obtain ⟨z, s'', hrun', hz, hzC⟩ := hg s' y index parent
    (hstart.trans (hy.keeps.imp fun x hx _ => hx)) (hy.sound hn) hyC
  refine ⟨z, s'', ?_, hy.trans hz, hzC⟩
  rw [Walk.composed, resolve_later, outcome_bind_ok hrun, hrun']

/-- A mapper that relabels makes of a sound node another one. -/
theorem Relabels.answerFor (h : Relabels φ O C start callback) {s : Scene σ} {n : NodeId}
    (hstart : start.Keeps O (fun _ => True) s.store) (hn : s.store.Sound O n) (hC : O n → C n)
    (index : Option Nat) (parent : Option Item) :
    ∃ y s', outcome (answerFor callback ⟨.node n, index, parent⟩) s = (.ok (.node y), s') ∧
      s.store.Relabelled φ O index n s'.store y ∧ (O y → C y) := by
  obtain ⟨y, s', hrun, hy⟩ := h s n index parent hstart hn hC
  refine ⟨y, s', ?_, hy⟩
  rw [Walk.answerFor, outcome_bind_ok hrun, outcome_getStore_bind]
  rfl

/-- A tree has come in the place of one with an index. -/
def Becomes (φ : Unfolding → Option Nat → Unfolding) (O C : NodeId → Prop) (base : Store)
    (T : List NodeId) (t : Tree) (index : Option Nat) (s s' : Store) (x : Item) : Prop :=
  ∃ u : Tree, x = u.item ∧ RelabelledAll φ O base T [(t, index)] s s' [u] ∧
    ∀ x ∈ u.ids, O x → C x

/-- Trees that are relabelled one after the other have all come in the place of the old ones. -/
theorem relabelledAll_of_inTurn {ks : List (Tree × Nat)} {s s' : Store} {xs : List Item}
    (hturn : InTurn (Owned O T) (Becomes φ O C base T) ks s s' xs)
    (hT : ∀ x ∈ T, ¬ (Identity.node x).IsNew base) (hbase : base.nodes.size ≤ s.nodes.size)
    (hks : ∀ k ∈ ks, k.1.ids ⊆ T) (hparted : ks.Pairwise fun k l => k.1.Parted (Owned O T) l.1) :
    ∃ us : List Tree, xs = us.map Tree.item ∧
      RelabelledAll φ O base T (ks.map fun k => (k.1, some k.2)) s s' us ∧
      ∀ x ∈ us.flatMap Tree.ids, O x → C x := by
  induction hturn with
  | nil s => exact ⟨[], rfl, .nil s, List.forall_mem_nil _⟩
  | @cons k ks s s' s'' x xs hfirst hkeep hothers ih =>
    obtain ⟨hk, hparted⟩ := List.pairwise_cons.mp hparted
    obtain ⟨u, rfl, hu, huC⟩ := hfirst
    -- the first child is settled by the time the others begin, and they keep outside of it
    obtain ⟨us, rfl, hus, husC⟩ := ih (Nat.le_trans hbase hkeep.nodes_le)
      (fun l hl => hks l (List.mem_cons_of_mem k hl)) hparted
    refine ⟨u :: us, rfl, .cons hT hbase ?_ ?_ hu hkeep.nodes_le hus ?_,
      List.forall_mem_append.mpr ⟨huC, husC⟩⟩
    · exact List.forall_mem_cons.mpr ⟨hks k List.mem_cons_self,
        List.forall_mem_map.mpr fun l hl => hks l (List.mem_cons_of_mem k hl)⟩
    · exact List.forall_mem_map.mpr hk
    · exact hothers.keeps_outside.imp fun x hx hown l hl =>
        hx hown _ (List.mem_map_of_mem (f := fun k : Tree × Nat => (k.1, some k.2)) hl)

/-- A mapper relabels every tree below which it is called. -/
theorem transforms_relabelled (hcallback : Relabels φ O C start callback)
    (hstart : start.Keeps O (fun _ => True) base)
    (hold : ∀ x, x ∈ T ∨ O x → ¬ (Identity.node x).IsNew base) {t : Tree}
    (hevery : t.Every (fun i => ∃ id, i = .node id) fun id => ¬ O id)
    (ht : t.Settled (Owned O T) base) (honce : t.Once (Owned O T)) (hsub : t.ids ⊆ T)
    (hleaves : ∀ x ∈ T, O x → C x) :
    Transforms callback false base (Owned O T) (Becomes φ O C base T) t := by
  induction hevery with
  | leaf hi =>
    obtain ⟨n, rfl⟩ := hi
    have hn : n ∈ T := hsub (by simp [Tree.ids])
    refine transforms_leaf ht.stands fun index parent s hbase => ?_
    obtain ⟨y, s', hrun, hy, hyC⟩ := hcallback.answerFor
      (hstart.trans (hbase.imp fun x hO hown => absurd hO hown.2))
      (RelabelledAll.sound_leaf ht hbase hn) (hleaves n hn) index parent
    refine ⟨.node y, s', hrun, hy.keeps.imp fun x hx heq => ?_, .leaf (.node y), rfl,
      .leaf ht hbase (fun x hx => hold x (.inl hx)) hn hy, List.forall_mem_singleton.mpr hyC⟩
    exact Classical.byContradiction fun hO =>
      hx ⟨heq ▸ hn, hO⟩ (List.mem_singleton.mpr heq)
  | @branch id row ts hid hbelow ih =>
    obtain ⟨hroot, honces, -⟩ := Tree.once_branch.mp honce
    have hown : Owned O T id := ⟨hsub (by simp [Tree.ids]), hid⟩
    have hsubs : ∀ t ∈ ts, t.ids ⊆ T := fun t ht x hx => hsub (Tree.mem_ids_of_mem ht hx)
    refine transforms_branch ht.stands honce hown (fun t htmem => ih t htmem (ht.child htmem)
      (honces t htmem) (hsubs t htmem)) fun index parent s s₁ xs hbase hturn hnode => ?_
    have hmem : ∀ k ∈ Tree.inOrder false ts.zipIdx, k.1 ∈ ts := fun k hk =>
      List.fst_mem_of_mem_zipIdx (Tree.mem_inOrder.mp hk)
    obtain ⟨us, rfl, hus, husC⟩ := relabelledAll_of_inTurn hturn (fun x hx => hold x (.inl hx))
      hbase.nodes_le (fun k hk => hsubs k.1 (hmem k hk)) honce.parted
    -- the mapper finds the node with the relabelled children in a new row
    have hdone : ChildrenDone φ O base T id row ts s.store s₁.store us :=
      ⟨hold, hbase.nodes_le, hturn.keeps_outside.nodes_le, ht, hsub, hid,
        fun t ht hmem => hroot t ht hmem hown, hus, hnode⟩
    obtain ⟨y, s', hrun, hy, hyC⟩ := hcallback.answerFor
      (s := { s₁ with store := s₁.store.withChildren id (us.map Tree.item) })
      ((hstart.trans (hnode.imp fun x hO hx => absurd hO hx.2)).trans
        ((Store.withChildren_keeps _ _ _).imp fun x hO heq => hid (heq ▸ hO)))
      hdone.sound (fun hO => absurd hO hid) index parent
    refine ⟨.node y, s', hrun, hy.keeps.imp fun x hx heq => ?_, _, rfl, hdone.branch hy, ?_⟩
    · exact absurd (by simp [heq, Tree.ids]) (hx (heq ▸ hown))
    · rw [Tree.ids, Tree.idsAll_eq]
      exact List.forall_mem_cons.mpr ⟨hyC, husC⟩

/-- A mapper relabels a tree. -/
theorem map_relabels (hcallback : Relabels φ O C start callback) {t : Tree} {limit : Nat}
    {s : Scene σ} (hstart : start.Keeps O (fun _ => True) s.store) (hlimit : t.height ≤ limit)
    (ht : t.Mappable O C s.store) :
    ∃ (u : Tree) (s' : Scene σ), outcome (map limit t.item callback) s = (.ok u.item, s') ∧
      s.store.Keeps O (fun _ => True) s'.store ∧ u.height ≤ t.height ∧ u.Mappable O C s'.store ∧
      u.shape s'.store.leafLabel s'.store =
        (t.shape s.store.leafLabel s.store).relabel φ none := by
  have hold : ∀ x, x ∈ t.ids ∨ O x → ¬ (Identity.node x).IsNew s.store := fun x hx =>
    hx.elim (fun hx => Store.knows_iff_not_isNew.mp (ht.settled.knows x hx)) (ht.old x)
  -- what is owned by others may stand in the tree more than once
  have honce : t.Once (Owned O t.ids) := ht.once.imp fun h heq hown => hown.2 (h heq)
  obtain ⟨x, s', hrun, hkeep, u, rfl, hu, huC⟩ := transforms_relabelled hcallback hstart hold
    ht.every ht.settled honce (List.Subset.refl _) ht.leaves limit none none s hlimit (.refl _)
  refine ⟨u, s', hrun, hkeep.imp fun x hO hown => absurd hO hown.2, ?_, .of_relabelled hu huC
    fun x hx => mt (Store.isNew_of_keeps hkeep) (ht.old x hx), (List.cons.inj hu.shapes).1⟩
  simpa [Tree.heightAll] using hu.height

/-! ## Two mappers -/

/-- A mapper answers what it is given, and changes nothing that is there. -/
def AnswersItself (mapper : Callback σ) : Prop :=
  ∀ (s : Scene σ) (i : Item) (index : Option Nat) (parent : Option Item),
    ∃ s', outcome (resolve (mapper i index parent)) s = (.ok i, s') ∧ s.store.KeepsAll s'.store

/-- A mapper that answers with the node itself rewrites nothing. -/
theorem AnswersItself.answersBy {mapper : Callback σ} (h : AnswersItself mapper) :
    AnswersBy (fun u _ => u) base T mapper := by
  intro s i index parent _ hi
  obtain ⟨s', hrun, hkeep⟩ := h s i index parent
  refine ⟨i, s', hrun, hkeep, ?_⟩
  rw [ite_self]
  exact ⟨hi.unfolding_eq hkeep.keeps, fun D _ havoids => havoids.of_keeps hkeep.keeps⟩

/-- The nodes of a store that are not in a tree. -/
def Beside (s : Store) (t : Tree) (x : NodeId) : Prop := s.Knows (.node x) ∧ x ∉ t.ids

/-- What stands beside a tree is there. -/
theorem Beside.not_isNew {s : Store} {t : Tree} {x : NodeId} (h : Beside s t x) :
    ¬ (Identity.node x).IsNew s := Store.knows_iff_not_isNew.mp h.1

/-- A settled tree with distinct nodes can be mapped, with what stands beside it kept apart. -/
theorem mappable_beside {t : Tree} {s : Store} (ht : t.Settled (· ∈ t.ids) s)
    (hnodes : t.Every (fun i => ∃ id, i = .node id) fun _ => True) (hnodup : t.ids.Nodup) :
    t.Mappable (Beside s t) C s where
  settled := ht.mono fun _ hx => hx.1
  every := hnodes.of_ids fun _ hx hO => hO.2 hx
  once := hnodup.imp fun hne heq => absurd heq hne
  leaves _ hx hO := absurd hx hO.2
  old _ hx := hx.not_isNew

/-- Of a tree in which each node stands at one place, two mappers one after the other make a tree
that is equal to what one makes that calls both for each node; and a mapper that answers its
argument makes a tree that is equal to the given one. -/
theorem map_map_same {t : Tree} {limit : Nat} {s : Scene σ} (hlimit : t.height ≤ limit)
    (ht : t.Settled (· ∈ t.ids) s.store)
    (hnodes : t.Every (fun i => ∃ id, i = .node id) fun _ => True) (hnodup : t.ids.Nodup)
    (hf : Relabels φ (Beside s.store t) C s.store f)
    (hg : Relabels ψ (Beside s.store t) C s.store g) :
    SameTree (do let x ← map limit t.item f; map limit x g) (map limit t.item (composed f g)) s ∧
      ∀ mapper : Callback σ, AnswersItself mapper →
        ∃ x final, outcome (map limit t.item mapper) s = (.ok x, final) ∧
          final.store.unfolding x = s.store.unfolding t.item := by
  have hready : t.Mappable (Beside s.store t) C s.store := mappable_beside ht hnodes hnodup
  refine ⟨?_, fun mapper hmapper => ?_⟩
  · -- each run relabels the shape, and relabelling twice is relabelling by both in turn
    obtain ⟨u, s', hrun, hkeep, hheight, hu, hshape⟩ := map_relabels hf (.refl _) hlimit hready
    obtain ⟨v, s'', hrun', -, -, hv, hshape'⟩ := map_relabels hg hkeep
      (Nat.le_trans hheight hlimit) hu
    obtain ⟨w, final, hrun'', -, -, hw, hshape''⟩ := map_relabels (hf.composed hg) (.refl _) hlimit
      hready
    refine ⟨v.item, w.item, s'', final, ?_, hrun'', ?_⟩
    · rw [outcome_bind_ok hrun, hrun']
    · rw [hv.unfolding_eq, hw.unfolding_eq, hshape', hshape, Shape.relabel_relabel, hshape'']
  · obtain ⟨x, final, hrun, hx⟩ := (transform_reverse_same hlimit ht.stands hnodup ht.detached
      hmapper.answersBy).2 false
    exact ⟨x, final, hrun, hx.trans (ht.rewritten_eq none)⟩

end Walk

/-! ## Nodes of other kinds -/

/-- What is seen of a node when it is of the kind that its kind and index say. -/
def Unfolding.recast (kindOf : Kind → Option Nat → Kind) (u : Unfolding) (index : Option Nat) :
    Unfolding := fun depth =>
  match u depth with
  | .node k fields => .node (kindOf k index) fields
  | v => v

section Recast

variable (kindOf : Kind → Option Nat → Kind) {O : NodeId → Prop} {s : Store} {n : NodeId}
  {m : NodeState}

/-- A new node of another kind with the fields of a node. -/
theorem relabelled_newNode (hn : s.Sound O n) (hm : s.node? n = some m) (index : Option Nat) :
    s.Relabelled (Unfolding.recast kindOf) O index n
      (s.newNode { m with kind := kindOf m.kind index }).2 ⟨s.nodes.size⟩ := by
  have hall : s.KeepsAll (s.newNode { m with kind := kindOf m.kind index }).2 :=
    Store.keepsAll_newNode s _
  have hnew : (s.newNode { m with kind := kindOf m.kind index }).2.node? ⟨s.nodes.size⟩ =
      some { m with kind := kindOf m.kind index } := Store.node?_newNode_self s _
  generalize (s.newNode { m with kind := kindOf m.kind index }).2 = s' at hall hnew
  refine ⟨hall.keeps, ⟨_, hnew⟩, .inr (.inl (Nat.le_refl _)), ?_, ?_,
    fun m' hm' => ?_, fun D hD hfields m' hm' f hf hother => ?_⟩
  · simp only [Store.attribute?, hm, hnew, Value.kindAttribute?_children]
  · have hfields : ∀ f ∈ m.fields, s'.unfolding f.2 = s.unfolding f.2 := fun f hf =>
      (hn.apart f.2 (by rw [Store.parts_node hm]; exact List.mem_map_of_mem hf)).unfolding_eq
        hall.keeps
    -- only the class is another one, so the fields unfold as before at every depth
    funext depth
    cases depth with
    | zero => rfl
    | succ depth =>
      simp only [Unfolding.covered, Unfolding.withChildren, Unfolding.recast,
        Store.unfolding_node hnew, Store.unfolding_node hm, Value.reseat, List.map_map]
      refine congrArg (Value.node _) (List.map_congr_left fun f hf => ?_)
      by_cases hname : f.1 = "children" <;> simp [hname, hfields f hf]
  · rw [← Option.some.inj (hnew.symm.trans hm')]
    exact hn.distinct m hm
  · obtain rfl := Option.some.inj (hnew.symm.trans hm')
    refine ((hfields m hm f hf hother).or_isNew.of_keeps hall.keeps).mono fun x hx => ?_
    rcases hx with hx | ⟨rfl, -⟩
    · exact .inl hx
    · exact .inr (Nat.le_refl _)

end Recast

namespace Walk

/-- Puts a new node in the place of each node, of the kind that its kind and index say. -/
def recasting (kindOf : Kind → Option Nat → Kind) : Callback σ := fun i index _ => do
  return .now (← changeStore fun s => match i with
    | .node id => match s.node? id with
      | some m => (.node ⟨s.nodes.size⟩, (s.newNode { m with kind := kindOf m.kind index }).2)
      | none => (i, s)
    | i => (i, s))

/-- The mapper that makes new nodes of another class relabels. -/
theorem relabels_recasting (kindOf : Kind → Option Nat → Kind)
    (hO : ∀ x, O x → ¬ (Identity.node x).IsNew start) :
    Relabels (Unfolding.recast kindOf) O C start (recasting kindOf : Callback σ) := by
  intro s n index parent hstart hn _
  obtain ⟨m, hm⟩ := hn.knows
  refine ⟨⟨s.store.nodes.size⟩,
    { s with store := (s.store.newNode { m with kind := kindOf m.kind index }).2 }, ?_,
    relabelled_newNode kindOf hn hm index, fun hnew => ?_⟩
  · have hwork : ∀ w : Walk σ Item, resolve (do return .now (← w)) = w :=
      resolve_of_work fun _ => rfl
    rw [recasting, hwork, outcome_changeStore]
    simp only [hm]
  · exact absurd hstart.nodes_le (hO _ hnew)

/-- In the small tree, elements come in the place of all nodes but the root, and then nodes of raw
text in the place of what comes first. -/
theorem map_map_same_sample :
    let f : Callback Nat := recasting fun k index => if index.isSome then .element else k
    let g : Callback Nat := recasting fun k index => if index = some 0 then .raw else k
    let s : Scene Nat := ⟨Store.sample, [], 0⟩
    Tree.sample.Settled (· ∈ Tree.sample.ids) Store.sample ∧ Tree.sample.ids.Nodup ∧
      SameTree (do let x ← map 3 Tree.sample.item f; map 3 x g)
        (map 3 Tree.sample.item (composed f g)) s := by
  intro f g s
  have hsettled := Tree.sample_settled (· ∈ Tree.sample.ids)
  have hnodup : Tree.sample.ids.Nodup := by decide
  have hnodes : Tree.sample.Every (fun i => ∃ id, i = .node id) fun _ => True :=
    .branch trivial (List.forall_mem_cons.mpr
      ⟨.branch trivial (List.forall_mem_singleton.mpr (.leaf ⟨_, rfl⟩)),
        List.forall_mem_singleton.mpr (.leaf ⟨_, rfl⟩)⟩)
  exact ⟨hsettled, hnodup, (map_map_same (t := Tree.sample) (by decide) hsettled hnodes hnodup
    (C := fun _ => False) (relabels_recasting _ fun _ => Beside.not_isNew)
    (relabels_recasting _ fun _ => Beside.not_isNew)).1⟩

end Walk

end NotebookTree

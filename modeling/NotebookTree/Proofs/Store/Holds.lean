import NotebookTree.Proofs.Store.Change
import NotebookTree.Proofs.Value.Tree
import Mathlib.Data.List.Nodup
import Mathlib.Data.List.Perm.Subperm

/-!
# Trees that a store holds

A store holds a tree when the nodes of the tree stand in it, each under an identity of its own and
with a row of its own for its children. Such a tree can be viewed again as it was loaded, stays held
while its nodes and rows stay as they are, and loses nothing when another one is loaded.

## Main definitions

* `Store.Holds`: a store holds a tree, at an item and with some identities.

## Main results

* `Store.Holds.keep`: what stays as it is stays held.
* `Store.Holds.view`: what is held can be viewed.
* `Store.load_holds`: what is loaded is held, with identities that are new.
-/

namespace NotebookTree

/-! ## Fields and identities -/

/-- Fields as they stand in a store when there are no children among them. -/
def plainFields (fields : Entries Value) : Entries Item := fields.map fun f => (f.1, .plain f.2)

/-- Fields in a store are found as they are in the value. -/
theorem lookup_plainFields (fields : Entries Value) (name : String) :
    (plainFields fields).lookup name = (fields.lookup name).map .plain := by
  induction fields with
  | nil => rfl
  | cons f fields ih =>
    obtain ⟨n, v⟩ := f
    rw [plainFields, List.map_cons, ← plainFields, List.lookup_cons, List.lookup_cons, ih]
    cases name == n <;> rfl

/-- Fields in a store have the names that they have in the value. -/
theorem has_plainFields (fields : Entries Value) (name : String) :
    (plainFields fields).has name = fields.has name := by
  simp [plainFields, Entries.has, Function.comp_def]

/-! ## Trees in a store -/

/-- The identity of a node or of a row. -/
inductive Identity where
  | node (id : NodeId)
  | row (id : RowId)
  deriving DecidableEq

/-- An identity that the store has not given yet. -/
def Identity.IsNew (s : Store) : Identity → Prop
  | node id => s.nodes.size ≤ id.index
  | row id => s.rows.size ≤ id.index

/-- A tree in a store: the tree, its item, and the identities of its nodes and rows. -/
structure Held where
  tree : Value
  item : Item
  identities : List Identity

/-- The identities of a part are among those of the whole. -/
theorem mem_identities_of_part {x : Identity} {p : Held} {parts : List Held} (id : NodeId)
    (row : RowId) (hp : p ∈ parts) (hx : x ∈ p.identities) :
    x ∈ Identity.node id :: .row row :: parts.flatMap Held.identities :=
  List.mem_cons_of_mem _ (List.mem_cons_of_mem _ (List.mem_flatMap.mpr ⟨p, hp, hx⟩))

namespace Store

/-- A store holds a tree. No identity is used twice. -/
inductive Holds (s : Store) : Held → Prop
  | leaf {k : Kind} {fields : Entries Value} {id : NodeId} (hk : k ≠ .stopSignal)
      (hfields : Childless fields) (hnode : s.node? id = some ⟨k, plainFields fields⟩) :
      Holds s ⟨.node k fields, .node id, [.node id]⟩
  | branch {k : Kind} {before after : Entries Value} {id : NodeId} {row : RowId}
      {parts : List Held} (hk : k ≠ .stopSignal) (hbefore : before.has "children" = false)
      (hafter : after.has "children" = false)
      (hnode : s.node? id =
        some ⟨k, plainFields before ++ ("children", .row row) :: plainFields after⟩)
      (hrow : s.row? row = some (parts.map Held.item)) (hparts : ∀ p ∈ parts, Holds s p)
      (hnodup : (.node id :: .row row :: parts.flatMap Held.identities).Nodup) :
      Holds s ⟨.node k (before ++ ("children", .list (parts.map Held.tree)) :: after), .node id,
        .node id :: .row row :: parts.flatMap Held.identities⟩

section Holds

variable {s s' : Store} {p : Held} {N : NodeId → Prop} {R : RowId → Prop}

/-- A tree in a store has no node and no row twice. -/
theorem Holds.nodup (h : Holds s p) : p.identities.Nodup := by
  cases h with
  | leaf => exact by simp
  | branch _ _ _ _ _ _ hnodup => exact hnodup

/-- The item of a tree is a node, which is one of its identities. -/
theorem Holds.exists_node (h : Holds s p) :
    ∃ id, p.item = .node id ∧ Identity.node id ∈ p.identities := by
  cases h <;> exact ⟨_, rfl, List.mem_cons_self⟩

/-- The identities of a tree are given. -/
theorem Holds.not_isNew (h : Holds s p) : ∀ x ∈ p.identities, ¬ x.IsNew s := by
  induction h with
  | leaf _ _ hnode =>
    intro x hx
    rw [List.mem_singleton.mp hx]
    exact Nat.not_le.mpr (lt_of_node? hnode)
  | branch _ _ _ hnode hrow _ _ ih =>
    intro x hx
    obtain rfl | hx := List.mem_cons.mp hx
    · exact Nat.not_le.mpr (lt_of_node? hnode)
    obtain rfl | hx := List.mem_cons.mp hx
    · exact Nat.not_le.mpr (lt_of_row? hrow)
    obtain ⟨p, hp, hx⟩ := List.mem_flatMap.mp hx
    exact ih p hp x hx

/-- A tree whose nodes and rows stay as they are stays held. -/
theorem Holds.keep (h : Holds s p) (hkeep : Keeps N R s s')
    (hN : ∀ id, .node id ∈ p.identities → N id) (hR : ∀ id, .row id ∈ p.identities → R id) :
    Holds s' p := by
  induction h with
  | leaf hk hfields hnode =>
    exact .leaf hk hfields (hkeep.node _ (hN _ List.mem_cons_self) _ hnode)
  | branch hk hbefore hafter hnode hrow _ hnodup ih =>
    refine .branch hk hbefore hafter (hkeep.node _ (hN _ List.mem_cons_self) _ hnode)
      (hkeep.row _ (hR _ (List.mem_cons_of_mem _ List.mem_cons_self)) _ hrow)
      (fun p hp => ?_) hnodup
    exact ih p hp (fun id hid => hN id (mem_identities_of_part _ _ hp hid))
      fun id hid => hR id (mem_identities_of_part _ _ hp hid)

/-! ### Viewing -/

/-- The number of an identity: those of rows come behind those of nodes. -/
def number (s : Store) : Identity → Nat
  | .node id => id.index
  | .row id => s.nodes.size + id.index

/-- What is not new has a number below all that the store has given. -/
theorem number_lt {x : Identity} (h : ¬ x.IsNew s) :
    s.number x < s.nodes.size + s.rows.size := by
  cases x with
  | node id => exact Nat.lt_add_right _ (Nat.not_le.mp h)
  | row id => exact Nat.add_lt_add_left (Nat.not_le.mp h) _

/-- Identities that are not new are told apart by their numbers. -/
theorem eq_of_number_eq {x y : Identity} (hx : ¬ x.IsNew s) (hy : ¬ y.IsNew s)
    (h : s.number x = s.number y) : x = y := by
  obtain ⟨⟨i⟩⟩ | ⟨⟨i⟩⟩ := x <;> obtain ⟨⟨j⟩⟩ | ⟨⟨j⟩⟩ := y <;> simp only [number] at h
  · rw [h]
  · have hi : i < s.nodes.size := Nat.not_le.mp hx
    omega
  · have hj : j < s.nodes.size := Nat.not_le.mp hy
    omega
  · rw [Nat.add_left_cancel h]

/-- Identities that are given are no more than there are nodes and rows. -/
theorem length_le_of_nodup {xs : List Identity} (hnodup : xs.Nodup) (h : ∀ x ∈ xs, ¬ x.IsNew s) :
    xs.length ≤ s.nodes.size + s.rows.size := by
  have hmap : (xs.map s.number).Nodup :=
    List.Nodup.map_on (fun x hx y hy => eq_of_number_eq (h x hx) (h y hy)) hnodup
  have hsub : xs.map s.number ⊆ List.range (s.nodes.size + s.rows.size) := fun n hn => by
    obtain ⟨x, hx, rfl⟩ := List.mem_map.mp hn
    exact List.mem_range.mpr (number_lt (h x hx))
  have hle := (List.subperm_of_subset hmap hsub).length_le
  rwa [List.length_map, List.length_range] at hle

/-- Fields without children are viewed as they are. -/
theorem map_viewWithin_plainFields (s : Store) (depth : Nat) (fields : Entries Value) :
    (plainFields fields).map (fun f => (f.1, s.viewWithin (depth + 1) f.2)) = fields := by
  rw [plainFields, List.map_map]
  exact List.map_id fields

/-- A view that is deeper than the tree has nodes and rows shows all of it. -/
theorem Holds.viewWithin (h : Holds s p) :
    ∀ {depth : Nat}, p.identities.length < depth → s.viewWithin depth p.item = p.tree := by
  induction h with
  | leaf _ _ hnode =>
    intro depth hdepth
    obtain ⟨d, rfl⟩ : ∃ d, depth = d + 2 := ⟨depth - 2, by simp at hdepth; omega⟩
    simp only [Store.viewWithin, hnode, map_viewWithin_plainFields]
  | @branch k before after id row parts _ _ _ hnode hrow _ _ ih =>
    intro depth hdepth
    -- a branch takes three of the depth: for itself, for the row and for the items
    obtain ⟨d, rfl⟩ : ∃ d, depth = d + 3 := ⟨depth - 3, by simp at hdepth; omega⟩
    have hparts : (parts.map Held.item).map (s.viewWithin (d + 1)) = parts.map Held.tree := by
      rw [List.map_map]
      refine List.map_congr_left fun p hp => ih p hp ?_
      have hle : p.identities.length ≤ (parts.flatMap Held.identities).length :=
        (List.sublist_flatten_of_mem (List.mem_map_of_mem hp)).length_le
      simp only [List.length_cons] at hdepth
      omega
    have hitems : s.rowItems row = parts.map Held.item := by rw [rowItems, hrow, Option.getD_some]
    simp only [Store.viewWithin, hnode, List.map_append, List.map_cons,
      map_viewWithin_plainFields, hitems, hparts]

/-- What is held can be viewed. -/
theorem Holds.view (h : Holds s p) : s.view p.item = p.tree :=
  h.viewWithin (Nat.lt_succ_of_le (length_le_of_nodup h.nodup h.not_isNew))

/-! ### Fields -/

/-- What a store holds is a tree. -/
theorem Holds.isTree (h : Holds s p) : IsTree p.tree := by
  induction h with
  | leaf hk hfields _ => exact .leaf hk hfields
  | branch hk hbefore hafter _ _ _ _ ih =>
    refine .branch hk hbefore hafter fun c hc => ?_
    obtain ⟨p, hp, rfl⟩ := List.mem_map.mp hc
    exact ih p hp

/-- An item of a tree counts as true. -/
theorem Holds.isTruthy (h : Holds s p) : s.isTruthy p.item = true := by
  cases h <;> rfl

/-- A field of the item is the field of the tree, but for the children. -/
theorem Holds.attribute? (h : Holds s p) {name : String} (hname : name ≠ "children") :
    s.attribute? p.item name = (p.tree.attribute? name).map .plain := by
  cases h with
  | @leaf k fields id _ _ hnode =>
    simp only [Store.attribute?, hnode, lookup_plainFields, Value.attribute?]
    cases fields.lookup name <;> rfl
  | @branch k before after id row parts _ _ _ hnode =>
    have hplain : (plainFields before ++ plainFields after).lookup name =
        ((before ++ after).lookup name).map .plain := by
      rw [← lookup_plainFields, plainFields, plainFields, plainFields, List.map_append]
    simp only [Store.attribute?, hnode, Value.attribute?, Entries.lookup_between hname, hplain]
    cases (before ++ after).lookup name <;> rfl

/-- A plain value is seen as it is. -/
theorem view_plain (s : Store) (v : Value) : s.view (.plain v) = v := rfl

/-- The fields of a tree, but for the children, are seen as they are in it. -/
theorem Holds.fieldView (h : Holds s p) {name : String} (hname : name ≠ "children") :
    s.fieldView p.item name = (p.tree.attribute? name).getD .null := by
  rw [Store.fieldView, h.attribute? hname]
  cases p.tree.attribute? name <;> rfl

/-- A node with plain fields alone has no row of children. -/
theorem childRow?_of_plainFields {k : Kind} {fields : Entries Value} {id : NodeId}
    (h : s.node? id = some ⟨k, plainFields fields⟩) : s.childRow? (.node id) = none := by
  simp only [childRow?, Store.attribute?, h, lookup_plainFields, Value.kindAttribute?_children]
  cases fields.lookup "children" <;> rfl

/-- A node has the items of the row that stands among its fields. -/
theorem hasChildren_of_between {k : Kind} {before after : Entries Item} {id : NodeId} {row : RowId}
    {items : List Item} (h : before.has "children" = false)
    (hnode : s.node? id = some ⟨k, before ++ ("children", .row row) :: after⟩)
    (hrow : s.row? row = some items) : s.HasChildren id row items :=
  ⟨childRow?_of_lookup hnode (Entries.lookup_middle h _), hrow⟩

/-- A tree with children that is held is held with these, and the children have different items. -/
theorem Holds.exists_parts (h : Holds s p) {trees : List Value}
    (hchildren : p.tree.children? = some trees) :
    ∃ (id : NodeId) (row : RowId) (parts : List Held), p.item = .node id ∧
      trees = parts.map Held.tree ∧ s.HasChildren id row (parts.map Held.item) ∧
      (∀ q ∈ parts, Holds s q) ∧ (parts.map Held.item).Nodup := by
  cases h with
  | leaf _ hfields =>
    rw [Value.children?_of_childless hfields] at hchildren
    cases hchildren
  | @branch k before after id row parts hk hbefore hafter hnode hrow hparts hnodup =>
    rw [Value.children?_branch hbefore] at hchildren
    obtain rfl := Option.some.inj hchildren
    refine ⟨id, row, parts, rfl, rfl,
      hasChildren_of_between (by rwa [has_plainFields]) hnode hrow, hparts, ?_⟩
    have hapart := (List.nodup_flatMap.mp (List.nodup_cons.mp (List.nodup_cons.mp hnodup).2).2).2
    -- children with the same item would share the identity of their node
    refine List.pairwise_map.mpr (hapart.imp_of_mem fun {q r} hq hr hdisjoint heq => ?_)
    obtain ⟨i, hi, hmem⟩ := (hparts q hq).exists_node
    obtain ⟨j, hj, hmem'⟩ := (hparts r hr).exists_node
    obtain rfl := Item.node.inj (hi.symm.trans (heq.trans hj))
    exact hdisjoint hmem hmem'

end Holds

/-! ### Loading -/

/-- Nothing that is there changes. -/
abbrev KeepsAll (s s' : Store) : Prop := Keeps (fun _ => True) (fun _ => True) s s'

/-- Where all is kept, any part of it is. -/
theorem KeepsAll.keeps {s s' : Store} {N : NodeId → Prop} {R : RowId → Prop}
    (h : KeepsAll s s') : Keeps N R s s' :=
  h.mono (fun _ _ => trivial) fun _ _ => trivial

section Loading

variable {s s' : Store} {p : Held}

/-- What is held stays held when the store grows. -/
theorem Holds.keepAll (h : Holds s p) (hs : KeepsAll s s') : Holds s' p :=
  h.keep hs (fun _ _ => trivial) fun _ _ => trivial

/-- A new node leaves all that is there. -/
theorem keepsAll_newNode (s : Store) (n : NodeState) : KeepsAll s (s.newNode n).2 where
  nodes_le := by simp [newNode]
  rows_le := Nat.le_refl _
  node id _ m hm := by rw [node?_newNode_of_lt s n (lt_of_node? hm), hm]
  row _ _ _ h := h

/-- A new row leaves all that is there. -/
theorem keepsAll_newRow (s : Store) (items : List Item) : KeepsAll s (s.newRow items).2 where
  nodes_le := Nat.le_refl _
  rows_le := by simp [newRow]
  node _ _ _ h := h
  row id _ xs hxs := by rw [row?_newRow_of_lt s items (lt_of_row? hxs), hxs]

/-- An identity that is new is new for every store before. -/
theorem isNew_of_keeps {N : NodeId → Prop} {R : RowId → Prop} {x : Identity} (h : Keeps N R s s')
    (hx : x.IsNew s') : x.IsNew s := by
  cases x with
  | node id => exact Nat.le_trans h.nodes_le hx
  | row id => exact Nat.le_trans h.rows_le hx

/-- A field that is no list of children is loaded as it is. -/
theorem loadField_plain {name : String} {v : Value} (h : name = "children" → ∀ vs, v ≠ .list vs) :
    s.loadField name v = (.plain v, s) := by
  cases v with
  | list vs =>
    have hname : name ≠ "children" := fun hname => h hname vs rfl
    rw [loadField, if_neg (by simpa using hname)]
  | _ => rfl

/-- Fields that are no children stand in the store as they are. -/
theorem loadFields_append {before : Entries Value} (h : Childless before) (rest : Entries Value) :
    s.loadFields (before ++ rest) =
      (plainFields before ++ (s.loadFields rest).1, (s.loadFields rest).2) := by
  induction before with
  | nil => rfl
  | cons f before ih =>
    obtain ⟨name, v⟩ := f
    rw [List.cons_append, loadFields, loadField_plain (h _ List.mem_cons_self)]
    dsimp only
    rw [ih fun f hf => h f (List.mem_cons_of_mem _ hf)]
    rfl

/-- Fields without children are loaded as they are. -/
theorem loadFields_childless {fields : Entries Value} (h : Childless fields) :
    s.loadFields fields = (plainFields fields, s) := by
  have hfields := loadFields_append (s := s) h []
  rwa [List.append_nil, loadFields, List.append_nil] at hfields

/-- A value is held wherever it has been loaded, with identities that were new. -/
def Loads (v : Value) : Prop :=
  ∀ s : Store, ∃ ids, Holds (s.load v).2 ⟨v, (s.load v).1, ids⟩ ∧ (∀ x ∈ ids, x.IsNew s) ∧
    KeepsAll s (s.load v).2

/-- Values that have been loaded one after the other are held, and share no identity. -/
theorem loadAll_holds {vs : List Value} (h : ∀ v ∈ vs, Loads v) : ∀ s : Store, ∃ parts : List Held,
    parts.map Held.tree = vs ∧ parts.map Held.item = (s.loadAll vs).1 ∧
      (∀ p ∈ parts, Holds (s.loadAll vs).2 p) ∧ (parts.flatMap Held.identities).Nodup ∧
      (∀ x ∈ parts.flatMap Held.identities, x.IsNew s) ∧ KeepsAll s (s.loadAll vs).2 := by
  induction vs with
  | nil => exact fun s => ⟨[], rfl, rfl, List.forall_mem_nil _, List.nodup_nil,
      List.forall_mem_nil _, .refl s⟩
  | cons v vs ih =>
    intro s
    obtain ⟨ids, hholds, hnew, hkeeps⟩ := h v List.mem_cons_self s
    obtain ⟨parts, htrees, hitems, hparts, hnodup, hnews, hkeep⟩ :=
      ih (fun u hu => h u (List.mem_cons_of_mem _ hu)) (s.load v).2
    refine ⟨⟨v, (s.load v).1, ids⟩ :: parts, by rw [List.map_cons, htrees], ?_, ?_, ?_, ?_,
      hkeeps.trans hkeep⟩
    · rw [List.map_cons, hitems]
      rfl
    · exact List.forall_mem_cons.mpr ⟨hholds.keepAll hkeep, hparts⟩
    · rw [List.flatMap_cons]
      -- the rest has identities that are new after the first one is loaded, and the first one's are
      -- not
      refine hholds.nodup.append hnodup fun x hx hx' => ?_
      exact hholds.not_isNew x hx (hnews x hx')
    · rw [List.flatMap_cons]
      exact List.forall_mem_append.mpr ⟨hnew, fun x hx => isNew_of_keeps hkeeps (hnews x hx)⟩

/-- A node is loaded behind its fields. -/
theorem load_node {k : Kind} (hk : k ≠ .stopSignal) (fields : Entries Value) :
    s.load (.node k fields) =
      (.node ((s.loadFields fields).2.newNode ⟨k, (s.loadFields fields).1⟩).1,
        ((s.loadFields fields).2.newNode ⟨k, (s.loadFields fields).1⟩).2) := by
  cases k with
  | stopSignal => exact absurd rfl hk
  | _ => rfl

/-- The row for children is made behind them. -/
theorem loadFields_branch {before after : Entries Value} (hbefore : before.has "children" = false)
    (hafter : after.has "children" = false) (children : List Value) :
    s.loadFields (before ++ ("children", .list children) :: after) =
      (plainFields before ++
        ("children", .row ((s.loadAll children).2.newRow (s.loadAll children).1).1) ::
          plainFields after, ((s.loadAll children).2.newRow (s.loadAll children).1).2) := by
  rw [loadFields_append (childless_of_not_has hbefore), loadFields, loadField,
    if_pos (beq_self_eq_true _)]
  dsimp only
  rw [loadFields_childless (childless_of_not_has hafter)]

/-- New identities are none of those of trees that are held. -/
theorem nodup_of_isNew {parts : List Held} {id : NodeId} {row : RowId}
    (hparts : ∀ p ∈ parts, Holds s p) (hnodup : (parts.flatMap Held.identities).Nodup)
    (hid : (Identity.node id).IsNew s) (hrow : (Identity.row row).IsNew s) :
    (.node id :: .row row :: parts.flatMap Held.identities).Nodup := by
  have hold : ∀ x ∈ parts.flatMap Held.identities, ¬ x.IsNew s := fun x hx => by
    obtain ⟨p, hp, hx⟩ := List.mem_flatMap.mp hx
    exact (hparts p hp).not_isNew x hx
  refine List.nodup_cons.mpr ⟨fun h => ?_, List.nodup_cons.mpr ⟨fun h => hold _ h hrow, hnodup⟩⟩
  obtain h | h := List.mem_cons.mp h
  · cases h
  · exact hold _ h hid

/-- What is loaded is held, with identities that are new. -/
theorem load_holds {v : Value} (h : IsTree v) : Loads v := by
  induction h with
  | @leaf k fields hk hfields =>
    intro s
    rw [load_node hk, loadFields_childless hfields]
    refine ⟨_, .leaf hk hfields (node?_newNode_self _ _), ?_, keepsAll_newNode _ _⟩
    exact List.forall_mem_singleton.mpr (Nat.le_refl s.nodes.size)
  | @branch k before after children hk hbefore hafter _ ih =>
    intro s
    obtain ⟨parts, rfl, hitems, hparts, hnodup, hnews, hkeeps⟩ := loadAll_holds ih s
    rw [load_node hk, loadFields_branch hbefore hafter, ← hitems]
    -- the row of the children and the node itself come after the children, and keep what they are
    have hrow := row?_newRow_self (s.loadAll (parts.map Held.tree)).2 (parts.map Held.item)
    have hkeep := keepsAll_newRow (s.loadAll (parts.map Held.tree)).2 (parts.map Held.item)
    have hnode := keepsAll_newNode ((s.loadAll (parts.map Held.tree)).2.newRow
      (parts.map Held.item)).2
    refine ⟨_, .branch hk hbefore hafter (node?_newNode_self _ _) hrow
      (fun p hp => ((hparts p hp).keepAll hkeep).keepAll (hnode _)) ?_, ?_,
      (hkeeps.trans hkeep).trans (hnode _)⟩
    · exact nodup_of_isNew hparts hnodup (Nat.le_refl (s.loadAll _).2.nodes.size)
        (Nat.le_refl (s.loadAll _).2.rows.size)
    · exact List.forall_mem_cons.mpr ⟨hkeeps.nodes_le,
        List.forall_mem_cons.mpr ⟨hkeeps.rows_le, hnews⟩⟩

end Loading

end Store

end NotebookTree

import NotebookTree.Proofs.Store.Holds

/-!
# What an item leads to

An item leads to the nodes and rows that are come to from it through fields and rows. What it leads
to is all that can be seen of it, so a change of other nodes makes no difference to it
(`Avoids.of_keeps`, `Avoids.viewWithin_eq`), and this holds without end, whether an item leads back
to itself or not.

## Main definitions

* `Store.Leads`: an item leads to a node or row.
* `Store.Avoids`: all that an item leads to is there, and no node in a set is among it.
* `Store.FieldsAvoid`: the fields of a node, but for the children, avoid a set.
-/

namespace NotebookTree

/-- The node or row that an item stands for. -/
def Item.identity? : Item → Option Identity
  | plain _ => none
  | node id => some (.node id)
  | row id => some (.row id)
  | fixedRow id => some (.row id)

/-- An item with the identity of a node is that node. -/
theorem Item.eq_node_of_identity? {i : Item} {id : NodeId} (h : i.identity? = some (.node id)) :
    i = .node id := by
  cases i <;> simp_all [identity?]

namespace Store

/-- Less is kept of the nodes. -/
theorem Keeps.imp {N N' : NodeId → Prop} {R : RowId → Prop} {s s' : Store} (h : s.Keeps N R s')
    (hN : ∀ id, N' id → N id) : s.Keeps N' R s' :=
  h.mono hN fun _ hrow => hrow

variable {D D' : NodeId → Prop} {s s' : Store} {i j : Item} {x : Identity} {id : NodeId}

/-- What stands in a node or row. -/
def parts (s : Store) : Identity → List Item
  | .node id => ((s.node? id).map fun n => n.fields.map Prod.snd).getD []
  | .row id => s.rowItems id

/-- An item leads to a node or row: it stands for it, or one of its parts leads there. -/
inductive Leads (s : Store) : Item → Identity → Prop
  | here {i : Item} {x : Identity} (h : i.identity? = some x) : Leads s i x
  | there {i j : Item} {x y : Identity} (hi : i.identity? = some x) (hj : j ∈ s.parts x)
      (h : Leads s j y) : Leads s i y

/-- All that an item leads to is there, and no node in a set is among it. -/
def Avoids (D : NodeId → Prop) (s : Store) (i : Item) : Prop :=
  ∀ x, s.Leads i x → ¬ x.IsNew s ∧ ∀ id, x = .node id → ¬ D id

/-- The nodes that are there are those that are not new. -/
theorem knows_iff_not_isNew : s.Knows (.node id) ↔ ¬ (Identity.node id).IsNew s :=
  knows_iff_lt.trans Nat.not_le.symm

/-! ## Parts -/

/-- The parts of a node are what its fields hold. -/
theorem parts_node {n : NodeState} (h : s.node? id = some n) :
    s.parts (.node id) = n.fields.map Prod.snd := by
  rw [parts, h, Option.map_some, Option.getD_some]

/-- An item avoids a set if what it stands for does and its parts do. -/
theorem avoids_iff : s.Avoids D i ↔ ∀ x, i.identity? = some x →
    (¬ x.IsNew s ∧ ∀ id, x = .node id → ¬ D id) ∧ ∀ j ∈ s.parts x, s.Avoids D j := by
  constructor
  · intro h x hx
    exact ⟨h x (.here hx), fun j hj y hy => h y (.there hx hj hy)⟩
  · intro h x hx
    cases hx with
    | here hi => exact (h x hi).1
    | there hi hj hx => exact (h _ hi).2 _ hj x hx

/-- A plain value leads nowhere, so it avoids every set. -/
theorem avoids_plain (v : Value) : s.Avoids D (.plain v) :=
  avoids_iff.mpr fun _ hx => nomatch hx

/-- A part of what avoids a set avoids it. -/
theorem Avoids.part (h : s.Avoids D i) (hx : i.identity? = some x) (hj : j ∈ s.parts x) :
    s.Avoids D j := (avoids_iff.mp h x hx).2 j hj

/-- What avoids a set avoids every smaller one. -/
theorem Avoids.mono (h : s.Avoids D i) (hD : ∀ id, D' id → D id) : s.Avoids D' i := fun x hx =>
  ⟨(h x hx).1, fun id hid hd => (h x hx).2 id hid (hD id hd)⟩

/-- A node that avoids a set is there. -/
theorem Avoids.knows (h : s.Avoids D (.node id)) : s.Knows (.node id) :=
  knows_iff_not_isNew.mpr (h _ (.here rfl)).1

/-- A node that avoids a set is not in it. -/
theorem Avoids.not_mem (h : s.Avoids D (.node id)) : ¬ D id := (h _ (.here rfl)).2 id rfl

/-- What is avoided together is avoided apart. -/
theorem Avoids.or (h : s.Avoids D i) (h' : s.Avoids D' i) :
    s.Avoids (fun id => D id ∨ D' id) i := fun x hx =>
  ⟨(h x hx).1, fun id hid hd => hd.elim ((h x hx).2 id hid) ((h' x hx).2 id hid)⟩

/-- An item leads to nothing that the store has not, so it avoids what comes later. -/
theorem Avoids.or_isNew (h : s.Avoids D i) :
    s.Avoids (fun id => D id ∨ (Identity.node id).IsNew s) i := fun x hx =>
  ⟨(h x hx).1, fun id hid hd => hd.elim ((h x hx).2 id hid) fun hnew => (h x hx).1 (hid ▸ hnew)⟩

/-- What stands in a field found in a node is a part of it, or a word. -/
theorem mem_parts_of_attribute? {name : String} {f : Item}
    (hf : s.attribute? (.node id) name = some f) :
    f ∈ s.parts (.node id) ∨ ∃ v, f = .plain v := by
  simp only [attribute?] at hf
  split at hf
  · cases hf
  · rename_i n hn
    split at hf
    · rename_i g hg
      obtain rfl := Option.some.inj hf
      rw [parts_node hn]
      exact .inl (List.mem_map_of_mem (f := Prod.snd) (Entries.mem_of_lookup hg))
    · obtain ⟨v, -, rfl⟩ := Option.map_eq_some_iff.mp hf
      exact .inr ⟨v, rfl⟩

/-- What is found under a name in a node avoids what all parts of the node avoid. -/
theorem avoids_attribute {name : String} (hparts : ∀ j ∈ s.parts (.node id), s.Avoids D j)
    (hf : s.attribute? (.node id) name = some j) : s.Avoids D j := by
  rcases mem_parts_of_attribute? hf with hmem | ⟨v, rfl⟩
  · exact hparts j hmem
  · exact avoids_plain v

/-- What is found under a name in an item avoids what the item avoids. -/
theorem Avoids.attribute {name : String} (h : s.Avoids D i) (hf : s.attribute? i name = some j) :
    s.Avoids D j := by
  cases i with
  | plain v =>
    obtain ⟨w, -, rfl⟩ := Option.map_eq_some_iff.mp hf
    exact avoids_plain w
  | node id => exact avoids_attribute (fun _ hj => h.part rfl hj) hf
  | _ => cases hf

/-! ## Changes elsewhere -/

section Keeps

variable (hkeep : s.Keeps (fun id => ¬ D id) (fun _ => True) s')

include hkeep

/-- What stands in nodes and rows that are kept stays. -/
theorem parts_eq_of_keeps (h : ¬ x.IsNew s ∧ ∀ id, x = .node id → ¬ D id) :
    s'.parts x = s.parts x := by
  cases x with
  | node id =>
    obtain ⟨n, hn⟩ := knows_iff_not_isNew.mpr h.1
    rw [parts_node hn, parts_node (hkeep.node id (h.2 id rfl) n hn)]
  | row row =>
    obtain ⟨items, hitems⟩ := exists_row?_iff_lt.mpr (Nat.not_le.mp h.1)
    rw [parts, parts, rowItems, rowItems, hitems, hkeep.row row trivial items hitems]

/-- What avoids all that is changed has the fields that it had. -/
theorem Avoids.attribute?_eq (h : s.Avoids D i) (name : String) :
    s'.attribute? i name = s.attribute? i name := by
  cases i with
  | node id =>
    obtain ⟨n, hn⟩ := h.knows
    simp only [attribute?, hn, hkeep.node id h.not_mem n hn]
  | _ => rfl

/-- What avoids all that is changed leads to what it led to. -/
theorem Avoids.leads_of_keeps (h : s.Avoids D i) (hx : s'.Leads i x) : s.Leads i x := by
  induction hx with
  | here hi => exact .here hi
  | there hi hj _ ih =>
    rw [parts_eq_of_keeps hkeep (avoids_iff.mp h _ hi).1] at hj
    exact .there hi hj (ih (h.part hi hj))

/-- What avoids the nodes that may change avoids them after the change. -/
theorem Avoids.of_keeps (h : s.Avoids D i) : s'.Avoids D i := fun x hx => by
  obtain ⟨hold, hout⟩ := h x (h.leads_of_keeps hkeep hx)
  exact ⟨mt (isNew_of_keeps hkeep) hold, hout⟩

/-- What avoids all that is changed is viewed as before, down to every depth. -/
theorem Avoids.viewWithin_eq (h : s.Avoids D i) (depth : Nat) :
    s'.viewWithin depth i = s.viewWithin depth i := by
  -- the view goes down one level at a time, and everything an item leads to avoids `D` as well
  induction depth generalizing i with
  | zero => rfl
  | succ depth ih =>
    cases i with
    | plain v => rfl
    | node id =>
      obtain ⟨n, hn⟩ := h.knows
      rw [viewWithin, viewWithin, hn, hkeep.node id h.not_mem n hn]
      refine congrArg (Value.node n.kind) (List.map_congr_left fun f hf => ?_)
      rw [ih (h.part rfl (by rw [parts_node hn]; exact List.mem_map_of_mem hf))]
    | row row | fixedRow row =>
      have hparts := parts_eq_of_keeps hkeep (avoids_iff.mp h _ rfl).1
      rw [parts, parts] at hparts
      rw [viewWithin, viewWithin, hparts]
      exact congrArg _ (List.map_congr_left fun j hj => ih (h.part rfl hj))

end Keeps

/-! ## The fields of a node -/

/-- The fields of a node, but for the children, avoid a set. -/
def FieldsAvoid (D : NodeId → Prop) (s : Store) (id : NodeId) : Prop :=
  ∀ n, s.node? id = some n → ∀ f ∈ n.fields,
    (f.1 = "children" → n.fields.lookup "children" ≠ some f.2) → s.Avoids D f.2

/-- Fields that avoid a set avoid every smaller one. -/
theorem FieldsAvoid.mono (h : s.FieldsAvoid D id) (hD : ∀ id, D' id → D id) :
    s.FieldsAvoid D' id := fun n hn f hf hname => (h n hn f hf hname).mono hD

/-- They avoid what comes later. -/
theorem FieldsAvoid.or_isNew (h : s.FieldsAvoid D id) :
    s.FieldsAvoid (fun id => D id ∨ (Identity.node id).IsNew s) id :=
  fun n hn f hf hname => (h n hn f hf hname).or_isNew

/-- The fields of a node that stays, and that avoid all that is changed, avoid it still. -/
theorem FieldsAvoid.of_keeps (h : s.FieldsAvoid D id) {n : NodeState} (hn : s.node? id = some n)
    (hn' : s'.node? id = some n) (hkeep : s.Keeps (fun id => ¬ D id) (fun _ => True) s') :
    s'.FieldsAvoid D id := by
  intro m hm f hf hname
  obtain rfl : n = m := Option.some.inj (hn'.symm.trans hm)
  exact (h n hn f hf hname).of_keeps hkeep

/-- A node that is as another one but for the children has other fields that avoid what those of the
other one have avoided. -/
theorem FieldsAvoid.of_put {id' : NodeId} {n : NodeState} {c : Item} (h : s.FieldsAvoid D id)
    (hn : s.node? id = some n)
    (hn' : s'.node? id' = some { n with fields := n.fields.put "children" c })
    (hkeep : s.Keeps (fun id => ¬ D id) (fun _ => True) s') : s'.FieldsAvoid D id' := by
  intro m hm f hf hother
  obtain rfl := Option.some.inj (hn'.symm.trans hm)
  rcases Entries.eq_or_mem_of_mem_put hf with rfl | ⟨hf, hname⟩
  · exact absurd (Entries.lookup_put_self _ _ _) (hother rfl)
  · exact (h n hn f hf fun hchildren => absurd hchildren hname).of_keeps hkeep

/-- A row of children avoids what its items avoid. -/
theorem avoids_row {row : RowId} {items : List Item} (hrow : s.row? row = some items)
    (h : ∀ j ∈ items, s.Avoids D j) : s.Avoids D (.row row) := by
  refine avoids_iff.mpr fun x hx => ?_
  obtain rfl : Identity.row row = x := Option.some.inj hx
  refine ⟨⟨Nat.not_le.mpr (lt_of_row? hrow), fun _ hid => nomatch hid⟩, fun j hj => h j ?_⟩
  rwa [parts, rowItems, hrow] at hj

/-- What stands in a node avoids what its fields avoid, if what stands for the children does too. -/
theorem FieldsAvoid.parts (h : s.FieldsAvoid D id)
    (hc : ∀ f, s.attribute? (.node id) "children" = some f → s.Avoids D f) :
    ∀ j ∈ s.parts (.node id), s.Avoids D j := by
  intro j hj
  cases hn : s.node? id with
  | none =>
    rw [Store.parts, hn] at hj
    cases hj
  | some n =>
    rw [parts_node hn] at hj
    obtain ⟨f, hf, rfl⟩ := List.mem_map.mp hj
    by_cases hname : f.1 = "children" ∧ n.fields.lookup "children" = some f.2
    · exact hc f.2 (by simp only [attribute?, hn, hname.2])
    · exact h n hn f hf fun hchildren hlookup => hname ⟨hchildren, hlookup⟩

/-- A node with a row of children avoids what its other fields and its children avoid, if it is not
in the set itself. -/
theorem FieldsAvoid.avoids {row : RowId} {items : List Item} (h : s.FieldsAvoid D id)
    (hc : s.HasChildren id row items) (hitems : ∀ j ∈ items, s.Avoids D j) (hid : ¬ D id) :
    s.Avoids D (.node id) := by
  refine avoids_iff.mpr fun x hx => ?_
  obtain rfl : Identity.node id = x := Option.some.inj hx
  refine ⟨⟨knows_iff_not_isNew.mp hc.knows, fun other hother => ?_⟩, h.parts fun f hf => ?_⟩
  · rwa [← Identity.node.inj hother]
  · rw [attribute?_of_childRow? hc.1] at hf
    rw [← Option.some.inj hf]
    exact avoids_row hc.2 hitems

end Store

end NotebookTree

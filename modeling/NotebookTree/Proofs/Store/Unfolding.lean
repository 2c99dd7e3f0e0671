import NotebookTree.Proofs.Store.Leads
import NotebookTree.Proofs.Store.Rows

/-!
# Unfoldings

The unfolding of an item is what is seen of it down to every depth. Two items, in one store or in
two, are equal in structure and contents when they have the same unfolding: no depth tells them
apart, whatever their identities are, and whether their nodes are shared or not.

A node is seen as its children among its other fields. What is seen of the other fields is the
unfolding with the children covered (`Unfolding.covered`), and a node that gets another row of
children is seen as before but for these (`Store.FieldsAvoid.unfolding_of_put`).

## Main definitions

* `Unfolding`, `Store.unfolding`: what is seen of an item, by depth.
* `Unfolding.withChildren`, `Unfolding.covered`: the same with other children, and with none to see.
-/

namespace NotebookTree

/-- A value with something else in the place of its children, if it has any. -/
def Value.reseat (v c : Value) : Value :=
  match v with
  | .node k fields =>
    .node k (fields.map fun f => if f.1 == "children" then ("children", c) else f)
  | v => v

/-- The last list of children that a value is given stays. -/
@[simp] theorem Value.reseat_reseat (v c c' : Value) :
    (v.reseat c).reseat c' = v.reseat c' := by
  cases v with
  | node k fields =>
    rw [reseat, reseat, reseat, List.map_map]
    refine congrArg (node k) (List.map_congr_left fun f _ => ?_)
    by_cases hf : f.1 = "children" <;> simp [hf]
  | _ => rfl

/-- What is seen of an item, by depth. -/
abbrev Unfolding := Nat → Value

namespace Unfolding

/-- Nothing to be seen at any depth. -/
def nothing : Unfolding := fun _ => .null

/-- A row, of which the items are seen one level below. -/
def row (us : List Unfolding) : Unfolding
  | 0 => .null
  | depth + 1 => .list (us.map fun u => u depth)

/-- An unfolding with something else in the place of the children, if there are any. -/
def withChildren (u c : Unfolding) : Unfolding
  | 0 => u 0
  | depth + 1 => (u (depth + 1)).reseat (c depth)

/-- An unfolding of which the children are not seen. -/
def covered (u : Unfolding) : Unfolding := u.withChildren nothing

variable (u c c' : Unfolding)

/-- The last children that an unfolding is given stay. -/
@[simp] theorem withChildren_withChildren :
    (u.withChildren c).withChildren c' = u.withChildren c' := by
  funext depth
  cases depth with
  | zero => rfl
  | succ depth => exact Value.reseat_reseat _ _ _

/-- What is covered does not depend on the children. -/
@[simp] theorem covered_withChildren : (u.withChildren c).covered = u.covered :=
  withChildren_withChildren u c nothing

/-- An unfolding loses its children to the ones it is given, so covering them first makes no
difference. -/
@[simp] theorem withChildren_covered : u.covered.withChildren c = u.withChildren c :=
  withChildren_withChildren u nothing c

end Unfolding

namespace Store

variable {D : NodeId → Prop} {s s' : Store} {i : Item} {id id' : NodeId} {n : NodeState}

/-- What is seen of an item. -/
def unfolding (s : Store) (i : Item) : Unfolding := fun depth => s.viewWithin depth i

/-- What is seen of the children of an item. -/
def childrenUnfolding (s : Store) (i : Item) : Unfolding :=
  match s.attribute? i "children" with
  | some f => s.unfolding f
  | none => .nothing

/-- What avoids all that is changed is seen as before. -/
theorem Avoids.unfolding_eq (h : s.Avoids D i)
    (hkeep : s.Keeps (fun id => ¬ D id) (fun _ => True) s') : s'.unfolding i = s.unfolding i :=
  funext (h.viewWithin_eq hkeep)

/-- The children of what avoids all that is changed are seen as before. -/
theorem Avoids.childrenUnfolding_eq (h : s.Avoids D i)
    (hkeep : s.Keeps (fun id => ¬ D id) (fun _ => True) s') :
    s'.childrenUnfolding i = s.childrenUnfolding i := by
  rw [childrenUnfolding, childrenUnfolding, h.attribute?_eq hkeep]
  cases hf : s.attribute? i "children" with
  | none => rfl
  | some f => exact (h.attribute hf).unfolding_eq hkeep

/-- A row unfolds into its items. -/
theorem unfolding_row {row : RowId} {items : List Item} (h : s.row? row = some items) :
    s.unfolding (.row row) = .row (items.map s.unfolding) := by
  funext depth
  cases depth with
  | zero => rfl
  | succ depth =>
    rw [unfolding, viewWithin, rowItems, h, Option.getD_some, Unfolding.row, List.map_map]
    rfl

/-- A node unfolds into its kind and what its fields unfold into, one step later. -/
theorem unfolding_node (h : s.node? id = some n) (depth : Nat) :
    s.unfolding (.node id) (depth + 1) =
      .node n.kind (n.fields.map fun f => (f.1, s.unfolding f.2 depth)) := by
  rw [unfolding, viewWithin, h]
  rfl

/-- The children of an item that has a row of them are seen as what stands in the row. -/
theorem childrenUnfolding_of_hasChildren {row : RowId} {items : List Item}
    (h : s.HasChildren id row items) :
    s.childrenUnfolding (.node id) = .row (items.map s.unfolding) := by
  rw [childrenUnfolding, attribute?_of_childRow? h.1]
  exact unfolding_row h.2

/-- A node that is as another one but for the children, and of which the other fields avoid all that
is changed, is seen as the other one but for the children. -/
theorem FieldsAvoid.unfolding_of_put {c : Item} (h : s.FieldsAvoid D id) (hn : s.node? id = some n)
    (hn' : s'.node? id' = some { n with fields := n.fields.put "children" c })
    (hhas : n.fields.has "children" = true)
    (hkeep : s.Keeps (fun id => ¬ D id) (fun _ => True) s') :
    s'.unfolding (.node id') = (s.unfolding (.node id)).withChildren (s'.unfolding c) := by
  funext depth
  cases depth with
  | zero => rfl
  | succ depth =>
    rw [unfolding_node hn', Unfolding.withChildren, unfolding_node hn, Value.reseat,
      Entries.put, if_pos hhas, List.map_map, List.map_map]
    refine congrArg (Value.node n.kind) (List.map_congr_left fun f hf => ?_)
    by_cases hname : f.1 = "children"
    · simp [hname]
    · simp [hname, (h n hn f hf fun hchildren => absurd hchildren hname).unfolding_eq hkeep]

/-- A node that has a row of children has a field for them. -/
theorem has_of_childRow? {row : RowId} (h : s.childRow? (.node id) = some row)
    (hn : s.node? id = some n) : n.fields.has "children" = true := by
  rw [Entries.has_eq_isSome_lookup, lookup_of_childRow? h hn]
  rfl

/-- A node has each of its fields once. -/
def DistinctFields (s : Store) (id : NodeId) : Prop :=
  ∀ n, s.node? id = some n → (n.fields.map Prod.fst).Nodup

/-- Distinct names hang on the state of the node alone. -/
theorem DistinctFields.of_eq (h : s.DistinctFields id) (hsame : s'.node? id' = s.node? id) :
    s'.DistinctFields id' := fun n hn => h n (hsame.symm.trans hn)

/-- A node with another row of children has distinct names when the first one has. -/
theorem DistinctFields.of_put {c : Item} (h : s.DistinctFields id) (hn : s.node? id = some n)
    (hn' : s'.node? id' = some { n with fields := n.fields.put "children" c }) :
    s'.DistinctFields id' := by
  intro m hm
  rw [← Option.some.inj (hn'.symm.trans hm)]
  exact Entries.nodup_put _ (h n hn)

/-- The children of a node unfold as the field of that name does. -/
theorem childrenUnfolding_node (h : s.node? id = some n) :
    s.childrenUnfolding (.node id) = match n.fields.lookup "children" with
      | some f => s.unfolding f
      | none => .nothing := by
  rw [childrenUnfolding, attribute?, h]
  cases hlookup : n.fields.lookup "children" with
  | some f => simp [hlookup]
  | none => simp [hlookup, Value.kindAttribute?_children]

/-- A node is seen with its children, when it has one field for them. -/
theorem unfolding_eq_withChildren (hnames : s.DistinctFields id) :
    s.unfolding (.node id) =
      (s.unfolding (.node id)).withChildren (s.childrenUnfolding (.node id)) := by
  funext depth
  cases depth with
  | zero => rfl
  | succ depth =>
    cases hn : s.node? id with
    | none =>
      rw [Unfolding.withChildren, unfolding, viewWithin, hn]
      rfl
    | some n =>
      rw [Unfolding.withChildren, unfolding_node hn, Value.reseat, List.map_map,
        childrenUnfolding_node hn]
      refine congrArg (Value.node n.kind) (List.map_congr_left fun f hf => ?_)
      -- the names are distinct, so the field of that name is the one that is found
      by_cases hname : f.1 = "children"
      · have hlookup : n.fields.lookup "children" = some f.2 := by
          rw [← hname]
          exact Entries.lookup_of_mem (hnames n hn) hf
        simp [hname, hlookup]
      · simp [hname]

/-- What is seen of the fields of a node that stays, and of which these avoid all that is changed,
is the same. -/
theorem FieldsAvoid.covered_eq (h : s.FieldsAvoid D id) (hn : s.node? id = some n)
    (hn' : s'.node? id = some n) (hkeep : s.Keeps (fun id => ¬ D id) (fun _ => True) s') :
    (s'.unfolding (.node id)).covered = (s.unfolding (.node id)).covered := by
  funext depth
  cases depth with
  | zero => rfl
  | succ depth =>
    rw [Unfolding.covered, Unfolding.covered, Unfolding.withChildren, Unfolding.withChildren,
      unfolding_node hn, unfolding_node hn', Value.reseat, Value.reseat, List.map_map, List.map_map]
    refine congrArg (Value.node n.kind) (List.map_congr_left fun f hf => ?_)
    by_cases hname : f.1 = "children"
    · simp [hname]
    · simp [hname, (h n hn f hf fun hchildren => absurd hchildren hname).unfolding_eq hkeep]

end Store

end NotebookTree

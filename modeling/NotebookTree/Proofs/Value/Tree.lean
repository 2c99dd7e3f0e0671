import NotebookTree.Proofs.Entries

/-!
# Values that are trees

## Main definitions

* `Below`: the nodes of a tree.
* `IsTree`: the values that are trees of nodes.
* `FreeOf`: trees in which no node has a type.
* `Value.levels`: the number of levels of a tree.
-/

namespace NotebookTree

/-! ## The nodes of a tree -/

/-- A node stands in a tree: it is the root, or stands in the tree of a child. -/
inductive Below (node : Value) : Value → Prop
  | root : Below node node
  | child {v c : Value} (hc : c ∈ v.children?.getD []) (h : Below node c) : Below node v

/-- What stands in a tree is its root if that has no children. -/
theorem Below.eq_of_leaf {node v : Value} (h : Below node v) (hv : v.children? = none) :
    node = v := by
  cases h with
  | root => rfl
  | child hc => rw [hv] at hc; cases hc

/-! ## Trees of nodes -/

/-- No field is a list of children. -/
def Childless (fields : Entries Value) : Prop :=
  ∀ f ∈ fields, f.1 = "children" → ∀ vs, f.2 ≠ .list vs

/-- A value is a tree of nodes. A node with children has them in one field. -/
inductive IsTree : Value → Prop
  | leaf {k : Kind} {fields : Entries Value} (hk : k ≠ .stopSignal) (hfields : Childless fields) :
      IsTree (.node k fields)
  | branch {k : Kind} {before after : Entries Value} {children : List Value}
      (hk : k ≠ .stopSignal) (hbefore : before.has "children" = false)
      (hafter : after.has "children" = false) (hchildren : ∀ c ∈ children, IsTree c) :
      IsTree (.node k (before ++ ("children", .list children) :: after))

/-- Fields without that name hold no children. -/
theorem childless_of_not_has {fields : Entries Value} (h : fields.has "children" = false) :
    Childless fields := fun f hf hname => by
  have hany := List.any_eq_false.mp h f hf
  simp [hname] at hany

/-- A node without a field for children is a tree. -/
theorem isTree_of_not_has {k : Kind} {fields : Entries Value} (hk : k ≠ .stopSignal)
    (h : fields.has "children" = false) : IsTree (.node k fields) :=
  .leaf hk (childless_of_not_has h)

/-- A node whose first field are trees, its children, is a tree. -/
theorem isTree_of_children {k : Kind} {after : Entries Value} {children : List Value}
    (hk : k ≠ .stopSignal) (hafter : after.has "children" = false)
    (hchildren : ∀ c ∈ children, IsTree c) :
    IsTree (.node k (("children", .list children) :: after)) := by
  rw [← List.nil_append (("children", Value.list children) :: after)]
  exact .branch hk rfl hafter hchildren

/-- No word of a kind stands for children. -/
theorem Value.kindAttribute?_children (k : Kind) : kindAttribute? k "children" = none := by
  simp [kindAttribute?]

/-- A node without children in its fields has none. -/
theorem Value.children?_of_childless {k : Kind} {fields : Entries Value} (h : Childless fields) :
    (Value.node k fields).children? = none := by
  have hlookup : ∀ vs, fields.lookup "children" ≠ some (.list vs) := fun vs hvs =>
    h _ (Entries.mem_of_lookup hvs) rfl vs rfl
  rw [children?, attribute?]
  cases hf : fields.lookup "children" with
  | none => rw [kindAttribute?_children]
  | some v =>
    cases v with
    | list vs => exact absurd hf (hlookup vs)
    | _ => rfl

/-- The children of a branch are the list among its fields. -/
theorem Value.children?_branch {k : Kind} {before after : Entries Value} {children : List Value}
    (h : before.has "children" = false) :
    (Value.node k (before ++ ("children", .list children) :: after)).children? = some children := by
  rw [children?, attribute?, Entries.lookup_middle h]

/-- A node with other children. -/
def Value.withChildren (v : Value) (children : List Value) : Value :=
  match v with
  | .node k fields => .node k (Entries.put fields "children" (.list children))
  | v => v

/-- A branch with other children has the other list in the same place. -/
theorem Value.withChildren_branch {k : Kind} {before after : Entries Value} {children : List Value}
    (hbefore : before.has "children" = false) (hafter : after.has "children" = false)
    (others : List Value) :
    (Value.node k (before ++ ("children", .list children) :: after)).withChildren others =
      .node k (before ++ ("children", .list others) :: after) := by
  rw [withChildren, Entries.put_between _ hbefore hafter]

/-- The type of a node without a field for it is the word of its kind. -/
theorem Value.hasType_of_not_has {k : Kind} {fields : Entries Value} (h : fields.has "type" = false)
    (word : String) : (Value.node k fields).hasType word = (k.typeWord? == some word) := by
  rw [hasType, type?, attribute?, Entries.lookup_of_not_has h]
  cases hk : k.typeWord? <;> simp [kindAttribute?, hk]

/-- The type of a node is the same with other children. -/
theorem Value.type?_branch {k : Kind} {before after : Entries Value}
    (children others : List Value) :
    (Value.node k (before ++ ("children", .list children) :: after)).type? =
      (Value.node k (before ++ ("children", .list others) :: after)).type? := by
  rw [type?, type?, attribute?, attribute?, Entries.lookup_between (by decide),
    Entries.lookup_between (by decide)]

/-! ## Types -/

/-- A node without a field for its type has the word of its kind. -/
theorem Value.type?_of_not_has {k : Kind} {fields : Entries Value}
    (h : fields.has "type" = false) : (Value.node k fields).type? = k.typeWord?.map .text := by
  rw [type?, attribute?, Entries.lookup_of_not_has h]
  rfl

/-- All nodes of a tree have types, and other ones than a given one. -/
def FreeOf (word : String) (v : Value) : Prop :=
  ∀ n, Below n v → ∃ type, n.type? = some (.text type) ∧ type ≠ word

section FreeOf

variable {word : String}

/-- What is free of a type has children that are free of it. -/
theorem FreeOf.child {v c : Value} (h : FreeOf word v) (hc : c ∈ v.children?.getD []) :
    FreeOf word c := fun n hn => h n (.child hc hn)

/-- A node of another type is free of a type when its children are. -/
theorem freeOf_of_children {v : Value} {type : String} (htype : v.type? = some (.text type))
    (hne : type ≠ word) (h : ∀ c ∈ v.children?.getD [], FreeOf word c) : FreeOf word v :=
  fun n hn => by
    cases hn with
    | root => exact ⟨type, htype, hne⟩
    | child hc hn => exact h _ hc n hn

/-- A node without children is free of every type but its own. -/
theorem freeOf_leaf {k : Kind} {fields : Entries Value} (hchildren : fields.has "children" = false)
    (htype : fields.has "type" = false) {type : String} (hk : k.typeWord? = some type)
    (hne : type ≠ word) : FreeOf word (.node k fields) := fun n hn => by
  rw [hn.eq_of_leaf (Value.children?_of_childless (childless_of_not_has hchildren)),
    Value.type?_of_not_has htype, hk]
  exact ⟨type, rfl, hne⟩

/-- A node of a class with another type is free of a type when its children are. -/
theorem freeOf_branch {k : Kind} {after : Entries Value} {children : List Value}
    (htype : after.has "type" = false) {type : String} (hk : k.typeWord? = some type)
    (hne : type ≠ word) (h : ∀ c ∈ children, FreeOf word c) :
    FreeOf word (.node k (("children", .list children) :: after)) := by
  have hroot : (Value.node k (("children", .list children) :: after)).type? =
      some (.text type) := by
    rw [Value.type?_of_not_has (by simpa [Entries.has] using htype), hk]
    rfl
  refine freeOf_of_children hroot hne fun c hc => ?_
  rw [← List.nil_append (("children", Value.list children) :: after),
    Value.children?_branch rfl] at hc
  exact h c hc

end FreeOf

/-! ## Levels -/

mutual

/-- The number of levels of nodes. -/
def Value.levels : Value → Nat
  | .node _ fields => levelsOfFields fields + 1
  | .list vs => levelsOfAll vs
  | _ => 0

/-- The greatest number of levels among values. -/
def levelsOfAll : List Value → Nat
  | [] => 0
  | v :: vs => max v.levels (levelsOfAll vs)

/-- The greatest number of levels among the children in fields. -/
def levelsOfFields : List (String × Value) → Nat
  | [] => 0
  | (name, v) :: fields => max (if name == "children" then v.levels else 0) (levelsOfFields fields)

end

/-- A list of trees is as deep as any of them. -/
theorem levels_le_levelsOfAll {v : Value} {vs : List Value} (h : v ∈ vs) :
    v.levels ≤ levelsOfAll vs := by
  induction vs with
  | nil => cases h
  | cons u vs ih =>
    rw [levelsOfAll]
    obtain rfl | h := List.mem_cons.mp h
    · exact Nat.le_max_left _ _
    · exact Nat.le_trans (ih h) (Nat.le_max_right _ _)

/-- A list of trees is no deeper than what bounds each of them. -/
theorem levelsOfAll_le {vs : List Value} {n : Nat} (h : ∀ v ∈ vs, v.levels ≤ n) :
    levelsOfAll vs ≤ n := by
  induction vs with
  | nil => exact Nat.zero_le n
  | cons v vs ih =>
    rw [levelsOfAll]
    exact Nat.max_le.mpr ⟨h v List.mem_cons_self, ih fun u hu => h u (List.mem_cons_of_mem _ hu)⟩

/-- The fields of a branch are as deep as its children. -/
theorem levelsOfAll_le_levelsOfFields (children : List Value) (after : Entries Value) :
    ∀ before : Entries Value,
      levelsOfAll children ≤ levelsOfFields (before ++ ("children", .list children) :: after)
  | [] => by
    rw [List.nil_append, levelsOfFields, if_pos (beq_self_eq_true _), Value.levels]
    exact Nat.le_max_left _ _
  | (name, v) :: before => by
    rw [List.cons_append, levelsOfFields]
    exact Nat.le_trans (levelsOfAll_le_levelsOfFields children after before)
      (Nat.le_max_right _ _)

/-- A tree has a level at least. -/
theorem IsTree.levels_pos {v : Value} (h : IsTree v) : 0 < v.levels := by
  cases h <;> exact Nat.succ_pos _

/-- A tree has more levels than the tree of a child. -/
theorem IsTree.levels_lt {v c : Value} (h : IsTree v) (hc : c ∈ v.children?.getD []) :
    c.levels < v.levels := by
  cases h with
  | leaf _ hfields =>
    rw [Value.children?_of_childless hfields] at hc
    cases hc
  | @branch k before after children _ hbefore _ _ =>
    rw [Value.children?_branch hbefore, Option.getD_some] at hc
    have hle := levels_le_levelsOfAll hc
    have hall := levelsOfAll_le_levelsOfFields children after before
    rw [Value.levels]
    omega

end NotebookTree

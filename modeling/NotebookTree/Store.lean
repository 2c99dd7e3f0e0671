import NotebookTree.Fault

/-!
# Stores

A store holds nodes and rows of children, each under an identity of its own, so that a node can
stand at several places, be changed where it stands, and be told from an equal one. What stands in a
field or in a row is an item: free-form data, or the identity of a node or row.

A row may change in place. A walk holds on to the row it found in a node, so what it meets does not
depend on whether the node is given another row meanwhile.

## Main definitions

* `Item`, `Store`: what stands in a place, and all nodes and rows.
* `Store.attribute?`, `Store.childRow?`: a field of an item, and the row of its children.
* `Store.newNode`, `Store.setField`, `Store.setRow`: the changes a store undergoes.
* `Store.load`: puts a tree into a store.
* `Store.view`: the tree that an item stands for.

The lemmas say what each change does to the nodes and rows of a store: the one that is named
changes, all others stay.

Reference: the identities of nodes and lists, which `transform` and `filter_nodes` change in place
or make anew.
-/

namespace NotebookTree

/-- The identity of a node. -/
structure NodeId where
  index : Nat
  deriving DecidableEq, Repr

/-- The identity of a row. -/
structure RowId where
  index : Nat
  deriving DecidableEq, Repr

/-- What stands in a field or row. -/
inductive Item where
  | plain (v : Value)
  | node (id : NodeId)
  | row (id : RowId)
  /-- A row that stays as it is. It does not count as children. -/
  | fixedRow (id : RowId)

instance : Inhabited Item := ⟨.plain .null⟩

namespace Item

/-- The item for nothing. -/
def nothing : Item := .plain .null

/-- The signal that ends a walk. -/
def stop : Item := .plain (.node .stopSignal [])

/-- Whether an item is the signal that ends a walk. -/
def isStop : Item → Bool
  | plain (.node .stopSignal _) => true
  | _ => false

/-- Whether an item is null. -/
def isNothing : Item → Bool
  | plain .null => true
  | _ => false

end Item

/-- A node in a store. -/
structure NodeState where
  kind : Kind
  fields : Entries Item

instance : Inhabited NodeState := ⟨⟨.root, []⟩⟩

/-- Nodes and rows, each under its identity. -/
structure Store where
  nodes : Array NodeState := #[]
  rows : Array (List Item) := #[]
  deriving Inhabited

namespace Store

/-- A node. -/
def node? (s : Store) (id : NodeId) : Option NodeState := s.nodes[id.index]?

/-- A row. -/
def row? (s : Store) (id : RowId) : Option (List Item) := s.rows[id.index]?

/-- The items of a row. -/
def rowItems (s : Store) (id : RowId) : List Item := (s.row? id).getD []

/-- A field of an item, or one of the words of its kind. -/
def attribute? (s : Store) (i : Item) (name : String) : Option Item :=
  match i with
  | .plain v => (v.attribute? name).map .plain
  | .node id => match s.node? id with
    | none => none
    | some n => match n.fields.lookup name with
      | some f => some f
      | none => (Value.kindAttribute? n.kind name).map .plain
  | _ => none

/-- The row of the children of an item that has one. -/
def childRow? (s : Store) (i : Item) : Option RowId :=
  match s.attribute? i "children" with
  | some (.row id) => some id
  | _ => none

/-- Whether an item counts as true. -/
def isTruthy (s : Store) : Item → Bool
  | .plain v => v.isTruthy
  | .node _ => true
  | .row id => !(s.rowItems id).isEmpty
  | .fixedRow id => !(s.rowItems id).isEmpty

/-- Adds a node. -/
def newNode (s : Store) (n : NodeState) : NodeId × Store :=
  (⟨s.nodes.size⟩, { s with nodes := s.nodes.push n })

/-- Adds a row. -/
def newRow (s : Store) (items : List Item) : RowId × Store :=
  (⟨s.rows.size⟩, { s with rows := s.rows.push items })

/-- Changes a row. -/
def setRow (s : Store) (id : RowId) (items : List Item) : Store :=
  { s with rows := s.rows.setIfInBounds id.index items }

/-- Changes a field of a node. -/
def setField (s : Store) (id : NodeId) (name : String) (i : Item) : Store :=
  { s with nodes := s.nodes.modify id.index (fun n => { n with fields := n.fields.put name i }) }

/-! ## What a change leaves as it is -/

variable (s : Store)

@[simp] theorem node?_newNode_self (n : NodeState) :
    (s.newNode n).2.node? (s.newNode n).1 = some n := by
  simp [newNode, node?]

theorem node?_newNode_of_lt (n : NodeState) {id : NodeId} (h : id.index < s.nodes.size) :
    (s.newNode n).2.node? id = s.node? id := by
  simp [newNode, node?, Array.getElem?_push, Nat.ne_of_lt h]

@[simp] theorem row?_newNode (n : NodeState) (id : RowId) :
    (s.newNode n).2.row? id = s.row? id := rfl

@[simp] theorem row?_newRow_self (items : List Item) :
    (s.newRow items).2.row? (s.newRow items).1 = some items := by
  simp [newRow, row?]

theorem row?_newRow_of_lt (items : List Item) {id : RowId} (h : id.index < s.rows.size) :
    (s.newRow items).2.row? id = s.row? id := by
  simp [newRow, row?, Array.getElem?_push, Nat.ne_of_lt h]

@[simp] theorem node?_newRow (items : List Item) (id : NodeId) :
    (s.newRow items).2.node? id = s.node? id := rfl

@[simp] theorem node?_setRow (r : RowId) (items : List Item) (id : NodeId) :
    (s.setRow r items).node? id = s.node? id := rfl

@[simp] theorem row?_setField (n : NodeId) (name : String) (i : Item) (id : RowId) :
    (s.setField n name i).row? id = s.row? id := rfl

theorem node?_setField_of_ne {n id : NodeId} (name : String) (i : Item) (h : id ≠ n) :
    (s.setField n name i).node? id = s.node? id := by
  have : n.index ≠ id.index := fun e => h (by cases id; cases n; simp_all)
  simp [setField, node?, Array.getElem?_modify, this]

theorem row?_setRow_of_ne {r id : RowId} (items : List Item) (h : id ≠ r) :
    (s.setRow r items).row? id = s.row? id := by
  have : r.index ≠ id.index := fun e => h (by cases id; cases r; simp_all)
  simp [setRow, row?, this]

end Store

/-! ## Trees in a store -/

namespace Store

mutual

/-- Puts a value into a store: its nodes become nodes of the store, and a list in a field of
children becomes a row. -/
def load (s : Store) : Value → Item × Store
  | .node .stopSignal fields => (.plain (.node .stopSignal fields), s)
  | .node k fields =>
    let (fs, s) := s.loadFields fields
    let (id, s) := s.newNode ⟨k, fs⟩
    (.node id, s)
  | v => (.plain v, s)

/-- Puts values into a store, one after the other. -/
def loadAll (s : Store) : List Value → List Item × Store
  | [] => ([], s)
  | v :: vs =>
    let (i, s) := s.load v
    let (is, s) := s.loadAll vs
    (i :: is, s)

/-- Puts the fields of a node into a store. -/
def loadFields (s : Store) : List (String × Value) → Entries Item × Store
  | [] => ([], s)
  | (name, v) :: fs =>
    let (i, s) := s.loadField name v
    let (is, s) := s.loadFields fs
    ((name, i) :: is, s)

/-- Puts one field of a node into a store. -/
def loadField (s : Store) (name : String) : Value → Item × Store
  | .list vs =>
    if name == "children" then
      let (is, s) := s.loadAll vs
      let (id, s) := s.newRow is
      (.row id, s)
    else (.plain (.list vs), s)
  | v => (.plain v, s)

end

/-- The tree of an item, down to a depth; what lies deeper is null. -/
def viewWithin (s : Store) : (depth : Nat) → Item → Value
  | 0, _ => .null
  | _ + 1, .plain v => v
  | depth + 1, .node id => match s.node? id with
    | some n => .node n.kind (n.fields.map (fun f => (f.1, s.viewWithin depth f.2)))
    | none => .null
  | depth + 1, .row id => .list ((s.rowItems id).map (s.viewWithin depth))
  | depth + 1, .fixedRow id => .tuple ((s.rowItems id).map (s.viewWithin depth))

/-- The tree that an item stands for. No item whose tree is finite reaches deeper than there are
nodes and rows. -/
def view (s : Store) (i : Item) : Value := s.viewWithin (s.nodes.size + s.rows.size + 1) i

/-- The value of a field of an item, null if it is missing. -/
def fieldView (s : Store) (i : Item) (name : String) : Value :=
  match s.attribute? i name with
  | some f => s.view f
  | none => .null

end Store

end NotebookTree

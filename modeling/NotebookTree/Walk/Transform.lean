import NotebookTree.Walk.Visit

/-!
# Transforming and pruning

`Walk.transform` works on a tree from below: when all children of a node are done, the node gets a
row with the results, and then the callback may put something in the place of the node.
What the callback answers is not walked into. `Walk.filter` leaves the tree alone and makes new
parents for what it keeps.

## Main definitions

* `Walk.transform`, `Walk.transformType`: put new nodes in the place of all nodes, or of those of
  one type.
* `Walk.map`: the same with a callback that answers for every node.
* `Walk.filter`: a copy of a tree without what a callback refuses.

Reference: `transform`, `transform_type`, `filter_nodes`, `map_nodes`.
-/

namespace NotebookTree.Walk

variable {σ : Type}

/-- Gives a node a new row of children. -/
def setChildren (node : Item) (items : List Item) : Walk σ Unit :=
  changeStore (fun s => match node with
    | .node id =>
      let (row, s) := s.newRow items
      ((), s.setField id "children" (.row row))
    | _ => ((), s))

/-- Transforms what lies below a node, and then the node. -/
def transformNode (transformer : Callback σ) (reverse : Bool) :
    (limit : Nat) → Item → Option Nat → Option Item → Walk σ Item
  | 0, _, _, _ => throw .tooDeep
  | limit + 1, node, index, parent => do
    if let some row := (← getStore).childRow? node then
      let count := ((← getStore).rowItems row).length
      let results ← (places count reverse).mapM (fun i => do
        transformNode transformer reverse limit (← itemAt row i) (some i) (some node))
      setChildren node (if reverse then results.reverse else results)
    let answer ← resolve (transformer node index parent)
    return if (← getStore).isTruthy answer then answer else node

/-- Transforms a tree from below. -/
def transform (limit : Nat) (tree : Item) (transformer : Callback σ) (reverse : Bool) :
    Walk σ Item :=
  transformNode transformer reverse limit tree none none

/-- Transforms the nodes of one type. -/
def transformType (limit : Nat) (tree : Item) (type : Value) (transformer : Callback σ)
    (reverse : Bool) : Walk σ Item :=
  transform limit tree (onlyType type transformer) reverse

/-- Puts what a callback answers in the place of every node. -/
def map (limit : Nat) (tree : Item) (mapper : Callback σ) : Walk σ Item :=
  transform limit tree mapper false

/-- Takes the items of a row one after the other, those that come to it meanwhile too, and collects
what becomes of them. At most `most` items are taken. -/
def gather (step : Nat → Item → Walk σ (Option Item)) (row : RowId) :
    (most : Nat) → (i : Nat) → Walk σ (List Item)
  | 0, _ => throw .tooDeep
  | most + 1, i => do
    match ((← getStore).rowItems row)[i]? with
    | none => return []
    | some item =>
      let kept ← step i item
      let rest ← gather step row most (i + 1)
      return kept.toList ++ rest

/-- A copy of a node with other children. -/
def copyWith (node : Item) (items : List Item) : Walk σ Item :=
  changeStore (fun s => match node with
    | .node id =>
      let (row, s) := s.newRow items
      let (copy, s) := s.newNode ((s.node? id).getD default)
      (.node copy, s.setField copy "children" (.row row))
    | i => (i, s))

/-- What is kept of a node and of what lies below it. -/
def filterNode (accepts : Callback σ) (most : Nat) :
    (limit : Nat) → Item → Option Nat → Option Item → Walk σ (Option Item)
  | 0, _, _, _ => throw .tooDeep
  | limit + 1, node, index, parent => do
    let answer ← resolve (accepts node index parent)
    if !(← getStore).isTruthy answer then return none
    match (← getStore).childRow? node with
    | none => return some node
    | some row =>
      let kept ← gather (fun i child =>
        filterNode accepts most limit child (some i) (some node)) row most 0
      return some (← copyWith node (kept.filter (fun i => !i.isNothing)))

/-- A copy of a tree without the nodes that are refused and what lies below them. A tree whose root
is refused is answered as it is. -/
def filter (limit most : Nat) (tree : Item) (accepts : Callback σ) : Walk σ Item := do
  match ← filterNode accepts most limit tree none none with
  | some .nothing | none =>
    tell (.debug .walker "Predicate rejected the root node; returning it unchanged")
    return tree
  | some kept => return kept

end NotebookTree.Walk

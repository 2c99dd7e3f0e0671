import NotebookTree.Walk

/-!
# Visiting and searching

`Walk.visit` calls back for every node of a tree, a parent before its children, until a callback
answers with the signal to stop. Searches are visits that note what they find.

A walk that goes deeper than `limit` levels ends in a fault, as it does in a tree without end.

## Main definitions

* `Walk.visit`: a callback for every node.
* `Walk.visitType`: a callback for the nodes of one type.
* `Walk.find`, `Walk.findAll`: the first node with a property, and all of them.

Reference: `visit`, `visit_type`, `find`, `find_all`.
-/

namespace NotebookTree.Walk

variable {σ : Type}

/-- Goes on through indices until one answers that the walk is over. -/
def throughout (step : Nat → Walk σ Bool) : List Nat → Walk σ Bool
  | [] => return true
  | i :: is => do if ← step i then throughout step is else return false

/-- Visits a node and what lies below it. The answer is whether the walk goes on. -/
def visitNode (visitor : Callback σ) (reverse : Bool) :
    (limit : Nat) → Item → Option Nat → Option Item → Walk σ Bool
  | 0, _, _, _ => throw .tooDeep
  | limit + 1, node, index, parent => do
    let answer ← resolve (visitor node index parent)
    if answer.isStop then return false
    match (← getStore).childRow? node with
    | none => return true
    | some row =>
      let count := ((← getStore).rowItems row).length
      throughout (fun i => do
        visitNode visitor reverse limit (← itemAt row i) (some i) (some node))
        (places count reverse)

/-- Visits every node of a tree. -/
def visit (limit : Nat) (tree : Item) (visitor : Callback σ) (reverse : Bool) : Walk σ Unit := do
  if !(← visitNode visitor reverse limit tree none none) then
    tell (.debug .walker "Traversal stopped early by visitor")

/-- Whether the type of an item is the given one; an item without a type has the type null. -/
def hasTypeOf (s : Store) (i : Item) (type : Value) : Bool := (s.fieldView i "type").equals type

/-- A callback that is called for the nodes of one type only. -/
def onlyType (type : Value) (callback : Callback σ) : Callback σ := fun node index parent =>
  return .later (do
    if hasTypeOf (← getStore) node type then resolve (callback node index parent)
    else return .nothing)

/-- Visits the nodes of one type. The others are walked through. -/
def visitType (limit : Nat) (tree : Item) (type : Value) (visitor : Callback σ) (reverse : Bool) :
    Walk σ Unit :=
  visit limit tree (onlyType type visitor) reverse

/-- Whether the answer to a question about a node counts as true, when something more is kept. -/
def answersTrue {τ : Type} (question : Item → Walk σ (Reply σ)) (node : Item) :
    Walk (σ × τ) Bool := do
  let answer ← lifted (resolve (question node))
  return (← getStore).isTruthy answer

/-- Notes a node. -/
def note (node : Item) : Walk (σ × List Item) Unit :=
  modify (fun scene => { scene with own := (scene.own.1, scene.own.2 ++ [node]) })

/-- The first node for which a question is answered with something true, or nothing. -/
def find (limit : Nat) (tree : Item) (question : Item → Walk σ (Reply σ)) : Walk σ Item := do
  let (_, found) ← keeping ([] : List Item) (visit limit tree (fun node _ _ => return .later (do
    if ← answersTrue question node then
      note node
      return .stop
    else return .nothing)) false)
  return found.headD .nothing

/-- The nodes for which a question is answered with something true. -/
def findAll (limit : Nat) (tree : Item) (question : Item → Walk σ (Reply σ)) :
    Walk σ (List Item) := do
  let (_, found) ← keeping ([] : List Item) (visit limit tree (fun node _ _ => return .later (do
    if ← answersTrue question node then note node
    return .nothing)) false)
  return found

end NotebookTree.Walk

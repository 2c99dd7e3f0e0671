import NotebookTree.Value.Label
import NotebookTree.Walk.Visit

/-!
# Listings

The listing of a tree has a line for every node: how deep it lies and its label.

A visit does not tell how deep it is. The depth of a node is that of its parent and one more, so it
is enough to note the depth of each node when it is met; a node that stands at several places is
noted anew each time, before its children are met.

## Main definitions

* `Walk.Line`: a line of a listing.
* `Walk.listing`: the lines of a tree.

Reference: `_collect_lines`.
-/

namespace NotebookTree.Walk

/-- A line of a listing. -/
structure Line where
  depth : Nat
  label : Value

/-- What is noted while a listing is made: the depth of each node met, the last first, and the lines
so far. -/
structure Listed where
  depths : List (NodeId × Nat) := []
  lines : List Line := []

/-- The depth noted for an item. -/
def Listed.depth (l : Listed) : Item → Nat
  | .node id => ((l.depths.find? (fun d => d.1 == id)).map Prod.snd).getD 0
  | _ => 0

/-- Notes a line for a node. -/
def Listed.add (l : Listed) (node : Item) (line : Line) : Listed :=
  ⟨match node with
    | .node id => (id, line.depth) :: l.depths
    | _ => l.depths, l.lines ++ [line]⟩

/-- Notes the line of a node when it is met. -/
def noteLine {σ : Type} : Callback (σ × Listed) := fun node _ parent => do
  let scene ← get
  let depth := match parent with
    | none => 0
    | some p => scene.own.2.depth p + 1
  let label ← ofExcept (scene.store.view node).label
  set { scene with own := (scene.own.1, scene.own.2.add node ⟨depth, label⟩) }
  return .now .nothing

/-- The lines of a tree. -/
def listing {σ : Type} (limit : Nat) (tree : Item) (reverse : Bool) : Walk σ (List Line) := do
  let (_, listed) ← keeping {} (visit limit tree noteLine reverse)
  return listed.lines

end NotebookTree.Walk

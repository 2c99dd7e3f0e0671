import NotebookTree.Log
import NotebookTree.Store

/-!
# Walks

A walk calls back for the nodes it meets. A callback gets the node, its index and its parent, may
change the store, and answers at once or later: an answer that comes later is work that has to be
done before it is there. Whichever it is, a walk waits for it before it goes on, so at most one
callback is under way.

## Main definitions

* `Scene`: the store, the log, and whatever the callbacks keep for themselves.
* `Walk`: work in a scene that may end in a fault; what it changed before stays changed.
* `Reply`, `Callback`: answers and callbacks.
* `resolve`: waits for an answer.
* `places`: the indices of children in the order in which a walk takes them.

Reference: `WalkSignal`, `_resolve`, `_child_indices`, and the callbacks of the walks.
-/

namespace NotebookTree

/-- Everything that a walk works on. -/
structure Scene (σ : Type) where
  store : Store
  log : List Log.Entry
  own : σ

/-- Work in a scene. -/
abbrev Walk (σ α : Type) := ExceptT Fault (StateM (Scene σ)) α

/-- An answer: there at once, or work that has still to be done. -/
inductive Reply (σ : Type) where
  | now (i : Item)
  | later (work : Walk σ Item)

/-- A callback: called with a node, its index and its parent. -/
abbrev Callback (σ : Type) := Item → Option Nat → Option Item → Walk σ (Reply σ)

namespace Walk

variable {σ τ α : Type}

/-- Waits for an answer. -/
def resolve (call : Walk σ (Reply σ)) : Walk σ Item := do
  match ← call with
  | .now i => return i
  | .later work => work

/-- The store as it is. -/
def getStore : Walk σ Store := do return (← get).store

/-- Changes the store. -/
def changeStore (change : Store → α × Store) : Walk σ α := do
  let scene ← get
  let (a, store) := change scene.store
  set { scene with store }
  return a

/-- Adds an entry to the log. -/
def tell (e : Log.Entry) : Walk σ Unit :=
  modify (fun scene => { scene with log := scene.log ++ [e] })

/-- Logged work as a part of a walk. -/
def ofLogged (work : Logged α) : Walk σ α := do
  let (result, entries) := work.outcome
  modify (fun scene => { scene with log := scene.log ++ entries })
  ExceptT.mk (pure result)

/-- Work that may end in a fault as a part of a walk. -/
def ofExcept (e : Except Fault α) : Walk σ α := ExceptT.mk (pure e)

/-- A walk with something more to keep, which starts as given and is handed out at the end. -/
def keeping (start : τ) (w : Walk (σ × τ) α) : Walk σ (α × τ) :=
  ExceptT.mk (fun scene =>
    let (result, last) := StateT.run (ExceptT.run w) ⟨scene.store, scene.log, (scene.own, start)⟩
    (result.map (fun a => (a, last.own.2)), ⟨last.store, last.log, last.own.1⟩))

/-- A walk inside one that keeps something more. -/
def lifted (w : Walk σ α) : Walk (σ × τ) α :=
  ExceptT.mk (fun scene =>
    let (result, last) := StateT.run (ExceptT.run w) ⟨scene.store, scene.log, scene.own.1⟩
    (result, ⟨last.store, last.log, (last.own, scene.own.2)⟩))

/-- The item of a row at a place, as the row is now. -/
def itemAt (row : RowId) (i : Nat) : Walk σ Item := do
  match ((← getStore).rowItems row)[i]? with
  | some item => return item
  | none => throw .noIndex

/-- The indices of `count` children, in the order in which they are taken. -/
def places (count : Nat) (reverse : Bool) : List Nat :=
  if reverse then (List.range count).reverse else List.range count

/-- Runs a walk on a store, with what the callbacks keep. -/
def run (w : Walk σ α) (store : Store) (own : σ) : Except Fault α × Scene σ :=
  StateT.run (ExceptT.run w) ⟨store, [], own⟩

end Walk

end NotebookTree

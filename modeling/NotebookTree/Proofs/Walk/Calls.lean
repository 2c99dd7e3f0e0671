import NotebookTree.Proofs.Walk.Order

/-!
# Calls

A call of a callback leads from a scene to a scene and has an answer. What a walk does is told by
its calls, in the order in which they are made, and by what happens to the scene between them.

## Main definitions

* `Call`: a call, with what a walk makes of its answer.
* `CutAt`: calls are made for places in order, up to the first that ends the walk.
* `Chained`: a scene leads to another through calls, with moves of one kind between them.
-/

namespace NotebookTree

/-- A call of a callback, from the scene in which it was called to the scene that it left. -/
structure Call (σ : Type) where
  place : Place
  before : Scene σ
  answer : Except Fault Item
  after : Scene σ

namespace Call

variable {σ : Type}

/-- The call ended in a fault. -/
def Fails (c : Call σ) : Prop := ∃ e, c.answer = .error e

/-- The call ends a visit: it ended in a fault, or answered with the signal to stop. -/
def Stops (c : Call σ) : Prop := c.Fails ∨ ∃ i, c.answer = .ok i ∧ i.isStop = true

/-- Whether the answer counted as true when it was there. -/
def isTrue (c : Call σ) : Bool :=
  match c.answer with
  | .ok i => c.after.store.isTruthy i
  | .error _ => false

/-- What a transform puts in the place of the node: the answer if it counts as true, else the node
itself. -/
def result (c : Call σ) : Item :=
  match c.answer with
  | .ok i => if c.after.store.isTruthy i then i else c.place.node
  | .error _ => c.place.node

/-- The call left the children of some nodes as they were. -/
def KeepsChildren (ids : List NodeId) (c : Call σ) : Prop :=
  c.before.store.KeepsChildren ids c.after.store

/-- The call left nodes and rows of two sets just as they were. -/
def Keeps (N : NodeId → Prop) (R : RowId → Prop) (c : Call σ) : Prop :=
  c.before.store.Keeps N R c.after.store

/-- A node came into the store during the call. -/
def MakesNode (c : Call σ) (id : NodeId) : Prop :=
  c.before.store.nodes.size ≤ id.index ∧ id.index < c.after.store.nodes.size

/-- A row came into the store during the call. -/
def MakesRow (c : Call σ) (row : RowId) : Prop :=
  c.before.store.rows.size ≤ row.index ∧ row.index < c.after.store.rows.size

/-- A call that answers is true when its answer counts as true. -/
theorem isTrue_of_ok {c : Call σ} {i : Item} (h : c.answer = .ok i) :
    c.isTrue = c.after.store.isTruthy i := by
  rw [isTrue, h]

/-- A call that fails is not true. -/
theorem isTrue_of_error {c : Call σ} {e : Fault} (h : c.answer = .error e) : c.isTrue = false := by
  rw [isTrue, h]

/-- A call that does not fail answers. -/
theorem not_fails_iff {c : Call σ} : ¬ c.Fails ↔ ∃ i, c.answer = .ok i := by
  cases h : c.answer with
  | ok i => simp [Fails, h]
  | error e => simp [Fails, h]

end Call

/-- A walk that hands on the answer of a call ends in a fault if the call did. -/
theorem Call.answer_of_map_error {σ : Type} {c : Call σ} {e : Fault}
    (h : .error e = c.answer.map fun _ => c.result) : c.answer = .error e := by
  cases hc : c.answer with
  | error f =>
    rw [hc] at h
    exact h.symm
  | ok i =>
    rw [hc] at h
    cases h

/-- A walk that hands on the answer of a call returns the result of the call if it returned. -/
theorem Call.returns_of_map_ok {σ : Type} {c : Call σ} {x : Item}
    (h : .ok x = c.answer.map fun _ => c.result) : ¬ c.Fails ∧ c.result = x := by
  cases hc : c.answer with
  | error f =>
    rw [hc] at h
    cases h
  | ok i =>
    rw [hc] at h
    exact ⟨not_fails_iff.mpr ⟨i, hc⟩, (Except.ok.inj h).symm⟩

/-! ## Calls in order -/

/-- Calls are made for the first of some places in order. None but the last of them ends the walk,
and if none does, they are made for all the places. -/
structure CutAt {σ : Type} (ends : Call σ → Prop) (places : List Place) (calls : List (Call σ)) :
    Prop where
  made : calls.map Call.place <+: places
  running : ∀ c ∈ calls.dropLast, ¬ ends c
  whole : (∀ c ∈ calls, ¬ ends c) → calls.map Call.place = places

namespace CutAt

variable {σ : Type} {ends : Call σ → Prop} {places more : List Place} {calls calls' : List (Call σ)}

/-- No calls are a cut of no places. -/
theorem nil : CutAt ends [] ([] : List (Call σ)) :=
  ⟨List.prefix_rfl, by simp, fun _ => rfl⟩

/-- One call is a cut of its own place. -/
theorem single (c : Call σ) : CutAt ends [c.place] [c] :=
  ⟨List.prefix_rfl, by simp, fun _ => rfl⟩

/-- Calls that do not end the walk, and those that come behind them. -/
theorem append (h : CutAt ends places calls) (hgo : ∀ c ∈ calls, ¬ ends c)
    (h' : CutAt ends more calls') : CutAt ends (places ++ more) (calls ++ calls') := by
  have hcalls := h.whole hgo
  refine ⟨?_, fun c hc => ?_, fun hall => ?_⟩
  · rw [List.map_append, hcalls]
    exact (List.prefix_append_right_inj places).mpr h'.made
  · cases calls' with
    | nil => exact hgo c (List.mem_of_mem_dropLast (by simpa using hc))
    | cons d ds =>
      rw [List.dropLast_append_of_ne_nil (by simp)] at hc
      exact (List.mem_append.mp hc).elim (hgo c) (h'.running c)
  · rw [List.map_append, hcalls, h'.whole fun c hc => hall c (List.mem_append_right _ hc)]

/-- No calls come behind one that ends the walk. -/
theorem append_of_ends (h : CutAt ends places calls) {c : Call σ} (hc : c ∈ calls) (hend : ends c)
    (more : List Place) : CutAt ends (places ++ more) calls :=
  ⟨h.made.trans (List.prefix_append places more), h.running,
    fun hall => absurd hend (hall c hc)⟩

/-- The call that ends the walk is the last. -/
theorem getLast?_of_ends (h : CutAt ends places calls) {c : Call σ} (hc : c ∈ calls)
    (hend : ends c) : calls.getLast? = some c := by
  have hne : calls ≠ [] := List.ne_nil_of_mem hc
  rw [← List.dropLast_append_getLast hne] at hc
  rcases List.mem_append.mp hc with hc | hc
  · exact absurd hend (h.running c hc)
  · rw [List.getLast?_eq_getLast_of_ne_nil hne, List.mem_singleton.mp hc]

/-- If the last call does not end the walk, none does. -/
theorem forall_of_getLast? (h : CutAt ends places calls) {c : Call σ}
    (hc : calls.getLast? = some c) (hgo : ¬ ends c) : ∀ d ∈ calls, ¬ ends d := by
  intro d hd hend
  rw [h.getLast?_of_ends hd hend] at hc
  exact hgo (Option.some.inj hc ▸ hend)

/-- The last call is made for a spot that divides those called for from those that are not. -/
theorem exists_split {spots : List Spot} (h : CutAt ends (spots.map Spot.place) calls)
    {c : Call σ} (hlast : calls.getLast? = some c) :
    ∃ finished n rest, spots = finished ++ n :: rest ∧
      calls.map Call.place = (finished ++ [n]).map Spot.place ∧ c.place = n.place := by
  obtain ⟨init, rfl⟩ := List.getLast?_eq_some_iff.mp hlast
  obtain ⟨others, hothers⟩ := h.made
  rw [List.map_append, List.append_assoc] at hothers
  obtain ⟨finished, behind, rfl, hfinished, hbehind⟩ := List.map_eq_append_iff.mp hothers.symm
  obtain ⟨n, rest, rfl, hn, -⟩ := List.map_eq_cons_iff.mp hbehind
  refine ⟨finished, n, rest, rfl, ?_, hn.symm⟩
  rw [List.map_append, List.map_append, hfinished, List.map_singleton, List.map_singleton, hn]

/-- Every call is made for one of the places. -/
theorem place_mem (h : CutAt ends places calls) {c : Call σ} (hc : c ∈ calls) :
    c.place ∈ places :=
  h.made.subset (List.mem_map_of_mem hc)

end CutAt

/-! ## Scenes through calls -/

/-- A scene leads to another through calls: each call is made in the scene to which a move leads
from the one before it, and a move leads from the last call to the end. -/
def Chained {σ : Type} (Move : Scene σ → Scene σ → Prop) :
    Scene σ → List (Call σ) → Scene σ → Prop
  | s, [], s' => Move s s'
  | s, c :: cs, s' => Move s c.before ∧ Chained Move c.after cs s'

namespace Chained

variable {σ : Type} {Move Move' : Scene σ → Scene σ → Prop} {s s' s'' : Scene σ}
  {calls calls' : List (Call σ)}

/-- A chain of moves is one of every wider sort of moves. -/
theorem mono (h : Chained Move s calls s') (hm : ∀ a b, Move a b → Move' a b) :
    Chained Move' s calls s' := by
  induction calls generalizing s with
  | nil => exact hm s s' h
  | cons c cs ih => exact ⟨hm _ _ h.1, ih h.2⟩

/-- A chain goes on with a move, if two moves make one. -/
theorem move (htrans : ∀ a b c, Move a b → Move b c → Move a c) (h : Chained Move s calls s')
    (h' : Move s' s'') : Chained Move s calls s'' := by
  induction calls generalizing s with
  | nil => exact htrans _ _ _ h h'
  | cons c cs ih => exact ⟨h.1, ih h.2⟩

/-- One chain after the other, if two moves make one. -/
theorem append (htrans : ∀ a b c, Move a b → Move b c → Move a c)
    (h : Chained Move s calls s') (h' : Chained Move s' calls' s'') :
    Chained Move s (calls ++ calls') s'' := by
  induction calls generalizing s with
  | nil =>
    cases calls' with
    | nil => exact htrans _ _ _ h h'
    | cons d ds => exact ⟨htrans _ _ _ h h'.1, h'.2⟩
  | cons c cs ih => exact ⟨h.1, ih h.2⟩

/-- What every move and every call lets happen, in as many steps as one likes, happens from the
first scene to the last. -/
theorem rel {R : Store → Store → Prop} (htrans : ∀ a b c, R a b → R b c → R a c)
    (h : Chained Move s calls s') (hmove : ∀ a b, Move a b → R a.store b.store)
    (hcall : ∀ c ∈ calls, R c.before.store c.after.store) : R s.store s'.store := by
  induction calls generalizing s with
  | nil => exact hmove _ _ h
  | cons c cs ih =>
    have hrest : R c.after.store s'.store :=
      ih h.2 fun d hd => hcall d (List.mem_cons_of_mem c hd)
    exact htrans _ _ _ (hmove _ _ h.1) (htrans _ _ _ (hcall c List.mem_cons_self) hrest)

/-- What is in a store stays in it if it stays through every move and every call. -/
theorem stays {α : Type} {f : Store → Option α} {x : α} (h : Chained Move s calls s')
    (hmove : ∀ a b, Move a b → ∀ y, f a.store = some y → f b.store = some y)
    (hcall : ∀ c ∈ calls, ∀ y, f c.before.store = some y → f c.after.store = some y)
    (hx : f s.store = some x) : f s'.store = some x :=
  h.rel (R := fun a b => ∀ y, f a = some y → f b = some y)
    (fun _ _ _ hab hbc y hy => hbc y (hab y hy)) hmove hcall x hx

/-- What only grows is between what it was at first and what it is at last, at every call. -/
theorem bounds {f : Store → Nat} (h : Chained Move s calls s')
    (hmove : ∀ a b, Move a b → f a.store ≤ f b.store)
    (hcall : ∀ c ∈ calls, f c.before.store ≤ f c.after.store) :
    f s.store ≤ f s'.store ∧
      ∀ c ∈ calls, f s.store ≤ f c.before.store ∧ f c.after.store ≤ f s'.store := by
  induction calls generalizing s with
  | nil => exact ⟨hmove _ _ h, fun c hc => absurd hc List.not_mem_nil⟩
  | cons c cs ih =>
    obtain ⟨hlast, hrest⟩ := ih h.2 fun d hd => hcall d (List.mem_cons_of_mem c hd)
    have hfirst := hmove _ _ h.1
    have hc := hcall c List.mem_cons_self
    refine ⟨by omega, fun d hd => ?_⟩
    rcases List.mem_cons.mp hd with rfl | hd
    · exact ⟨hfirst, hlast⟩
    · have hd := hrest d hd
      omega

end Chained

end NotebookTree

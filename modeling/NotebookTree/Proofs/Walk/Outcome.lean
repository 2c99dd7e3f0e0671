import NotebookTree.Walk.Transform

/-!
# What walks come to

A walk is work on a scene that ends with a result and leaves a scene. `Walk.outcome` reads both off,
and the lemmas say what each part of a walk comes to, so that later proofs open a walk part by part
and never look below.

Walks hand what the callbacks keep from part to part and do not look at it. `Walk.Alike` says so:
two walks whose callbacks come to the same, with what they keep in some relation, come to the same,
and what is kept stays in that relation.

## Main statements

* `outcome_bind_ok`: one part after the other.
* `transform_alike`, `visit_alike`, `filter_alike`: walks with alike callbacks are alike.
-/

namespace NotebookTree

namespace Walk

variable {σ τ α β : Type}

/-- What a walk comes to in a scene: its result, and the scene that it leaves. -/
def outcome (w : Walk σ α) (scene : Scene σ) : Except Fault α × Scene σ :=
  StateT.run (ExceptT.run w) scene

/-- A sequence is run by its first half, and by the second unless the first fails. -/
theorem outcome_bind (w : Walk σ α) (f : α → Walk σ β) (scene : Scene σ) :
    outcome (w >>= f) scene = match outcome w scene with
      | (.ok a, next) => outcome (f a) next
      | (.error e, next) => (.error e, next) := by
  show StateT.run (ExceptT.run (w >>= f)) scene = _
  rw [ExceptT.run_bind, StateT.run_bind]
  simp only [outcome]
  cases StateT.run (ExceptT.run w) scene with
  | mk r next => cases r <;> rfl

/-- A part that returns hands its result and its scene to the next part. -/
theorem outcome_bind_ok {w : Walk σ α} {scene next : Scene σ} {a : α}
    (h : outcome w scene = (.ok a, next)) (f : α → Walk σ β) :
    outcome (w >>= f) scene = outcome (f a) next := by
  rw [outcome_bind, h]

/-- What begins with a look at the store goes on with the store of the scene. -/
@[simp] theorem outcome_getStore_bind (f : Store → Walk σ β) (scene : Scene σ) :
    outcome (getStore >>= f) scene = outcome (f scene.store) scene := rfl

/-- A change of the store leaves the rest of the scene. -/
theorem outcome_changeStore (change : Store → α × Store) (scene : Scene σ) :
    outcome (changeStore change) scene =
      (.ok (change scene.store).1, { scene with store := (change scene.store).2 }) := rfl

/-- An answer that comes later is the work that is still to be done. -/
theorem resolve_later (w : Walk σ Item) : resolve (pure (.later w)) = w := rfl

/-- Work that is done at once is done when its answer is put into some form. -/
theorem resolve_of_work {answer : Item → Reply σ}
    (h : ∀ i, resolve (pure (answer i)) = pure i) (w : Walk σ Item) :
    resolve (do return answer (← w)) = w := by
  refine funext fun scene => ?_
  have hafter : ∀ i next, outcome (resolve (pure (answer i))) next = (.ok i, next) := by
    intro i next
    rw [h]
    rfl
  show outcome ((w >>= fun i => pure (answer i)) >>= _) scene = outcome w scene
  rw [outcome_bind, outcome_bind]
  rcases outcome w scene with ⟨r, next⟩
  cases r with
  | error e => rfl
  | ok i => exact hafter i next

/-- What is done finally is done after a part, however the part ends. -/
theorem outcome_tryFinally (w : Walk σ α) {u : Walk σ Unit} {scene last : Scene σ}
    (hu : outcome u (outcome w scene).2 = (.ok (), last)) :
    outcome (tryFinally w u) scene = ((outcome w scene).1, last) := by
  rcases hw : outcome w scene with ⟨r, next⟩
  rw [hw] at hu
  replace hw : w scene = (r, next) := hw
  replace hu : u next = (.ok (), last) := hu
  show (Prod.fst <$> MonadFinally.tryFinally' w fun _ => u) scene = _
  simp only [MonadFinally.tryFinally', Functor.map, ExceptT.map, ExceptT.mk, bind, StateT.bind, hw]
  cases r <;> simp only [hu] <;> rfl

/-- A walk that keeps something more hands it out at the end. -/
theorem outcome_keeping (start : τ) (w : Walk (σ × τ) α) (scene : Scene σ) :
    outcome (keeping start w) scene =
      let (r, last) := outcome w ⟨scene.store, scene.log, (scene.own, start)⟩
      (r.map fun a => (a, last.own.2), ⟨last.store, last.log, last.own.1⟩) := rfl

/-- What is told stands at the end of the log. -/
theorem outcome_tell (e : Log.Entry) (scene : Scene σ) :
    outcome (tell e) scene = (.ok (), { scene with log := scene.log ++ [e] }) := rfl

/-- Reading an item of a row that has it changes nothing. -/
theorem outcome_itemAt (scene : Scene σ) {row : RowId} {items : List Item} {i : Nat} {item : Item}
    (hrow : scene.store.row? row = some items) (hi : items[i]? = some item) :
    outcome (itemAt row i) scene = (.ok item, scene) := by
  have hitems : (scene.store.rowItems row)[i]? = some item := by
    rw [Store.rowItems, hrow, Option.getD_some, hi]
  rw [itemAt, outcome_getStore_bind, hitems]
  rfl

end Walk

/-! ## Alike walks -/

/-- Two scenes that differ at most in what callbacks keep, and there in a relation. -/
structure Scene.Alike {σ τ : Type} (R : σ → τ → Prop) (s : Scene σ) (t : Scene τ) : Prop where
  store : t.store = s.store
  log : t.log = s.log
  own : R s.own t.own

namespace Walk

variable {σ τ α β : Type} {R : σ → τ → Prop}

/-- Two walks that have the same result in alike scenes and leave alike scenes. -/
def Alike (R : σ → τ → Prop) (w : Walk σ α) (v : Walk τ α) : Prop :=
  ∀ s t, s.Alike R t →
    (outcome v t).1 = (outcome w s).1 ∧ (outcome w s).2.Alike R (outcome v t).2

/-- A value handed on is alike itself. -/
theorem alike_pure (a : α) : Alike R (pure a) (pure a) := fun _ _ h => ⟨rfl, h⟩

/-- A fault is alike itself. -/
theorem alike_throw (f : Fault) : Alike (α := α) R (throw f) (throw f) := fun _ _ h => ⟨rfl, h⟩

/-- Sequences are alike when both halves are. -/
theorem alike_bind {w : Walk σ α} {v : Walk τ α} {f : α → Walk σ β} {g : α → Walk τ β}
    (h : Alike R w v) (hfg : ∀ a, Alike R (f a) (g a)) : Alike R (w >>= f) (v >>= g) := by
  intro s t hst
  obtain ⟨hr, hs⟩ := h s t hst
  rw [outcome_bind, outcome_bind]
  rcases hw : outcome w s with ⟨r, s'⟩
  rcases hv : outcome v t with ⟨r', t'⟩
  rw [hw, hv] at hs
  obtain rfl : r' = r := by rw [hw, hv] at hr; exact hr
  cases r' with
  | ok a => exact hfg a s' t' hs
  | error e => exact ⟨rfl, hs⟩

/-- Looking at the store is alike itself, since alike scenes have the same. -/
theorem alike_getStore : Alike R getStore getStore := by
  intro s t h
  exact ⟨congrArg Except.ok h.store, h⟩

/-- Changing the store is alike itself. -/
theorem alike_changeStore (change : Store → α × Store) :
    Alike R (changeStore change) (changeStore change) := by
  intro s t h
  rw [outcome_changeStore, outcome_changeStore, h.store]
  exact ⟨rfl, ⟨rfl, h.log, h.own⟩⟩

/-- Telling is alike itself. -/
theorem alike_tell (e : Log.Entry) : Alike R (tell e) (tell e) := by
  intro s t h
  rw [outcome_tell, outcome_tell]
  exact ⟨rfl, ⟨h.store, congrArg (· ++ [e]) h.log, h.own⟩⟩

/-- Taking an item of a row is alike itself. -/
theorem alike_itemAt (row : RowId) (i : Nat) : Alike R (itemAt row i) (itemAt row i) := by
  refine alike_bind alike_getStore fun store => ?_
  cases (store.rowItems row)[i]? with
  | some item => exact alike_pure item
  | none => exact alike_throw _

/-- What is done for each item is alike when it is for one. -/
theorem alike_mapM {ι : Type} {f : ι → Walk σ α} {g : ι → Walk τ α}
    (h : ∀ i, Alike R (f i) (g i)) (is : List ι) : Alike R (is.mapM f) (is.mapM g) := by
  induction is with
  | nil => exact alike_pure []
  | cons i is ih =>
    rw [List.mapM_cons, List.mapM_cons]
    exact alike_bind (h i) fun _ => alike_bind ih fun _ => alike_pure _

/-- What is done while it says to go on is alike when each step is. -/
theorem alike_throughout {f : Nat → Walk σ Bool} {g : Nat → Walk τ Bool}
    (h : ∀ i, Alike R (f i) (g i)) (is : List Nat) :
    Alike R (throughout f is) (throughout g is) := by
  induction is with
  | nil => exact alike_pure true
  | cons i is ih =>
    refine alike_bind (h i) fun goesOn => ?_
    cases goesOn with
    | true => exact ih
    | false => exact alike_pure false

/-- What is gathered from a row is alike when each step is. -/
theorem alike_gather {f : Nat → Item → Walk σ (Option Item)} {g : Nat → Item → Walk τ (Option Item)}
    (h : ∀ i item, Alike R (f i item) (g i item)) (row : RowId) (most i : Nat) :
    Alike R (gather f row most i) (gather g row most i) := by
  induction most generalizing i with
  | zero => exact alike_throw _
  | succ most ih =>
    refine alike_bind alike_getStore fun store => ?_
    cases (store.rowItems row)[i]? with
    | none => exact alike_pure []
    | some item =>
      exact alike_bind (h i item) fun _ => alike_bind (ih (i + 1)) fun _ => alike_pure _

/-! ## Walks with alike callbacks -/

/-- Two callbacks that come to the same for every node. -/
def AlikeCallbacks (R : σ → τ → Prop) (c : Callback σ) (d : Callback τ) : Prop :=
  ∀ node index parent, Alike R (resolve (c node index parent)) (resolve (d node index parent))

variable {c : Callback σ} {d : Callback τ}

/-- Transforming a node is alike for callbacks that are. -/
theorem transformNode_alike (h : AlikeCallbacks R c d) (reverse : Bool) (limit : Nat) (node : Item)
    (index : Option Nat) (parent : Option Item) :
    Alike R (transformNode c reverse limit node index parent)
      (transformNode d reverse limit node index parent) := by
  induction limit generalizing node index parent with
  | zero => exact alike_throw _
  | succ limit ih =>
    refine alike_bind alike_getStore fun store => ?_
    -- the callback is asked after the children, or at once when there are none
    have hanswer : Alike R
        (do let answer ← resolve (c node index parent)
            return if (← getStore).isTruthy answer then answer else node)
        (do let answer ← resolve (d node index parent)
            return if (← getStore).isTruthy answer then answer else node) :=
      alike_bind (h node index parent) fun _ => alike_bind alike_getStore fun _ => alike_pure _
    cases store.childRow? node with
    | none => exact hanswer
    | some row =>
      refine alike_bind alike_getStore fun _ => alike_bind ?_ fun results =>
        alike_bind (alike_changeStore _) fun _ => hanswer
      exact alike_mapM (fun i => alike_bind (alike_itemAt row i) fun _ => ih _ _ _) _

/-- A transform is alike for callbacks that are. -/
theorem transform_alike (h : AlikeCallbacks R c d) (limit : Nat) (tree : Item) (reverse : Bool) :
    Alike R (transform limit tree c reverse) (transform limit tree d reverse) :=
  transformNode_alike h reverse limit tree none none

/-- Visiting a node is alike for callbacks that are. -/
theorem visitNode_alike (h : AlikeCallbacks R c d) (reverse : Bool) (limit : Nat) (node : Item)
    (index : Option Nat) (parent : Option Item) :
    Alike R (visitNode c reverse limit node index parent)
      (visitNode d reverse limit node index parent) := by
  induction limit generalizing node index parent with
  | zero => exact alike_throw _
  | succ limit ih =>
    refine alike_bind (h node index parent) fun answer => ?_
    cases answer.isStop with
    | true => exact alike_pure false
    | false =>
      refine alike_bind alike_getStore fun store => ?_
      cases store.childRow? node with
      | none => exact alike_pure true
      | some row =>
        -- the row is fixed here; the walk holds on to it whatever the callbacks do
        refine alike_bind alike_getStore fun _ => ?_
        exact alike_throughout (fun i => alike_bind (alike_itemAt row i) fun _ => ih _ _ _) _

/-- A visit is alike for callbacks that are. -/
theorem visit_alike (h : AlikeCallbacks R c d) (limit : Nat) (tree : Item) (reverse : Bool) :
    Alike R (visit limit tree c reverse) (visit limit tree d reverse) := by
  refine alike_bind (visitNode_alike h reverse limit tree none none) fun goesOn => ?_
  cases goesOn with
  | true => exact alike_pure ()
  | false => exact alike_tell _

/-- Filtering a node is alike for predicates that are. -/
theorem filterNode_alike (h : AlikeCallbacks R c d) (most limit : Nat) (node : Item)
    (index : Option Nat) (parent : Option Item) :
    Alike R (filterNode c most limit node index parent)
      (filterNode d most limit node index parent) := by
  induction limit generalizing node index parent with
  | zero => exact alike_throw _
  | succ limit ih =>
    refine alike_bind (h node index parent) fun answer => alike_bind alike_getStore fun store => ?_
    cases store.isTruthy answer with
    | false => exact alike_pure none
    | true =>
      refine alike_bind alike_getStore fun store => ?_
      cases store.childRow? node with
      | none => exact alike_pure (some node)
      | some row =>
        refine alike_bind (alike_gather (fun i child => ih child _ _) row most 0) fun kept => ?_
        exact alike_bind (alike_changeStore _) fun _ => alike_pure _

/-- A filter is alike for predicates that are. -/
theorem filter_alike (h : AlikeCallbacks R c d) (limit most : Nat) (tree : Item) :
    Alike R (filter limit most tree c) (filter limit most tree d) := by
  refine alike_bind (filterNode_alike h most limit tree none none) fun kept => ?_
  split
  · exact alike_bind (alike_tell _) fun _ => alike_pure tree
  · exact alike_bind (alike_tell _) fun _ => alike_pure tree
  · exact alike_pure _

/-- A callback for one type of nodes is called for the same nodes, whatever it keeps. -/
theorem onlyType_alike (h : AlikeCallbacks R c d) (type : Value) :
    AlikeCallbacks R (onlyType type c) (onlyType type d) := by
  intro node index parent
  rw [onlyType, onlyType, resolve_later, resolve_later]
  refine alike_bind alike_getStore fun store => ?_
  cases hasTypeOf store node type with
  | true => exact h node index parent
  | false => exact alike_pure _

/-! ## Walks that keep something more -/

variable {κ : Type} {w : Walk σ α} {v : Walk τ α}

/-- What callbacks keep is in a relation, and what a walk keeps besides is the same. -/
def WithSame (R : σ → τ → Prop) (κ : Type) (kept : σ × κ) (kept' : τ × κ) : Prop :=
  R kept.1 kept'.1 ∧ kept'.2 = kept.2

/-- Work that is lifted over a state of its own is alike when the work is. -/
theorem alike_lifted (h : Alike R w v) : Alike (WithSame R κ) (lifted w) (lifted v) := by
  intro s t hst
  obtain ⟨hr, hs⟩ := h ⟨s.store, s.log, s.own.1⟩ ⟨t.store, t.log, t.own.1⟩
    ⟨hst.store, hst.log, hst.own.1⟩
  exact ⟨hr, ⟨hs.store, hs.log, hs.own, hst.own.2⟩⟩

/-- Work with a state of its own is alike when it is with that state in sight. -/
theorem alike_keeping {w : Walk (σ × κ) α} {v : Walk (τ × κ) α} (h : Alike (WithSame R κ) w v)
    (start : κ) : Alike R (keeping start w) (keeping start v) := by
  intro s t hst
  obtain ⟨hr, hs⟩ := h ⟨s.store, s.log, (s.own, start)⟩ ⟨t.store, t.log, (t.own, start)⟩
    ⟨hst.store, hst.log, hst.own, rfl⟩
  rw [outcome_keeping, outcome_keeping]
  rcases hw : outcome w ⟨s.store, s.log, (s.own, start)⟩ with ⟨r, last⟩
  rcases hv : outcome v ⟨t.store, t.log, (t.own, start)⟩ with ⟨r', last'⟩
  rw [hw, hv] at hr hs
  refine ⟨?_, ⟨hs.store, hs.log, hs.own.1⟩⟩
  show r'.map _ = r.map _
  rw [show r' = r from hr, show last'.own.2 = last.own.2 from hs.own.2]

/-- Noting a node is alike itself. -/
theorem alike_note (node : Item) :
    Alike (WithSame R (List Item)) (note node) (note node) := by
  intro s t hst
  exact ⟨rfl, ⟨hst.store, hst.log, hst.own.1, congrArg (· ++ [node]) hst.own.2⟩⟩

/-- Two questions that come to the same for every node. -/
def AlikeQuestions (R : σ → τ → Prop) (p : Item → Walk σ (Reply σ))
    (q : Item → Walk τ (Reply τ)) : Prop :=
  ∀ node, Alike R (resolve (p node)) (resolve (q node))

section Questions

variable {p : Item → Walk σ (Reply σ)} {q : Item → Walk τ (Reply τ)}

/-- Whether a question is answered with what is true is alike for questions that are. -/
theorem answersTrue_alike (h : AlikeQuestions R p q) (node : Item) :
    Alike (WithSame R κ) (answersTrue p node) (answersTrue q node) :=
  alike_bind (alike_lifted (h node)) fun _ => alike_bind alike_getStore fun _ => alike_pure _

/-- What a search does when the question is answered for a node. -/
theorem alike_noteIfTrue (h : AlikeQuestions R p q) (node found : Item) :
    Alike (WithSame R (List Item))
      (answersTrue p node >>= fun isTrue =>
        if isTrue then note node >>= fun _ => pure found else pure .nothing)
      (answersTrue q node >>= fun isTrue =>
        if isTrue then note node >>= fun _ => pure found else pure .nothing) := by
  refine alike_bind (answersTrue_alike h node) fun isTrue => ?_
  cases isTrue with
  | true => exact alike_bind (alike_note node) fun _ => alike_pure _
  | false => exact alike_pure _

/-- Looking for a node is alike for questions that are. -/
theorem find_alike (h : AlikeQuestions R p q) (limit : Nat) (tree : Item) :
    Alike R (find limit tree p) (find limit tree q) :=
  alike_bind (alike_keeping (visit_alike (fun node _ _ => alike_noteIfTrue h node .stop) limit tree
    false) []) fun _ => alike_pure _

/-- Looking for all nodes is alike for questions that are. -/
theorem findAll_alike (h : AlikeQuestions R p q) (limit : Nat) (tree : Item) :
    Alike R (findAll limit tree p) (findAll limit tree q) :=
  alike_bind (alike_keeping (visit_alike (fun node _ _ => alike_noteIfTrue h node .nothing) limit
    tree false) []) fun _ => alike_pure _

end Questions

end Walk

end NotebookTree

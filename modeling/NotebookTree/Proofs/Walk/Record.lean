import NotebookTree.Proofs.Walk.Calls
import NotebookTree.Proofs.Walk.Outcome

/-!
# Recorded walks

A recorded callback does what the callback does and notes each call: what it was told, the scene in
which it was called, what it answered, and the scene that it left. A walk with a recorded callback
comes to the same as the walk with the callback alone, so the record may be used to say what the
walk does: which calls it makes, and what happens between them.

## Main definitions

* `Walk.recorded`: a callback that notes its calls.
* `Walk.record`: what a walk with such a callback comes to, and the calls that it makes.

## Main statements

* `outcome_of_record`: recording changes nothing.
* `record_bind_ok`: the calls of one part stand before those of the next.
* `record_bind_cases`, and its likes for loops: what the record of a walk in parts tells of them.
-/

namespace NotebookTree

namespace Scene

variable {σ : Type}

/-- A scene with calls noted in it. -/
def withCalls (s : Scene σ) (calls : List (Call σ)) : Scene (σ × List (Call σ)) :=
  ⟨s.store, s.log, (s.own, calls)⟩

/-- A scene without the calls noted in it. -/
def withoutCalls (s : Scene (σ × List (Call σ))) : Scene σ := ⟨s.store, s.log, s.own.1⟩

/-- A scene is itself without its calls and with them again. -/
theorem withCalls_withoutCalls (s : Scene (σ × List (Call σ))) :
    s.withoutCalls.withCalls s.own.2 = s := rfl

end Scene

namespace Walk

variable {σ α β : Type}

/-- The call of a callback in a scene. -/
def callOf (callback : Callback σ) (place : Place) (s : Scene σ) : Call σ :=
  let (answer, after) := outcome (resolve (callback place.node place.index place.parent)) s
  ⟨place, s, answer, after⟩

/-- A callback that does what another does, and notes each call. -/
def recorded (callback : Callback σ) : Callback (σ × List (Call σ)) := fun node index parent =>
  return .later (ExceptT.mk fun scene =>
    let c := callOf callback ⟨node, index, parent⟩ scene.withoutCalls
    (c.answer, c.after.withCalls (scene.own.2 ++ [c])))

/-- What a walk with a recorded callback comes to: its result, the scene that it leaves, and the
calls that it makes. -/
def record (w : Walk (σ × List (Call σ)) α) (s : Scene σ) :
    Except Fault α × Scene σ × List (Call σ) :=
  let (r, last) := outcome w (s.withCalls [])
  (r, last.withoutCalls, last.own.2)

/-- A recorded callback answers as the callback does, and notes the call. -/
theorem outcome_recorded (callback : Callback σ) (node : Item) (index : Option Nat)
    (parent : Option Item) (s : Scene (σ × List (Call σ))) :
    outcome (resolve (recorded callback node index parent)) s =
      ((callOf callback ⟨node, index, parent⟩ s.withoutCalls).answer,
        (callOf callback ⟨node, index, parent⟩ s.withoutCalls).after.withCalls
          (s.own.2 ++ [callOf callback ⟨node, index, parent⟩ s.withoutCalls])) := rfl

/-! ## Recording changes nothing -/

/-- A recorded callback is alike the callback, but for the notes. -/
theorem recorded_alike (callback : Callback σ) :
    AlikeCallbacks (fun own kept => kept.1 = own) callback (recorded callback) := by
  intro node index parent s t h
  have ht : t.withoutCalls = s := by
    obtain ⟨store, log, own⟩ := s
    obtain ⟨h1, h2, h3⟩ := h
    simp only [Scene.withoutCalls] at h1 h2 h3 ⊢
    rw [h1, h2, h3]
  rw [outcome_recorded, ht]
  exact ⟨rfl, ⟨rfl, rfl, rfl⟩⟩

/-- A walk with the recorded callback comes to the same as one with the callback. -/
theorem outcome_of_record {w : Walk σ α} {v : Walk (σ × List (Call σ)) α} {s s' : Scene σ}
    {r : Except Fault α} {calls : List (Call σ)}
    (hwv : Alike (fun own kept => kept.1 = own) w v) (h : record v s = (r, s', calls)) :
    outcome w s = (r, s') := by
  obtain ⟨hr, hs⟩ := hwv s (s.withCalls []) ⟨rfl, rfl, rfl⟩
  simp only [record, Prod.mk.injEq] at h
  obtain ⟨rfl, rfl, rfl⟩ := h
  refine Prod.ext hr.symm ?_
  rw [Scene.withoutCalls, hs.store, hs.log, hs.own]

/-- What holds of every call of a callback holds of every call that a walk makes. -/
theorem forall_mem_of_record {P : Call σ → Prop} (callback : Callback σ)
    {w : Walk (σ × List (Call σ)) α}
    (hw : ∀ R, AlikeCallbacks R callback (recorded callback) → ∃ v : Walk σ α, Alike R v w)
    (hP : ∀ place s, P (callOf callback place s)) (s : Scene σ) :
    ∀ c ∈ (record w s).2.2, P c := by
  -- the calls noted so far have the property, and a walk keeps whatever its callbacks keep
  have hcb : AlikeCallbacks (fun own kept => kept.1 = own ∧ ∀ c ∈ kept.2, P c) callback
      (recorded callback) := by
    intro node index parent s t hst
    obtain ⟨hr, hs⟩ := recorded_alike callback node index parent s t
      ⟨hst.store, hst.log, hst.own.1⟩
    refine ⟨hr, ⟨hs.store, hs.log, hs.own, ?_⟩⟩
    rw [outcome_recorded]
    intro c hc
    rcases List.mem_append.mp hc with hc | hc
    · exact hst.own.2 c hc
    · rw [List.mem_singleton.mp hc]
      exact hP _ _
  obtain ⟨v, hv⟩ := hw _ hcb
  obtain ⟨-, hs⟩ := hv s (s.withCalls []) ⟨rfl, rfl, rfl, by simp [Scene.withCalls]⟩
  exact hs.own.2

/-! ## Parts of recorded walks -/

/-- Calls noted before a walk stay, and make no difference to it. -/
def Recording (w : Walk (σ × List (Call σ)) α) : Prop :=
  ∀ noted, Alike (fun kept more => more = (kept.1, noted ++ kept.2)) w w

/-- What is noted before makes no difference to what is noted then. -/
theorem recorded_recording (callback : Callback σ) (noted : List (Call σ)) :
    AlikeCallbacks (fun kept more => more = (kept.1, noted ++ kept.2)) (recorded callback)
      (recorded callback) := by
  intro node index parent s t h
  have ht : t.withoutCalls = s.withoutCalls := by
    obtain ⟨h1, h2, h3⟩ := h
    rw [Scene.withoutCalls, Scene.withoutCalls, h1, h2, h3]
  rw [outcome_recorded, outcome_recorded, ht, h.own]
  exact ⟨rfl, ⟨rfl, rfl, by simp [Scene.withCalls]⟩⟩

/-- A run that records adds its calls to those noted before. -/
theorem outcome_withCalls {w : Walk (σ × List (Call σ)) α} (hw : Recording w) {s s' : Scene σ}
    {r : Except Fault α} {calls : List (Call σ)} (h : record w s = (r, s', calls))
    (noted : List (Call σ)) :
    outcome w (s.withCalls noted) = (r, s'.withCalls (noted ++ calls)) := by
  obtain ⟨hr, hs⟩ := hw noted (s.withCalls []) (s.withCalls noted)
    ⟨rfl, rfl, by simp [Scene.withCalls]⟩
  simp only [record, Prod.mk.injEq] at h
  obtain ⟨rfl, rfl, rfl⟩ := h
  refine Prod.ext hr ?_
  obtain ⟨h1, h2, h3⟩ := hs
  rw [← Scene.withCalls_withoutCalls (outcome w (s.withCalls noted)).2, Scene.withoutCalls,
    h1, h2, h3]
  rfl

/-- A part that returns hands its scene to the next part, whose calls come behind its own. -/
theorem record_bind_ok {w : Walk (σ × List (Call σ)) α} {f : α → Walk (σ × List (Call σ)) β}
    {s s' s'' : Scene σ} {a : α} {r : Except Fault β} {calls more : List (Call σ)}
    (hf : Recording (f a)) (h : record w s = (.ok a, s', calls))
    (h' : record (f a) s' = (r, s'', more)) :
    record (w >>= f) s = (r, s'', calls ++ more) := by
  have hw : outcome w (s.withCalls []) = (.ok a, s'.withCalls calls) := by
    simp only [record, Prod.mk.injEq] at h
    obtain ⟨hr, rfl, rfl⟩ := h
    exact Prod.ext hr rfl
  rw [record, outcome_bind_ok hw, outcome_withCalls hf h']
  rfl

/-- A part that ends in a fault ends the walk. -/
theorem record_bind_error {w : Walk (σ × List (Call σ)) α} {f : α → Walk (σ × List (Call σ)) β}
    {s s' : Scene σ} {e : Fault} {calls : List (Call σ)}
    (h : record w s = (.error e, s', calls)) :
    record (w >>= f) s = (.error e, s', calls) := by
  simp only [record, Prod.mk.injEq] at h
  obtain ⟨hr, rfl, rfl⟩ := h
  rw [record, outcome_bind, show outcome w (s.withCalls []) = (.error e, _) from Prod.ext hr rfl]

/-- Handing on a value makes no call. -/
theorem record_pure (a : α) (s : Scene σ) :
    record (pure a : Walk (σ × List (Call σ)) α) s = (.ok a, s, []) := rfl

/-- Telling makes no call. -/
theorem record_tell (e : Log.Entry) (s : Scene σ) :
    record (tell e : Walk (σ × List (Call σ)) Unit) s =
      (.ok (), { s with log := s.log ++ [e] }, []) := rfl

/-- A look at the store makes no call. -/
theorem record_getStore_bind (f : Store → Walk (σ × List (Call σ)) β) (s : Scene σ) :
    record (getStore >>= f) s = record (f s.store) s := rfl

/-- Taking an item of a row makes no call. -/
theorem record_itemAt_bind {s : Scene σ} {row : RowId} {items : List Item} {i : Nat} {item : Item}
    (hrow : s.store.row? row = some items) (hi : items[i]? = some item)
    (f : Item → Walk (σ × List (Call σ)) β) :
    record (itemAt row i >>= f) s = record (f item) s := by
  rw [record, outcome_bind_ok (outcome_itemAt (s.withCalls []) hrow hi)]
  rfl

/-! ## What a recorded walk has done

A record of a walk in parts tells the records of its parts: what follows a part that returns begins
where that has left off, and its calls stand behind. -/

section Cases

variable {γ : Type} {w : Walk (σ × List (Call σ)) α} {s s' : Scene σ} {calls : List (Call σ)}

/-- A walk ends with its first part if that ends in a fault. -/
theorem record_bind_cases {f : α → Walk (σ × List (Call σ)) β} {r : Except Fault β}
    (hf : ∀ a, Recording (f a)) (h : record (w >>= f) s = (r, s', calls)) :
    (∃ e, record w s = (.error e, s', calls) ∧ r = .error e) ∨
      ∃ a s₁ calls₁ more, record w s = (.ok a, s₁, calls₁) ∧ record (f a) s₁ = (r, s', more) ∧
        calls = calls₁ ++ more := by
  -- the second part is only reached if the first one does not fail
  rcases hw : record w s with ⟨r₁, s₁, calls₁⟩
  cases r₁ with
  | error e =>
    rw [record_bind_error hw] at h
    cases h
    exact .inl ⟨e, rfl, rfl⟩
  | ok a =>
    rcases hrest : record (f a) s₁ with ⟨r₂, s₂, more⟩
    rw [record_bind_ok (hf a) hw hrest] at h
    cases h
    exact .inr ⟨a, s₁, calls₁, more, rfl, hrest, rfl⟩

/-- What is made of a result comes from one, with the same calls. -/
theorem exists_of_record_map {g : α → β} {r : Except Fault β}
    (h : record (w >>= fun a => pure (g a)) s = (r, s', calls)) :
    ∃ r₁, record w s = (r₁, s', calls) ∧ r = r₁.map g := by
  obtain ⟨e, hw, rfl⟩ | ⟨a, s₁, calls₁, more, hw, hpure, rfl⟩ :=
    record_bind_cases (fun a _ => alike_pure (g a)) h
  · exact ⟨.error e, hw, rfl⟩
  · rw [record_pure] at hpure
    cases hpure
    exact ⟨.ok a, by rw [hw, List.append_nil], rfl⟩

/-- Two parts in a row, when a value is made of their results. -/
theorem record_bind_map_cases {v : Walk (σ × List (Call σ)) β} {g : α → β → γ}
    {r : Except Fault γ} (hv : Recording v)
    (h : record (w >>= fun a => v >>= fun b => pure (g a b)) s = (r, s', calls)) :
    (∃ e, record w s = (.error e, s', calls) ∧ r = .error e) ∨
      ∃ a r₂ s₁ calls₁ more, record w s = (.ok a, s₁, calls₁) ∧ record v s₁ = (r₂, s', more) ∧
        r = r₂.map (g a) ∧ calls = calls₁ ++ more := by
  obtain hfail | ⟨a, s₁, calls₁, more, hw, hrest, rfl⟩ :=
    record_bind_cases (fun a noted => alike_bind (hv noted) fun b => alike_pure (g a b)) h
  · exact .inl hfail
  · obtain ⟨r₂, hv', hr⟩ := exists_of_record_map hrest
    exact .inr ⟨a, r₂, s₁, calls₁, more, hw, hv', hr, rfl⟩

/-- A loop that makes a list goes on with the rest if its first step returns. -/
theorem record_mapM_cases {ι : Type} {f : ι → Walk (σ × List (Call σ)) α} {i : ι} {is : List ι}
    {r : Except Fault (List α)} (hf : ∀ i, Recording (f i))
    (h : record ((i :: is).mapM f) s = (r, s', calls)) :
    (∃ e, record (f i) s = (.error e, s', calls) ∧ r = .error e) ∨
      ∃ a r₂ s₁ calls₁ more, record (f i) s = (.ok a, s₁, calls₁) ∧
        record (is.mapM f) s₁ = (r₂, s', more) ∧ r = r₂.map (a :: ·) ∧ calls = calls₁ ++ more := by
  rw [List.mapM_cons] at h
  exact record_bind_map_cases (fun noted => alike_mapM (fun i => hf i noted) is) h

/-- A loop that may be stopped goes on with the rest if its first step says so. -/
theorem record_throughout_cases {f : Nat → Walk (σ × List (Call σ)) Bool} {i : Nat} {is : List Nat}
    {r : Except Fault Bool} (hf : ∀ i, Recording (f i))
    (h : record (throughout f (i :: is)) s = (r, s', calls)) :
    (record (f i) s = (r, s', calls) ∧ r ≠ .ok true) ∨
      ∃ s₁ calls₁ more, record (f i) s = (.ok true, s₁, calls₁) ∧
        record (throughout f is) s₁ = (r, s', more) ∧ calls = calls₁ ++ more := by
  have hrest : ∀ goesOn : Bool, Recording (if goesOn then throughout f is else pure false) := by
    rintro (_ | _) noted
    · exact alike_pure false
    · exact alike_throughout (fun i => hf i noted) is
  obtain ⟨e, hi, rfl⟩ | ⟨goesOn, s₁, calls₁, more, hi, hon, rfl⟩ := record_bind_cases hrest h
  · exact .inl ⟨hi, by simp⟩
  · cases goesOn with
    | true => exact .inr ⟨s₁, calls₁, more, hi, hon, rfl⟩
    | false =>
      rw [if_neg Bool.false_ne_true, record_pure] at hon
      cases hon
      exact .inl ⟨by rw [hi, List.append_nil], by simp⟩

section Gather

variable {f : Nat → Item → Walk (σ × List (Call σ)) (Option Item)} {row : RowId}
  {items : List Item} {i most : Nat} {item : Item}

/-- A row is gathered when there is no item left in it. -/
theorem record_gather_end (hrow : s.store.row? row = some items) (hi : items[i]? = none)
    (most : Nat) : record (gather f row (most + 1) i) s = (.ok [], s, []) := by
  rw [gather, record_getStore_bind, Store.rowItems, hrow, Option.getD_some, hi]
  rfl

/-- A row is gathered item by item, as long as that does not end in a fault. -/
theorem record_gather_cases {r : Except Fault (List Item)} (hf : ∀ i item, Recording (f i item))
    (hrow : s.store.row? row = some items) (hi : items[i]? = some item)
    (h : record (gather f row (most + 1) i) s = (r, s', calls)) :
    (∃ e, record (f i item) s = (.error e, s', calls) ∧ r = .error e) ∨
      ∃ kept r₂ s₁ calls₁ more, record (f i item) s = (.ok kept, s₁, calls₁) ∧
        record (gather f row most (i + 1)) s₁ = (r₂, s', more) ∧
        r = r₂.map (kept.toList ++ ·) ∧ calls = calls₁ ++ more := by
  rw [gather, record_getStore_bind, Store.rowItems, hrow, Option.getD_some, hi] at h
  exact record_bind_map_cases
    (fun noted => alike_gather (fun i item => hf i item noted) row most (i + 1)) h

end Gather

end Cases

/-- A recorded callback makes one call. -/
theorem record_call (callback : Callback σ) (node : Item) (index : Option Nat)
    (parent : Option Item) (s : Scene σ) :
    record (resolve (recorded callback node index parent)) s =
      ((callOf callback ⟨node, index, parent⟩ s).answer,
        (callOf callback ⟨node, index, parent⟩ s).after,
        [callOf callback ⟨node, index, parent⟩ s]) := rfl

/-- A walk that begins with a call ends with it if it fails, and goes on from its answer if not. -/
theorem record_call_bind_cases {callback : Callback σ} {place : Place} {s s' : Scene σ}
    {c : Call σ} {f : Item → Walk (σ × List (Call σ)) β} {r : Except Fault β}
    {calls : List (Call σ)} (hc : callOf callback place s = c) (hf : ∀ i, Recording (f i))
    (h : record (resolve (recorded callback place.node place.index place.parent) >>= f) s =
      (r, s', calls)) :
    (∃ e, c.answer = .error e ∧ r = .error e ∧ s' = c.after ∧ calls = [c]) ∨
      ∃ i more, c.answer = .ok i ∧ record (f i) c.after = (r, s', more) ∧ calls = [c] ++ more := by
  have hcall := record_call callback place.node place.index place.parent s
  rw [hc] at hcall
  obtain ⟨e, hfail, rfl⟩ | ⟨i, s₁, calls₁, more, hgo, hrest, rfl⟩ := record_bind_cases hf h
  · rw [hcall, Prod.mk.injEq, Prod.mk.injEq] at hfail
    obtain ⟨hanswer, rfl, rfl⟩ := hfail
    exact .inl ⟨e, hanswer, rfl, rfl, rfl⟩
  · rw [hcall, Prod.mk.injEq, Prod.mk.injEq] at hgo
    obtain ⟨hanswer, rfl, rfl⟩ := hgo
    exact .inr ⟨i, more, hanswer, hrest, rfl⟩

/-! ## A callback that counts -/

/-- A callback that counts its calls, and answers by their number and the node. -/
def counting (answer : Nat → Item → Except Fault Item) : Callback Nat := fun node _ _ =>
  return .later (ExceptT.mk fun scene =>
    (answer scene.own node, { scene with own := scene.own + 1 }))

end Walk

end NotebookTree

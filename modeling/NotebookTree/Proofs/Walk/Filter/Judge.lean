import NotebookTree.Proofs.Walk.Filter.Prune
import NotebookTree.Proofs.Walk.Record

/-!
# The calls of a filter

`Judges` says of the occurrences in a list what calls a filter has made for them. The verdicts are
those of the calls. Between two calls a filter only adds to the store, and nobody but the filter
knows what it has added, so a callback is taken to leave that alone: `SparedNode` and `SparedRow`
are what a call must leave as it is.

## Main definitions

* `Judges`: the calls that a filter has made for some occurrences.
* `SparedNode`, `SparedRow`: the tree, and what the filter has made.
* `HoldNew`: two sets have in them what the filter has made.
-/

namespace NotebookTree

variable {σ α β : Type}

/-- Between two calls, no more happens than that nodes and rows are added. -/
def Grows (s s' : Scene σ) : Prop :=
  s.store.Keeps (fun _ => True) (fun _ => True) s'.store

/-- Two sets have in them all nodes and rows that came into the store, but for those that came
during a call. -/
structure HoldNew (N : NodeId → Prop) (R : RowId → Prop) (calls : List (Call σ)) (s s' : Store) :
    Prop where
  node : ∀ id, s.nodes.size ≤ id.index → id.index < s'.nodes.size →
    (∀ c ∈ calls, ¬ c.MakesNode id) → N id
  row : ∀ row, s.rows.size ≤ row.index → row.index < s'.rows.size →
    (∀ c ∈ calls, ¬ c.MakesRow row) → R row

/-- A node of a tree, or one that came into the store since a walk began, but in no call. -/
def SparedNode (t : Tree) (first : Store) (calls : List (Call σ)) (id : NodeId) : Prop :=
  id ∈ t.ids ∨ first.nodes.size ≤ id.index ∧ ∀ c ∈ calls, ¬ c.MakesNode id

/-- A row of a tree, or one that came into the store since a walk began, but in no call. -/
def SparedRow (t : Tree) (first : Store) (calls : List (Call σ)) (row : RowId) : Prop :=
  row ∈ t.rows ∨ first.rows.size ≤ row.index ∧ ∀ c ∈ calls, ¬ c.MakesRow row

/-- Nodes and rows that no call touches are held, by what being spared means. -/
theorem holdNew_spared (t : Tree) (calls : List (Call σ)) (s s' : Store) :
    HoldNew (SparedNode t s calls) (SparedRow t s calls) calls s s' :=
  ⟨fun _ hle _ hnone => .inr ⟨hle, hnone⟩, fun _ hle _ hnone => .inr ⟨hle, hnone⟩⟩

/-- What is new until a later point is new until an earlier one. -/
theorem HoldNew.of_le {N : NodeId → Prop} {R : RowId → Prop} {N' : NodeId → Prop}
    {R' : RowId → Prop} {calls : List (Call σ)} {s s' s'' : Store}
    (h : HoldNew N R calls s s'') (hle : s'.Keeps N' R' s'') : HoldNew N R calls s s' where
  node id hge hlt := h.node id hge (Nat.lt_of_lt_of_le hlt hle.nodes_le)
  row row hge hlt := h.row row hge (Nat.lt_of_lt_of_le hlt hle.rows_le)

/-- The calls lead from one scene to the other by a filter that meets some occurrences: they are
made for the occurrences in order up to the first that fails, nothing is lost between them, and the
verdicts are those of the calls. -/
structure Judges (spots : List Spot) (ok : Spot → Bool) (s s' : Scene σ) (r : Except Fault α)
    (calls : List (Call σ)) : Prop where
  cut : CutAt Call.Fails (spots.map Spot.place) calls
  chained : Chained Grows s calls s'
  failed : ∀ c ∈ calls, ∀ e, c.answer = .error e → r = .error e
  ended : (∀ c ∈ calls, ¬ c.Fails) → ∃ a, r = .ok a
  verdict : ∀ x ∈ spots.zip calls, ¬ x.2.Fails → ok x.1 = x.2.isTrue

namespace Judges

variable {spots more : List Spot} {ok ok' : Spot → Bool} {s s' s'' : Scene σ} {a : α} {b : β}
  {r : Except Fault α} {calls calls' : List (Call σ)} {N : NodeId → Prop} {R : RowId → Prop}

/-- Judging no places changes nothing. -/
theorem nil (ok : Spot → Bool) (s : Scene σ) (a : α) : Judges [] ok s s (.ok a) [] :=
  ⟨.nil, .refl _, by simp, fun _ => ⟨a, rfl⟩, by simp⟩

/-- Where judging ends well, no call failed. -/
theorem not_fails (h : Judges spots ok s s' (.ok a) calls) : ∀ c ∈ calls, ¬ c.Fails := by
  rintro c hc ⟨e, he⟩
  cases h.failed c hc e he

/-- Where judging ends in a fault, some call failed with it. -/
theorem exists_fails {e : Fault} (h : Judges (α := α) spots ok s s' (.error e) calls) :
    ∃ c ∈ calls, c.answer = .error e := by
  by_contra hnone
  push Not at hnone
  have hgo : ∀ c ∈ calls, ¬ c.Fails := by
    rintro c hc ⟨f, hf⟩
    have heq := h.failed c hc f hf
    exact hnone c hc (by rw [hf, Except.error.inj heq])
  obtain ⟨a, ha⟩ := h.ended hgo
  cases ha

/-- Where judging ends well, there is a call for each place. -/
theorem length_eq (h : Judges spots ok s s' (.ok a) calls) : spots.length = calls.length := by
  have hplaces := congrArg List.length (h.cut.whole h.not_fails)
  rw [List.length_map, List.length_map] at hplaces
  exact hplaces.symm

/-- Only the verdicts on the places matter. -/
theorem congr (h : Judges spots ok s s' r calls) (hok : ∀ p ∈ spots, ok' p = ok p) :
    Judges spots ok' s s' r calls where
  cut := h.cut
  chained := h.chained
  failed := h.failed
  ended := h.ended
  verdict x hx hreturn := by
    rw [hok x.1 (List.of_mem_zip hx).1]
    exact h.verdict x hx hreturn

/-- A call for one occurrence. -/
theorem call {p : Spot} {c : Call σ} (hc : c.place = p.place)
    (hok : ¬ c.Fails → ok p = c.isTrue) : Judges [p] ok c.before c.after c.answer [c] where
  cut := by
    rw [List.map_singleton, ← hc]
    exact .single c
  chained := ⟨.refl _, .refl _⟩
  failed d hd e he := by rw [← List.mem_singleton.mp hd, he]
  ended hall := Call.not_fails_iff.mp (hall c (List.mem_singleton_self c))
  verdict x hx := by
    rw [List.zip_cons_cons, List.zip_nil_left] at hx
    rw [List.mem_singleton.mp hx]
    exact hok

/-- Occurrences that are done, and those behind them. -/
theorem append {r : Except Fault β} (h : Judges spots ok s s' (.ok a) calls)
    (h' : Judges more ok s' s'' r calls') :
    Judges (spots ++ more) ok s s'' r (calls ++ calls') where
  cut := by
    rw [List.map_append]
    exact h.cut.append h.not_fails h'.cut
  chained := Chained.append (fun _ _ _ => Store.Keeps.trans) h.chained h'.chained
  failed c hc e he := by
    rcases List.mem_append.mp hc with hc | hc
    · exact absurd ⟨e, he⟩ (h.not_fails c hc)
    · exact h'.failed c hc e he
  ended hall := h'.ended fun c hc => hall c (List.mem_append_right _ hc)
  verdict x hx := by
    rw [List.zip_append h.length_eq] at hx
    exact (List.mem_append.mp hx).elim (h.verdict x) (h'.verdict x)

/-- After a call that fails, nothing is done for the occurrences that come behind. -/
theorem append_of_fails {e : Fault} (h : Judges (α := α) spots ok s s' (.error e) calls)
    (more : List Spot) : Judges (α := β) (spots ++ more) ok s s' (.error e) calls where
  cut := by
    obtain ⟨c, hc, hfail⟩ := h.exists_fails
    rw [List.map_append]
    exact h.cut.append_of_ends hc ⟨e, hfail⟩ _
  chained := h.chained
  failed c hc f hf := congrArg Except.error (Except.error.inj (h.failed c hc f hf))
  ended hall := by
    obtain ⟨c, hc, hfail⟩ := h.exists_fails
    exact absurd ⟨e, hfail⟩ (hall c hc)
  verdict x hx := by
    -- there are no more calls than spots, so the spots appended meet none of the calls
    have hlength := h.cut.made.length_le
    rw [List.length_map, List.length_map] at hlength
    obtain ⟨j, hj⟩ := List.mem_iff_getElem?.mp hx
    obtain ⟨hp, hc⟩ := List.getElem?_zip_eq_some.mp hj
    have hlt : j < calls.length := (List.getElem?_eq_some_iff.mp hc).1
    rw [List.getElem?_append_left (by omega)] at hp
    exact h.verdict x (List.mem_iff_getElem?.mpr ⟨j, List.getElem?_zip_eq_some.mpr ⟨hp, hc⟩⟩)

/-- What is made of the result makes no difference to the calls. -/
theorem map (h : Judges spots ok s s' r calls) (f : α → β) :
    Judges spots ok s s' (r.map f) calls where
  cut := h.cut
  chained := h.chained
  failed c hc e he := by
    rw [h.failed c hc e he]
    rfl
  ended hall := by
    obtain ⟨a, ha⟩ := h.ended hall
    exact ⟨f a, by rw [ha]; rfl⟩
  verdict := h.verdict

/-- What is made of the results makes no difference to the calls. -/
theorem finish (h : Judges spots ok s s' (.ok a) calls) (hgrow : Grows s' s'') (b : β) :
    Judges spots ok s s'' (.ok b) calls where
  cut := h.cut
  chained := h.chained.move (fun _ _ _ => Store.Keeps.trans) hgrow
  failed c hc e he := absurd ⟨e, he⟩ (h.not_fails c hc)
  ended _ := ⟨b, rfl⟩
  verdict := h.verdict

/-- What the calls leave as it is stays as it is. -/
theorem keeps (h : Judges spots ok s s' r calls) (hkeep : ∀ c ∈ calls, c.Keeps N R) :
    s.store.Keeps N R s'.store :=
  h.chained.rel (fun _ _ _ => Store.Keeps.trans)
    (fun _ _ hm => hm.mono (fun _ _ => trivial) fun _ _ => trivial) hkeep

/-- The number of nodes only grows, from call to call. -/
theorem nodes_bounds (h : Judges spots ok s s' r calls) (hkeep : ∀ c ∈ calls, c.Keeps N R) :
    s.store.nodes.size ≤ s'.store.nodes.size ∧ ∀ c ∈ calls,
      s.store.nodes.size ≤ c.before.store.nodes.size ∧
        c.after.store.nodes.size ≤ s'.store.nodes.size :=
  h.chained.bounds (f := fun s => s.nodes.size) (fun _ _ hm => hm.nodes_le)
    fun c hc => (hkeep c hc).nodes_le

/-- The number of rows only grows, from call to call. -/
theorem rows_bounds (h : Judges spots ok s s' r calls) (hkeep : ∀ c ∈ calls, c.Keeps N R) :
    s.store.rows.size ≤ s'.store.rows.size ∧ ∀ c ∈ calls,
      s.store.rows.size ≤ c.before.store.rows.size ∧
        c.after.store.rows.size ≤ s'.store.rows.size :=
  h.chained.bounds (f := fun s => s.rows.size) (fun _ _ hm => hm.rows_le)
    fun c hc => (hkeep c hc).rows_le

/-- What came into the store by the end of the first part came in no call of the second. -/
theorem holdNew_left {s₀ : Store} (h : Judges more ok s' s'' r calls')
    (hkeep : ∀ c ∈ calls', c.Keeps N R) (hnew : HoldNew N R (calls ++ calls') s₀ s''.store) :
    HoldNew N R calls s₀ s'.store where
  node id hle hlt hnone := by
    obtain ⟨hsize, hbefore⟩ := h.nodes_bounds hkeep
    refine hnew.node id hle (by omega) fun c hc hmakes => ?_
    rcases List.mem_append.mp hc with hc | hc
    · exact hnone c hc hmakes
    · have := hbefore c hc
      have := hmakes.1
      omega
  row row hle hlt hnone := by
    obtain ⟨hsize, hbefore⟩ := h.rows_bounds hkeep
    refine hnew.row row hle (by omega) fun c hc hmakes => ?_
    rcases List.mem_append.mp hc with hc | hc
    · exact hnone c hc hmakes
    · have := hbefore c hc
      have := hmakes.1
      omega

/-- What came into the store in the second part came in no call of the first. -/
theorem holdNew_right {s₃ : Store} (h : Judges spots ok s s' r calls)
    (hkeep : ∀ c ∈ calls, c.Keeps N R) (hnew : HoldNew N R (calls ++ calls') s.store s₃) :
    HoldNew N R calls' s'.store s₃ where
  node id hle hlt hnone := by
    obtain ⟨hsize, hafter⟩ := h.nodes_bounds hkeep
    refine hnew.node id (by omega) hlt fun c hc hmakes => ?_
    rcases List.mem_append.mp hc with hc | hc
    · have := hafter c hc
      have := hmakes.2
      omega
    · exact hnone c hc hmakes
  row row hle hlt hnone := by
    obtain ⟨hsize, hafter⟩ := h.rows_bounds hkeep
    refine hnew.row row (by omega) hlt fun c hc hmakes => ?_
    rcases List.mem_append.mp hc with hc | hc
    · have := hafter c hc
      have := hmakes.2
      omega
    · exact hnone c hc hmakes

end Judges

end NotebookTree

import NotebookTree.Proofs.Walk.Filter.Run

/-!
# Filters

A filter calls back for the occurrences in a tree that are reached, parents first, and makes a copy
of what is kept. It writes to nothing that was there before, so a tree in which nodes stand at
several places is met as it was.

## Main statements

* `filter_prunes`: the calls of a filter, and what it returns.
-/

namespace NotebookTree.Walk

variable {σ : Type} {callback : Callback σ} {most limit : Nat}

/-- Nothing is kept of the root. -/
theorem record_filter_of_nothing {tree : Item} {kept : Option Item} {s s' : Scene σ}
    {calls : List (Call σ)}
    (h : record (filterNode (recorded callback) most limit tree none none) s =
      (.ok kept, s', calls)) (hnone : kept.toList.filter (fun i => !i.isNothing) = []) :
    ∃ final, record (filter limit most tree (recorded callback)) s = (.ok tree, final, calls) ∧
      final.store = s'.store := by
  let refused : Walk (σ × List (Call σ)) Item := do
    tell (.debug .walker "Predicate rejected the root node; returning it unchanged")
    return tree
  -- a root that is refused and one that is null end in the same branch of the match
  have hbind : ∀ f : Option Item → Walk (σ × List (Call σ)) Item, f kept = refused →
      ∃ final, record (filterNode (recorded callback) most limit tree none none >>= f) s =
        (.ok tree, final, calls) ∧ final.store = s'.store := by
    intro f hf
    have hlast : record (f kept) s' = (.ok tree, { s' with log := s'.log ++
        [.debug .walker "Predicate rejected the root node; returning it unchanged"] }, []) := by
      rw [hf]
      rfl
    have hrest := record_bind_ok (fun noted => by
      rw [hf]
      exact alike_bind (alike_tell _) fun _ => alike_pure tree) h hlast
    rw [List.append_nil] at hrest
    exact ⟨_, hrest, rfl⟩
  rw [filter]
  cases kept with
  | none => exact hbind _ rfl
  | some i =>
    have hi : i.isNothing = true := by simpa using hnone
    obtain rfl : i = .plain .null := Item.eq_of_isNothing hi
    exact hbind _ rfl

/-- The root is kept, or what stands for it. -/
theorem record_filter_of_some {tree i : Item} {s s' : Scene σ} {calls : List (Call σ)}
    (h : record (filterNode (recorded callback) most limit tree none none) s =
      (.ok (some i), s', calls)) (hi : i.isNothing = false) :
    record (filter limit most tree (recorded callback)) s = (.ok i, s', calls) := by
  -- whatever the item is but null, it is the result
  have hbind : ∀ f : Option Item → Walk (σ × List (Call σ)) Item, f (some i) = pure i →
      record (filterNode (recorded callback) most limit tree none none >>= f) s =
        (.ok i, s', calls) := by
    intro f hf
    have hrest := record_bind_ok (fun noted => by
      rw [hf]
      exact alike_pure i) h ((congrArg (record · s') hf).trans (record_pure i s'))
    rw [List.append_nil] at hrest
    exact hrest
  rw [filter]
  cases i with
  | plain v =>
    cases v with
    | null => simp [Item.isNothing] at hi
    | _ => exact hbind _ rfl
  | _ => exact hbind _ rfl

/-- A filter returns what is kept of the root, and the root itself if that is nothing. -/
theorem record_filter {tree : Item} {r : Except Fault (Option Item)} {s s' : Scene σ}
    {calls : List (Call σ)}
    (h : record (filterNode (recorded callback) most limit tree none none) s = (r, s', calls)) :
    ∃ final, record (filter limit most tree (recorded callback)) s =
        (r.map fun kept => (kept.toList.filter fun i => !i.isNothing).headD tree, final, calls) ∧
      final.store = s'.store := by
  cases r with
  | error e =>
    refine ⟨s', ?_, rfl⟩
    rw [filter, record_bind_error h]
    rfl
  | ok kept =>
    rw [Except.map]
    cases hkept : kept.toList.filter (fun i => !i.isNothing) with
    | nil => exact record_filter_of_nothing h hkept
    | cons i is =>
      -- at most one item is kept of the root
      obtain ⟨rfl, hi⟩ : kept = some i ∧ i.isNothing = false := by
        have hmem : i ∈ kept.toList.filter (fun i => !i.isNothing) := by simp [hkept]
        simpa using hmem
      exact ⟨s', record_filter_of_some h hi, rfl⟩

section Root

variable {t : Tree} {s final : Scene σ} {result : Except Fault Item} {calls : List (Call σ)}

/-- A filter of a tree from its root. -/
theorem exists_verdicts (hlimit : t.height ≤ limit)
    (hmost : ∀ b ∈ t.branches, b.2.2.length < most) (hstand : t.StandsIn s.store)
    (hrun : record (filter limit most t.item (recorded callback)) s = (result, final, calls))
    (hkeep : ∀ c ∈ calls, c.Keeps (SparedNode t s.store calls) (SparedRow t s.store calls)) :
    ∃ (ok : List Nat → Bool) (s' : Scene σ), final.store = s'.store ∧
      Judges (t.reachedIn ok [] none) (fun p => ok p.path) s s' result calls ∧
      ((∀ c ∈ calls, ¬ c.Fails) → ∃ us : List Tree, us.length ≤ 1 ∧
        result = .ok ((us.map Tree.item).headD t.item) ∧
        Pruned (SparedNode t s.store calls) (SparedRow t s.store calls) s.store final.store 0
          (t.keptIn ok [] none) us) := by
  rcases hnode : record (filterNode (recorded callback) most limit t.item none none) s with
    ⟨r, s', calls'⟩
  obtain ⟨last, hfilter, hstore⟩ := record_filter hnode
  rw [hfilter] at hrun
  obtain ⟨rfl, rfl, rfl⟩ : _ ∧ _ ∧ _ := by simpa only [Prod.mk.injEq] using hrun
  obtain ⟨ok, hjudge, hresult⟩ := filtersTree callback most t _ _ limit [] none s s' r calls'
    hlimit hmost hstand (fun _ => .inl) (fun b hb => .inl (List.mem_map_of_mem hb)) hnode hkeep
  refine ⟨ok, s', hstore, hjudge.map _, fun hgo => ?_⟩
  -- no call fails, so the walk over the root ends with what is kept of it
  obtain ⟨kept, rfl⟩ := hjudge.ended hgo
  obtain ⟨us, hus, hpruned⟩ := hresult kept rfl (holdNew_spared t calls' s.store s'.store)
  refine ⟨us, ?_, ?_, hstore ▸ hpruned⟩
  · have hlength := congrArg List.length hus
    rw [List.length_map] at hlength
    rw [← hlength]
    exact Nat.le_trans (List.length_filter_le ..) (by cases kept <;> simp)
  · rw [Except.map, hus]

/-- Nothing is kept of nothing. -/
theorem keptIn_of_isNothing (ok : List Nat → Bool) (h : t.item.isNothing = true) :
    t.keptIn ok [] none = [] := by
  refine List.filter_eq_nil_iff.mpr fun p hp => ?_
  cases t with
  | leaf i =>
    obtain rfl : p = ⟨[], .leaf i, none⟩ := by simpa [Tree.listing] using hp
    simp [h]
  | branch id row ts => simp [Tree.item, Item.isNothing] at h

/-- A filter changes nothing that was there, whether it returns or ends in a fault. It calls back
for the occurrences that are reached, parents first, up to the first call that fails. If none does
and the root is accepted, it returns a tree of what is kept: in the same order and at the same
depth, with each leaf itself and with a new node, and a new row, for each occurrence of a branch.
If the root is refused it returns the root after one call. -/
theorem filter_prunes (hlimit : t.height ≤ limit)
    (hmost : ∀ b ∈ t.branches, b.2.2.length < most) (hstand : t.StandsIn s.store)
    (hrun : record (filter limit most t.item (recorded callback)) s = (result, final, calls))
    (hkeep : ∀ c ∈ calls, c.Keeps (SparedNode t s.store calls) (SparedRow t s.store calls)) :
    outcome (filter limit most t.item callback) s = (result, final) ∧
      s.store.Keeps (· ∈ t.ids) (· ∈ t.rows) final.store ∧
      (∀ c ∈ calls, ∀ e, c.answer = .error e → result = .error e) ∧
      ∃ ok : List Nat → Bool,
        CutAt Call.Fails
          (((t.preorder false).filter fun p => Reached ok p.path).map Spot.place) calls ∧
        (∀ x ∈ ((t.preorder false).filter fun p => Reached ok p.path).zip calls,
          ¬ x.2.Fails → ok x.1.path = x.2.isTrue) ∧
        ((∀ c ∈ calls, ¬ c.Fails) → ok [] = true → t.item.isNothing = false →
          ∃ u : Tree, result = .ok u.item ∧ u.StandsIn final.store ∧
            List.Forall₂ (CopyOf final.store)
              ((t.preorder false).filter fun p => Kept ok p.path && !p.tree.item.isNothing)
              (u.preorder false) ∧
            (u.branches.map Prod.fst).Nodup ∧
            ∀ b ∈ u.branches, s.store.nodes.size ≤ b.1.index ∧
              s.store.rows.size ≤ b.2.1.index) ∧
        ((∀ c ∈ calls, ¬ c.Fails) → ok [] = false → result = .ok t.item ∧ calls.length = 1) ∧
        ((∀ c ∈ calls, ¬ c.Fails) → t.item.isNothing = true → result = .ok t.item) := by
  obtain ⟨ok, s', hstore, hjudge, hreturn⟩ := exists_verdicts hlimit hmost hstand hrun hkeep
  -- a root that is refused, and one that is nothing, come to the same: nothing is kept
  have hrefused : (∀ c ∈ calls, ¬ c.Fails) → t.keptIn ok [] none = [] → result = .ok t.item := by
    intro hgo hkept
    obtain ⟨us, -, hr, hpruned⟩ := hreturn hgo
    rw [hr, hpruned.eq_nil_iff.mp hkept]
    rfl
  refine ⟨outcome_of_record (filter_alike (recorded_alike callback) limit most t.item) hrun, ?_,
    hjudge.failed, ok, hjudge.cut, hjudge.verdict, fun hgo hok hitem => ?_,
    fun hgo hok => ⟨?_, ?_⟩, fun hgo hitem => ?_⟩
  · rw [hstore]
    exact (hjudge.keeps hkeep).mono (fun _ => .inl) fun _ => .inl
  · obtain ⟨us, hone, hr, hpruned⟩ := hreturn hgo
    obtain ⟨below, hlisting⟩ := t.listing_first false [] none
    have hne : us ≠ [] := by
      rw [ne_eq, ← hpruned.eq_nil_iff, Tree.keptIn, hlisting,
        List.filter_cons_of_pos (by simp [hok, hitem])]
      exact List.cons_ne_nil _ _
    obtain ⟨u, rfl⟩ := List.length_eq_one_iff.mp
      (Nat.le_antisymm hone (List.length_pos_iff.mpr hne))
    have hu : u ∈ [u] := List.mem_singleton_self u
    refine ⟨u, hr, hpruned.stands u hu, ?_, ?_, fun b hb => ?_⟩
    · have hcopies := hpruned.copies (fun _ => []) none 0 fun _ => rfl
      rw [List.zipIdx_singleton, List.flatMap_singleton] at hcopies
      exact hcopies
    · have hnodup := hpruned.nodup
      rw [List.flatMap_singleton] at hnodup
      exact hnodup
    · exact ⟨(hpruned.new u hu b hb).1, (hpruned.new u hu b hb).2.2⟩
  · exact hrefused hgo (Tree.keptIn_of_refused hok t)
  · have hlength := congrArg List.length (hjudge.cut.whole hgo)
    rw [Tree.reachedIn_of_refused hok, List.length_map] at hlength
    exact hlength
  · exact hrefused hgo (keptIn_of_isNothing ok hitem)

end Root

/-- The third call refuses a leaf, and what is left are two copies and the other leaf. -/
theorem filter_prunes_sample :
    let callback := counting fun k _ => .ok (.plain (.bool (k != 2)))
    ∃ result final calls, record (filter 3 3 Tree.sample.item (recorded callback))
        ⟨Store.sample, [], 0⟩ = (result, final, calls) ∧
      (∀ c ∈ calls, ¬ c.Fails ∧ c.Keeps (fun _ => True) (fun _ => True)) ∧
      Store.sample.Keeps (· ∈ Tree.sample.ids) (· ∈ Tree.sample.rows) final.store ∧
      ∃ ok : List Nat → Bool, calls.map Call.place =
        ((Tree.sample.preorder false).filter fun p => Reached ok p.path).map Spot.place := by
  intro callback
  have hcalls := forall_mem_of_record (P := fun c => ¬ c.Fails ∧
      c.Keeps (fun _ => True) (fun _ => True)) callback
    (fun R h => ⟨_, filter_alike h 3 3 Tree.sample.item⟩)
    (fun place s => ⟨Call.not_fails_iff.mpr ⟨_, rfl⟩, .refl _⟩) ⟨Store.sample, [], 0⟩
  -- the run stays a variable: what is known of every call is enough
  rcases hrun : record (filter 3 3 Tree.sample.item (recorded callback))
    ⟨Store.sample, [], 0⟩ with ⟨result, final, calls⟩
  rw [hrun] at hcalls
  obtain ⟨-, hkeep, -, ok, hcut, -⟩ := filter_prunes (t := Tree.sample) (by decide)
    (by simp [Tree.sample, Tree.branches, Tree.branchesAll]) Tree.sample_standsIn hrun
    fun c hc => (hcalls c hc).2.mono (fun _ _ => trivial) fun _ _ => trivial
  exact ⟨result, final, calls, rfl, hcalls, hkeep, ok,
    hcut.whole fun c hc => (hcalls c hc).1⟩

end NotebookTree.Walk

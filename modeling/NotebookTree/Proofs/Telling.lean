import NotebookTree.Log
import NotebookTree.Proofs.Sequence

/-!
# Work that tells about itself

Work that is `Logged` adds entries and may end in a fault. None of it looks at what was told before,
so the entries of one part stand before those of the next, and what a part comes to can be said
without the parts before it. `OnlyTells` says so of a piece of work; it holds of all that is put
together from the pieces below, and lets a run be taken apart (`outcome_bind`,
`exists_of_outcome_bind`).
-/

namespace NotebookTree.Logged

variable {α β : Type} {w : Logged α} {f : α → Logged β}

/-- Work that adds entries to those that are there and does not look at them. -/
def OnlyTells (w : Logged α) : Prop :=
  ∀ before, StateT.run (ExceptT.run w) before = (w.outcome.1, before ++ w.outcome.2)

/-- Handing on a value adds nothing to what was told before. -/
theorem onlyTells_pure (a : α) : OnlyTells (pure a) := fun before => by
  rw [show (pure a : Logged α).outcome = (.ok a, []) from rfl, List.append_nil]
  rfl

/-- A lifted result adds nothing to what was told before. -/
theorem onlyTells_ofExcept (r : Except Fault α) : OnlyTells (ofExcept r) := fun before => by
  rw [show (ofExcept r).outcome = (r, []) from rfl, List.append_nil]
  rfl

theorem onlyTells_tell (e : Log.Entry) : OnlyTells (tell e) := fun _ => rfl

theorem ofExcept_ok_bind (a : α) (f : α → Logged β) : (ofExcept (.ok a) >>= f) = f a := rfl

/-- Work without entries hands on its result, if it has one. -/
theorem outcome_ofExcept_bind (r : Except Fault α) (f : α → Logged β) :
    (ofExcept r >>= f).outcome = match r with
      | .ok a => (f a).outcome
      | .error e => (.error e, []) := by
  cases r <;> rfl

/-- A value handed on is the result, and nothing is told. -/
theorem eq_of_outcome_pure {a b : α} {es : List Log.Entry}
    (h : (pure a : Logged α).outcome = (.ok b, es)) : b = a ∧ es = [] := by
  obtain ⟨hb, hes⟩ := Prod.mk.inj h
  exact ⟨(Except.ok.inj hb).symm, hes.symm⟩

/-- What tells once and hands on a value has that value for its result and told just that. -/
theorem eq_of_outcome_tell_pure {e : Log.Entry} {a b : α} {es : List Log.Entry}
    (h : (tell e >>= fun _ => (pure a : Logged α)).outcome = (.ok b, es)) : b = a ∧ es = [e] := by
  obtain ⟨hb, hes⟩ := Prod.mk.inj h
  exact ⟨(Except.ok.inj hb).symm, hes.symm⟩

/-- What work without entries is followed by has returned if all has. -/
theorem exists_of_outcome_ofExcept_bind {r : Except Fault α} {f : α → Logged β} {b : β}
    {es : List Log.Entry} (h : (ofExcept r >>= f).outcome = (.ok b, es)) :
    ∃ a, r = .ok a ∧ (f a).outcome = (.ok b, es) := by
  rw [outcome_ofExcept_bind] at h
  cases r with
  | ok a => exact ⟨a, rfl, h⟩
  | error e => cases (Prod.mk.inj h).1

/-- The entries of a part stand before those of the next part, which need not come to pass. -/
theorem outcome_bind (hf : ∀ a, OnlyTells (f a)) :
    (w >>= f).outcome = match w.outcome with
      | (.ok a, es) => ((f a).outcome.1, es ++ (f a).outcome.2)
      | (.error e, es) => (.error e, es) := by
  show StateT.run (ExceptT.run (w >>= f)) [] = _
  rw [ExceptT.run_bind, StateT.run_bind, outcome]
  rcases StateT.run (ExceptT.run w) [] with ⟨r, es⟩
  cases r with
  | ok a => exact hf a es
  | error e => rfl

/-- What parts come to, without what they tell. -/
theorem result_bind (hf : ∀ a, OnlyTells (f a)) :
    (w >>= f).outcome.1 = w.outcome.1 >>= fun a => (f a).outcome.1 := by
  rw [outcome_bind hf]
  rcases w.outcome with ⟨r, es⟩
  cases r <;> rfl

/-- A sequence only adds to what was told before when its two halves do. -/
theorem onlyTells_bind (hw : OnlyTells w) (hf : ∀ a, OnlyTells (f a)) : OnlyTells (w >>= f) := by
  intro before
  rw [outcome_bind hf, ExceptT.run_bind, StateT.run_bind, hw before]
  rcases w.outcome with ⟨r, es⟩
  cases r with
  | ok a =>
    refine (hf a (before ++ es)).trans ?_
    rw [List.append_assoc]
  | error e => rfl

/-- Work that returned was done part by part. -/
theorem exists_of_outcome_bind (hf : ∀ a, OnlyTells (f a)) {b : β} {es : List Log.Entry}
    (h : (w >>= f).outcome = (.ok b, es)) :
    ∃ a first rest, w.outcome = (.ok a, first) ∧ (f a).outcome = (.ok b, rest) ∧
      es = first ++ rest := by
  rw [outcome_bind hf] at h
  rcases hw : w.outcome with ⟨r, first⟩
  rw [hw] at h
  cases r with
  | ok a =>
    obtain ⟨hr, rfl⟩ := Prod.mk.inj h
    exact ⟨a, first, (f a).outcome.2, rfl, Prod.ext hr rfl, rfl⟩
  | error e => cases (Prod.mk.inj h).1

/-! ## Faults -/

variable {P : Fault → Prop} {p q : Prop}

/-- Work that ends in no other faults than those with a property. -/
def FaultsIn (P : Fault → Prop) (w : Logged α) : Prop :=
  ∀ before e after, StateT.run (ExceptT.run w) before = (.error e, after) → P e

/-- Handing on a value does not fail. -/
theorem faultsIn_pure (a : α) : FaultsIn P (pure a) := fun _ _ _ h => nomatch (Prod.mk.inj h).1

/-- Telling does not fail. -/
theorem faultsIn_tell (e : Log.Entry) : FaultsIn P (tell e) :=
  fun _ _ _ h => nomatch (Prod.mk.inj h).1

/-- A lifted result fails in the ways the result does. -/
theorem faultsIn_ofExcept {r : Except Fault α} (h : ∀ e, r = .error e → P e) :
    FaultsIn P (ofExcept r) := by
  intro before e after hrun
  exact h e (Prod.mk.inj hrun).1

/-- A sequence fails in the ways its two halves do. -/
theorem faultsIn_bind (hw : FaultsIn P w) (hf : ∀ a, FaultsIn P (f a)) :
    FaultsIn P (w >>= f) := by
  intro before e after hrun
  rw [ExceptT.run_bind, StateT.run_bind] at hrun
  rcases hfirst : StateT.run (ExceptT.run w) before with ⟨r, told⟩
  rw [hfirst] at hrun
  cases r with
  | ok a => exact hf a told e after hrun
  | error e' =>
    obtain rfl : e' = e := Except.error.inj (Prod.mk.inj hrun).1
    exact hw before e' told hfirst

/-- Work that returns only if something holds, and fails in no other faults than those with a
property. -/
structure EndsIn (p : Prop) (P : Fault → Prop) (w : Logged α) : Prop where
  returns : ∀ before a after, StateT.run (ExceptT.run w) before = (.ok a, after) → p
  faults : FaultsIn P w

/-- Handing on a value ends where the condition holds. -/
theorem endsIn_pure (h : p) (a : α) : EndsIn p P (pure a) := ⟨fun _ _ _ _ => h, faultsIn_pure a⟩

/-- Telling ends where the condition holds. -/
theorem endsIn_tell (h : p) (e : Log.Entry) : EndsIn p P (tell e) :=
  ⟨fun _ _ _ _ => h, faultsIn_tell e⟩

/-- What ends in one condition ends in every weaker one, and fails in every wider set of ways. -/
theorem EndsIn.mono {Q : Fault → Prop} (h : EndsIn p P w) (hpq : p → q) (hPQ : ∀ e, P e → Q e) :
    EndsIn q Q w :=
  ⟨fun before a after hrun => hpq (h.returns before a after hrun),
    fun before e after hrun => hPQ e (h.faults before e after hrun)⟩

/-- What holds if the first part returns is known in the second. -/
theorem endsIn_bind (hw : EndsIn q P w) (hf : ∀ a, q → EndsIn p P (f a)) :
    EndsIn p P (w >>= f) := by
  -- a run of the sequence is a run of the first half, then of the second unless the first failed
  have hcases : ∀ before, ∃ r told, StateT.run (ExceptT.run w) before = (r, told) ∧
      StateT.run (ExceptT.run (w >>= f)) before = match r with
        | .ok a => StateT.run (ExceptT.run (f a)) told
        | .error e => (.error e, told) := by
    intro before
    rw [ExceptT.run_bind, StateT.run_bind]
    rcases StateT.run (ExceptT.run w) before with ⟨r, told⟩
    exact ⟨r, told, rfl, by cases r <;> rfl⟩
  constructor
  · intro before b after hrun
    obtain ⟨r, told, hfirst, hbind⟩ := hcases before
    rw [hbind] at hrun
    cases r with
    | ok a => exact (hf a (hw.returns before a told hfirst)).returns told b after hrun
    | error e => cases (Prod.mk.inj hrun).1
  · intro before e after hrun
    obtain ⟨r, told, hfirst, hbind⟩ := hcases before
    rw [hbind] at hrun
    cases r with
    | ok a => exact (hf a (hw.returns before a told hfirst)).faults told e after hrun
    | error e' =>
      obtain rfl : e' = e := Except.error.inj (Prod.mk.inj hrun).1
      exact hw.faults before e' told hfirst

/-- What work without entries comes to is known in the next part. -/
theorem endsIn_ofExcept_bind {r : Except Fault α} (hr : r.FaultsIn P)
    (hf : ∀ a, r = .ok a → EndsIn p P (f a)) : EndsIn p P (ofExcept r >>= f) := by
  cases r with
  | ok a => exact hf a rfl
  | error e =>
    refine ⟨fun _ _ _ hrun => ?_, fun _ e' _ hrun => ?_⟩
    · cases (Prod.mk.inj hrun).1
    · exact Except.error.inj (Prod.mk.inj hrun).1 ▸ hr e rfl

end NotebookTree.Logged

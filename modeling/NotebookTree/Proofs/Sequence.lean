/-!
# Parts that may fail, one after the other

Work that may fail is done part by part, or item by item along a list. It ends in a fault of one of
its parts, so what holds of the faults of all parts holds of those of the whole.

## Main definitions

* `Except.FaultsIn`: a result that is a fault only if that has a property.
-/

namespace Except

variable {ε α β γ : Type}

@[simp] theorem ok_bind (a : α) (f : α → Except ε β) : (Except.ok a >>= f) = f a := rfl

/-- A sequence has a result if its first part has one and the rest has one with it. -/
theorem bind_eq_ok {x : Except ε α} {f : α → Except ε β} {b : β} :
    x >>= f = .ok b ↔ ∃ a, x = .ok a ∧ f a = .ok b := by
  cases x with
  | ok a => exact ⟨fun h => ⟨a, rfl, h⟩, fun ⟨_, ha, h⟩ => Except.ok.inj ha ▸ h⟩
  | error e => exact ⟨fun h => (nomatch h), fun ⟨_, ha, _⟩ => (nomatch ha)⟩

/-- A sequence fails if its first part does, or the rest with the result of the first. -/
theorem bind_eq_error {x : Except ε α} {f : α → Except ε β} {e : ε} :
    x >>= f = .error e ↔ x = .error e ∨ ∃ a, x = .ok a ∧ f a = .error e := by
  cases x with
  | ok a => simp
  | error e' => simp [bind, Except.bind]

/-- A run through a list in which nothing fails. -/
theorem mapM_eq_map {g : α → Except ε β} {f : α → β} {as : List α} (h : ∀ a ∈ as, g a = .ok (f a)) :
    as.mapM g = .ok (as.map f) := by
  induction as with
  | nil => rfl
  | cons a as ih =>
    rw [List.mapM_cons, h a List.mem_cons_self, ok_bind,
      ih fun b hb => h b (List.mem_cons_of_mem _ hb)]
    rfl

/-- A run through a list that changes nothing. -/
theorem mapM_eq_self {g : α → Except ε α} {as : List α} (h : ∀ a ∈ as, g a = .ok a) :
    as.mapM g = .ok as := by
  rw [mapM_eq_map h, List.map_id']

/-- Runs through a list with the same steps. -/
theorem mapM_congr {g h : α → Except ε β} {as : List α} (heq : ∀ a ∈ as, g a = h a) :
    as.mapM g = as.mapM h := by
  induction as with
  | nil => rfl
  | cons a as ih =>
    rw [List.mapM_cons, List.mapM_cons, heq a List.mem_cons_self,
      ih fun b hb => heq b (List.mem_cons_of_mem _ hb)]

/-- A run through a list ends with results for all of it, or with the first fault. -/
theorem mapM_cases (g : α → Except ε β) (as : List α) :
    (∃ bs, as.mapM g = .ok bs ∧ ∀ a ∈ as, ∃ b, g a = .ok b) ∨
      ∃ before a after e, as = before ++ a :: after ∧ (∀ a ∈ before, ∃ b, g a = .ok b) ∧
        g a = .error e ∧ as.mapM g = .error e := by
  induction as with
  | nil => exact .inl ⟨[], rfl, List.forall_mem_nil _⟩
  | cons a as ih =>
    rw [List.mapM_cons]
    cases ha : g a with
    | error e => exact .inr ⟨[], a, as, e, rfl, List.forall_mem_nil _, ha, rfl⟩
    | ok b =>
      obtain ⟨bs, has, hall⟩ | ⟨before, c, after, e, rfl, hbefore, hc, has⟩ := ih
      · exact .inl ⟨b :: bs, by rw [has]; rfl, List.forall_mem_cons.mpr ⟨⟨b, ha⟩, hall⟩⟩
      · exact .inr ⟨a :: before, c, after, e, rfl, List.forall_mem_cons.mpr ⟨⟨b, ha⟩, hbefore⟩, hc,
          by rw [has]; rfl⟩

/-- In a run through a list that does not fail, no step does. -/
theorem exists_of_mapM {g : α → Except ε β} {as : List α} {bs : List β} (h : as.mapM g = .ok bs) :
    ∀ a ∈ as, ∃ b, g a = .ok b := by
  obtain ⟨-, -, hall⟩ | ⟨-, -, -, e, -, -, -, hfault⟩ := mapM_cases g as
  · exact hall
  · rw [h] at hfault
    cases hfault

/-- What each step keeps, a run through a list keeps. -/
theorem map_of_mapM {g : α → Except ε β} {p : α → γ} {q : β → γ}
    (h : ∀ a b, g a = .ok b → q b = p a) {as : List α} {bs : List β} (hrun : as.mapM g = .ok bs) :
    bs.map q = as.map p := by
  induction as generalizing bs with
  | nil =>
    obtain rfl := Except.ok.inj hrun
    rfl
  | cons a as ih =>
    rw [List.mapM_cons] at hrun
    obtain ⟨b, hb, hrest⟩ := bind_eq_ok.mp hrun
    obtain ⟨cs, hcs, hlast⟩ := bind_eq_ok.mp hrest
    obtain rfl := Except.ok.inj hlast
    rw [List.map_cons, List.map_cons, h a b hb, ih hcs]

/-- Work of whose result something is known has a result. -/
theorem exists_of_toOption_map {r : Except ε α × β} {f : α → γ} {c : γ}
    (h : r.1.toOption.map f = some c) : ∃ a b, r = (.ok a, b) ∧ f a = c := by
  obtain ⟨x, b⟩ := r
  cases x with
  | ok a => exact ⟨a, b, rfl, Option.some.inj h⟩
  | error e => cases h

/-! ## Faults -/

variable {P : ε → Prop}

/-- A result that is a fault only if that has a property. -/
def FaultsIn (P : ε → Prop) (x : Except ε α) : Prop := ∀ e, x = .error e → P e

/-- What returns does not fail at all. -/
theorem faultsIn_ok (a : α) : FaultsIn P (.ok a : Except ε α) := fun _ h => nomatch h

/-- A failure is of the kind when its fault is. -/
theorem faultsIn_error {e : ε} (h : P e) : FaultsIn P (.error e : Except ε α) :=
  fun _ he => Except.error.inj he ▸ h

/-- A sequence fails in the ways its two halves do. -/
theorem faultsIn_bind {x : Except ε α} {f : α → Except ε β} (hx : FaultsIn P x)
    (hf : ∀ a, FaultsIn P (f a)) : FaultsIn P (x >>= f) := by
  intro e he
  rcases bind_eq_error.mp he with he | ⟨a, -, he⟩
  · exact hx e he
  · exact hf a e he

/-- Doing something for each item fails in the ways that it does for one. -/
theorem faultsIn_mapM {f : α → Except ε β} (hf : ∀ a, FaultsIn P (f a)) (as : List α) :
    FaultsIn P (as.mapM f) := by
  induction as with
  | nil => exact faultsIn_ok []
  | cons a as ih =>
    rw [List.mapM_cons]
    exact faultsIn_bind (hf a) fun _ => faultsIn_bind ih fun _ => faultsIn_ok _

/-- Choosing among the items fails in the ways that asking about one does. -/
theorem faultsIn_filterMapM {f : α → Except ε (Option β)} (hf : ∀ a, FaultsIn P (f a))
    (as : List α) : FaultsIn P (as.filterMapM f) := by
  induction as with
  | nil => exact faultsIn_ok []
  | cons a as ih =>
    rw [List.filterMapM_cons]
    refine faultsIn_bind (hf a) fun b? => ?_
    cases b? with
    | none => exact ih
    | some b => exact faultsIn_bind ih fun _ => faultsIn_ok _

end Except

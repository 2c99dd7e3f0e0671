import NotebookTree.Proofs.Misuse
import NotebookTree.Proofs.Walk.Outcome
import NotebookTree.Walk.CellRule

/-!
# What walks change, and how they fail

The tests by which cells are told apart look at the store and change nothing in it, whatever they
find there. If they fail, it is because some value is not what it was taken for.

## Main definitions

* `Walk.Peeks`: a walk changes nothing, and fails in misuse only.
* `Walk.FaultsIn`: a walk fails in no other faults than those with a property.

## Main statements

* `peeks_hasContent`, `peeks_isTagged`: the tests peek.
-/

namespace NotebookTree

/-- Misuse, or a tree that goes too deep. -/
def Fault.IsWalkFault (f : Fault) : Prop := f.IsMisuse ∨ f = .tooDeep

namespace Walk

variable {σ α β : Type} {P : Fault → Prop}

/-- Work that returned was done part by part. -/
theorem exists_of_outcome_bind_ok {w : Walk σ α} {f : α → Walk σ β} {s last : Scene σ} {b : β}
    (h : outcome (w >>= f) s = (.ok b, last)) :
    ∃ a next, outcome w s = (.ok a, next) ∧ outcome (f a) next = (.ok b, last) := by
  rw [outcome_bind] at h
  rcases hw : outcome w s with ⟨r, next⟩
  rw [hw] at h
  cases r with
  | ok a => exact ⟨a, next, rfl, h⟩
  | error e => cases (Prod.mk.inj h).1

/-! ## Faults -/

/-- A walk that ends in no other faults than those with a property. -/
def FaultsIn (P : Fault → Prop) (w : Walk σ α) : Prop := ∀ s, (outcome w s).1.FaultsIn P

/-- Handing on a value does not fail. -/
theorem faultsIn_pure (a : α) : FaultsIn P (pure a : Walk σ α) := fun _ => Except.faultsIn_ok a

/-- A fault is of the kind when it is. -/
theorem faultsIn_throw {f : Fault} (h : P f) : FaultsIn P (throw f : Walk σ α) :=
  fun _ => Except.faultsIn_error h

/-- A lifted result fails in the ways the result does. -/
theorem faultsIn_ofExcept {r : Except Fault α} (h : r.FaultsIn P) :
    FaultsIn P (ofExcept r : Walk σ α) := fun _ => h

/-- Looking at the store does not fail. -/
theorem faultsIn_getStore : FaultsIn P (getStore : Walk σ Store) := fun _ => Except.faultsIn_ok _

/-- Changing the store does not fail. -/
theorem faultsIn_changeStore (change : Store → α × Store) :
    FaultsIn P (changeStore change : Walk σ α) := fun _ => Except.faultsIn_ok _

/-- Telling does not fail. -/
theorem faultsIn_tell (e : Log.Entry) : FaultsIn P (tell e : Walk σ Unit) :=
  fun _ => Except.faultsIn_ok _

/-- A sequence fails in the ways its two halves do. -/
theorem faultsIn_bind {w : Walk σ α} {f : α → Walk σ β} (hw : FaultsIn P w)
    (hf : ∀ a, FaultsIn P (f a)) : FaultsIn P (w >>= f) := by
  intro s
  rw [outcome_bind]
  rcases hrun : outcome w s with ⟨r, next⟩
  cases r with
  | ok a => exact hf a next
  | error e => exact Except.faultsIn_error (hw s e (by rw [hrun]))

/-- What fails in some ways fails in more ways. -/
theorem FaultsIn.mono {Q : Fault → Prop} {w : Walk σ α} (h : FaultsIn P w)
    (hPQ : ∀ f, P f → Q f) : FaultsIn Q w := fun s e he => hPQ e (h s e he)

/-- Doing something for each item fails in the ways that it does for one. -/
theorem faultsIn_mapM {f : α → Walk σ β} (hf : ∀ a, FaultsIn P (f a)) (as : List α) :
    FaultsIn P (as.mapM f) := by
  induction as with
  | nil => exact faultsIn_pure []
  | cons a as ih =>
    rw [List.mapM_cons]
    exact faultsIn_bind (hf a) fun _ => faultsIn_bind ih fun _ => faultsIn_pure _

/-- So it does when nothing is returned. -/
theorem faultsIn_forM {f : α → Walk σ Unit} (hf : ∀ a, FaultsIn P (f a)) (as : List α) :
    FaultsIn P (as.forM f) := by
  induction as with
  | nil => exact faultsIn_pure ()
  | cons a as ih => exact faultsIn_bind (hf a) fun _ => ih

/-! ## Looking -/

/-- A walk that changes nothing, and fails only if a value is not what it was taken for. -/
structure Peeks (w : Walk σ α) : Prop where
  stays : ∀ s, (outcome w s).2 = s
  faults : FaultsIn Fault.IsMisuse w

/-- Handing on a value is only a look. -/
theorem peeks_pure (a : α) : Peeks (pure a : Walk σ α) := ⟨fun _ => rfl, faultsIn_pure a⟩

/-- Failing as misuse is only a look. -/
theorem peeks_throw {f : Fault} (h : f.IsMisuse) : Peeks (throw f : Walk σ α) :=
  ⟨fun _ => rfl, faultsIn_throw h⟩

/-- A lifted result that fails as misuse alone is only a look. -/
theorem peeks_ofExcept {r : Except Fault α} (h : r.FaultsIn Fault.IsMisuse) :
    Peeks (ofExcept r : Walk σ α) := ⟨fun _ => rfl, faultsIn_ofExcept h⟩

/-- Looking at the store is only a look. -/
theorem peeks_getStore : Peeks (getStore : Walk σ Store) := ⟨fun _ => rfl, faultsIn_getStore⟩

/-- Two looks are a look. -/
theorem peeks_bind {w : Walk σ α} {f : α → Walk σ β} (hw : Peeks w) (hf : ∀ a, Peeks (f a)) :
    Peeks (w >>= f) := by
  refine ⟨fun s => ?_, faultsIn_bind hw.faults fun a => (hf a).faults⟩
  have hnext := hw.stays s
  rw [outcome_bind]
  rcases hrun : outcome w s with ⟨r, next⟩
  rw [hrun] at hnext
  obtain rfl : next = s := hnext
  cases r with
  | ok a => exact (hf a).stays next
  | error e => rfl

/-- A walk that peeks and returns leaves the scene as it is. -/
theorem Peeks.eq_of_outcome {w : Walk σ α} (h : Peeks w) {s next : Scene σ}
    {r : Except Fault α} (hrun : outcome w s = (r, next)) : next = s := by
  rw [← h.stays s, hrun]

section Tests

variable (i : Item)

/-- Reading a field is only a look. -/
theorem peeks_fieldOf (name : String) : Peeks (fieldOf i name : Walk σ Item) := by
  refine peeks_bind peeks_getStore fun s => ?_
  split
  · exact peeks_pure _
  · exact peeks_throw (Value.misuse_lacks _ name)

/-- Going through an item is only a look. -/
theorem peeks_itemsOf : Peeks (itemsOf i : Walk σ (List Item)) := by
  cases i with
  | plain v => exact peeks_bind (peeks_ofExcept (Value.misuse_items v)) fun _ => peeks_pure _
  | node => exact peeks_throw trivial
  | row | fixedRow => exact peeks_bind peeks_getStore fun _ => peeks_pure _

/-- Taking the first part of an item is only a look. -/
theorem peeks_firstOf : Peeks (firstOf i : Walk σ Item) := by
  cases i with
  | node | row | fixedRow =>
    refine peeks_bind (peeks_itemsOf _) fun items => ?_
    cases items with
    | nil => exact peeks_throw trivial
    | cons x _ => exact peeks_pure x
  -- a text has a first character, a record no first part, and anything else its first item
  | plain v =>
    refine peeks_bind (peeks_ofExcept ?_) fun _ => peeks_pure _
    cases v with
    | text s =>
      dsimp only
      split
      · exact Except.faultsIn_ok _
      · exact Except.faultsIn_error trivial
    | record => exact Except.faultsIn_error trivial
    | _ =>
      refine Except.faultsIn_bind (Value.misuse_items _) fun xs => ?_
      cases xs with
      | nil => exact Except.faultsIn_error trivial
      | cons x _ => exact Except.faultsIn_ok x

/-- Asking whether an item has text is only a look. -/
theorem peeks_hasText : Peeks (hasText i : Walk σ Bool) := by
  refine peeks_bind (peeks_fieldOf i "value") fun v => peeks_bind peeks_getStore fun s => ?_
  split
  · exact peeks_pure _
  · exact peeks_throw (Value.misuse_lacks _ _)

/-- Looking whether a cell has content changes nothing. -/
theorem peeks_hasContent : Peeks (hasContent i : Walk σ Bool) := by
  refine peeks_bind peeks_getStore fun s => ?_
  split
  · refine peeks_bind (peeks_fieldOf i "children") fun children => ?_
    split
    · exact peeks_pure _
    · exact peeks_bind (peeks_firstOf children) peeks_hasText
  split
  · refine peeks_bind (peeks_fieldOf i "children") fun children => ?_
    split
    · exact peeks_pure _
    refine peeks_bind (peeks_firstOf children) fun content => ?_
    split
    · exact peeks_hasText content
    refine peeks_bind (peeks_fieldOf content "children") fun blocks => ?_
    split
    · exact peeks_pure _
    · exact peeks_bind (peeks_itemsOf blocks) fun _ => peeks_pure _
  · exact peeks_pure _

/-- Taking the tags of a cell is only a look. -/
theorem peeks_cellTags : Peeks (cellTags i : Walk σ (List Value)) := by
  refine peeks_bind peeks_getStore fun s => ?_
  dsimp only
  split
  · exact peeks_pure _
  split
  · split
    · exact peeks_pure _
    · exact peeks_ofExcept (Value.misuse_items _)
  · exact peeks_throw (Value.misuse_lacks _ _)

/-- Looking for some names among the tags fails as misuse alone. -/
theorem misuse_someAmong (tags : List Value) : ∀ vs found : List Value,
    (someAmong tags found vs).FaultsIn Fault.IsMisuse
  | [], _ => Except.faultsIn_ok _
  | v :: vs, found => by
    rw [someAmong]
    split
    · exact Except.faultsIn_error trivial
    split
    · dsimp only
      split
      · exact Except.faultsIn_ok _
      · exact misuse_someAmong tags vs _
    · exact misuse_someAmong tags vs found

/-- Looking whether a cell has one of some tags changes nothing. -/
theorem peeks_isTagged (tags : List Value) : Peeks (isTagged tags i : Walk σ Bool) :=
  peeks_bind (peeks_cellTags i) fun vs => peeks_ofExcept (misuse_someAmong tags vs [])

/-- A filter by a test that peeks does, too. -/
theorem peeks_filterM {test : Item → Walk σ Bool} (h : ∀ i, Peeks (test i)) (items : List Item) :
    Peeks (items.filterM test) := by
  have hloop : ∀ rest done : List Item, Peeks (List.filterAuxM test rest done) := by
    intro rest
    induction rest with
    | nil => exact peeks_pure
    | cons i rest ih =>
      intro done
      rw [List.filterAuxM]
      exact peeks_bind (h i) fun _ => ih _
  exact peeks_bind (hloop items []) fun _ => peeks_pure _

/-- What is left of items by a test is some of them. -/
theorem subset_of_outcome_filterM {test : Item → Walk σ Bool} {items kept : List Item}
    {s next : Scene σ} (hrun : outcome (items.filterM test) s = (.ok kept, next)) :
    kept ⊆ items := by
  -- the loop keeps what it has kept, latest first, and adds only items that are to come
  have hloop : ∀ (rest done kept : List Item) (s next : Scene σ),
      outcome (List.filterAuxM test rest done) s = (.ok kept, next) →
        ∀ i ∈ kept, i ∈ rest ∨ i ∈ done := by
    intro rest
    induction rest with
    | nil =>
      intro done kept s next h i hi
      obtain rfl := Except.ok.inj (Prod.mk.inj h).1
      exact .inr hi
    | cons c rest ih =>
      intro done kept s next h i hi
      rw [List.filterAuxM] at h
      obtain ⟨b, mid, -, h⟩ := exists_of_outcome_bind_ok h
      rcases ih _ kept mid next h i hi with hrest | hdone
      · exact .inl (List.mem_cons_of_mem c hrest)
      · cases b with
        | false => exact .inr hdone
        | true =>
          rcases List.mem_cons.mp hdone with rfl | hdone
          · exact .inl List.mem_cons_self
          · exact .inr hdone
  rw [List.filterM] at hrun
  obtain ⟨reversed, mid, hreversed, hrun⟩ := exists_of_outcome_bind_ok hrun
  obtain rfl := Except.ok.inj (Prod.mk.inj hrun).1
  intro i hi
  rcases hloop items [] reversed s mid hreversed i (List.mem_reverse.mp hi) with h | h
  · exact h
  · cases h

end Tests

end Walk

end NotebookTree

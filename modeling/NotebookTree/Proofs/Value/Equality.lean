import Mathlib.Data.List.Perm.Subperm
import NotebookTree.Proofs.Entries

/-!
# Equality of records and nodes

Records are equal in any order of their entries, and nodes by their declared fields. Both come to
what is found under each name.

## Main definitions

* `Value.EqualOrAbsent`: equal values, or none in both places.

## Main results

* `Entries.forall_lookup_iff`: entries that each have one related to them in another record.
* `record_equals_iff`: records are equal if the same is found in them under each name.
-/

namespace NotebookTree

open Entries

/-! ## Names and what stands under them -/

namespace Entries

variable {α : Type} {R : α → α → Prop} {es fs : Entries α}

/-- Of two related values that may be missing both are there or neither is. -/
theorem isSome_eq_of_rel {o o' : Option α} (h : Option.Rel R o o') : o.isSome = o'.isSome := by
  cases h <;> rfl

/-- A name is among the names of a record when something is found under it. -/
theorem mem_names_iff {name : String} :
    name ∈ es.map Prod.fst ↔ (es.lookup name).isSome = true := by
  rw [List.lookup_isSome_iff, List.mem_map]
  exact exists_congr fun e => and_congr_right fun _ => by rw [beq_iff_eq, eq_comm]

/-- What stands under each name in the first is related to what stands under it in the second. -/
theorem forall_lookup_iff (hes : (es.map Prod.fst).Nodup)
    (hnames : ∀ name ∈ fs.map Prod.fst, name ∈ es.map Prod.fst) :
    (∀ e ∈ es, ∃ w, fs.lookup e.1 = some w ∧ R e.2 w) ↔
      ∀ name, Option.Rel R (es.lookup name) (fs.lookup name) := by
  constructor
  · intro h name
    cases hv : es.lookup name with
    | some v =>
      obtain ⟨w, hw, hR⟩ := h _ (mem_of_lookup hv)
      rw [hw]
      exact .some hR
    | none =>
      -- a name that the first record lacks is no name of the second either
      have hnotMem : name ∉ es.map Prod.fst := by simp [mem_names_iff, hv]
      rw [lookup_eq_none_of_notMem (mt (hnames name) hnotMem)]
      exact .none
  · intro h e he
    have hrel := h e.1
    rw [lookup_of_mem hes he] at hrel
    generalize fs.lookup e.1 = o at hrel
    cases hrel with
    | some hR => exact ⟨_, rfl, hR⟩

/-- Entries with what is related under each name have the same names. -/
theorem mem_names_congr (h : ∀ name, Option.Rel R (es.lookup name) (fs.lookup name))
    (name : String) : name ∈ es.map Prod.fst ↔ name ∈ fs.map Prod.fst := by
  rw [mem_names_iff, mem_names_iff, isSome_eq_of_rel (h name)]

end Entries

namespace Value

/-! ## Equality of records and nodes -/

/-- Equal values, or none in both places. -/
abbrev EqualOrAbsent : Option Value → Option Value → Prop :=
  Option.Rel fun v w => v.equals w = true

section

variable {es fs : Entries Value}

/-- Each entry of the first record is found, with an equal value, in the second. -/
theorem equalsEntries_iff : equalsEntries es fs = true ↔
    ∀ e ∈ es, ∃ w, fs.lookup e.1 = some w ∧ e.2.equals w = true := by
  induction es with
  | nil => simp [equalsEntries]
  | cons e es ih =>
    rw [equalsEntries, Bool.and_eq_true, ih, List.forall_mem_cons]
    refine and_congr_left fun _ => ?_
    cases fs.lookup e.1 with
    | none => simp
    | some w => simp

/-- Among fields that are all declared, each has an equal one. -/
theorem equalsFields_iff {names : List String} (hes : ∀ e ∈ es, e.1 ∈ names) :
    equalsFields names es fs = true ↔
      ∀ e ∈ es, ∃ w, fs.lookup e.1 = some w ∧ e.2.equals w = true := by
  induction es with
  | nil => simp [equalsFields]
  | cons e es ih =>
    obtain ⟨he, hes⟩ := List.forall_mem_cons.mp hes
    rw [equalsFields, Bool.and_eq_true, ih hes, List.forall_mem_cons,
      List.contains_iff_mem.mpr he]
    refine and_congr_left fun _ => ?_
    cases fs.lookup e.1 with
    | none => simp
    | some w => simp

/-- Records are equal if what is found in them is, under each name. -/
theorem record_equals_iff (hes : (es.map Prod.fst).Nodup) (hfs : (fs.map Prod.fst).Nodup) :
    (record es).equals (record fs) = true ↔
      ∀ name, EqualOrAbsent (es.lookup name) (fs.lookup name) := by
  rw [equals, Bool.and_eq_true, beq_iff_eq, equalsEntries_iff]
  constructor
  · rintro ⟨hlength, h⟩
    have hsub : es.map Prod.fst ⊆ fs.map Prod.fst := fun name hname => by
      obtain ⟨e, he, rfl⟩ := List.mem_map.mp hname
      obtain ⟨w, hw, -⟩ := h e he
      rw [mem_names_iff, hw, Option.isSome_some]
    -- as many names, all of which are there: there are no others
    have hperm : (es.map Prod.fst).Perm (fs.map Prod.fst) :=
      (List.subperm_of_subset hes hsub).perm_of_length_le (by simp [hlength])
    exact (forall_lookup_iff hes fun _ => hperm.mem_iff.mpr).mp h
  · intro h
    have hmem := mem_names_congr h
    have hperm := (List.perm_ext_iff_of_nodup hes hfs).mpr hmem
    refine ⟨by simpa using hperm.length_eq, ?_⟩
    exact (forall_lookup_iff hes fun name => (hmem name).mpr).mpr h

end

/-- Null equals nothing else. -/
theorem null_equals_iff {v : Value} : null.equals v = true ↔ v = null := by
  cases v <;> simp [equals, equalsScalar, integer?]

/-- Only null equals null. -/
theorem equals_null_iff {v : Value} : v.equals null = true ↔ v = null := by
  cases v <;> simp [equals, equalsScalar, integer?]

end Value

end NotebookTree

import NotebookTree.Value

/-!
# Entries

Setting an entry changes that entry and no other.
-/

namespace NotebookTree.Entries

variable {α : Type} (es : Entries α) (name : String) (v : α)

/-- A name that is new is found at the end, where it is put. -/
theorem lookup_append_of_not_has {es : Entries α} (h : es.has name = false) :
    List.lookup name (es ++ [(name, v)]) = some v := by
  induction es with
  | nil => simp
  | cons e es ih =>
    obtain ⟨k, w⟩ := e
    have hk : k ≠ name ∧ has es name = false := by simpa [has] using h
    have hne : (name == k) = false := by simpa using fun h => hk.1 h.symm
    rw [List.cons_append, List.lookup_cons, hne]
    exact ih hk.2

/-- A name that is there is found where it stands, with the value that replaces its own. -/
theorem lookup_map_of_has {es : Entries α} (h : es.has name = true) :
    List.lookup name (es.map fun e => if e.1 == name then (name, v) else e) = some v := by
  induction es with
  | nil => simp [has] at h
  | cons e es ih =>
    obtain ⟨k, w⟩ := e
    by_cases hk : k = name
    · simp [hk]
    · have hne : (name == k) = false := by simpa using fun h => hk h.symm
      have hes : has es name = true := by simpa [has, hk] using h
      rw [List.map_cons, if_neg (by simpa using hk), List.lookup_cons, hne]
      exact ih hes

/-- What is put under a name is found under it. -/
@[simp] theorem lookup_put_self : (es.put name v).lookup name = some v := by
  rw [put]
  split
  · rename_i h
    exact lookup_map_of_has name v h
  · rename_i h
    exact lookup_append_of_not_has name v (by simpa using h)

/-- Replacing the value of a name changes nothing among the names that a test keeps, when the test
drops that name. -/
theorem filter_map_put {p : String → Bool} (h : p name = false) :
    (es.map fun e => if e.1 == name then (name, v) else e).filter (fun e => p e.1) =
      es.filter fun e => p e.1 := by
  induction es with
  | nil => rfl
  | cons e es ih =>
    rw [List.map_cons, List.filter_cons, List.filter_cons, ih]
    by_cases he : e.1 = name <;> simp [he, h]

/-- What is kept of entries is the same after one is set that is not kept. -/
theorem filter_put {p : String → Bool} (h : p name = false) :
    (es.put name v).filter (fun e => p e.1) = es.filter fun e => p e.1 := by
  rw [put]
  split
  · exact filter_map_put es name v h
  · simp [h]

/-- What is put under a name goes with the name. -/
@[simp] theorem erase_put_self : (es.put name v).erase name = es.erase name :=
  filter_put es name v (p := fun other => other != name) (bne_self_eq_false name)

section

variable {es more : Entries α} {name other : String}

/-- Replacing the value of one name leaves what is found under another. -/
theorem lookup_map_of_ne (h : name ≠ other) : List.lookup name
    (es.map fun e => if e.1 == other then (other, v) else e) = List.lookup name es := by
  have hother : (name == other) = false := by simpa using h
  induction es with
  | nil => rfl
  | cons e es ih =>
    obtain ⟨k, w⟩ := e
    rw [List.map_cons]
    by_cases hk : k = other
    · rw [if_pos (by simpa using hk), hk, List.lookup_cons, List.lookup_cons, hother]
      exact ih
    · rw [if_neg (by simpa using hk), List.lookup_cons, List.lookup_cons, ih]

/-- An entry of another name stays. -/
theorem lookup_put_of_ne (h : name ≠ other) : (es.put other v).lookup name = es.lookup name := by
  have hother : (name == other) = false := by simpa using h
  rw [put]
  split
  · exact lookup_map_of_ne v h
  · rw [List.lookup_append, List.lookup_cons, hother, List.lookup_nil, Option.or_none]

/-- Putting many entries leaves what is found under a name that none of them has. -/
theorem lookup_putAll_of_notMem (h : ∀ e ∈ more, e.1 ≠ name) :
    (es.putAll more).lookup name = es.lookup name := by
  induction more generalizing es with
  | nil => rfl
  | cons e more ih =>
    rw [putAll, List.foldl_cons, ← putAll, ih fun e he => h e (List.mem_cons_of_mem _ he),
      lookup_put_of_ne e.2 (h e List.mem_cons_self).symm]

/-- An entry in front is not found under another name. -/
theorem lookup_cons_of_ne {e : String × α} (h : name ≠ e.1) :
    List.lookup name (e :: es) = es.lookup name := by
  rw [List.lookup_cons, show (name == e.1) = false by simpa using h]

/-- Nothing is found under a name that is not among the names. -/
theorem lookup_eq_none_of_notMem (h : name ∉ es.map Prod.fst) : es.lookup name = none := by
  refine List.lookup_eq_none_iff.mpr fun e he => ?_
  have hne : name ≠ e.1 := fun heq => h (by rw [heq]; exact List.mem_map_of_mem he)
  simpa using hne

/-- Of entries with names of their own, each is set. -/
theorem lookup_putAll_of_nodup (h : (more.map Prod.fst).Nodup) :
    (es.putAll more).lookup name = (more.lookup name).or (es.lookup name) := by
  induction more generalizing es with
  | nil => rfl
  | cons e more ih =>
    obtain ⟨hnotMem, hnodup⟩ := List.nodup_cons.mp h
    rw [putAll, List.foldl_cons, ← putAll, ih hnodup]
    by_cases hname : name = e.1
    · rw [hname, lookup_put_self, lookup_eq_none_of_notMem hnotMem, Option.none_or,
        List.lookup_cons, beq_self_eq_true]
      rfl
    · rw [lookup_put_of_ne e.2 hname, lookup_cons_of_ne hname]

/-- Dropping names by a test leaves what is found under a name that the test keeps. -/
theorem lookup_filter {p : String → Bool} (h : p name = true) :
    (es.filter fun e => p e.1).lookup name = es.lookup name := by
  induction es with
  | nil => rfl
  | cons e es ih =>
    rw [List.filter_cons]
    by_cases hname : name = e.1
    · rw [if_pos (hname ▸ h), List.lookup_cons, List.lookup_cons, ← hname, beq_self_eq_true]
    · rw [lookup_cons_of_ne hname, ← ih]
      split
      · exact lookup_cons_of_ne hname
      · rfl

/-- A name is there when something is found under it. -/
theorem has_eq_isSome_lookup : es.has name = (es.lookup name).isSome := by
  induction es with
  | nil => rfl
  | cons e es ih =>
    obtain ⟨k, w⟩ := e
    rw [has, List.any_cons, List.lookup_cons, ← has, ih]
    by_cases hk : k = name
    · simp [hk]
    · have hne : (name == k) = false := by simpa using fun h => hk h.symm
      simp [hk, hne]

/-- Taking out a name that is not there changes nothing. -/
theorem erase_of_not_has (h : es.has name = false) : es.erase name = es := by
  refine List.filter_eq_self.mpr fun e he => ?_
  have hany := List.any_eq_false.mp h e he
  simpa using hany

/-- Replacing the value of a name that is not there changes nothing. -/
theorem map_put_of_not_has (h : es.has name = false) :
    es.map (fun e => if e.1 == name then (name, v) else e) = es := by
  refine (List.map_congr_left fun e he => if_neg ?_).trans es.map_id
  simpa using List.any_eq_false.mp h e he

/-- A name is there once something is put under it. -/
theorem has_put_self : (es.put name v).has name = true := by
  rw [has_eq_isSome_lookup, lookup_put_self]
  rfl

/-- Of two values that are set one after the other, the second stays. -/
theorem put_put (w : α) : (es.put name v).put name w = es.put name w := by
  have hfirst : (es.put name v).put name w =
      (es.put name v).map fun e => if e.1 == name then (name, w) else e := by
    rw [put, if_pos (has_put_self v)]
  rw [hfirst, put, put]
  split
  · rw [List.map_map]
    refine List.map_congr_left fun e _ => ?_
    by_cases he : e.1 = name <;> simp [he]
  · rename_i h
    rw [List.map_append, map_put_of_not_has w (by simpa using h), List.map_singleton,
      if_pos (beq_self_eq_true name)]

/-- Setting an entry changes it in its place. -/
theorem put_between {before after : Entries α} (hb : before.has name = false)
    (ha : after.has name = false) (w : α) :
    Entries.put (before ++ (name, w) :: after) name v = before ++ (name, v) :: after := by
  rw [put, if_pos (by simp [has]), List.map_append, List.map_cons, if_pos (by simp),
    map_put_of_not_has v hb, map_put_of_not_has v ha]

/-- What is found under a name stands among the entries, with that name. -/
theorem mem_of_lookup {v : α} (h : es.lookup name = some v) : (name, v) ∈ es := by
  induction es with
  | nil => cases h
  | cons e es ih =>
    obtain ⟨k, w⟩ := e
    rw [List.lookup_cons] at h
    by_cases hk : name = k
    · subst hk
      rw [beq_self_eq_true] at h
      rw [Option.some.inj h]
      exact List.mem_cons_self
    · rw [show (name == k) = false by simpa using hk] at h
      exact List.mem_cons_of_mem _ (ih h)

/-- What stands among entries when one is set is that one, or another that was there. -/
theorem eq_or_mem_of_mem_put {v : α} {e : String × α} (h : e ∈ es.put name v) :
    e = (name, v) ∨ e ∈ es ∧ e.1 ≠ name := by
  rw [put] at h
  split at h
  · obtain ⟨old, hold, rfl⟩ := List.mem_map.mp h
    by_cases hname : old.1 = name
    · exact .inl (if_pos (by simpa using hname))
    · rw [if_neg (by simpa using hname)]
      exact .inr ⟨hold, hname⟩
  · rename_i hnew
    rcases List.mem_append.mp h with h | h
    · refine .inr ⟨h, fun hname => hnew ?_⟩
      exact List.any_eq_true.mpr ⟨e, h, by simpa using hname⟩
    · exact .inl (List.mem_singleton.mp h)

/-- What stands among entries with names of their own is found under its name. -/
theorem lookup_of_mem {e : String × α} (hnodup : (es.map Prod.fst).Nodup) (he : e ∈ es) :
    es.lookup e.1 = some e.2 := by
  induction es with
  | nil => cases he
  | cons f es ih =>
    obtain ⟨hnotMem, hnodup⟩ := List.nodup_cons.mp hnodup
    rcases List.mem_cons.mp he with rfl | he
    · rw [List.lookup_cons, beq_self_eq_true]
    · rw [lookup_cons_of_ne fun heq => hnotMem (heq ▸ List.mem_map_of_mem he), ih hnodup he]

/-- Nothing is found under a name that is not there. -/
theorem lookup_of_not_has (h : es.has name = false) : es.lookup name = none := by
  rwa [has_eq_isSome_lookup, Option.isSome_eq_false_iff, Option.isNone_iff_eq_none] at h

/-- The entry that stands between others. -/
theorem lookup_middle {before after : Entries α} (h : before.has name = false) (w : α) :
    List.lookup name (before ++ (name, w) :: after) = some w := by
  rw [List.lookup_append, lookup_of_not_has h, Option.none_or, List.lookup_cons, beq_self_eq_true]

/-- The other entries. -/
theorem lookup_between {before after : Entries α} (h : name ≠ other) (w : α) :
    List.lookup name (before ++ (other, w) :: after) = (before ++ after).lookup name := by
  have hname : (name == other) = false := by simpa using h
  rw [List.lookup_append, List.lookup_append, List.lookup_cons, hname]

/-- After a put each entry is an old one or the one that was put. -/
theorem mem_put {e : String × α} (h : e ∈ es.put name v) : e ∈ es ∨ e = (name, v) := by
  rw [put] at h
  split at h
  · obtain ⟨old, hold, rfl⟩ := List.mem_map.mp h
    split
    · exact .inr rfl
    · exact .inl hold
  · exact (List.mem_append.mp h).imp_right List.mem_singleton.mp

/-- Setting entries brings in no others. -/
theorem mem_putAll {e : String × α} (h : e ∈ es.putAll more) : e ∈ es ∨ e ∈ more := by
  induction more generalizing es with
  | nil => exact .inl h
  | cons first more ih =>
    rw [putAll, List.foldl_cons, ← putAll] at h
    obtain h | h := ih h
    · obtain h | rfl := mem_put first.2 h
      · exact .inl h
      · exact .inr List.mem_cons_self
    · exact .inr (List.mem_cons_of_mem _ h)

/-- What is found after a put, name by name. -/
theorem lookup_put (w : α) :
    (es.put other w).lookup name = if name = other then some w else es.lookup name := by
  split
  · rename_i h
    rw [h, lookup_put_self]
  · exact lookup_put_of_ne w ‹_›

/-- What is found in entries with one in front, name by name. -/
theorem lookup_cons_eq (e : String × α) :
    List.lookup name (e :: es) = if name = e.1 then some e.2 else es.lookup name := by
  split
  · rename_i h
    rw [List.lookup_cons, h, beq_self_eq_true]
  · exact lookup_cons_of_ne ‹_›

/-- The last of the values that are set for a name stays. -/
theorem lookup_putAll : (es.putAll more).lookup name =
    (more.reverse.lookup name).or (es.lookup name) := by
  induction more generalizing es with
  | nil => rfl
  | cons e more ih =>
    rw [putAll, List.foldl_cons, ← putAll, ih, List.reverse_cons, List.lookup_append,
      Option.or_assoc, lookup_put, lookup_cons_eq, List.lookup_nil]
    split <;> rfl

/-- Looking from the end sees a put as looking from the start does. -/
theorem reverse_lookup_put (w : α) : (es.put other w).reverse.lookup name =
    if name = other then some w else es.reverse.lookup name := by
  rw [put]
  split
  · rename_i h
    rw [← List.map_reverse]
    split
    · rename_i hname
      subst hname
      exact lookup_map_of_has name w (by simpa [has] using h)
    · exact lookup_map_of_ne w ‹_›
  · rw [List.reverse_append, List.reverse_singleton, List.singleton_append, lookup_cons_eq]

/-- Read from the end, what is set for a name is found before what was there. -/
theorem reverse_lookup_putAll : (es.putAll more).reverse.lookup name =
    (more.reverse.lookup name).or (es.reverse.lookup name) := by
  induction more generalizing es with
  | nil => rfl
  | cons e more ih =>
    rw [putAll, List.foldl_cons, ← putAll, ih, List.reverse_cons, List.lookup_append,
      Option.or_assoc, reverse_lookup_put, lookup_cons_eq, List.lookup_nil]
    split <;> rfl

/-- Some name passes a test after a put when one did before or the new one does. -/
theorem any_put (p : String → Bool) (w : α) : (es.put other w).any (fun e => p e.1) =
    (es.any (fun e => p e.1) || p other) := by
  rw [put]
  split
  · rename_i h
    have hmap : ∀ e : String × α,
        p (if e.1 == other then (other, w) else e).1 = p e.1 := fun e => by
      by_cases he : e.1 = other <;> simp [he]
    rw [List.any_map]
    simp only [Function.comp_def, hmap]
    obtain ⟨e, he, hname⟩ := List.any_eq_true.mp h
    cases hp : p other with
    | false => rw [Bool.or_false]
    | true =>
      rw [Bool.or_true, List.any_eq_true]
      exact ⟨e, he, by rw [beq_iff_eq.mp hname, hp]⟩
  · rw [List.any_append, List.any_cons, List.any_nil, Bool.or_false]

/-- The names after setting entries are those from before and those that are set. -/
theorem any_putAll (p : String → Bool) : (es.putAll more).any (fun e => p e.1) =
    (es.any (fun e => p e.1) || more.any fun e => p e.1) := by
  induction more generalizing es with
  | nil => rw [List.any_nil, Bool.or_false]; rfl
  | cons e more ih =>
    rw [putAll, List.foldl_cons, ← putAll, ih, any_put, List.any_cons, Bool.or_assoc]

/-- A name that is not there is not among the names. -/
theorem notMem_of_not_has (h : es.has name = false) : name ∉ es.map Prod.fst := by
  intro hmem
  obtain ⟨e, he, rfl⟩ := List.mem_map.mp hmem
  simpa using List.any_eq_false.mp h e he

/-- A name that is not among the names is not there. -/
theorem not_has_of_notMem (h : name ∉ es.map Prod.fst) : es.has name = false := by
  refine List.any_eq_false.mpr fun e he => ?_
  rw [beq_iff_eq]
  exact fun heq => h (heq ▸ List.mem_map_of_mem he)

/-- A put keeps the names in order, and adds a new one at the end. -/
theorem map_fst_put : (es.put name v).map Prod.fst =
    if es.has name then es.map Prod.fst else es.map Prod.fst ++ [name] := by
  rw [put]
  split
  · rw [List.map_map]
    refine List.map_congr_left fun e _ => ?_
    by_cases he : e.1 = name <;> simp [he]
  · rw [List.map_append, List.map_singleton]

/-- Names stay distinct when an entry is set. -/
theorem nodup_put (h : (es.map Prod.fst).Nodup) : ((es.put name v).map Prod.fst).Nodup := by
  rw [map_fst_put]
  split
  · exact h
  · rename_i hnew
    have hnotMem := notMem_of_not_has (by simpa using hnew)
    refine List.nodup_append.mpr ⟨h, by simp, fun a ha b hb => ?_⟩
    rw [List.mem_singleton.mp hb]
    exact fun heq => hnotMem (heq ▸ ha)

/-- Putting many entries keeps the names distinct. -/
theorem nodup_putAll (h : (es.map Prod.fst).Nodup) : ((es.putAll more).map Prod.fst).Nodup := by
  induction more generalizing es with
  | nil => exact h
  | cons e more ih =>
    rw [putAll, List.foldl_cons, ← putAll]
    exact ih (nodup_put e.2 h)

/-- Entries with names of their own come one behind the other. -/
theorem putAll_of_nodup (h : ((es ++ more).map Prod.fst).Nodup) : es.putAll more = es ++ more := by
  induction more generalizing es with
  | nil => rw [List.append_nil]; rfl
  | cons e more ih =>
    have hsplit : es ++ e :: more = es ++ [e] ++ more := by rw [List.append_assoc]; rfl
    rw [hsplit] at h ⊢
    have hnew : es.has e.1 = false := by
      rw [List.append_assoc, List.map_append, List.nodup_append] at h
      exact not_has_of_notMem fun hmem => h.2.2 _ hmem _ List.mem_cons_self rfl
    rw [putAll, List.foldl_cons, ← putAll, put, hnew, if_neg Bool.false_ne_true]
    exact ih h

end

end NotebookTree.Entries

/-- The fields of a kind have names of their own. -/
theorem NotebookTree.Kind.nodup_names (k : Kind) : (k.fields.map Prod.fst).Nodup := by
  cases k <;> decide

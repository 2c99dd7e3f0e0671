import NotebookTree.Mime.Payload
import NotebookTree.Proofs.Sequence

/-!
# The first of the greatest

A choice goes through a list once and holds on to what it has found. What it ends with is the first
of the items with the greatest weight: those in front of it weigh less, those behind it no more.

Of two items the second is kept only if it weighs more. That is associative, so a choice may be made
in parts, and then among what came of the parts.

## Main definitions

* `Mime.IsFirstGreatest`: an item that is so placed in a list.
* `Mime.heavier`: the item that is kept of two, which is associative.

## Main statements

* `firstGreatest_eq_some_iff`: the item that is chosen among several.
* `firstGreatest_append`: a choice in two parts.
* `choice_first_greatest`: the type that is chosen among several.
-/

namespace NotebookTree.Mime

variable {α : Type} {weight : α → Nat} {a b : α} {as : List α}

/-- An item of a list weighs more than those in front of it, and no less than those behind it. -/
def IsFirstGreatest (weight : α → Nat) (as : List α) (a : α) : Prop :=
  ∃ before after, as = before ++ a :: after ∧ (∀ b ∈ before, weight b < weight a) ∧
    ∀ b ∈ after, weight b ≤ weight a

namespace IsFirstGreatest

/-- No item weighs more than a greatest one. -/
theorem weight_le (h : IsFirstGreatest weight as a) (hb : b ∈ as) : weight b ≤ weight a := by
  obtain ⟨before, after, rfl, hbefore, hafter⟩ := h
  rcases List.mem_append.mp hb with hb | hb
  · exact Nat.le_of_lt (hbefore b hb)
  · rcases List.mem_cons.mp hb with rfl | hb
    · exact Nat.le_refl _
    · exact hafter b hb

/-- A lighter item may stand in front. -/
theorem cons (h : IsFirstGreatest weight as a) (hb : weight b < weight a) :
    IsFirstGreatest weight (b :: as) a := by
  obtain ⟨before, after, rfl, hbefore, hafter⟩ := h
  exact ⟨b :: before, after, rfl, List.forall_mem_cons.mpr ⟨hb, hbefore⟩, hafter⟩

/-- An item may stand behind the first if it does not weigh more. -/
theorem insert {c : α} (h : IsFirstGreatest weight (c :: as) a) (hb : weight b ≤ weight c) :
    IsFirstGreatest weight (c :: b :: as) a := by
  obtain ⟨before, after, heq, hbefore, hafter⟩ := h
  cases before with
  | nil =>
    obtain ⟨rfl, rfl⟩ := List.cons.inj heq
    exact ⟨[], b :: as, rfl, List.forall_mem_nil _, List.forall_mem_cons.mpr ⟨hb, hafter⟩⟩
  | cons d before =>
    obtain ⟨rfl, rfl⟩ := List.cons.inj heq
    have hc := hbefore c List.mem_cons_self
    refine ⟨c :: b :: before, after, rfl, ?_, hafter⟩
    exact List.forall_mem_cons.mpr ⟨hc, List.forall_mem_cons.mpr
      ⟨Nat.lt_of_le_of_lt hb hc, fun d hd => hbefore d (List.mem_cons_of_mem c hd)⟩⟩

/-- It is the first that no item outweighs. -/
theorem find?_eq (h : IsFirstGreatest weight as a) :
    as.find? (fun b => ∀ c ∈ as, weight c ≤ weight b) = some a := by
  obtain ⟨before, after, heq, hbefore, -⟩ := id h
  rw [List.find?_eq_some_iff_append]
  refine ⟨decide_eq_true fun c hc => h.weight_le hc, before, after, heq, fun b hb => ?_⟩
  have ha : a ∈ as := heq ▸ List.mem_append_right before List.mem_cons_self
  have hnot : ¬ ∀ c ∈ as, weight c ≤ weight b := fun hall =>
    Nat.not_le_of_lt (hbefore b hb) (hall a ha)
  rw [decide_eq_false hnot, Bool.not_false]

/-- There is only one. -/
theorem unique {a' : α} (h : IsFirstGreatest weight as a) (h' : IsFirstGreatest weight as a') :
    a = a' := by
  have hfind := h.find?_eq
  rw [h'.find?_eq] at hfind
  exact (Option.some.inj hfind).symm

/-- What stands behind a front that has the item may be exchanged for something no heavier. -/
theorem exchange {front back later : List α} (h : IsFirstGreatest weight (front ++ back) a)
    (ha : a ∈ front) (hlater : ∀ b ∈ later, weight b ≤ weight a) :
    IsFirstGreatest weight (front ++ later) a := by
  obtain ⟨before, after, heq, hbefore, hafter⟩ := h
  have hnot : a ∉ before := fun hmem => Nat.lt_irrefl _ (hbefore a hmem)
  rcases List.append_eq_append_iff.mp heq with ⟨more, rfl, -⟩ | ⟨more, rfl, hmore⟩
  · exact absurd (List.mem_append_left more ha) hnot
  · cases more with
    | nil => exact absurd ha (by simpa using hnot)
    | cons d more =>
      obtain ⟨rfl, rfl⟩ := List.cons.inj hmore
      refine ⟨before, more ++ later, by simp, hbefore, fun b hb => ?_⟩
      rcases List.mem_append.mp hb with hb | hb
      · exact hafter b (List.mem_append_left back hb)
      · exact hlater b hb

end IsFirstGreatest

/-- Whatever is held in front of a list, a choice finds the first of the greatest. -/
theorem exists_firstGreatest (weight : α → Nat) (held : α) (as : List α) :
    ∃ a, firstGreatest weight (some held) as = some a ∧ IsFirstGreatest weight (held :: as) a := by
  induction as generalizing held with
  | nil => exact ⟨held, rfl, [], [], rfl, List.forall_mem_nil _, List.forall_mem_nil _⟩
  | cons b as ih =>
    rw [firstGreatest]
    by_cases hlt : weight held < weight b
    · -- the next item is held, and what is chosen weighs no less than it
      rw [if_pos hlt]
      obtain ⟨a, ha, hfirst⟩ := ih b
      have hle := hfirst.weight_le List.mem_cons_self
      exact ⟨a, ha, hfirst.cons (Nat.lt_of_lt_of_le hlt hle)⟩
    · rw [if_neg hlt]
      obtain ⟨a, ha, hfirst⟩ := ih held
      exact ⟨a, ha, hfirst.insert (Nat.not_lt.mp hlt)⟩

/-- What is chosen is the first of the greatest. -/
theorem firstGreatest_eq_some_iff :
    firstGreatest weight none as = some a ↔ IsFirstGreatest weight as a := by
  cases as with
  | nil =>
    refine ⟨fun h => (nomatch h), fun ⟨before, after, heq, _⟩ => ?_⟩
    cases before <;> cases heq
  | cons held as =>
    obtain ⟨b, hb, hfirst⟩ := exists_firstGreatest weight held as
    have hchosen : firstGreatest weight none (held :: as) = some b := hb
    rw [hchosen]
    exact ⟨fun h => Option.some.inj h ▸ hfirst, fun h => congrArg some (hfirst.unique h)⟩

/-- Only among no items is none chosen. -/
theorem firstGreatest_eq_none_iff : firstGreatest weight none as = none ↔ as = [] := by
  cases as with
  | nil => exact ⟨fun _ => rfl, fun _ => rfl⟩
  | cons held as =>
    obtain ⟨b, hb, -⟩ := exists_firstGreatest weight held as
    have hchosen : firstGreatest weight none (held :: as) = some b := hb
    simp [hchosen]

/-- What is chosen is the first item that no item outweighs. -/
theorem firstGreatest_eq_find? :
    firstGreatest weight none as = as.find? fun b => ∀ c ∈ as, weight c ≤ weight b := by
  cases h : firstGreatest weight none as with
  | none => rw [firstGreatest_eq_none_iff.mp h, List.find?_nil]
  | some a => exact (firstGreatest_eq_some_iff.mp h).find?_eq.symm

/-! ## Choices in parts -/

/-- The item that is kept of two: the second only if it weighs more. -/
def heavier (weight : α → Nat) (a b : α) : α := if weight a < weight b then b else a

instance : Std.Associative (heavier weight) where
  assoc a b c := by grind [heavier]

/-- A choice keeps one of two items after the other. -/
theorem firstGreatest_cons (a : α) (as : List α) :
    firstGreatest weight none (a :: as) = some (as.foldl (heavier weight) a) := by
  have hrun : ∀ held : α, firstGreatest weight (some held) as =
      some (as.foldl (heavier weight) held) := by
    induction as with
    | nil => exact fun held => rfl
    | cons b as ih => exact fun held => ih (heavier weight held b)
  exact hrun a

/-- A choice among the items of two lists is one among what is chosen from each. -/
theorem firstGreatest_append (as bs : List α) :
    firstGreatest weight none (as ++ bs) =
      firstGreatest weight none
        ((firstGreatest weight none as).toList ++ (firstGreatest weight none bs).toList) := by
  cases as with
  | nil =>
    cases bs with
    | nil => rfl
    | cons b bs => rw [List.nil_append, firstGreatest_cons]; rfl
  | cons a as =>
    cases bs with
    | nil => rw [List.append_nil, firstGreatest_cons]; rfl
    | cons b bs =>
      rw [List.cons_append, firstGreatest_cons, firstGreatest_cons, firstGreatest_cons]
      change _ = some (heavier weight (as.foldl (heavier weight) a) (bs.foldl (heavier weight) b))
      -- `heavier` is associative, so the second list may be folded up first
      rw [List.foldl_append, List.foldl_cons, List.foldl_assoc]

/-- A choice looks at nothing but the weights. -/
theorem firstGreatest_map {β : Type} {weight : β → Nat} (f : α → β) (held : Option α)
    (as : List α) :
    firstGreatest weight (held.map f) (as.map f) =
      (firstGreatest (fun a => weight (f a)) held as).map f := by
  induction as generalizing held with
  | nil => rfl
  | cons a as ih =>
    cases held with
    | none => exact ih (some a)
    | some h =>
      rw [List.map_cons, Option.map_some, firstGreatest, firstGreatest, ← ih, Option.map_some,
        apply_ite f]

/-! ## Types of content -/

/-- The type that is chosen is the first of those with the greatest priority. -/
theorem best?_eq_some_iff {types : List String} {t : String} :
    best? types = some t ↔ IsFirstGreatest priority types t :=
  firstGreatest_eq_some_iff

/-- Only among no types is none chosen. -/
theorem best?_eq_none_iff {types : List String} : best? types = none ↔ types = [] :=
  firstGreatest_eq_none_iff

/-- Among values that are texts the choice is that among the texts. -/
theorem bestOf_text (types : List String) :
    bestOf (.list (types.map .text)) = .ok (((best? types).map .text).getD .null) := by
  have hnames : (types.map Value.text).all (fun v => v.isName) = true := by
    simp [Value.isName]
  have hkept : (types.map Value.text).filter (fun v => !isMissing v) = types.map .text := by
    simp [isMissing]
  have hbest : firstGreatest weight none (types.map .text) = (best? types).map .text :=
    firstGreatest_map Value.text none types
  have hitems : (Value.list (types.map .text)).items = .ok (types.map .text) := rfl
  rw [bestOf, hitems, Except.ok_bind, hnames, hkept, hbest]
  rfl

/-- Among types of content, whichever they are and however often they come, the first of those with
the greatest priority is chosen, and none only if there are none. Types that come in two lists may
be chosen from in each list first. What stands behind the one that is chosen is of no account:
whatever is put there, at one place or at many, it stays the same as long as nothing has a greater
priority. -/
theorem choice_first_greatest (types : List String) :
    bestOf (.list (types.map .text)) = .ok (((best? types).map .text).getD .null) ∧
      (best? types = none ↔ types = []) ∧
      best? types = types.find? (fun t => ∀ u ∈ types, priority u ≤ priority t) ∧
      (∀ others : List String,
        best? (types ++ others) = best? ((best? types).toList ++ (best? others).toList)) ∧
      ∀ (t : String) (front back later : List String), best? types = some t →
        types = front ++ back → t ∈ front → (∀ u ∈ later, u ∈ back ∨ priority u ≤ priority t) →
        best? (front ++ later) = some t := by
  refine ⟨bestOf_text types, best?_eq_none_iff, firstGreatest_eq_find?, firstGreatest_append types,
    fun t front back later hbest hsplit ht hlater => ?_⟩
  subst hsplit
  have hfirst := best?_eq_some_iff.mp hbest
  -- being the first greatest is all that counts; what stands behind may be exchanged for anything
  -- that weighs no more
  refine best?_eq_some_iff.mpr (hfirst.exchange ht fun u hu => ?_)
  rcases hlater u hu with hback | hle
  · exact hfirst.weight_le (List.mem_append_right front hback)
  · exact hle

/-- A type without a priority, an image that comes twice, and its text. -/
def drawnTwice : List String := ["text/x-note", "image/png", "text/plain", "image/png"]

/-- The first of two drawings is chosen, wherever types that weigh less stand. -/
theorem choice_first_greatest_sample :
    best? drawnTwice = some "image/png" ∧
      best? ["text/x-note", "image/png", "image/gif", "text/plain", "text/x-note", "image/png"] =
        some "image/png" := by
  obtain ⟨-, -, hfirst, -, hlater⟩ := choice_first_greatest drawnTwice
  have hbest : best? drawnTwice = some "image/png" := hfirst.trans (by decide)
  refine ⟨hbest, ?_⟩
  exact hlater "image/png" ["text/x-note", "image/png"] ["text/plain", "image/png"]
    ["image/gif", "text/plain", "text/x-note", "image/png"] hbest rfl (by decide) (by decide)

end NotebookTree.Mime

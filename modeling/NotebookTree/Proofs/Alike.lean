import Mathlib.Data.List.Forall2
import NotebookTree.Proofs.Entries
import NotebookTree.Proofs.Telling

/-!
# Values and work that are alike

Two values may be the same but for some of their parts, which are related in some way. What is done
with both comes to the same then, as long as it treats the parts that are related alike. The
relations here lift one between parts to lists, records and nodes, and to work that may fail and
that tells about itself.

## Main definitions

* `EntriesAlike`, `RecordsAlike`, `NodesAlike`, `ListsAlike`: values with related parts.
* `Except.Alike`, `Logged.Alike`: work with related results, or with the same fault.
-/

/-- Results that are related, or the same fault. -/
inductive Except.Alike {ε α β : Type} (R : α → β → Prop) : Except ε α → Except ε β → Prop
  | ok {a : α} {b : β} (h : R a b) : Except.Alike R (.ok a) (.ok b)
  | error (e : ε) : Except.Alike R (.error e) (.error e)

/-- A result is related to itself by what relates every value to itself. -/
theorem Except.Alike.refl {ε α : Type} {R : α → α → Prop} (hR : ∀ a, R a a) (x : Except ε α) :
    Except.Alike R x x := by
  cases x with
  | ok a => exact .ok (hR a)
  | error e => exact .error e

/-- Results that are related are related by every relation that asks for less. -/
theorem Except.Alike.mono {ε α β : Type} {R S : α → β → Prop} {x : Except ε α} {y : Except ε β}
    (h : Except.Alike R x y) (hRS : ∀ a b, R a b → S a b) : Except.Alike S x y := by
  cases h with
  | ok h => exact .ok (hRS _ _ h)
  | error e => exact .error e

/-- What follows related results the same way comes to the same. -/
theorem Except.Alike.bind_eq {ε α β γ : Type} {R : α → β → Prop} {x : Except ε α} {y : Except ε β}
    {f : α → Except ε γ} {g : β → Except ε γ} (h : Except.Alike R x y)
    (hfg : ∀ a b, R a b → g b = f a) : y >>= g = x >>= f := by
  cases h with
  | ok h => exact hfg _ _ h
  | error e => rfl

namespace NotebookTree

/-! ## Work that tells about itself -/

namespace Logged

variable {α β γ δ : Type} {R : α → β → Prop} {S : γ → δ → Prop}

/-- Work that comes to related results or to the same fault, and tells the same. -/
def Alike (R : α → β → Prop) (w : Logged α) (w' : Logged β) : Prop :=
  ∀ before, Except.Alike R (StateT.run (ExceptT.run w) before).1
      (StateT.run (ExceptT.run w') before).1 ∧
    (StateT.run (ExceptT.run w') before).2 = (StateT.run (ExceptT.run w) before).2

/-- Work is alike itself, by what relates every result to itself. -/
theorem alike_refl {R : α → α → Prop} (hR : ∀ a, R a a) (w : Logged α) : Alike R w w :=
  fun _ => ⟨.refl hR _, rfl⟩

/-- Two values handed on are alike when they are related. -/
theorem alike_pure {a : α} {b : β} (h : R a b) : Alike R (pure a) (pure b) :=
  fun _ => ⟨.ok h, rfl⟩

/-- Lifted results are alike when the results are: neither tells of anything. -/
theorem alike_ofExcept {x : Except Fault α} {y : Except Fault β} (h : Except.Alike R x y) :
    Alike R (ofExcept x) (ofExcept y) :=
  fun _ => ⟨h, rfl⟩

/-- What is alike, followed by what is alike on related results, is alike. -/
theorem alike_bind {w : Logged α} {w' : Logged β} {f : α → Logged γ} {g : β → Logged δ}
    (h : Alike R w w') (hfg : ∀ a b, R a b → Alike S (f a) (g b)) :
    Alike S (w >>= f) (w' >>= g) := by
  intro before
  obtain ⟨hresult, htold⟩ := h before
  rw [ExceptT.run_bind, StateT.run_bind, ExceptT.run_bind, StateT.run_bind]
  rcases hw : StateT.run (ExceptT.run w) before with ⟨r, told⟩
  rcases hw' : StateT.run (ExceptT.run w') before with ⟨r', told'⟩
  rw [hw, hw'] at hresult htold
  obtain rfl : told' = told := htold
  cases hresult with
  | ok hab => exact hfg _ _ hab told'
  | error e => exact ⟨.error e, rfl⟩

/-- The same work before what is alike. -/
theorem alike_bind_left (w : Logged α) {f : α → Logged γ} {g : α → Logged δ}
    (hfg : ∀ a, Alike S (f a) (g a)) : Alike S (w >>= f) (w >>= g) := by
  refine alike_bind (alike_refl (R := Eq) (fun _ => rfl) w) fun a b hab => ?_
  rw [← hab]
  exact hfg a

/-- A choice that falls the same way on both sides is alike when both branches are. -/
theorem alike_ite {c : Prop} [Decidable c] {w x : Logged α} {w' x' : Logged β}
    (hw : Alike R w w') (hx : Alike R x x') :
    Alike R (if c then w else x) (if c then w' else x') := by
  split
  · exact hw
  · exact hx

/-- What alike work comes to. -/
theorem Alike.outcome_cases {w : Logged α} {w' : Logged β} (h : Alike R w w') :
    (∃ e log, w.outcome = (.error e, log) ∧ w'.outcome = (.error e, log)) ∨
      ∃ a b log, w.outcome = (.ok a, log) ∧ w'.outcome = (.ok b, log) ∧ R a b := by
  obtain ⟨hresult, htold⟩ := h []
  rw [outcome, outcome]
  rcases hw : StateT.run (ExceptT.run w) [] with ⟨r, told⟩
  rcases hw' : StateT.run (ExceptT.run w') [] with ⟨r', told'⟩
  rw [hw, hw'] at hresult htold
  obtain rfl : told' = told := htold
  cases hresult with
  | ok hab => exact .inr ⟨_, _, _, rfl, rfl, hab⟩
  | error e => exact .inl ⟨e, _, rfl, rfl⟩

end Logged

/-! ## Values -/

section Values

variable {R S : String → Value → Value → Prop} {es es' : Entries Value} {v v' : Value}

/-- What is there for both or for neither, and the same where it cannot be related otherwise. -/
theorem eq_of_rel {P : Value → Value → Prop} {o o' : Option Value}
    (h : Option.Rel (fun v v' => v' = v ∨ P v v') o o') (hP : ∀ v v', ¬P v v') : o' = o := by
  cases h with
  | none => rfl
  | some hvalue => exact congrArg some (hvalue.resolve_right (hP _ _))

/-- A value that may be missing is related to itself. -/
theorem rel_refl {Q : Value → Value → Prop} (hQ : ∀ v, Q v v) (o : Option Value) :
    Option.Rel Q o o := by
  cases o with
  | none => exact .none
  | some v => exact .some (hQ v)

/-- Entries with the same names, in order, whose values are the same or related. The relation may
depend on the name. -/
def EntriesAlike (R : String → Value → Value → Prop) (es es' : Entries Value) : Prop :=
  List.Forall₂ (fun e e' => e'.1 = e.1 ∧ (e'.2 = e.2 ∨ R e.1 e.2 e'.2)) es es'

/-- A record is alike itself, whatever relates its values. -/
theorem EntriesAlike.refl (es : Entries Value) : EntriesAlike R es es :=
  List.forall₂_same.mpr fun _ _ => ⟨rfl, .inl rfl⟩

/-- Entries of which no more than the first is related otherwise. -/
theorem EntriesAlike.first {name : String} (h : v' = v ∨ R name v v') (rest : Entries Value) :
    EntriesAlike R ((name, v) :: rest) ((name, v') :: rest) :=
  .cons ⟨rfl, h⟩ (EntriesAlike.refl rest)

/-- Records that are alike have the same names in the same order. -/
theorem EntriesAlike.names (h : EntriesAlike R es es') : es'.map Prod.fst = es.map Prod.fst := by
  induction h with
  | nil => rfl
  | cons he _ ih => rw [List.map_cons, List.map_cons, he.1, ih]

/-- What records that are alike hold under a name is missing in both, the same, or related. -/
theorem EntriesAlike.lookup (h : EntriesAlike R es es') (name : String) :
    Option.Rel (fun v v' => v' = v ∨ R name v v') (es.lookup name) (es'.lookup name) := by
  induction h with
  | nil => exact .none
  | @cons e e' es es' he _ ih =>
    obtain ⟨hname, hvalue⟩ := he
    rw [Entries.lookup_cons_eq, Entries.lookup_cons_eq, hname]
    split
    · rename_i heq
      rw [heq]
      exact .some hvalue
    · exact ih

/-- A name whose values are not related otherwise has the same. -/
theorem EntriesAlike.lookup_eq (h : EntriesAlike R es es') {name : String}
    (hR : ∀ v v', ¬R name v v') : es'.lookup name = es.lookup name :=
  eq_of_rel (h.lookup name) hR

/-- The same value, or two records with alike entries. -/
inductive RecordsAlike (R : String → Value → Value → Prop) : Value → Value → Prop
  | same (v : Value) : RecordsAlike R v v
  | record {es es' : Entries Value} (h : EntriesAlike R es es') :
      RecordsAlike R (.record es) (.record es')

/-- Alike records have the same items: the names of their entries. -/
theorem RecordsAlike.items (h : RecordsAlike R v v') : v'.items = v.items := by
  cases h with
  | same => rfl
  | @record es es' h =>
    have hitems : ∀ fs : Entries Value,
        (Value.record fs).items = .ok ((fs.map Prod.fst).map Value.text) := fun fs => by
      rw [List.map_map]
      rfl
    rw [hitems, hitems, h.names]

/-- Alike records are empty together. -/
theorem RecordsAlike.isTruthy (h : RecordsAlike R v v') : v'.isTruthy = v.isTruthy := by
  cases h with
  | same => rfl
  | record h => cases h <;> rfl

/-- The same value, or two nodes of a kind with alike fields. -/
inductive NodesAlike (R : String → Value → Value → Prop) : Value → Value → Prop
  | same (v : Value) : NodesAlike R v v
  | node (k : Kind) {fields fields' : Entries Value} (h : EntriesAlike R fields fields') :
      NodesAlike R (.node k fields) (.node k fields')

/-- Nodes that are alike are alike by every relation that asks for less. -/
theorem NodesAlike.mono (h : NodesAlike R v v') (hRS : ∀ name v v', R name v v' → S name v v') :
    NodesAlike S v v' := by
  cases h with
  | same => exact .same v
  | node k h => exact .node k (h.imp fun _ _ he => ⟨he.1, he.2.imp_right (hRS _ _ _)⟩)

/-- Two lists with related items. -/
inductive ListsAlike (R : Value → Value → Prop) : Value → Value → Prop
  | list {vs vs' : List Value} (h : List.Forall₂ R vs vs') : ListsAlike R (.list vs) (.list vs')

/-- Whether a list counts as true does not depend on what its items are. -/
theorem ListsAlike.isTruthy {Q : Value → Value → Prop} (h : ListsAlike Q v v') :
    v'.isTruthy = v.isTruthy := by
  cases h with
  | list h => cases h <;> rfl

/-- The items of values that are the same, or lists with related items. -/
theorem items_alike {Q : Value → Value → Prop} (hQ : ∀ v, Q v v)
    (h : v' = v ∨ ListsAlike Q v v') : Except.Alike (List.Forall₂ Q) v.items v'.items := by
  obtain rfl | h := h
  · exact .refl (fun _ => List.forall₂_same.mpr fun w _ => hQ w) _
  · cases h with
    | list h => exact .ok h

/-- What an attribute of one of two alike nodes is for the other. -/
theorem NodesAlike.attribute (h : NodesAlike R v v') (name : String) :
    Option.Rel (fun w w' => w' = w ∨ R name w w') (v.attribute? name) (v'.attribute? name) := by
  cases h with
  | same => exact rel_refl (fun _ => .inl rfl) _
  | @node k fields fields' h =>
    have hlookup := h.lookup name
    rw [Value.attribute?, Value.attribute?]
    generalize List.lookup name fields = o at hlookup ⊢
    generalize List.lookup name fields' = o' at hlookup ⊢
    cases hlookup with
    | none => exact rel_refl (fun _ => .inl rfl) _
    | some hvalue => exact .some hvalue

/-- An attribute that the relation leaves alone reads the same on nodes that are alike. -/
theorem NodesAlike.attribute_eq (h : NodesAlike R v v') {name : String}
    (hR : ∀ w w', ¬R name w w') : v'.attribute? name = v.attribute? name :=
  eq_of_rel (h.attribute name) hR

/-- What a field of one of two alike nodes is for the other, or the fault that both lack it. -/
theorem NodesAlike.field (h : NodesAlike R v v') (name : String) :
    Except.Alike (fun w w' => w' = w ∨ R name w w') (v.field name) (v'.field name) := by
  have hlacks : v'.lacks name = v.lacks name := by cases h <;> rfl
  have hattribute := h.attribute name
  rw [Value.field, Value.field, hlacks]
  generalize v.attribute? name = o at hattribute ⊢
  generalize v'.attribute? name = o' at hattribute ⊢
  cases hattribute with
  | none => exact .error _
  | some hvalue => exact .ok hvalue

/-- A field that the relation leaves alone reads the same, or is missing in the same way. -/
theorem NodesAlike.field_eq (h : NodesAlike R v v') {name : String} (hR : ∀ w w', ¬R name w w') :
    v'.field name = v.field name := by
  have hfield := h.field name
  generalize v.field name = x at hfield ⊢
  generalize v'.field name = x' at hfield ⊢
  cases hfield with
  | ok hvalue => exact congrArg _ (hvalue.resolve_right (hR _ _))
  | error => rfl

end Values

end NotebookTree

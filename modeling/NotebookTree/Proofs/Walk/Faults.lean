import NotebookTree.Proofs.Walk.CellFilter
import NotebookTree.Proofs.Walk.Peeking
import NotebookTree.Walk.Listing

/-!
# How walks of the command fail

A walk through a tree fails in what its callback fails in, or because the tree is too deep, or
because a row that it has found has fewer items than it had. The rules for cells and the notes of a
listing fail in misuse only. So whatever the tree is like, the command gets to know no other faults
of a walk than misuse and too great a depth.

## Main statements

* `faultsIn_transform`, `faultsIn_visit`: walks with a callback.
* `CellRule.faultsIn_applyAll`, `faultsIn_listing`: the walks of the command.
-/

namespace NotebookTree

/-! ## Labels -/

namespace Value

open Except (faultsIn_ok faultsIn_error faultsIn_bind)

variable (v : Value)

/-- Asking whether a value is an output fails as misuse alone. -/
theorem misuse_isOutput : v.isOutput.FaultsIn Fault.IsMisuse := by
  rw [isOutput]
  split
  · exact faultsIn_ok _
  · split
    · exact faultsIn_ok _
    · exact faultsIn_error trivial
  · exact faultsIn_ok _

/-- Taking a preview of a value fails as misuse alone. -/
theorem misuse_previewed : v.previewed.FaultsIn Fault.IsMisuse := by
  unfold previewed
  split
  · exact faultsIn_ok _
  split
  · split
    · exact faultsIn_error trivial
    · exact faultsIn_ok _
  · exact faultsIn_error trivial

/-- Taking the names of a record fails as misuse alone. -/
theorem misuse_names : v.names.FaultsIn Fault.IsMisuse := by
  unfold names
  split
  · exact faultsIn_ok _
  · exact faultsIn_error (misuse_lacks v "keys")

/-- Taking the type for a label fails as misuse alone. -/
theorem misuse_typeLabel : v.typeLabel.FaultsIn Fault.IsMisuse := by
  rw [typeLabel]
  dsimp only
  split
  · exact faultsIn_ok _
  split
  · split
    · exact faultsIn_ok _
    · exact faultsIn_error (misuse_lacks _ "get")
  · exact faultsIn_ok _

/-- A node without a label is misused. -/
theorem misuse_label : v.label.FaultsIn Fault.IsMisuse := by
  refine faultsIn_bind v.misuse_typeLabel fun type => ?_
  dsimp only
  split
  · exact faultsIn_bind (v.misuse_field _) fun _ => faultsIn_bind (v.misuse_field _) fun text =>
      faultsIn_bind text.misuse_previewed fun _ => faultsIn_ok _
  split
  · exact faultsIn_bind (v.misuse_field _) fun _ => faultsIn_bind (v.misuse_field _) fun value =>
      faultsIn_bind value.misuse_previewed fun _ => faultsIn_ok _
  refine faultsIn_bind v.misuse_isOutput fun isOutput => ?_
  split
  · exact faultsIn_bind (v.misuse_field _) fun data =>
      faultsIn_bind data.misuse_names fun _ => faultsIn_ok _
  split
  · exact faultsIn_bind (v.misuse_field _) fun value =>
      faultsIn_bind value.misuse_previewed fun _ => faultsIn_ok _
  split
  · exact faultsIn_ok _
  · exact faultsIn_ok _

end Value

namespace Walk

variable {σ τ α β : Type} {P : Fault → Prop}

/-! ## Walks with a callback -/

/-- Work with a state of its own fails as it does without. -/
theorem faultsIn_keeping {start : τ} {w : Walk (σ × τ) α} (h : FaultsIn P w) :
    FaultsIn P (keeping start w) := by
  intro s e he
  rw [outcome_keeping] at he
  rcases hrun : outcome w ⟨s.store, s.log, (s.own, start)⟩ with ⟨r, last⟩
  rw [hrun] at he
  cases r with
  | ok a => cases he
  | error e' =>
    obtain rfl := Except.error.inj he
    exact h _ e' (by rw [hrun])

/-- Doing something at each place while it says to go on fails as one step does. -/
theorem faultsIn_throughout {step : Nat → Walk σ Bool} (h : ∀ i, FaultsIn P (step i)) :
    ∀ is : List Nat, FaultsIn P (throughout step is)
  | [] => faultsIn_pure true
  | i :: is => by
    refine faultsIn_bind (h i) fun goesOn => ?_
    cases goesOn with
    | true => exact faultsIn_throughout h is
    | false => exact faultsIn_pure false

/-- Taking an item of a row fails as a walk does. -/
theorem faultsIn_itemAt (hP : ∀ f, f.IsWalkFault → P f) (row : RowId) (i : Nat) :
    FaultsIn P (itemAt row i : Walk σ Item) := by
  refine faultsIn_bind faultsIn_getStore fun s => ?_
  split
  · exact faultsIn_pure _
  · exact faultsIn_throw (hP _ (.inl trivial))

/-- Waiting for an answer fails as the work does that leads to it. -/
theorem faultsIn_resolve_bind {w : Walk σ α} {f : α → Walk σ (Reply σ)} (hw : FaultsIn P w)
    (hf : ∀ a, FaultsIn P (resolve (f a))) : FaultsIn P (resolve (w >>= f)) := by
  rw [resolve, bind_assoc]
  exact faultsIn_bind hw hf

section Callbacks

variable {c : Callback σ}

/-- A transform fails in what its callback fails in, and as walks do. -/
theorem faultsIn_transformNode (hP : ∀ f, f.IsWalkFault → P f)
    (hc : ∀ node index parent, FaultsIn P (resolve (c node index parent))) (reverse : Bool) :
    ∀ (limit : Nat) (node : Item) (index : Option Nat) (parent : Option Item),
      FaultsIn P (transformNode c reverse limit node index parent)
  | 0, _, _, _ => faultsIn_throw (hP _ (.inr rfl))
  | limit + 1, node, index, parent => by
    -- the call comes last, behind the children if there are any
    have hlast : FaultsIn P (do
        let answer ← resolve (c node index parent)
        return if (← getStore).isTruthy answer then answer else node : Walk σ Item) :=
      faultsIn_bind (hc node index parent) fun _ =>
        faultsIn_bind faultsIn_getStore fun _ => faultsIn_pure _
    rw [transformNode]
    refine faultsIn_bind faultsIn_getStore fun s => ?_
    split
    · refine faultsIn_bind faultsIn_getStore fun s => ?_
      refine faultsIn_bind (faultsIn_mapM (fun i => ?_) _) fun _ => ?_
      · exact faultsIn_bind (faultsIn_itemAt hP _ i) fun item =>
          faultsIn_transformNode hP hc reverse limit item (some i) (some node)
      · exact faultsIn_bind (faultsIn_changeStore _) fun _ => hlast
    · exact hlast

/-- A transform fails as a walk or as its callback does. -/
theorem faultsIn_transform (hP : ∀ f, f.IsWalkFault → P f)
    (hc : ∀ node index parent, FaultsIn P (resolve (c node index parent))) (limit : Nat)
    (tree : Item) (reverse : Bool) : FaultsIn P (transform limit tree c reverse) :=
  faultsIn_transformNode hP hc reverse limit tree none none

/-- A visit fails as a walk or as its callback does, at each node. -/
theorem faultsIn_visitNode (hP : ∀ f, f.IsWalkFault → P f)
    (hc : ∀ node index parent, FaultsIn P (resolve (c node index parent))) (reverse : Bool) :
    ∀ (limit : Nat) (node : Item) (index : Option Nat) (parent : Option Item),
      FaultsIn P (visitNode c reverse limit node index parent)
  | 0, _, _, _ => faultsIn_throw (hP _ (.inr rfl))
  | limit + 1, node, index, parent => by
    rw [visitNode]
    -- the walk itself fails for its depth or for a child that is gone; all else comes from
    -- callbacks
    refine faultsIn_bind (hc node index parent) fun answer => ?_
    split
    · exact faultsIn_pure _
    refine faultsIn_bind faultsIn_getStore fun s => ?_
    split
    · exact faultsIn_pure _
    · refine faultsIn_bind faultsIn_getStore fun s => faultsIn_throughout (fun i => ?_) _
      exact faultsIn_bind (faultsIn_itemAt hP _ i) fun item =>
        faultsIn_visitNode hP hc reverse limit item (some i) (some node)

/-- A visit fails in what its callback fails in, and as walks do. -/
theorem faultsIn_visit (hP : ∀ f, f.IsWalkFault → P f)
    (hc : ∀ node index parent, FaultsIn P (resolve (c node index parent))) (limit : Nat)
    (tree : Item) (reverse : Bool) : FaultsIn P (visit limit tree c reverse) := by
  refine faultsIn_bind (faultsIn_visitNode hP hc reverse limit tree none none) fun goesOn => ?_
  split
  · exact faultsIn_tell _
  · exact faultsIn_pure _

end Callbacks

/-! ## Listings -/

/-- Noting a line fails as misuse alone. -/
theorem misuse_noteLine (node : Item) (index : Option Nat) (parent : Option Item) :
    FaultsIn Fault.IsMisuse (resolve (noteLine (σ := σ) node index parent)) := by
  rw [noteLine]
  refine faultsIn_resolve_bind (fun s => Except.faultsIn_ok s) fun scene => ?_
  refine faultsIn_resolve_bind (faultsIn_ofExcept (Value.misuse_label _)) fun label => ?_
  exact faultsIn_resolve_bind (fun s => Except.faultsIn_ok _) fun _ => faultsIn_pure _

/-- A listing fails if a node has no label, or the tree is too deep. -/
theorem faultsIn_listing (limit : Nat) (tree : Item) (reverse : Bool) :
    FaultsIn Fault.IsWalkFault (listing limit tree reverse : Walk σ (List Line)) := by
  refine faultsIn_bind (faultsIn_keeping (faultsIn_visit (fun _ h => h) (fun node index parent =>
    (misuse_noteLine node index parent).mono fun _ => .inl) limit tree reverse)) fun _ => ?_
  exact faultsIn_pure _

end Walk

/-! ## Rules -/

namespace CellRule

open Walk

variable {σ : Type}

/-- Dropping the outputs of a cell fails as misuse alone. -/
theorem misuse_dropOutputs (cell : Item) :
    FaultsIn Fault.IsMisuse (dropOutputs cell : Walk σ Unit) := by
  refine faultsIn_bind faultsIn_getStore fun s => ?_
  split
  · exact faultsIn_pure _
  refine faultsIn_bind (peeks_fieldOf _ _).faults fun children => ?_
  refine faultsIn_bind (peeks_itemsOf _).faults fun items => ?_
  split
  · exact faultsIn_pure _
  split
  · exact faultsIn_changeStore _
  · exact faultsIn_bind (faultsIn_changeStore _) fun _ => faultsIn_changeStore _
  · exact faultsIn_changeStore _
  · exact faultsIn_changeStore _
  · exact faultsIn_changeStore _
  · exact faultsIn_throw trivial

/-- Keeping the cells that pass a test fails as misuse alone, when the test only looks. -/
theorem misuse_keepCells (root : Item) {test : Item → Walk σ Bool} (h : ∀ i, Peeks (test i)) :
    FaultsIn Fault.IsMisuse (keepCells root test) :=
  faultsIn_bind (peeks_fieldOf _ _).faults fun _ =>
    faultsIn_bind (peeks_itemsOf _).faults fun items =>
      faultsIn_bind (peeks_filterM h items).faults fun _ => faultsIn_changeStore _

/-- What a rule does to the root fails in misuse only. -/
theorem misuse_applyToRoot (rule : CellRule) (root : Item) :
    FaultsIn Fault.IsMisuse (rule.applyToRoot root : Walk σ Unit) := by
  cases rule with
  | removeOutputs =>
    exact faultsIn_bind (peeks_fieldOf _ _).faults fun _ =>
      faultsIn_bind (peeks_itemsOf _).faults fun items => faultsIn_forM misuse_dropOutputs items
  | removeEmpty =>
    refine faultsIn_bind (peeks_fieldOf _ _).faults fun _ =>
      faultsIn_bind (peeks_itemsOf _).faults fun _ =>
        faultsIn_bind (misuse_keepCells root peeks_hasContent) fun _ => ?_
    exact faultsIn_bind (peeks_fieldOf _ _).faults fun _ =>
      faultsIn_bind (peeks_itemsOf _).faults fun _ => faultsIn_tell _
  | removeTagged tags =>
    exact misuse_keepCells root fun i => peeks_bind (peeks_isTagged i tags) fun _ => peeks_pure _
  | keepTagged tags => exact misuse_keepCells root fun i => peeks_isTagged i tags
  | readMarkdown => exact faultsIn_pure _

/-- Rules for cells, one after the other, fail in misuse, or because the tree is too deep. -/
theorem faultsIn_applyAll [Markdown.Engine] (limit : Nat) {rules : List CellRule}
    (hrules : ∀ rule ∈ rules, rule.isFilter = true) (reverse : Bool) (tree : Item) :
    FaultsIn Fault.IsWalkFault (applyAll limit rules reverse tree : Walk σ Item) := by
  induction rules generalizing tree with
  | nil => exact faultsIn_pure tree
  | cons rule rules ih =>
    obtain ⟨hrule, hrules⟩ := List.forall_mem_cons.mp hrules
    rw [applyAll, List.foldlM_cons]
    refine faultsIn_bind (faultsIn_transform (fun _ h => h) (fun node index parent => ?_) limit
      tree reverse) fun tree => ih hrules tree
    -- a rule that filters works on the root alone, and answers nothing for other nodes
    refine FaultsIn.mono ?_ fun _ => .inl
    rw [callback_eq hrule]
    refine faultsIn_resolve_bind faultsIn_getStore fun s => ?_
    split
    · exact faultsIn_resolve_bind (misuse_applyToRoot rule node) fun _ => faultsIn_pure _
    · exact faultsIn_pure _

end CellRule

end NotebookTree

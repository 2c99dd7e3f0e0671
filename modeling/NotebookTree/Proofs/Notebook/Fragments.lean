import NotebookTree.Mime.Payload
import NotebookTree.Notebook.Source
import NotebookTree.Proofs.Alike

/-!
# Text in fragments

The text of a cell, of a stream and of a payload may come as a whole or in a list of fragments. A
notebook in which some of these texts are split in another way is read like the first one: with the
same fault, or to a tree that differs in nothing but the payloads of bundles, which stay as they
came.

## Main definitions

* `SameText`: two values that are the same text, in whatever fragments.
* `NotebooksAlike`: notebooks with the same texts.
* `TreesAlike`: trees that are the same but for the payloads of bundles, which are the same texts.

## Main statements

* `alike_read`: what reading does with notebooks that have the same texts.
-/

namespace NotebookTree

/-! ## The same text -/

/-- A value is a text, as a whole or in fragments. -/
inductive Spells : String → Value → Prop
  | text (s : String) : Spells s (.text s)
  | fragments (parts : List String) : Spells (String.join parts) (.list (parts.map .text))

/-- Two values are the same text. -/
def SameText (v v' : Value) : Prop := ∃ s, Spells s v ∧ Spells s v'

/-- Texts are their own plain text. -/
theorem map_plainText (parts : List String) :
    (parts.map Value.text).map Value.plainText = parts := by
  rw [List.map_map]
  exact List.map_id' parts

/-- What spells a text is joined to it. -/
theorem Spells.joinText {s : String} {v : Value} (h : Spells s v) : Notebook.joinText v = s := by
  cases h with
  | text => rfl
  | fragments parts => rw [Notebook.joinText, map_plainText]

/-- A payload of text is put together from its fragments. -/
theorem Spells.normalize {s t : String} {v : Value} (h : Spells s v) (ht : Mime.isText t = true) :
    Mime.normalize (.text t) v = .text s := by
  cases h with
  | text => rfl
  | fragments parts => rw [Mime.normalize, if_pos ht, map_plainText]

/-- Values of the same text are joined alike. -/
theorem SameText.joinText {v v' : Value} (h : SameText v v') :
    Notebook.joinText v' = Notebook.joinText v := by
  obtain ⟨s, hv, hv'⟩ := h
  rw [hv.joinText, hv'.joinText]

/-- Values of the same text are normalized alike under a text type. -/
theorem SameText.normalize {t : String} {v v' : Value} (h : SameText v v')
    (ht : Mime.isText t = true) : Mime.normalize (.text t) v' = Mime.normalize (.text t) v := by
  obtain ⟨s, hv, hv'⟩ := h
  rw [hv.normalize ht, hv'.normalize ht]

/-- Bundles with the same payloads, those of text in whatever fragments. -/
def BundlesAlike : Value → Value → Prop :=
  RecordsAlike fun type v v' => Mime.isText type = true ∧ SameText v v'

namespace Notebook

/-- Entries for outputs with the same text, or alike bundles. -/
def OutputsAlike : Value → Value → Prop :=
  RecordsAlike fun name v v' =>
    (name = "text" ∧ SameText v v') ∨ (name = "data" ∧ BundlesAlike v v')

/-- Entries for cells with the same text and alike outputs. -/
def CellsAlike : Value → Value → Prop :=
  RecordsAlike fun name v v' =>
    (name = "source" ∧ SameText v v') ∨ (name = "outputs" ∧ ListsAlike OutputsAlike v v')

/-- Notebooks with alike cells. -/
def NotebooksAlike : Value → Value → Prop :=
  RecordsAlike fun name v v' => name = "cells" ∧ ListsAlike CellsAlike v v'

/-- Nodes of outputs with alike bundles. -/
def OutputNodesAlike : Value → Value → Prop :=
  NodesAlike fun name v v' => name = "data" ∧ BundlesAlike v v'

/-- Nodes of cells with alike outputs. -/
def CellNodesAlike : Value → Value → Prop :=
  NodesAlike fun name v v' => name = "children" ∧ ListsAlike OutputNodesAlike v v'

/-- The trees of notebooks that are the same but for the payloads in the bundles of outputs. -/
def TreesAlike : Value → Value → Prop :=
  NodesAlike fun name v v' => name = "children" ∧ ListsAlike CellNodesAlike v v'

/-! ## Entries -/

section Entries

variable {R : String → Value → Value → Prop} {es es' : Entries Value}

/-- Records that are alike are taken for records that are. -/
theorem alike_entriesOf {v v' : Value} (h : RecordsAlike R v v') :
    Except.Alike (EntriesAlike R) (entriesOf v) (entriesOf v') := by
  cases h with
  | same => exact .refl EntriesAlike.refl _
  | record h => exact .ok h

/-- An entry of one of two alike records, or what stands in its place, is the same for the other,
or related. -/
theorem getD_alike (h : EntriesAlike R es es') (name : String) (d : Value) :
    (Entries.get? es' name).getD d = (Entries.get? es name).getD d ∨
      R name ((Entries.get? es name).getD d) ((Entries.get? es' name).getD d) := by
  rw [Entries.get?, Entries.get?]
  have hlookup := h.lookup name
  generalize List.lookup name es = o at hlookup ⊢
  generalize List.lookup name es' = o' at hlookup ⊢
  cases hlookup with
  | none => exact .inl rfl
  | some hvalue => exact hvalue

/-- The entries under a name are the same or related. -/
theorem entry_alike (h : EntriesAlike R es es') (name : String) :
    entry es' name = entry es name ∨ R name (entry es name) (entry es' name) :=
  getD_alike h name .null

/-- The entries under a name that the relation leaves alone are the same. -/
theorem entry_eq (h : EntriesAlike R es es') (name : String) (hR : ∀ v v', ¬R name v v') :
    entry es' name = entry es name :=
  (entry_alike h name).resolve_right (hR _ _)

/-- What is found under a name that the relation leaves alone is the same. -/
theorem get?_eq (h : EntriesAlike R es es') (name : String) (hR : ∀ v v', ¬R name v v') :
    Entries.get? es' name = Entries.get? es name :=
  h.lookup_eq hR

/-- So is the entry that falls back on a default. -/
theorem entryOr_eq (h : EntriesAlike R es es') (name : String) (hR : ∀ v v', ¬R name v v')
    (d : Value) : entryOr es' name d = entryOr es name d := by
  rw [entryOr, entryOr, entry_eq h name hR]

/-- An entry that is related to the other, if being related leaves it true or not. -/
theorem entryOr_alike {P : Value → Value → Prop} (h : EntriesAlike R es es') (name : String)
    (hR : ∀ v v', R name v v' → P v v') (hP : ∀ v v', P v v' → v'.isTruthy = v.isTruthy)
    (d : Value) : entryOr es' name d = entryOr es name d ∨
      P (entryOr es name d) (entryOr es' name d) := by
  rw [entryOr, entryOr]
  rcases entry_alike h name with heq | hrel
  · exact .inl (by rw [heq])
  · rw [hP _ _ (hR _ _ hrel)]
    split
    · exact .inr (hR _ _ hrel)
    · exact .inl rfl

/-- An entry that is a text has the same text, in whatever fragments. -/
theorem joinText_entry (h : EntriesAlike R es es') {name : String}
    (hR : ∀ v v', R name v v' → SameText v v') :
    joinText (entry es' name) = joinText (entry es name) := by
  rcases entry_alike h name with heq | hrel
  · rw [heq]
  · exact (hR _ _ hrel).joinText

end Entries

/-! ## Reading -/

/-- No entry but the text and the bundle of an output is split in another way. -/
theorem alike_output? {v v' : Value} (h : OutputsAlike v v') (cellIndex index : Nat) :
    Logged.Alike (Option.Rel OutputNodesAlike) (output? v cellIndex index)
      (output? v' cellIndex index) := by
  rw [output?, output?]
  refine Logged.alike_bind (Logged.alike_ofExcept (alike_entriesOf h)) fun es es' hes => ?_
  have htext : joinText (entry es' "text") = joinText (entry es "text") :=
    joinText_entry hes fun v v' hv => (hv.resolve_right (by simp)).2
  dsimp only
  have hdata : entryOr es' "data" (.record []) = entryOr es "data" (.record []) ∨
      BundlesAlike (entryOr es "data" (.record [])) (entryOr es' "data" (.record [])) :=
    entryOr_alike hes "data" (fun v v' hv => (hv.resolve_left (by simp)).2)
      (fun v v' hb => RecordsAlike.isTruthy hb) _
  rw [entry_eq hes "output_type" (by simp), get?_eq hes "name" (by simp), htext,
    entry_eq hes "metadata" (by simp), entry_eq hes "execution_count" (by simp),
    entryOr_eq hes "traceback" (by simp), get?_eq hes "ename" (by simp),
    get?_eq hes "evalue" (by simp)]
  -- only the text of a stream and the bundle of a result can differ: the first is joined, the
  -- second kept
  have hbundle : ∀ k (rest : Entries Value), OutputNodesAlike
      (.node k (("data", entryOr es "data" (.record [])) :: rest))
      (.node k (("data", entryOr es' "data" (.record [])) :: rest)) := fun k rest =>
    .node k (.first (hdata.imp_right fun hb => ⟨rfl, hb⟩) rest)
  have hrefl : ∀ o : Option Value, Option.Rel OutputNodesAlike o o := rel_refl .same
  refine Logged.alike_ite (Logged.alike_refl hrefl _) (Logged.alike_ite ?_ (Logged.alike_ite ?_
    (Logged.alike_ite (Logged.alike_refl hrefl _) (Logged.alike_refl hrefl _))))
  · exact Logged.alike_pure (.some (hbundle _ _))
  · exact Logged.alike_pure (.some (hbundle _ _))

/-- Outputs that are alike are read to outputs that are, with the same told. -/
theorem alike_outputsFrom {vs vs' : List Value} (h : List.Forall₂ OutputsAlike vs vs')
    (cellIndex index : Nat) : Logged.Alike (List.Forall₂ OutputNodesAlike)
      (outputsFrom cellIndex index vs) (outputsFrom cellIndex index vs') := by
  induction h generalizing index with
  | nil => exact Logged.alike_pure .nil
  | cons hfirst _ ih =>
    rw [outputsFrom, outputsFrom]
    refine Logged.alike_bind (alike_output? hfirst cellIndex index) fun o o' ho => ?_
    refine Logged.alike_bind (ih (index + 1)) fun os os' hos => Logged.alike_pure ?_
    cases ho with
    | none => exact hos
    | some hnode => exact .cons hnode hos

/-- Alike notebooks are rejected together. -/
theorem isNotebook_alike {nb nb' : Value} (h : NotebooksAlike nb nb') :
    isNotebook nb' = isNotebook nb := by
  cases h with
  | same => rfl
  | record h =>
    have hcells := h.lookup "cells"
    rw [isNotebook, isNotebook, Entries.get?, Entries.get?]
    generalize List.lookup "cells" _ = o at hcells ⊢
    generalize List.lookup "cells" _ = o' at hcells ⊢
    cases hcells with
    | none => rfl
    | some hvalue =>
      obtain rfl | ⟨-, hlists⟩ := hvalue
      · rfl
      · cases hlists with
        | list => rfl

section Cells

variable [Markdown.Engine] (settings : Value)

/-- A cell is read the same but for the bundles of its outputs. -/
theorem alike_cell (language : Value) (index : Nat) {v v' : Value} (h : CellsAlike v v') :
    Logged.Alike CellNodesAlike (cell settings language index v)
      (cell settings language index v') := by
  rw [cell, cell]
  refine Logged.alike_bind (Logged.alike_ofExcept (alike_entriesOf h)) fun es es' hes => ?_
  have hsource : joinText (entry es' "source") = joinText (entry es "source") :=
    joinText_entry hes fun v v' hv => (hv.resolve_right (by simp)).2
  have houtputs : Except.Alike (List.Forall₂ OutputsAlike) (entryOr es "outputs" (.list [])).items
      (entryOr es' "outputs" (.list [])).items :=
    items_alike .same (entryOr_alike hes "outputs" (fun v v' hv => (hv.resolve_left (by simp)).2)
      (fun v v' hv => hv.isTruthy) _)
  dsimp only
  rw [entry_eq hes "cell_type" (by simp), entryOr_eq hes "metadata" (by simp), hsource,
    entry_eq hes "execution_count" (by simp)]
  -- a cell that is not code has a joined source and no outputs, so it is the same
  refine Logged.alike_ite ?_ (Logged.alike_refl .same _)
  refine Logged.alike_bind (Logged.alike_ofExcept houtputs) fun vs vs' hvs => ?_
  refine Logged.alike_bind (alike_outputsFrom hvs index 0) fun os os' hos => Logged.alike_pure ?_
  have hchildren := ListsAlike.list (.cons (.same (bare .code [("value",
    .text (joinText (entry es "source"))), ("lang", language), ("meta", .null)])) hos)
  exact .node .codeCell (.first (.inr ⟨rfl, hchildren⟩) _)

/-- Cells that are alike are read to cells that are, with the same told. -/
theorem alike_cellsFrom (language : Value) {vs vs' : List Value}
    (h : List.Forall₂ CellsAlike vs vs') (index : Nat) :
    Logged.Alike (List.Forall₂ CellNodesAlike) (cellsFrom settings language index vs)
      (cellsFrom settings language index vs') := by
  induction h generalizing index with
  | nil => exact Logged.alike_pure .nil
  | cons hfirst _ ih =>
    rw [cellsFrom, cellsFrom]
    refine Logged.alike_bind (alike_cell settings language index hfirst) fun c c' hc => ?_
    exact Logged.alike_bind (ih (index + 1)) fun cs cs' hcs => Logged.alike_pure (.cons hc hcs)

/-- Alike notebooks become trees that are the same but for the bundles. -/
theorem alike_convert {nb nb' : Value} (h : NotebooksAlike nb nb') :
    Logged.Alike TreesAlike (convert settings nb) (convert settings nb') := by
  rw [convert, convert]
  refine Logged.alike_bind (Logged.alike_ofExcept (alike_entriesOf h)) fun es es' hes => ?_
  dsimp only
  rw [entryOr_eq hes "metadata" (by simp), get?_eq hes "nbformat" (by simp),
    get?_eq hes "nbformat_minor" (by simp)]
  refine Logged.alike_bind_left _ fun language => ?_
  have hcells : Except.Alike (List.Forall₂ CellsAlike)
      ((Entries.get? es "cells").getD (.list [])).items
      ((Entries.get? es' "cells").getD (.list [])).items :=
    items_alike .same ((getD_alike hes "cells" _).imp_right And.right)
  refine Logged.alike_bind (Logged.alike_ofExcept hcells) fun vs vs' hvs => ?_
  refine Logged.alike_bind (alike_cellsFrom settings language hvs 0) fun cs cs' hcs => ?_
  -- the number of cells goes into the log, so it has to be the same
  rw [hcs.length_eq]
  refine Logged.alike_bind_left _ fun _ => Logged.alike_pure ?_
  exact .node .root (.first (.inr ⟨rfl, .list hcs⟩) _)

/-- Notebooks with the same texts are read with the same fault, or to trees that are the same but
for the payloads of bundles. They may come in any form, from the same place. -/
theorem alike_read {files files' : Folder} {source source' : Source} {nb nb' : Value}
    {path : Option String} (hnb : dataOf files source = .ok (nb, path))
    (hnb' : dataOf files' source' = .ok (nb', path)) (h : NotebooksAlike nb nb') :
    Logged.Alike TreesAlike (read files settings source) (read files' settings source') := by
  rw [read, read, hnb, hnb']
  refine Logged.alike_bind_left _ fun chosen => ?_
  refine Logged.alike_bind (R := fun found found' => found = (nb, path) ∧ found' = (nb', path))
    (Logged.alike_ofExcept (.ok ⟨rfl, rfl⟩)) fun found found' hfound => ?_
  obtain ⟨rfl, rfl⟩ := hfound
  dsimp only
  rw [isNotebook_alike h]
  have htree := alike_convert chosen h
  exact Logged.alike_ite (Logged.alike_bind_left _ fun _ => htree) htree

end Cells

end Notebook

end NotebookTree

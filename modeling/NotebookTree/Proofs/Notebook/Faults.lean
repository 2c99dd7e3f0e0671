import NotebookTree.Proofs.Misuse
import NotebookTree.Proofs.Notebook.Shape

/-!
# Notebooks that can be read

A notebook is only looked at from above before it is read: it has to be a record with a list of
cells. What the cells are is found out on the way. It can be read exactly if all that is taken for a
record is one, and all that is gone through can be; where it is not, reading ends in misuse, and not
in a failure that says what is wrong with the notebook.

## Main definitions

* `IsReadable`: a notebook whose parts are what they are taken for.
* `HoldsMarkdown`: a Markdown cell with its text.
* `MisuseUnless`: misuse, and something does not hold.

## Main statements

* `endsIn_convert`: reading returns only if the notebook is readable, and else is misuse.
* `exists_outcome_convert_iff`: a notebook can be read exactly if it is readable.
-/

namespace NotebookTree

/-- The extensions that settings stand for are found, unless the settings are misused. -/
theorem Markdown.misuse_extensionsFor (settings : Value) :
    (extensionsFor settings).FaultsIn Fault.IsMisuse := by
  rw [extensionsFor]
  split
  · exact Except.faultsIn_bind (settings.misuse_field _) fun plugins =>
      Except.faultsIn_bind plugins.misuse_items fun _ => Except.faultsIn_ok _
  · exact Except.faultsIn_ok _

namespace Notebook

open Logged (EndsIn FaultsIn endsIn_pure endsIn_tell endsIn_bind endsIn_ofExcept_bind)

/-! ## What can be read -/

/-- An output that can be read: a record, and an error has lines that can be gone through. -/
def IsReadableOutput (output : Value) : Prop :=
  ∃ es, output = .record es ∧ (entry es "output_type" = .text "error" →
    ∃ lines, (entryOr es "traceback" (.list [])).items = .ok lines)

/-- A cell that can be read: a record, and code has outputs that can be read one by one. -/
def IsReadableCell (v : Value) : Prop :=
  ∃ es, v = .record es ∧ (entry es "cell_type" = .text "code" →
    ∃ outputs, (entryOr es "outputs" (.list [])).items = .ok outputs ∧
      ∀ o ∈ outputs, IsReadableOutput o)

/-- A notebook that can be read: the records that tell its language are some, and each of its cells
can be read. -/
structure IsReadable (es : Entries Value) (entries : List Value) : Prop where
  language : ∃ l, Notebook.language (entryOr es "metadata" (.record [])) = .ok l
  cells : ∀ v ∈ entries, IsReadableCell v

/-- A Markdown cell with a text. -/
def HoldsMarkdown (v : Value) (source : String) : Prop :=
  ∃ es, v = .record es ∧ entry es "cell_type" = .text "markdown" ∧
    joinText (entry es "source") = source

/-- Misuse, and something does not hold. -/
def MisuseUnless (p : Prop) (f : Fault) : Prop := f.IsMisuse ∧ ¬ p

/-- What may fail under a condition may fail under a wider one. -/
theorem MisuseUnless.mono {p q : Prop} (h : q → p) {f : Fault} (hf : MisuseUnless p f) :
    MisuseUnless q f := ⟨hf.1, mt h hf.2⟩

/-! ## Parts of notebooks -/

/-- Taking a value for a record fails as misuse alone. -/
theorem misuse_entriesOf (v : Value) : (entriesOf v).FaultsIn Fault.IsMisuse := by
  unfold entriesOf
  split
  · exact Except.faultsIn_ok _
  · exact Except.faultsIn_error (v.misuse_lacks "get")

/-- What is not a record does not hold what is asked of a record. -/
theorem faultsIn_entriesOf {v : Value} {p : Prop} (hp : p → ∃ es, v = .record es) :
    (entriesOf v).FaultsIn (MisuseUnless p) := by
  refine fun e he => ⟨misuse_entriesOf v e he, fun h => ?_⟩
  obtain ⟨es, rfl⟩ := hp h
  cases he

/-- What cannot be gone through does not hold what is asked of a sequence. -/
theorem faultsIn_items {v : Value} {p : Prop} (hp : p → ∃ xs, v.items = .ok xs) :
    v.items.FaultsIn (MisuseUnless p) := by
  refine fun e he => ⟨v.misuse_items e he, fun h => ?_⟩
  obtain ⟨xs, hxs⟩ := hp h
  rw [hxs] at he
  cases he

/-- Asking the metadata for the language fails as misuse alone. -/
theorem misuse_language (metadata : Value) :
    (language metadata).FaultsIn Fault.IsMisuse := by
  refine Except.faultsIn_bind (misuse_entriesOf _) fun es => ?_
  refine Except.faultsIn_bind (misuse_entriesOf _) fun info => ?_
  dsimp only
  split
  · exact Except.faultsIn_ok _
  · exact Except.faultsIn_bind (misuse_entriesOf _) fun kernel => Except.faultsIn_ok _

/-- An output is read only if it can be. -/
theorem endsIn_output? (output : Value) (cellIndex index : Nat) :
    EndsIn (IsReadableOutput output) (MisuseUnless (IsReadableOutput output))
      (output? output cellIndex index) := by
  refine endsIn_ofExcept_bind (faultsIn_entriesOf fun ⟨es, hes, _⟩ => ⟨es, hes⟩) fun es hes => ?_
  obtain rfl := entriesOf_eq_ok.mp hes
  -- only the lines of an error are looked at
  have hother : ∀ {word : String}, (entry es "output_type").equals (.text word) = true →
      word ≠ "error" → IsReadableOutput (.record es) := by
    intro word h hne
    refine ⟨es, rfl, fun herror => ?_⟩
    rw [Value.equals_text_iff.mp h] at herror
    exact absurd (Value.text.inj herror) hne
  dsimp only
  split
  · exact endsIn_pure (hother ‹_› (by decide)) _
  split
  · exact endsIn_pure (hother ‹_› (by decide)) _
  split
  · exact endsIn_pure (hother ‹_› (by decide)) _
  split
  · rename_i herror
    have hlines : IsReadableOutput (.record es) →
        ∃ lines, (entryOr es "traceback" (.list [])).items = .ok lines := by
      rintro ⟨es', hes', h⟩
      obtain rfl := Value.record.inj hes'
      exact h (Value.equals_text_iff.mp herror)
    exact endsIn_ofExcept_bind (faultsIn_items hlines) fun lines h =>
      endsIn_pure ⟨es, rfl, fun _ => ⟨lines, h⟩⟩ _
  · rename_i hne
    have hreadable : IsReadableOutput (.record es) :=
      ⟨es, rfl, fun h => absurd (Value.equals_text_iff.mpr h) hne⟩
    exact endsIn_bind (endsIn_tell hreadable _) fun _ h => endsIn_pure h _

/-- Outputs are read only if all of them can be. -/
theorem endsIn_outputsFrom (cellIndex : Nat) : ∀ (index : Nat) (vs : List Value),
    EndsIn (∀ o ∈ vs, IsReadableOutput o) (MisuseUnless (∀ o ∈ vs, IsReadableOutput o))
      (outputsFrom cellIndex index vs)
  | _, [] => endsIn_pure (List.forall_mem_nil _) _
  | index, v :: vs => by
    rw [List.forall_mem_cons]
    refine endsIn_bind ((endsIn_output? v cellIndex index).mono id fun _ =>
      MisuseUnless.mono And.left) fun node? hv => ?_
    refine endsIn_bind ((endsIn_outputsFrom cellIndex (index + 1) vs).mono id fun _ =>
      MisuseUnless.mono And.right) fun nodes hvs => ?_
    exact endsIn_pure ⟨hv, hvs⟩ _

section Engine

variable [Markdown.Engine] {settings language : Value} {S : Fault → Prop}

/-- A cell is read only if it can be, and else is misuse, unless its Markdown has failed. -/
theorem endsIn_cell {v : Value}
    (hcontent : ∀ source, HoldsMarkdown v source → FaultsIn S (markdownContent settings source))
    (index : Nat) :
    EndsIn (IsReadableCell v) (fun f => MisuseUnless (IsReadableCell v) f ∨ S f)
      (cell settings language index v) := by
  refine endsIn_ofExcept_bind (fun e he => .inl (faultsIn_entriesOf
    (fun ⟨es, hes, _⟩ => ⟨es, hes⟩) e he)) fun es hes => ?_
  obtain rfl := entriesOf_eq_ok.mp hes
  dsimp only
  by_cases hcode : entry es "cell_type" = .text "code"
  · -- only the outputs of code are looked at
    have hlisted : IsReadableCell (.record es) → ∃ outputs,
        (entryOr es "outputs" (.list [])).items = .ok outputs ∧
          ∀ o ∈ outputs, IsReadableOutput o := by
      rintro ⟨es', hes', h⟩
      obtain rfl := Value.record.inj hes'
      exact h hcode
    rw [if_pos (Value.equals_text_iff.mpr hcode)]
    refine endsIn_ofExcept_bind (fun e he => .inl (faultsIn_items
      (fun h => (hlisted h).imp fun _ => And.left) e he)) fun outputs houtputs => ?_
    have hall : IsReadableCell (.record es) → ∀ o ∈ outputs, IsReadableOutput o := fun h => by
      obtain ⟨vs, hvs, hread⟩ := hlisted h
      rwa [Except.ok.inj (houtputs.symm.trans hvs)]
    refine endsIn_bind ((endsIn_outputsFrom index 0 outputs).mono id fun f hf =>
      .inl (hf.mono hall)) fun nodes hread => ?_
    exact endsIn_pure ⟨es, rfl, fun _ => ⟨outputs, houtputs, hread⟩⟩ _
  -- any other cell can be read, whatever it holds
  have hreadable : IsReadableCell (.record es) := ⟨es, rfl, fun h => absurd h hcode⟩
  rw [if_neg (mt Value.equals_text_iff.mp hcode)]
  split
  · have htext := hcontent _ ⟨es, rfl, Value.equals_text_iff.mp ‹_›, rfl⟩
    refine endsIn_bind (q := True) ⟨fun _ _ _ _ => trivial, ?_⟩ fun _ _ => endsIn_pure hreadable _
    exact fun before e after h => .inr (htext before e after h)
  split
  · exact endsIn_bind (endsIn_tell hreadable _) fun _ h => endsIn_pure h _
  · exact endsIn_pure hreadable _

/-- Cells are read only if all of them can be. -/
theorem endsIn_cellsFrom : ∀ (index : Nat) {vs : List Value},
    (∀ v ∈ vs, ∀ source, HoldsMarkdown v source →
      FaultsIn S (markdownContent settings source)) →
    EndsIn (∀ v ∈ vs, IsReadableCell v)
      (fun f => MisuseUnless (∀ v ∈ vs, IsReadableCell v) f ∨ S f)
      (cellsFrom settings language index vs)
  | _, [], _ => endsIn_pure (List.forall_mem_nil _) _
  | index, v :: vs, hcontent => by
    obtain ⟨hfirst, hrest⟩ := List.forall_mem_cons.mp hcontent
    rw [List.forall_mem_cons]
    refine endsIn_bind ((endsIn_cell hfirst index).mono id fun _ =>
      Or.imp_left (MisuseUnless.mono And.left)) fun c hv => ?_
    refine endsIn_bind ((endsIn_cellsFrom (index + 1) hrest).mono id fun _ =>
      Or.imp_left (MisuseUnless.mono And.right)) fun cells hvs => ?_
    exact endsIn_pure ⟨hv, hvs⟩ _

/-! ## Notebooks -/

/-- A notebook is read only if it can be, and else is misuse, unless its Markdown has failed. -/
theorem endsIn_convert {es : Entries Value} {entries : List Value}
    (hcontent : ∀ v ∈ entries, ∀ source, HoldsMarkdown v source →
      FaultsIn S (markdownContent settings source))
    (hcells : Entries.get? es "cells" = some (.list entries)) :
    EndsIn (IsReadable es entries) (fun f => MisuseUnless (IsReadable es entries) f ∨ S f)
      (convert settings (.record es)) := by
  refine endsIn_ofExcept_bind (fun e he => nomatch he) fun es' hes => ?_
  obtain rfl := Except.ok.inj hes
  -- the language is looked up before the first cell
  refine endsIn_ofExcept_bind (fun e he => .inl ⟨misuse_language _ e he, fun h => ?_⟩)
    fun language hlanguage => ?_
  · obtain ⟨l, hl⟩ := h.language
    rw [hl] at he
    cases he
  rw [hcells]
  refine endsIn_ofExcept_bind (fun e he => nomatch he) fun entries' hentries => ?_
  obtain rfl : entries = entries' := Except.ok.inj hentries
  refine endsIn_bind ((endsIn_cellsFrom 0 hcontent).mono id fun _ =>
    Or.imp_left (MisuseUnless.mono IsReadable.cells)) fun cells hread => ?_
  exact endsIn_bind (endsIn_tell ⟨⟨language, hlanguage⟩, hread⟩ _) fun _ h => endsIn_pure h _

/-- A notebook can be read exactly if it is readable, as long as the Markdown of its cells can be. -/
theorem exists_outcome_convert_iff {es : Entries Value} {entries : List Value}
    (hcontent : ∀ v ∈ entries, ∀ source, HoldsMarkdown v source →
      FaultsIn (fun _ => False) (markdownContent settings source))
    (hcells : Entries.get? es "cells" = some (.list entries)) :
    (∃ root log, (convert settings (.record es)).outcome = (.ok root, log)) ↔
      IsReadable es entries := by
  have hends := endsIn_convert hcontent hcells
  refine ⟨fun ⟨root, log, h⟩ => hends.returns [] root log h, fun hread => ?_⟩
  rcases h : (convert settings (.record es)).outcome with ⟨e | root, log⟩
  · rcases hends.faults [] e log h with hmisuse | hnever
    · exact absurd hread hmisuse.2
    · exact hnever.elim
  · exact ⟨root, log, rfl⟩

end Engine

end Notebook

end NotebookTree

import NotebookTree.Command.Run
import NotebookTree.Proofs.Mime.Choice
import NotebookTree.Proofs.Notebook.EntryPoints

/-!
# The table of outputs

The rows about outputs are made from the tree of a notebook, by a look at every child of every cell.
Here they are told from the entries of the notebook itself: one row for each entry of a known type,
in the order of the notebook. Nothing else in a cell passes for an output, and an entry of an
unknown type has left no node.

Plainly the rows are printed. An engine for drawing, if there is one, is handed the table of them,
and what it makes of the table is its own affair.

## Main definitions

* `listedOutputs`: the entries that rows are about, each with the index of its cell.
* `offeredTypes`: the types of content that an entry offers.
* `RowOf`: what the row about an entry says.
* `IsWhole`: a file whose text has no half of a pair.

## Main statements

* `exists_outputRows`: the rows of a notebook's tree.
* `outputs_listed`: the rows of a notebook, and what is printed of them.
-/

namespace NotebookTree.Command

open Notebook

/-! ## What rows are about -/

/-- The entries of known types in the cells of a notebook, each with the index of its cell, which is
`index` for the first. -/
def listedOutputsFrom (index : Nat) (entries : List Value) : List (Nat × Value) :=
  (entries.zipIdx index).flatMap fun c =>
    ((outputsIn c.1).filter isKnownOutput).map fun output => (c.2, output)

/-- The entries of known types in the cells of a notebook, each with the index of its cell. -/
def listedOutputs (entries : List Value) : List (Nat × Value) := listedOutputsFrom 0 entries

/-- The bundle of an entry. Without one, or with one that does not count, it is empty. -/
def bundleOf : Value → Value
  | .record es => entryOr es "data" (.record [])
  | _ => .record []

/-- The types of content that an entry offers: those of its bundle, in order, if it has one. -/
def offeredTypes (output : Value) : List String :=
  match outputType output with
  | .text "stream" => ["text/plain"]
  | .text "error" => ["application/vnd.jupyter.error"]
  | _ => match bundleOf output with
    | .record es => es.map Prod.fst
    | _ => []

/-- The words for types of outputs in notebooks, and those of their nodes. -/
def outputWords : List (Value × String) :=
  [(.text "stream", "stream"), (.text "display_data", "displayData"),
   (.text "execute_result", "executeResult"), (.text "error", "error")]

/-- The entry for a display or a result has a record for its bundle. -/
def HasBundle (output : Value) : Prop :=
  outputType output = .text "display_data" ∨ outputType output = .text "execute_result" →
    ∃ es, bundleOf output = .record es

/-- What the row about an entry says: the index of its cell, the type of its node, the first of the
types of content with the greatest priority that it offers, and the category of that. -/
structure RowOf (output : Nat × Value) (row : OutputRow) : Prop where
  cell : row.cell = output.1
  type : (outputType output.2, row.type) ∈ outputWords
  best : (offeredTypes output.2 = [] ∧ row.best = "") ∨
    Mime.IsFirstGreatest Mime.priority (offeredTypes output.2) row.best
  category : row.category = if row.best.isEmpty then "" else (Mime.category row.best).word

/-! ## Rows of nodes -/

/-- The row about a node that is an output is made of its type and the types it offers. -/
theorem row_of_types {cell : Nat} {node : Value} {type : String} {types : List String}
    (hout : node.isOutput = .ok true) (htype : node.type? = some (.text type))
    (htypes : Output.types node = .ok types) :
    OutputRow.of? cell node = .ok (some ⟨cell, type, (Mime.best? types).getD "",
      if ((Mime.best? types).getD "").isEmpty then ""
      else (Mime.category ((Mime.best? types).getD "")).word⟩) := by
  rw [OutputRow.of?, hout, Output.bestType, htypes, htype]
  rfl

/-- The best of the types that are offered is the first with the greatest priority. -/
theorem best_cases (types : List String) :
    (types = [] ∧ (Mime.best? types).getD "" = "") ∨
      Mime.IsFirstGreatest Mime.priority types ((Mime.best? types).getD "") := by
  cases hbest : Mime.best? types with
  | none => exact .inl ⟨Mime.best?_eq_none_iff.mp hbest, rfl⟩
  | some t => exact .inr (Mime.best?_eq_some_iff.mp hbest)

/-- The node of an output is one, and offers what its entry offers. -/
theorem outputOf_offers {output node : Value} (h : OutputOf output node)
    (hbundle : HasBundle output) :
    node.isOutput = .ok true ∧
      (∃ type, node.type? = some (.text type) ∧ (outputType output, type) ∈ outputWords) ∧
      Output.types node = .ok (offeredTypes output) := by
  cases h with
  | @stream es type =>
    have htype : outputType (.record es) = .text "stream" := type
    refine ⟨rfl, ⟨"stream", rfl, by simp [outputWords, htype]⟩, ?_⟩
    rw [offeredTypes, htype]
    rfl
  -- a result offers the names of its bundle, which is there
  | @displayData es type =>
    have htype : outputType (.record es) = .text "display_data" := type
    obtain ⟨bundle, hes⟩ := hbundle (.inl htype)
    refine ⟨rfl, ⟨"displayData", rfl, by simp [outputWords, htype]⟩, ?_⟩
    rw [bundleOf] at hes
    rw [offeredTypes, htype, bundleOf, hes]
    rfl
  | @executeResult es type =>
    have htype : outputType (.record es) = .text "execute_result" := type
    obtain ⟨bundle, hes⟩ := hbundle (.inr htype)
    refine ⟨rfl, ⟨"executeResult", rfl, by simp [outputWords, htype]⟩, ?_⟩
    rw [bundleOf] at hes
    rw [offeredTypes, htype, bundleOf, hes]
    rfl
  | @error es traceback type lines =>
    have htype : outputType (.record es) = .text "error" := type
    refine ⟨rfl, ⟨"error", rfl, by simp [outputWords, htype]⟩, ?_⟩
    rw [offeredTypes, htype]
    rfl

/-- The row about the node of an output is the one about its entry. -/
theorem exists_row (cell : Nat) {output node : Value} (h : OutputOf output node)
    (hbundle : HasBundle output) :
    ∃ row, OutputRow.of? cell node = .ok (some row) ∧ RowOf (cell, output) row := by
  obtain ⟨hout, ⟨type, htype, hwords⟩, htypes⟩ := outputOf_offers h hbundle
  exact ⟨_, row_of_types hout htype htypes, rfl, hwords, best_cases _, rfl⟩

/-- The rows about the nodes of outputs, one behind the other. -/
theorem exists_rows (cell : Nat) {outputs nodes : List Value}
    (h : List.Forall₂ OutputOf outputs nodes) (hbundles : ∀ o ∈ outputs, HasBundle o) :
    ∃ rows, nodes.filterMapM (OutputRow.of? cell) = .ok rows ∧
      List.Forall₂ RowOf (outputs.map fun o => (cell, o)) rows := by
  induction h with
  | nil => exact ⟨[], rfl, .nil⟩
  | cons hof _ ih =>
    obtain ⟨hbundle, hbundles⟩ := List.forall_mem_cons.mp hbundles
    obtain ⟨row, hrow, hrowOf⟩ := exists_row cell hof hbundle
    obtain ⟨rows, hrows, hall⟩ := ih hbundles
    refine ⟨row :: rows, ?_, .cons hrowOf hall⟩
    rw [List.filterMapM_cons, hrow, Except.ok_bind]
    dsimp only
    rw [hrows]
    rfl

/-! ## Rows of cells -/

section Cells

variable [Markdown.Engine] {settings language : Value}

/-- Rows are about the outputs of a cell. The code of a cell is none, nor is what Markdown and raw
cells hold. -/
theorem exists_rows_of_cell (index : Nat) {v c : Value} (h : CellOf settings language v c)
    (hbundles : ∀ o ∈ outputsIn v, HasBundle o) :
    ∃ rows, (c.children?.getD []).filterMapM (OutputRow.of? index) = .ok rows ∧
      List.Forall₂ RowOf (((outputsIn v).filter isKnownOutput).map fun o => (index, o)) rows := by
  cases h with
  | code type listed outputs =>
    -- the first child is the code, which makes no row
    rw [outputsIn_of_code type listed] at hbundles ⊢
    obtain ⟨rows, hrows, hall⟩ := exists_rows index outputs fun o ho =>
      hbundles o (List.mem_filter.mp ho).1
    refine ⟨rows, ?_, hall⟩
    rw [← hrows]
    exact List.filterMapM_cons
  | markdown type holds =>
    rw [outputsIn_of_other (by simp [type])]
    refine ⟨[], ?_, .nil⟩
    cases holds <;> rfl
  | other notCode notMarkdown =>
    rw [outputsIn_of_other notCode]
    exact ⟨[], rfl, .nil⟩

/-- Rows are about the outputs of cells, one cell behind the other. -/
theorem exists_rows_of_cells {entries cells : List Value}
    (h : List.Forall₂ (CellOf settings language) entries cells)
    (hbundles : ∀ v ∈ entries, ∀ o ∈ outputsIn v, HasBundle o) (index : Nat) :
    ∃ rows, (cells.zipIdx index).mapM (fun c =>
        (c.1.children?.getD []).filterMapM (OutputRow.of? c.2)) = .ok rows ∧
      List.Forall₂ RowOf (listedOutputsFrom index entries) rows.flatten := by
  -- the index runs with the cells, so the induction is for every first index
  induction h generalizing index with
  | nil => exact ⟨[], rfl, .nil⟩
  | cons hof _ ih =>
    obtain ⟨hbundle, hbundles⟩ := List.forall_mem_cons.mp hbundles
    obtain ⟨first, hfirst, hfirstOf⟩ := exists_rows_of_cell index hof hbundle
    obtain ⟨rest, hrest, hrestOf⟩ := ih hbundles (index + 1)
    refine ⟨first :: rest, ?_, ?_⟩
    · rw [List.zipIdx_cons, List.mapM_cons]
      dsimp only
      rw [hfirst, Except.ok_bind, hrest]
      rfl
    · rw [listedOutputsFrom, List.zipIdx_cons, List.flatMap_cons, List.flatten_cons]
      exact List.rel_append hfirstOf hrestOf

/-! ## The rows of a notebook -/

/-- The rows of the tree of a notebook are about its entries of known types, in order. -/
theorem exists_outputRows {root : Value} {cells entries : List Value}
    (hroot : root.children? = some cells)
    (h : List.Forall₂ (CellOf settings language) entries cells)
    (hbundles : ∀ v ∈ entries, ∀ o ∈ outputsIn v, HasBundle o) :
    ∃ rows, outputRows root = .ok rows ∧ List.Forall₂ RowOf (listedOutputs entries) rows := by
  obtain ⟨rows, hrows, hall⟩ := exists_rows_of_cells h hbundles 0
  refine ⟨rows.flatten, ?_, hall⟩
  rw [outputRows, hroot, Option.getD_some, hrows]
  rfl

end Cells

/-! ## What is printed -/

section Text

variable [Markdown.Engine] [Terminal.Engine] {files : Folder} {r : OutputsRequest}
  {log : List Log.Entry}

/-- What is printed of the rows about a notebook. -/
def printedRows (r : OutputsRequest) (width : Nat) (rows : List OutputRow) :
    Except Fault String :=
  if r.drawn && Terminal.Engine.installed then
    Terminal.Engine.printTable width (outputTable rows)
  else .ok (listedText rows)

/-- What a request for outputs comes to: the fault of reading, or that of the rows, or what is
printed of them. -/
theorem outputsText_of_read {result : Except Fault Value}
    (hread : (readAtPath files .null r.notebook).outcome = (result, log)) (width : Nat) :
    outputsText width files r = (result >>= outputRows >>= printedRows r width, log) := by
  have hrest : ∀ a, Logged.OnlyTells (Logged.ofExcept (outputRows a) >>= fun rows =>
      if r.drawn && Terminal.Engine.installed then
        Logged.ofExcept (Terminal.Engine.printTable width (outputTable rows))
      else return listedText rows) := fun a => by
    refine Logged.onlyTells_bind (Logged.onlyTells_ofExcept _) fun rows => ?_
    split
    · exact Logged.onlyTells_ofExcept _
    · exact Logged.onlyTells_pure _
  refine (Logged.outcome_bind hrest).trans ?_
  rw [hread]
  cases result with
  | error e => rfl
  | ok root =>
    dsimp only
    rw [Logged.outcome_ofExcept_bind, Except.ok_bind]
    cases outputRows root with
    | error e => exact Prod.ext rfl (List.append_nil log)
    | ok rows =>
      -- the rows are printed without another entry in the log
      simp only [Except.ok_bind, printedRows]
      cases r.drawn && Terminal.Engine.installed with
      | true =>
        cases Terminal.Engine.printTable width (outputTable rows) with
        | ok text => exact Prod.ext rfl (List.append_nil log)
        | error e => exact Prod.ext rfl (List.append_nil log)
      | false => exact Prod.ext rfl (List.append_nil log)

/-- What is printed of the rows of a notebook that could be read. -/
theorem outputsText_of_rows {root : Value} {rows : List OutputRow}
    (hread : (readAtPath files .null r.notebook).outcome = (.ok root, log))
    (hrows : outputRows root = .ok rows) (width : Nat) :
    outputsText width files r = (printedRows r width rows, log) := by
  rw [outputsText_of_read hread, Except.ok_bind, hrows, Except.ok_bind]

end Text

/-! ## Files -/

/-- A file whose text has no half of a pair. Of any other, what is read is not quite what the text
says, and cannot be printed. -/
def IsWhole (files : Folder) (path : String) : Prop :=
  ∀ text, files.find path >>= decodeText = .ok text → ¬ Json.LosesHalf (unifyLineEnds text)

/-- Whether a file is whole is found out by reading its text. -/
theorem isWhole_of_check {files : Folder} {path : String}
    (h : ((files.find path >>= decodeText).toOption.all fun text =>
      !Json.losesHalfFrom .between (unifyLineEnds text)) = true) : IsWhole files path := by
  intro text htext
  rw [htext] at h
  simpa [Json.LosesHalf, Except.toOption] using h

/-- Where there is room for its notebook, a task comes to its text. -/
theorem Task.textWithin_of_room [Markdown.Engine] [Terminal.Engine] {nesting : Nat} {task : Task}
    {files : Folder}
    (h : fileDataWithin nesting files (tidyPath task.notebook) ≠ .error .tooDeep) (width : Nat) :
    task.textWithin nesting width files = task.text width files := by
  rw [textWithin]
  split
  · exact absurd ‹_› h
  · rfl

/-- So does one whose notebook has data. -/
theorem Task.textWithin_of_data [Markdown.Engine] [Terminal.Engine] {nesting : Nat} {task : Task}
    {files : Folder} {v : Value}
    (h : fileDataWithin nesting files (tidyPath task.notebook) = .ok v) (width : Nat) :
    task.textWithin nesting width files = task.text width files := by
  refine textWithin_of_room ?_ width
  rw [h]
  exact nofun

/-- An entry for a display in two forms. -/
def listedDisplay : Value :=
  .record [("output_type", .text "display_data"),
    ("data", .record [("text/plain", .text "1"), ("text/html", .text "1")])]

/-- An entry for a code cell with this display. -/
def listedCell : Value :=
  .record [("cell_type", .text "code"), ("outputs", .list [listedDisplay])]

/-- A folder with a notebook that has this entry. -/
def listedFolder : Folder :=
  [(["a"], ("\x7b\"cells\":[\x7b\"cell_type\":\"code\",\"outputs\":" ++
    "[\x7b\"output_type\":\"display_data\",\"data\":" ++
    "\x7b\"text/plain\":\"1\",\"text/html\":\"1\"\x7d\x7d]\x7d]\x7d").toUTF8)]

set_option maxRecDepth 50000 in
/-- The data of this notebook, in which six brackets are open at most. -/
theorem listedFolder_dataWithin : fileDataWithin 6 listedFolder (tidyPath "a") =
    .ok (.record [("cells", .list [listedCell])]) := rfl

/-- The data of this notebook. -/
theorem listedFolder_data : fileData listedFolder (tidyPath "a") =
    .ok (.record [("cells", .list [listedCell])]) := fileData_of_within listedFolder_dataWithin

end NotebookTree.Command

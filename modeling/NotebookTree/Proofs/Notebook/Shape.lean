import NotebookTree.Notebook.Source
import NotebookTree.Proofs.Markdown.Elements
import Mathlib.Data.List.Forall2

/-!
# The shape of a notebook's tree

What a notebook becomes is said by relations, one for outputs, one for what Markdown cells hold, one
for cells. Each has a case for each type of entry, so that what holds of the whole tree comes from
one look at the cases. A run that reads entries ends in nodes that are so related to them, and tells
a warning for each output that has no node.

## Main definitions

* `OutputOf`, `ContentOf`, `CellOf`: the node for an output, for the text of a Markdown cell, for a
  cell.
* `leftOutOfCells`: the warnings about outputs without a node.
* `CarriesText`: a node that carries text has one.

## Main results

* `read_shape`: the tree of a notebook and the warnings about it.
-/

namespace NotebookTree.Notebook

open Logged (OnlyTells)

/-! ## Outputs -/

/-- The type that an output names. -/
def outputType : Value → Value
  | .record es => entry es "output_type"
  | _ => .null

/-- Whether the type of an output is one of those that have nodes. -/
def isKnownOutput (output : Value) : Bool :=
  match outputType output with
  | .text word => ["stream", "display_data", "execute_result", "error"].contains word
  | _ => false

/-- An output has a node of the kind for its type. -/
inductive OutputOf : Value → Value → Prop
  | stream {es : Entries Value} (type : entry es "output_type" = .text "stream") :
      OutputOf (.record es) (bare .stream
        [("name", (Entries.get? es "name").getD (.text "stdout")),
         ("text", .text (joinText (entry es "text")))])
  | displayData {es : Entries Value} (type : entry es "output_type" = .text "display_data") :
      OutputOf (.record es) (.node .displayData
        [("data", entryOr es "data" (.record [])), ("metadata", entry es "metadata"),
         ("position", .null)])
  | executeResult {es : Entries Value} (type : entry es "output_type" = .text "execute_result") :
      OutputOf (.record es) (.node .executeResult
        [("data", entryOr es "data" (.record [])), ("execution_count", entry es "execution_count"),
         ("metadata", entry es "metadata"), ("position", .null)])
  | error {es : Entries Value} {traceback : List Value}
      (type : entry es "output_type" = .text "error")
      (lines : (entryOr es "traceback" (.list [])).items = .ok traceback) :
      OutputOf (.record es) (bare .error
        [("ename", (Entries.get? es "ename").getD (.text "")),
         ("evalue", (Entries.get? es "evalue").getD (.text "")),
         ("traceback", .list traceback)])

/-- What stands in the second of two related lists is related to something in the first. -/
theorem exists_of_forall₂_of_mem {α β : Type} {R : α → β → Prop} {as : List α} {bs : List β}
    {b : β} (h : List.Forall₂ R as bs) (hb : b ∈ bs) : ∃ a ∈ as, R a b := by
  induction h with
  | nil => cases hb
  | cons hr _ ih =>
    obtain rfl | hb := List.mem_cons.mp hb
    · exact ⟨_, List.mem_cons_self, hr⟩
    · obtain ⟨a, ha, har⟩ := ih hb
      exact ⟨a, List.mem_cons_of_mem _ ha, har⟩

/-- A notebook is a record with a list of cells. -/
theorem exists_of_isNotebook {notebook : Value} (h : isNotebook notebook = true) :
    ∃ es entries, notebook = .record es ∧ Entries.get? es "cells" = some (.list entries) := by
  unfold isNotebook at h
  split at h
  · rename_i es
    split at h
    · rename_i entries hentries
      exact ⟨es, entries, rfl, hentries⟩
    · cases h
  · cases h

/-- The warning about an output that is left out. -/
def leftOut (cellIndex index : Nat) (output : Value) : Log.Entry :=
  .warning .reader ("Skipping unsupported output type '" ++ (outputType output).plainText
    ++ "' in cell " ++ toString cellIndex ++ " (output " ++ toString index ++ ")")

/-- What is taken for a record is one. -/
theorem entriesOf_eq_ok {v : Value} {es : Entries Value} :
    entriesOf v = .ok es ↔ v = .record es := by
  cases v <;> simp [entriesOf]

/-- Reading an output only adds to what was told. -/
theorem onlyTells_output? (output : Value) (cellIndex index : Nat) :
    OnlyTells (output? output cellIndex index) := by
  refine Logged.onlyTells_bind (Logged.onlyTells_ofExcept _) fun es => ?_
  dsimp only
  split
  · exact Logged.onlyTells_pure _
  split
  · exact Logged.onlyTells_pure _
  split
  · exact Logged.onlyTells_pure _
  split
  · exact Logged.onlyTells_bind (Logged.onlyTells_ofExcept _) fun _ => Logged.onlyTells_pure _
  · exact Logged.onlyTells_bind (Logged.onlyTells_tell _) fun _ => Logged.onlyTells_pure _

/-- An output has a node if its type is known, and else a warning tells that it is left out. -/
theorem output?_cases {output : Value} {cellIndex index : Nat} {node? : Option Value}
    {log : List Log.Entry} (h : (output? output cellIndex index).outcome = (.ok node?, log)) :
    (isKnownOutput output = true ∧ ∃ node, node? = some node ∧ OutputOf output node ∧ log = []) ∨
      (isKnownOutput output = false ∧ node? = none ∧ log = [leftOut cellIndex index output]) := by
  obtain ⟨es, hes, hrest⟩ := Logged.exists_of_outcome_ofExcept_bind h
  clear h
  obtain rfl := entriesOf_eq_ok.mp hes
  dsimp only at hrest
  -- the types are asked for in turn, and what is none of them is left out with a warning
  by_cases hstream : entry es "output_type" = .text "stream"
  · rw [if_pos (Value.equals_text_iff.mpr hstream)] at hrest
    obtain ⟨rfl, rfl⟩ := Logged.eq_of_outcome_pure hrest
    exact .inl ⟨by simp [isKnownOutput, outputType, hstream], _, rfl, .stream hstream, rfl⟩
  rw [if_neg (mt Value.equals_text_iff.mp hstream)] at hrest
  by_cases hdisplay : entry es "output_type" = .text "display_data"
  · rw [if_pos (Value.equals_text_iff.mpr hdisplay)] at hrest
    obtain ⟨rfl, rfl⟩ := Logged.eq_of_outcome_pure hrest
    exact .inl ⟨by simp [isKnownOutput, outputType, hdisplay], _, rfl, .displayData hdisplay, rfl⟩
  rw [if_neg (mt Value.equals_text_iff.mp hdisplay)] at hrest
  by_cases hresult : entry es "output_type" = .text "execute_result"
  · rw [if_pos (Value.equals_text_iff.mpr hresult)] at hrest
    obtain ⟨rfl, rfl⟩ := Logged.eq_of_outcome_pure hrest
    exact .inl ⟨by simp [isKnownOutput, outputType, hresult], _, rfl, .executeResult hresult, rfl⟩
  rw [if_neg (mt Value.equals_text_iff.mp hresult)] at hrest
  by_cases herror : entry es "output_type" = .text "error"
  · rw [if_pos (Value.equals_text_iff.mpr herror)] at hrest
    obtain ⟨traceback, hlines, hrest⟩ := Logged.exists_of_outcome_ofExcept_bind hrest
    obtain ⟨rfl, rfl⟩ := Logged.eq_of_outcome_pure hrest
    exact .inl ⟨by simp [isKnownOutput, outputType, herror], _, rfl, .error herror hlines, rfl⟩
  rw [if_neg (mt Value.equals_text_iff.mp herror)] at hrest
  obtain ⟨rfl, rfl⟩ := Logged.eq_of_outcome_tell_pure hrest
  refine .inr ⟨?_, rfl, rfl⟩
  rw [isKnownOutput, outputType]
  split
  · rename_i word hword
    rw [hword] at hstream hdisplay hresult herror
    simp_all
  · rfl

/-- Reading outputs only adds to what was told. -/
theorem onlyTells_outputsFrom (cellIndex : Nat) :
    ∀ (index : Nat) (vs : List Value), OnlyTells (outputsFrom cellIndex index vs)
  | _, [] => Logged.onlyTells_pure _
  | index, v :: vs => Logged.onlyTells_bind (onlyTells_output? v cellIndex index) fun _ =>
      Logged.onlyTells_bind (onlyTells_outputsFrom cellIndex (index + 1) vs) fun _ =>
        Logged.onlyTells_pure _

/-- The warnings about those of some outputs that are left out, `index` being the place of the
first. -/
def leftOutFrom (cellIndex index : Nat) (outputs : List Value) : List Log.Entry :=
  ((outputs.zipIdx index).filter (fun o => !isKnownOutput o.1)).map
    (fun o => leftOut cellIndex o.2 o.1)

/-- The outputs of known types have nodes, in order, and the others a warning each. -/
theorem outputsFrom_cases {cellIndex : Nat} : ∀ {index : Nat} {vs nodes : List Value}
    {log : List Log.Entry}, (outputsFrom cellIndex index vs).outcome = (.ok nodes, log) →
      List.Forall₂ OutputOf (vs.filter isKnownOutput) nodes ∧
        log = leftOutFrom cellIndex index vs
  | _, [], _, _, h => by
    obtain ⟨rfl, rfl⟩ := Logged.eq_of_outcome_pure h
    exact ⟨.nil, rfl⟩
  | index, v :: vs, nodes, log, h => by
    obtain ⟨node?, first, rest, hnode, hvs, rfl⟩ := Logged.exists_of_outcome_bind
      (fun _ => Logged.onlyTells_bind (onlyTells_outputsFrom cellIndex (index + 1) vs)
        fun _ => Logged.onlyTells_pure _) h
    obtain ⟨others, logged, last, hothers, hlast, rfl⟩ := Logged.exists_of_outcome_bind
      (fun _ => Logged.onlyTells_pure _) hvs
    obtain ⟨rfl, rfl⟩ := Logged.eq_of_outcome_pure hlast
    obtain ⟨hshapes, rfl⟩ := outputsFrom_cases hothers
    -- an output that is left out adds its warning and no node
    obtain ⟨hknown, node, rfl, hof, rfl⟩ | ⟨hunknown, rfl, rfl⟩ := output?_cases hnode
    · rw [List.filter_cons_of_pos hknown]
      exact ⟨.cons hof hshapes, by simp [leftOutFrom, hknown]⟩
    · rw [List.filter_cons_of_neg (by simp [hunknown])]
      exact ⟨hshapes, by simp [leftOutFrom, hunknown]⟩

/-- The entries of a log that are warnings, or graver. -/
def warningsOf (log : List Log.Entry) : List Log.Entry :=
  log.filter (fun e => 30 ≤ e.level)

/-- The warnings of two logs are those of each. -/
@[simp] theorem warningsOf_append (first rest : List Log.Entry) :
    warningsOf (first ++ rest) = warningsOf first ++ warningsOf rest :=
  List.filter_append ..

/-- A message for debugging is no warning. -/
@[simp] theorem warningsOf_debug (part : Log.Part) (message : String) :
    warningsOf [.debug part message] = [] := rfl

/-- Whatever is left out is warned about. -/
theorem warningsOf_leftOutFrom (cellIndex index : Nat) (outputs : List Value) :
    warningsOf (leftOutFrom cellIndex index outputs) = leftOutFrom cellIndex index outputs := by
  refine List.filter_eq_self.mpr fun e he => ?_
  obtain ⟨o, -, rfl⟩ := List.mem_map.mp he
  rfl

/-! ## Cells -/

/-- What a Markdown cell holds: its text, or the elements of its text if settings ask for them. -/
inductive ContentOf [Markdown.Engine] (settings : Value) (source : String) : Value → Prop
  | unread {flag : Value} (asked : settings.field "parse_markdown" = .ok flag)
      (no : flag.isTruthy = false) :
      ContentOf settings source (bare .markdown [("value", .text source)])
  | read {flag options : Value} {elements : List Value}
      (asked : settings.field "parse_markdown" = .ok flag) (yes : flag.isTruthy = true)
      (chosen : settings.field "markdown_options" = .ok options)
      (parsed : Markdown.elementsFor options (.text source) = .ok elements) :
      ContentOf settings source (.node .parsedMarkdown [("children", .list elements),
        ("data", .record [("source", .text source)]), ("position", .null)])

/-- The entries of a code cell that are looked at for outputs. -/
def outputsIn : Value → List Value
  | .record es => if (entry es "cell_type").equals (.text "code")
    then (entryOr es "outputs" (.list [])).items?.getD [] else []
  | _ => []

/-- The outputs in a cell of code are those that it lists. -/
theorem outputsIn_of_code {es : Entries Value} {entries : List Value}
    (type : entry es "cell_type" = .text "code")
    (listed : (entryOr es "outputs" (.list [])).items = .ok entries) :
    outputsIn (.record es) = entries := by
  rw [outputsIn, if_pos (Value.equals_text_iff.mpr type)]
  rw [Value.items] at listed
  split at listed
  · rename_i hitems
    rw [hitems, Option.getD_some, Except.ok.inj listed]
  · cases listed

/-- There are no outputs in a cell that is not code. -/
theorem outputsIn_of_other {es : Entries Value} (notCode : entry es "cell_type" ≠ .text "code") :
    outputsIn (.record es) = [] := by
  rw [outputsIn, if_neg (mt Value.equals_text_iff.mp notCode)]

/-- The cell node of an entry, in a notebook with the given language: a code cell holds its code and
a node for each output of a known type, any other cell a single node with its text. -/
inductive CellOf [Markdown.Engine] (settings language : Value) : Value → Value → Prop
  | code {es : Entries Value} {entries nodes : List Value}
      (type : entry es "cell_type" = .text "code")
      (listed : (entryOr es "outputs" (.list [])).items = .ok entries)
      (outputs : List.Forall₂ OutputOf (entries.filter isKnownOutput) nodes) :
      CellOf settings language (.record es) (bare .codeCell
        [("children", .list (bare .code [("value", .text (joinText (entry es "source"))),
            ("lang", language), ("meta", .null)] :: nodes)),
         ("execution_count", entry es "execution_count"),
         ("metadata", entryOr es "metadata" (.record []))])
  | markdown {es : Entries Value} {content : Value}
      (type : entry es "cell_type" = .text "markdown")
      (holds : ContentOf settings (joinText (entry es "source")) content) :
      CellOf settings language (.record es) (bare .markdownCell
        [("children", .list [content]), ("metadata", entryOr es "metadata" (.record []))])
  | other {es : Entries Value} (notCode : entry es "cell_type" ≠ .text "code")
      (notMarkdown : entry es "cell_type" ≠ .text "markdown") :
      CellOf settings language (.record es) (bare .rawCell
        [("children", .list [bare .raw [("value", .text (joinText (entry es "source")))]]),
         ("metadata", entryOr es "metadata" (.record []))])

section Engine

variable [Markdown.Engine] {settings language : Value}

/-- Reading the Markdown of a cell only adds to what was told. -/
theorem onlyTells_markdownContent (settings : Value) (source : String) :
    OnlyTells (markdownContent settings source) := by
  refine Logged.onlyTells_bind (Logged.onlyTells_ofExcept _) fun flag => ?_
  split
  · exact Logged.onlyTells_pure _
  · exact Logged.onlyTells_bind (Logged.onlyTells_ofExcept _) fun _ =>
      Logged.onlyTells_bind (Markdown.onlyTells_parse _ _) fun _ => Logged.onlyTells_pure _

/-- Reading a cell only adds to what was told. -/
theorem onlyTells_cell (settings language : Value) (index : Nat) (v : Value) :
    OnlyTells (cell settings language index v) := by
  refine Logged.onlyTells_bind (Logged.onlyTells_ofExcept _) fun es => ?_
  dsimp only
  split
  · exact Logged.onlyTells_bind (Logged.onlyTells_ofExcept _) fun _ =>
      Logged.onlyTells_bind (onlyTells_outputsFrom _ _ _) fun _ => Logged.onlyTells_pure _
  split
  · exact Logged.onlyTells_bind (onlyTells_markdownContent _ _) fun _ => Logged.onlyTells_pure _
  split
  · exact Logged.onlyTells_bind (Logged.onlyTells_tell _) fun _ => Logged.onlyTells_pure _
  · exact Logged.onlyTells_pure _

/-- Reading cells only adds to what was told. -/
theorem onlyTells_cellsFrom (settings language : Value) :
    ∀ (index : Nat) (vs : List Value), OnlyTells (cellsFrom settings language index vs)
  | _, [] => Logged.onlyTells_pure _
  | index, v :: vs => Logged.onlyTells_bind (onlyTells_cell settings language index v) fun _ =>
      Logged.onlyTells_bind (onlyTells_cellsFrom settings language (index + 1) vs) fun _ =>
        Logged.onlyTells_pure _

/-- The content that is read is the one for the source, and nothing is warned of. -/
theorem markdownContent_cases {source : String} {content : Value} {log : List Log.Entry}
    (h : (markdownContent settings source).outcome = (.ok content, log)) :
    ContentOf settings source content ∧ warningsOf log = [] := by
  obtain ⟨flag, hflag, hrest⟩ := Logged.exists_of_outcome_ofExcept_bind h
  by_cases htruthy : flag.isTruthy = true
  · rw [if_neg (by simp [htruthy])] at hrest
    obtain ⟨options, hoptions, hparse⟩ := Logged.exists_of_outcome_ofExcept_bind hrest
    obtain ⟨tree, first, last, htree, hlast, rfl⟩ := Logged.exists_of_outcome_bind
      (fun _ => Logged.onlyTells_pure _) hparse
    obtain ⟨rfl, rfl⟩ := Logged.eq_of_outcome_pure hlast
    obtain ⟨elements, helements, rfl, rfl⟩ := Markdown.exists_elements_of_parse htree
    exact ⟨.read hflag htruthy hoptions helements, rfl⟩
  · rw [if_pos (by simpa using htruthy)] at hrest
    obtain ⟨rfl, rfl⟩ := Logged.eq_of_outcome_pure hrest
    exact ⟨.unread hflag (by simpa using htruthy), rfl⟩

/-- A cell has the node for its entry, and the warnings are those about its outputs. -/
theorem cell_cases {index : Nat} {v c : Value} {log : List Log.Entry}
    (h : (cell settings language index v).outcome = (.ok c, log)) :
    CellOf settings language v c ∧ warningsOf log = leftOutFrom index 0 (outputsIn v) := by
  obtain ⟨es, hes, hrest⟩ := Logged.exists_of_outcome_ofExcept_bind h
  clear h
  obtain rfl := entriesOf_eq_ok.mp hes
  dsimp only at hrest
  by_cases hcode : entry es "cell_type" = .text "code"
  · rw [if_pos (Value.equals_text_iff.mpr hcode)] at hrest
    obtain ⟨entries, hentries, houtputs⟩ := Logged.exists_of_outcome_ofExcept_bind hrest
    obtain ⟨nodes, first, last, hnodes, hlast, rfl⟩ := Logged.exists_of_outcome_bind
      (fun _ => Logged.onlyTells_pure _) houtputs
    obtain ⟨rfl, rfl⟩ := Logged.eq_of_outcome_pure hlast
    obtain ⟨hshapes, rfl⟩ := outputsFrom_cases hnodes
    exact ⟨.code hcode hentries hshapes,
      by rw [List.append_nil, warningsOf_leftOutFrom, outputsIn_of_code hcode hentries]⟩
  rw [if_neg (mt Value.equals_text_iff.mp hcode)] at hrest
  -- a cell that is not code leaves no output out, so no warning is due
  have hnone : leftOutFrom index 0 (outputsIn (.record es)) = [] := by
    rw [outputsIn_of_other hcode]
    rfl
  rw [hnone]
  by_cases hmarkdown : entry es "cell_type" = .text "markdown"
  · rw [if_pos (Value.equals_text_iff.mpr hmarkdown)] at hrest
    obtain ⟨content, first, last, hcontent, hlast, rfl⟩ := Logged.exists_of_outcome_bind
      (fun _ => Logged.onlyTells_pure _) hrest
    obtain ⟨rfl, rfl⟩ := Logged.eq_of_outcome_pure hlast
    obtain ⟨hof, hquiet⟩ := markdownContent_cases hcontent
    exact ⟨.markdown hmarkdown hof, by rw [List.append_nil, hquiet]⟩
  rw [if_neg (mt Value.equals_text_iff.mp hmarkdown)] at hrest
  split at hrest
  · obtain ⟨rfl, rfl⟩ := Logged.eq_of_outcome_tell_pure hrest
    exact ⟨.other hcode hmarkdown, rfl⟩
  · obtain ⟨rfl, rfl⟩ := Logged.eq_of_outcome_pure hrest
    exact ⟨.other hcode hmarkdown, rfl⟩

/-- The warnings about the outputs that are left out of cells, `index` being the place of the first
cell. -/
def leftOutOfCells (index : Nat) (entries : List Value) : List Log.Entry :=
  (entries.zipIdx index).flatMap (fun v => leftOutFrom v.2 0 (outputsIn v.1))

/-- Cells have been made of entries, the first and the others. -/
theorem exists_of_outcome_cellsFrom_cons {index : Nat} {v : Value} {vs cells : List Value}
    {log : List Log.Entry} (h : (cellsFrom settings language index (v :: vs)).outcome =
      (.ok cells, log)) :
    ∃ c others first rest, (cell settings language index v).outcome = (.ok c, first) ∧
      (cellsFrom settings language (index + 1) vs).outcome = (.ok others, rest) ∧
      cells = c :: others ∧ log = first ++ rest := by
  obtain ⟨c, first, rest, hc, hvs, rfl⟩ := Logged.exists_of_outcome_bind
    (fun _ => Logged.onlyTells_bind (onlyTells_cellsFrom settings language (index + 1) vs)
      fun _ => Logged.onlyTells_pure _) h
  obtain ⟨others, logged, last, hothers, hlast, rfl⟩ := Logged.exists_of_outcome_bind
    (fun _ => Logged.onlyTells_pure _) hvs
  obtain ⟨rfl, rfl⟩ := Logged.eq_of_outcome_pure hlast
  exact ⟨c, others, first, logged, hc, hothers, rfl, by rw [List.append_nil]⟩

/-- Every entry has a cell, in order. -/
theorem cellsFrom_cases : ∀ {index : Nat} {vs cells : List Value} {log : List Log.Entry},
    (cellsFrom settings language index vs).outcome = (.ok cells, log) →
      List.Forall₂ (CellOf settings language) vs cells ∧ warningsOf log = leftOutOfCells index vs
  | _, [], _, _, h => by
    obtain ⟨rfl, rfl⟩ := Logged.eq_of_outcome_pure h
    exact ⟨.nil, rfl⟩
  | index, v :: vs, cells, log, h => by
    obtain ⟨c, others, first, rest, hc, hothers, rfl, rfl⟩ := exists_of_outcome_cellsFrom_cons h
    obtain ⟨hof, hwarned⟩ := cell_cases hc
    obtain ⟨hshapes, hwarnings⟩ := cellsFrom_cases hothers
    exact ⟨.cons hof hshapes, by
      rw [warningsOf_append, hwarned, hwarnings, leftOutOfCells, leftOutOfCells,
        List.zipIdx_cons, List.flatMap_cons]⟩

/-! ## An entry has one node -/

omit [Markdown.Engine] in
/-- An output has one node at most. -/
theorem outputOf_rightUnique : Relator.RightUnique OutputOf := by
  intro output node node' h h'
  cases h <;> cases h' <;> simp_all

/-- A source has one content at most. -/
theorem contentOf_rightUnique {source : String} {content content' : Value}
    (h : ContentOf settings source content) (h' : ContentOf settings source content') :
    content = content' := by
  cases h <;> cases h' <;> simp_all

/-- The node of a cell is determined by its entry and the language. -/
theorem cellOf_rightUnique : Relator.RightUnique (CellOf settings language) := by
  intro v c c' h h'
  cases h with
  | code type listed outputs =>
    cases h' with
    | code _ listed' outputs' =>
      obtain rfl := Except.ok.inj (listed.symm.trans listed')
      obtain rfl := outputOf_rightUnique.forall₂ outputs outputs'
      rfl
    -- the sorts of a cell exclude each other
    | markdown type' => rw [type] at type'; simp at type'
    | other notCode => exact absurd type notCode
  | markdown type holds =>
    cases h' with
    | code type' => rw [type] at type'; simp at type'
    | markdown _ holds' => rw [contentOf_rightUnique holds holds']
    | other _ notMarkdown => exact absurd type notMarkdown
  | other notCode notMarkdown =>
    cases h' with
    | code type' => exact absurd type' notCode
    | markdown type' => exact absurd type' notMarkdown
    | other => rfl

/-! ## Texts -/

/-- What a cell holds as Markdown that has been read are the elements of its text. -/
theorem exists_elements_of_below {v c : Value} {fields : Entries Value}
    (h : CellOf settings language v c) (hn : Below (.node .parsedMarkdown fields) c) :
    ∃ options source elements, settings.field "markdown_options" = .ok options ∧
      Markdown.elementsFor options (.text source) = .ok elements ∧
      fields = [("children", .list elements), ("data", .record [("source", .text source)]),
        ("position", .null)] := by
  cases h with
  | code type listed outputs =>
    cases hn with
    | child hc hn =>
      obtain rfl | hc := List.mem_cons.mp hc
      · cases hn.eq_of_leaf rfl
      · obtain ⟨output, -, hof⟩ := exists_of_forall₂_of_mem outputs hc
        cases hof <;> cases hn.eq_of_leaf rfl
  | markdown type holds =>
    cases hn with
    | child hc hn =>
      obtain rfl := List.mem_singleton.mp hc
      cases holds with
      | unread => cases hn.eq_of_leaf rfl
      -- parsed Markdown stands in a cell that was read, and below it there are elements alone
      | read asked yes chosen parsed =>
        obtain ⟨ts, rfl⟩ := Markdown.exists_tokens_of_elementsFor parsed
        cases hn with
        | root => exact ⟨_, _, _, chosen, parsed, rfl⟩
        | child hc hn =>
          obtain ⟨_, h⟩ := Markdown.kind_of_below_elements ts hc hn
          cases h
  | other =>
    cases hn with
    | child hc hn =>
      obtain rfl := List.mem_singleton.mp hc
      cases hn.eq_of_leaf rfl

/-! ## Outputs below cells -/

/-- Every node of the kind of an output comes from an entry for an output. -/
theorem exists_outputOf_of_below {v c : Value} {k : Kind} {fields : Entries Value}
    (h : CellOf settings language v c) (hn : Below (.node k fields) c)
    (hk : k ∈ [Kind.stream, .displayData, .executeResult, .error]) :
    ∃ output, OutputOf output (.node k fields) := by
  cases h with
  | code type listed outputs =>
    cases hn with
    | root => simp at hk
    | child hc hn =>
      obtain rfl | hc := List.mem_cons.mp hc
      · cases hn.eq_of_leaf rfl
        simp at hk
      · -- the source of the cell comes first among its children, and the outputs follow
        obtain ⟨output, -, hof⟩ := exists_of_forall₂_of_mem outputs hc
        have hnode := hn.eq_of_leaf (by cases hof <;> rfl)
        exact ⟨output, hnode ▸ hof⟩
  | markdown type holds =>
    cases hn with
    | root => simp at hk
    | child hc hn =>
      obtain rfl := List.mem_singleton.mp hc
      cases holds with
      | unread =>
        cases hn.eq_of_leaf rfl
        simp at hk
      | read asked yes chosen parsed =>
        obtain ⟨ts, rfl⟩ := Markdown.exists_tokens_of_elementsFor parsed
        cases hn with
        | root => simp at hk
        | child hc hn =>
          obtain ⟨_, h⟩ := Markdown.kind_of_below_elements ts hc hn
          cases h
          simp at hk
  | other =>
    cases hn with
    | root => simp at hk
    | child hc hn =>
      obtain rfl := List.mem_singleton.mp hc
      cases hn.eq_of_leaf rfl
      simp at hk

/-! ## Notebooks -/

/-- A notebook with the given entries has become a root with its cells. -/
theorem exists_of_outcome_convert {es : Entries Value} {root : Value} {log : List Log.Entry}
    (h : (convert settings (.record es)).outcome = (.ok root, log)) :
    ∃ language entries cells told last,
      Notebook.language (entryOr es "metadata" (.record [])) = .ok language ∧
      ((Entries.get? es "cells").getD (.list [])).items = .ok entries ∧
      (cellsFrom settings language 0 entries).outcome = (.ok cells, told) ∧
      root = bare .root [("children", .list cells),
        ("metadata", entryOr es "metadata" (.record [])),
        ("nbformat", (Entries.get? es "nbformat").getD (.int 4)),
        ("nbformat_minor", (Entries.get? es "nbformat_minor").getD (.int 5))] ∧
      log = told ++ [.debug .reader last] := by
  obtain ⟨es', hes, hrest⟩ := Logged.exists_of_outcome_ofExcept_bind h
  obtain rfl := Value.record.inj (entriesOf_eq_ok.mp hes)
  obtain ⟨language, hlanguage, hrest⟩ := Logged.exists_of_outcome_ofExcept_bind hrest
  obtain ⟨entries, hentries, hrest⟩ := Logged.exists_of_outcome_ofExcept_bind hrest
  -- behind the cells nothing happens but that the reader tells of its success
  obtain ⟨cells, told, last, hcells, hlast, rfl⟩ := Logged.exists_of_outcome_bind
    (fun _ => Logged.onlyTells_bind (Logged.onlyTells_tell _) fun _ => Logged.onlyTells_pure _)
    hrest
  obtain ⟨rfl, rfl⟩ := Logged.eq_of_outcome_tell_pure hlast
  exact ⟨language, entries, cells, told, _, hlanguage, hentries, hcells, rfl, rfl⟩

/-- The tree of a notebook with the given entries: a root with the cells of the entries of its
cells. -/
theorem convert_cases {es : Entries Value} {entries : List Value} {root : Value}
    {log : List Log.Entry} (hcells : Entries.get? es "cells" = some (.list entries))
    (h : (convert settings (.record es)).outcome = (.ok root, log)) :
    ∃ language cells, Notebook.language (entryOr es "metadata" (.record [])) = .ok language ∧
      root = bare .root [("children", .list cells),
        ("metadata", entryOr es "metadata" (.record [])),
        ("nbformat", (Entries.get? es "nbformat").getD (.int 4)),
        ("nbformat_minor", (Entries.get? es "nbformat_minor").getD (.int 5))] ∧
      List.Forall₂ (CellOf settings language) entries cells ∧
      warningsOf log = leftOutOfCells 0 entries := by
  obtain ⟨language, entries', cells, told, last, hlanguage, hentries, hrun, rfl, rfl⟩ :=
    exists_of_outcome_convert h
  rw [hcells] at hentries
  obtain rfl : entries = entries' := Except.ok.inj hentries
  obtain ⟨hshapes, hwarned⟩ := cellsFrom_cases hrun
  exact ⟨language, cells, hlanguage, rfl, hshapes, by
    rw [warningsOf_append, warningsOf_debug, List.append_nil, hwarned]⟩

/-- A notebook that has been found is converted. -/
theorem read_of_notebook {files : Folder} {source : Source} {options : Value} {es : Entries Value}
    {path : Option String} {entries : List Value} (hoptions : settingsFor settings = .ok options)
    (hdata : dataOf files source = .ok (.record es, path))
    (hcells : Entries.get? es "cells" = some (.list entries)) :
    read files settings source = convert options (.record es) := by
  have hnotebook : isNotebook (.record es) = true := by rw [isNotebook, hcells]
  rw [read, hoptions, Logged.ofExcept_ok_bind, hdata, Logged.ofExcept_ok_bind]
  dsimp only
  rw [hnotebook]
  rfl

/-- A notebook that could be read has been found, and is a record with a list of cells. -/
theorem exists_of_outcome_read {files : Folder} {source : Source} {root : Value}
    {log : List Log.Entry} (h : (read files settings source).outcome = (.ok root, log)) :
    ∃ options es path entries, settingsFor settings = .ok options ∧
      dataOf files source = .ok (.record es, path) ∧
      Entries.get? es "cells" = some (.list entries) ∧
      (convert options (.record es)).outcome = (.ok root, log) := by
  obtain ⟨options, hoptions, hrest⟩ := Logged.exists_of_outcome_ofExcept_bind h
  obtain ⟨⟨notebook, path⟩, hdata, hrest⟩ := Logged.exists_of_outcome_ofExcept_bind hrest
  dsimp only at hrest
  split at hrest
  · cases (Prod.mk.inj hrest).1
  rename_i hnotebook
  obtain ⟨es, entries, rfl, hcells⟩ := exists_of_isNotebook (by simpa using hnotebook)
  exact ⟨options, es, path, entries, hoptions, hdata, hcells, hrest⟩

/-- A notebook that could be read has become a root with the cells of its entries. -/
theorem read_cases {files : Folder} {source : Source} {root : Value} {log : List Log.Entry}
    (h : (read files settings source).outcome = (.ok root, log)) :
    ∃ options es path entries language cells, settingsFor settings = .ok options ∧
      dataOf files source = .ok (.record es, path) ∧
      Entries.get? es "cells" = some (.list entries) ∧
      Notebook.language (entryOr es "metadata" (.record [])) = .ok language ∧
      root = bare .root [("children", .list cells),
        ("metadata", entryOr es "metadata" (.record [])),
        ("nbformat", (Entries.get? es "nbformat").getD (.int 4)),
        ("nbformat_minor", (Entries.get? es "nbformat_minor").getD (.int 5))] ∧
      List.Forall₂ (CellOf options language) entries cells ∧
      warningsOf log = leftOutOfCells 0 entries := by
  obtain ⟨options, es, path, entries, hoptions, hdata, hcells, hrest⟩ := exists_of_outcome_read h
  obtain ⟨language, cells, hlanguage, rfl, hshapes, hwarned⟩ := convert_cases hcells hrest
  exact ⟨options, es, path, entries, language, cells, hoptions, hdata, hcells, hlanguage, rfl,
    hshapes, hwarned⟩

/-- Every node of the kind of an output in the tree of a notebook comes from an entry for one. -/
theorem exists_outputOf_of_read {files : Folder} {source : Source} {root : Value}
    {log : List Log.Entry} (h : (read files settings source).outcome = (.ok root, log)) {k : Kind}
    {fields : Entries Value} (hn : Below (.node k fields) root)
    (hk : k ∈ [Kind.stream, .displayData, .executeResult, .error]) :
    ∃ output, OutputOf output (.node k fields) := by
  obtain ⟨options, es, path, entries, language, cells, -, -, -, -, rfl, hshapes, -⟩ := read_cases h
  cases hn with
  | root => simp at hk
  | child hc hn =>
    obtain ⟨v, -, hcell⟩ := exists_of_forall₂_of_mem hshapes hc
    exact exists_outputOf_of_below hcell hn hk

/-- A notebook in a file that could be read has become a root with the cells of its entries. -/
theorem readAtPath_cases {files : Folder} {path : String} {es : Entries Value}
    {entries : List Value} {root : Value} {log : List Log.Entry}
    (hfile : fileData files (tidyPath path) = .ok (.record es))
    (hcells : Entries.get? es "cells" = some (.list entries))
    (h : (readAtPath files settings path).outcome = (.ok root, log)) :
    ∃ options language cells, settingsFor settings = .ok options ∧
      root = bare .root [("children", .list cells),
        ("metadata", entryOr es "metadata" (.record [])),
        ("nbformat", (Entries.get? es "nbformat").getD (.int 4)),
        ("nbformat_minor", (Entries.get? es "nbformat_minor").getD (.int 5))] ∧
      List.Forall₂ (CellOf options language) entries cells := by
  obtain ⟨options, es', path', entries', language, cells, hoptions, hdata, hcells', -, hroot,
    hshapes, -⟩ := read_cases h
  have hdata' : dataOf files (.data (.text (tidyPath path))) =
      .ok (.record es, some (tidyPath path)) := by
    rw [dataOf, hfile]
    rfl
  -- the entries and cells found by reading are those the file was said to have
  obtain ⟨hes, -⟩ := Prod.mk.inj (Except.ok.inj (hdata'.symm.trans hdata))
  obtain rfl := Value.record.inj hes
  obtain rfl := Value.list.inj (Option.some.inj (hcells.symm.trans hcells'))
  exact ⟨options, language, cells, hoptions, hroot, hshapes⟩

end Engine

/-- Entries for a code cell with an output of a known and one of an unknown type, for a Markdown
cell, and for a cell of an unknown type. -/
def sampleEntries : List Value :=
  [.record [("cell_type", .text "code"), ("source", .list [.text "1\n", .text "2"]),
     ("outputs", .list [.record [("output_type", .text "stream"), ("text", .text "a")],
       .record [("output_type", .text "sound")]])],
   .record [("cell_type", .text "markdown"), ("source", .text "b")],
   .record [("cell_type", .text "slide"), ("source", .null)]]

/-- A notebook with these cells. -/
def sample : Entries Value :=
  [("metadata", .record [("language_info", .record [("name", .text "python")])]),
   ("cells", .list sampleEntries)]

end NotebookTree.Notebook

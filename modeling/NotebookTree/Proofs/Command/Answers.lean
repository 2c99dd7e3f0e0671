import NotebookTree.Proofs.Command.Listing
import NotebookTree.Proofs.Notebook.EntryPoints
import NotebookTree.Proofs.Settings
import NotebookTree.Proofs.Walk.Faults

/-!
# The answers of the command

A run ends with an answer: zero, or the number for a failure that is reported on the console. A file
that cannot be read, that is not JSON or that has no list of cells is such a failure, and so are an
extension that nobody knows and a text that the engine for Markdown refuses. What stands in the
cells is another matter: where it is not what it is taken for, the work ends in misuse, and the
command passes that on instead of answering. Brackets for which there is no room on the stack are
passed on too, and so is a log file that cannot be one.

## Main definitions

* `Report.Fails`, `Report.PassesOn`, `Report.Escapes`: how runs end that do not succeed.
* `Task.IsPlain`: a task that draws nothing.
* `Accepts`: an engine that refuses no text of a Markdown cell.

## Main statements

* `setup_eq_error_iff`: when a run ends before its task.
* `treeText_faults`, `exists_treeText`: what the text of a tree comes to.
* `run_answers`: what a run comes to.
* `run_escapes`: a run without an answer.
-/

namespace NotebookTree

open Walk (outcome outcome_bind_ok)

/-! ## Faults that are reported -/

namespace Fault

/-- No fault is answered as if the command had succeeded. -/
theorem exitCode_ne_zero (f : Fault) : f.exitCode ≠ 0 := by
  rw [exitCode, exitCodeOf]
  split
  · exact nofun
  split
  · exact nofun
  split
  · exact nofun
  split
  · exact nofun
  · exact nofun

/-- Failures of the library are reported, of whatever kind. -/
theorem isReported_failure (kind : FailureKind) (message : String) (details : Entries Value)
    (cause : Option Fault) : (failure kind message details cause).isReported = true := by
  cases kind <;> rfl

/-- So are values that are not allowed. -/
theorem isReported_badValue (message : String) : (badValue message).isReported = true := rfl

/-- A walk fails in what the command passes on. -/
theorem IsWalkFault.isReported_eq {f : Fault} (h : f.IsWalkFault) : f.isReported = false := by
  rcases h with h | rfl
  · exact h.isReported_eq
  · rfl

end Fault

namespace Notebook

/-- What keeps a file from being found is an obstacle, or that the path is none. -/
theorem fault_of_find {files : Folder} {path : String} {e : Fault}
    (h : files.find path = .error e) :
    (∃ message, e = .badValue message) ∨ ∃ obstacle full, e = .noFile obstacle full := by
  rw [Folder.find] at h
  split at h
  · exact .inl ⟨_, (Except.error.inj h).symm⟩
  split at h
  · exact .inr ⟨_, _, (Except.error.inj h).symm⟩
  split at h
  · exact .inr ⟨_, _, (Except.error.inj h).symm⟩
  split at h
  · exact .inr ⟨_, _, (Except.error.inj h).symm⟩
  · exact .inr ⟨_, _, (Except.error.inj h).symm⟩
  split at h
  · exact .inr ⟨_, _, (Except.error.inj h).symm⟩
  · cases h

/-- What keeps the content of a file from being read is reported. -/
theorem isReported_contentFailure {files : Folder} {path : String} {e : Fault}
    (h : fileData files path = .error e) (path? : Option String) :
    (contentFailure path? e).isReported = true := by
  have hread : ∀ {e : Fault}, Json.IsReadFault e → (contentFailure path? e).isReported = true := by
    rintro e (rfl | ⟨count, rfl⟩)
    · exact Fault.isReported_failure ..
    · rfl
  -- a file is not found, or its octets are no text, or the text is no JSON
  cases hfind : files.find path with
  | error e' =>
    rw [fileData, hfind] at h
    obtain rfl := Except.error.inj h
    obtain ⟨message, rfl⟩ | ⟨obstacle, full, rfl⟩ := fault_of_find hfind
    · exact Fault.isReported_badValue message
    · exact Fault.isReported_failure ..
  | ok b =>
    rw [fileData_eq_octetsData hfind] at h
    obtain rfl | h := fault_of_octetsData h
    · exact Fault.isReported_failure ..
    · exact hread h

/-- The data is a record with a list of cells. -/
def HasCells (data : Except Fault Value) : Prop :=
  ∃ es entries, data = .ok (.record es) ∧ Entries.get? es "cells" = some (.list entries)

/-- The engine refuses no text of a Markdown cell that settings ask it to read. -/
def Accepts [Markdown.Engine] (options : Value) (entries : List Value) : Prop :=
  ∀ v ∈ entries, ∀ source, HoldsMarkdown v source →
    Logged.FaultsIn (fun _ => False) (markdownContent options source)

section Path

variable [Markdown.Engine] {files : Folder} {settings options : Value} {path : String}

/-- A file without a list of cells is a failure that is reported. -/
theorem exists_reported_of_not_hasCells (hoptions : settingsFor settings = .ok options)
    (hnone : ¬ HasCells (fileData files (tidyPath path))) :
    ∃ f, (readAtPath files settings path).outcome = (.error f, []) ∧ f.isReported = true := by
  have hread : (readAtPath files settings path).outcome =
      contentOutcome options (some (tidyPath path)) (fileData files (tidyPath path)) :=
    outcome_read_of_content hoptions rfl
  rw [hread]
  cases hdata : fileData files (tidyPath path) with
  | error e => exact ⟨_, rfl, isReported_contentFailure hdata _⟩
  | ok v =>
    have hv : ¬ isNotebook v = true := fun hv => by
      obtain ⟨es, entries, rfl, hcells⟩ := exists_of_isNotebook hv
      exact hnone ⟨es, entries, hdata, hcells⟩
    exact ⟨noCells (some (tidyPath path)), if_neg hv, Fault.isReported_failure ..⟩

/-- A file with a list of cells is readable and read, or it is not readable and that is misuse, or
its Markdown has failed. -/
theorem outcome_readAtPath_cases {es : Entries Value} {entries : List Value} {S : Fault → Prop}
    (hoptions : settingsFor settings = .ok options)
    (hcontent : ∀ v ∈ entries, ∀ source, HoldsMarkdown v source →
      Logged.FaultsIn S (markdownContent options source))
    (hfile : fileData files (tidyPath path) = .ok (.record es))
    (hcells : Entries.get? es "cells" = some (.list entries)) :
    (IsReadable es entries ∧
        ∃ root log, (readAtPath files settings path).outcome = (.ok root, log)) ∨
      ∃ f log, (readAtPath files settings path).outcome = (.error f, log) ∧
        (MisuseUnless (IsReadable es entries) f ∨ S f) := by
  have hdata : dataOf files (.data (.text (tidyPath path))) =
      .ok (.record es, some (tidyPath path)) := by
    rw [dataOf, hfile]
    rfl
  -- once the file is found to hold a notebook, only converting it can fail
  have hends := endsIn_convert hcontent hcells
  rw [readAtPath, read_of_notebook hoptions hdata hcells]
  rcases hrun : (convert options (.record es)).outcome with ⟨f | root, log⟩
  · exact .inr ⟨f, log, rfl, hends.faults [] f log hrun⟩
  · exact .inl ⟨hends.returns [] root log hrun, root, log, rfl⟩

end Path

end Notebook

namespace Command

open Notebook

/-! ## Settings of requests -/

/-- The settings of a request ask for Markdown or not, and hold extensions if there are any. -/
def TreeRequest.settingsWith (r : TreeRequest) (markdown : Value) : Value :=
  .node .parseSettings [("parse_markdown", .bool r.readsMarkdown), ("markdown_options", markdown)]

/-- A request has settings, unless it asks for an extension that nobody knows. -/
theorem TreeRequest.settings_cases (r : TreeRequest) :
    (∃ markdown extensions, Markdown.extensionsFor markdown = .ok extensions ∧
      r.settings = .ok (r.settingsWith markdown)) ∨
    ∃ message, r.settings = .error (.badValue message) := by
  -- without extensions there are no settings for Markdown, so nothing is checked
  by_cases hnone : r.extensions.isEmpty = true
  · left
    refine ⟨.null, [], rfl, ?_⟩
    rw [settings, if_pos hnone]
    rfl
  · have hfill : Kind.fill .markdownSettings
        [("plugins", .tuple (r.extensions.map Value.text))] =
          .ok [("plugins", .tuple (r.extensions.map Value.text))] := rfl
    rw [settings, if_neg hnone, Settings.make_of_fill hfill, Settings.check_markdownSettings]
    obtain hknown | ⟨message, hunknown⟩ := Settings.checkExtensions_cases r.extensions
    · rw [hknown]
      exact .inl ⟨.node .markdownSettings [("plugins", .tuple (r.extensions.map .text))], _, rfl,
        rfl⟩
    · rw [hunknown]
      exact .inr ⟨message, rfl⟩

/-- With the settings of a request, a text of a Markdown cell is read, or refused by the engine, and
that is reported. -/
theorem faultsIn_markdownContent_settingsWith [Markdown.Engine] {r : TreeRequest}
    {markdown : Value} {extensions : List Markdown.Extension}
    (h : Markdown.extensionsFor markdown = .ok extensions) (source : String) :
    Logged.FaultsIn (fun f => f.isReported = true)
      (markdownContent (r.settingsWith markdown) source) := by
  have hasked : (r.settingsWith markdown).field "parse_markdown" = .ok (.bool r.readsMarkdown) :=
    rfl
  have hchosen : (r.settingsWith markdown).field "markdown_options" = .ok markdown := rfl
  rw [Markdown.extensionsFor] at h
  rw [markdownContent, hasked, Logged.ofExcept_ok_bind, hchosen]
  split
  · exact Logged.faultsIn_pure _
  rw [Logged.ofExcept_ok_bind, Markdown.parse, h, Logged.ofExcept_ok_bind]
  refine Logged.faultsIn_bind ?_ fun _ => Logged.faultsIn_pure _
  refine Logged.faultsIn_bind (Logged.faultsIn_ofExcept fun f hf => ?_) fun _ =>
    Logged.faultsIn_bind (Logged.faultsIn_tell _) fun _ => Logged.faultsIn_pure _
  -- whatever the engine says, a refusal is a failure of the library
  cases htokens : Markdown.Engine.tokens extensions (.text source) with
  | ok tokens =>
    rw [htokens] at hf
    cases hf
  | error cause =>
    rw [htokens] at hf
    exact Except.error.inj hf ▸ Fault.isReported_failure ..

/-! ## What the tasks come to -/

/-- What has no text in JSON is misused. -/
theorem misuse_json (v : Value) (indent : Option Int) :
    (v.json indent).FaultsIn Fault.IsMisuse := by
  unfold Value.json
  split
  · exact Except.faultsIn_error trivial
  · exact Except.faultsIn_ok _
  · exact Except.faultsIn_error trivial

/-- The types of an output are found unless its bundle is none. -/
theorem misuse_types (v : Value) : (Output.types v).FaultsIn Fault.IsMisuse := by
  rw [Output.types]
  split
  · exact Except.faultsIn_ok _
  split
  · exact Except.faultsIn_ok _
  split
  · refine Except.faultsIn_bind (v.misuse_field _) fun data => ?_
    split
    · exact Except.faultsIn_ok _
    · exact Except.faultsIn_error (Value.misuse_lacks _ _)
  · exact Except.faultsIn_ok _

/-- Rows fail in misuse only. -/
theorem misuse_outputRows (root : Value) : (outputRows root).FaultsIn Fault.IsMisuse := by
  refine Except.faultsIn_bind (Except.faultsIn_mapM (fun c =>
    Except.faultsIn_filterMapM (fun node => ?_) _) _) fun rows => Except.faultsIn_ok _
  refine Except.faultsIn_bind node.misuse_isOutput fun isOutput => ?_
  split
  · exact Except.faultsIn_ok _
  · exact Except.faultsIn_bind (Except.faultsIn_bind (misuse_types node) fun _ =>
      Except.faultsIn_ok _) fun _ => Except.faultsIn_ok _

section Tree

variable [Markdown.Engine] [Terminal.Engine] {files : Folder} {r : TreeRequest}
  {settings root : Value} {log : List Log.Entry} {f : Fault}

/-- Without settings there is no tree. -/
theorem treeText_of_settings_error (h : r.settings = .error f) (width : Nat) :
    (treeText width files r).1 = .error f := by
  show (outcome (r.work width files) ⟨{}, [], ()⟩).1 = _
  rw [TreeRequest.work, TreeRequest.tree, TreeRequest.treeWith, h]
  rfl

/-- A tree that cannot be read fails for the same reason. -/
theorem treeText_of_read_error (hsettings : r.settings = .ok settings)
    (hread : (readAtPath files settings r.notebook).outcome = (.error f, log)) (width : Nat) :
    (treeText width files r).1 = .error f := by
  show (outcome (r.work width files) ⟨{}, [], ()⟩).1 = _
  have hmade : outcome (Walk.ofExcept (.ok settings)) (⟨{}, [], ()⟩ : Scene Unit) =
      (.ok settings, ⟨{}, [], ()⟩) := rfl
  have hlogged : outcome (Walk.ofLogged (readAtPath files settings r.notebook))
      (⟨{}, [], ()⟩ : Scene Unit) = (.error f, ⟨{}, log, ()⟩) := by
    rw [Walk.outcome_ofLogged, hread]
    rfl
  rw [TreeRequest.work, TreeRequest.tree, TreeRequest.treeWith, hsettings, Walk.outcome_bind,
    outcome_bind_ok hmade, Walk.outcome_bind, hlogged]

/-- What is shown of a tree that has been made fails as walks do, unless it is drawn. -/
theorem treeText_faults (hplain : r.layout ≠ .drawn) (hsettings : r.settings = .ok settings)
    (hread : (readAtPath files settings r.notebook).outcome = (.ok root, log)) (width : Nat) :
    (treeText width files r).1.FaultsIn Fault.IsWalkFault := by
  show (outcome (r.work width files) ⟨{}, [], ()⟩).1.FaultsIn Fault.IsWalkFault
  have hrules := CellRule.faultsIn_applyAll (σ := Unit) depthLimit
    (fun rule => TreeRequest.isFilter_of_mem_rules (r := r)) false (Store.load {} root).1
    ⟨(Store.load {} root).2, log, ()⟩
  rw [← TreeRequest.outcome_treeWith hsettings hread] at hrules
  rw [TreeRequest.work, TreeRequest.tree, Walk.outcome_bind]
  rcases hrun : outcome (r.treeWith r.rules files) ⟨{}, [], ()⟩ with ⟨e | item, s⟩
  · rw [hrun] at hrules
    exact Except.faultsIn_error (hrules e rfl)
  dsimp only
  -- past the rules the layouts differ: the view is written as JSON, or the lines are listed
  cases hlayout : r.layout with
  | json =>
    refine Walk.faultsIn_bind Walk.faultsIn_getStore (fun store => ?_) s
    exact Walk.faultsIn_bind (Walk.faultsIn_ofExcept fun e he => .inl (misuse_json _ _ e he))
      fun text => Walk.faultsIn_pure _
  | drawn => exact absurd hlayout hplain
  | lines =>
    refine Walk.faultsIn_bind (Walk.faultsIn_listing depthLimit item r.reverse)
      (fun lines => Walk.faultsIn_ofExcept ?_) s
    exact Except.faultsIn_ok _

/-- The tree of a notebook that is not too deep for the walks, with tags that are some, is shown. -/
theorem exists_treeText [Markdown.NamedEngine] (hplain : r.layout ≠ .drawn)
    (hsettings : r.settings = .ok settings)
    (hread : (readAtPath files settings r.notebook).outcome = (.ok root, log))
    (hlevels : root.levels ≤ depthLimit)
    (htagged : ∀ c ∈ root.children?.getD [], c.isWellTagged = true)
    {es : Entries Value} {entries : List Value}
    (hfile : fileData files (tidyPath r.notebook) = .ok (.record es))
    (hcells : Entries.get? es "cells" = some (.list entries))
    (houtputs : ∀ v ∈ entries, ∀ o ∈ outputsIn v, HasBundle o ∧ HasErrorText o) (width : Nat) :
    ∃ text, (treeText width files r).1 = .ok text := by
  obtain ⟨next, hrun, -, hfiltered⟩ := applyAll_hasFiltered hread htagged hlevels false
    (fun rule => TreeRequest.isFilter_of_mem_rules) (fun rule : CellRule => Iff.rfl) ⟨{}, log, ()⟩
  have htree : outcome (r.tree files) ⟨{}, [], ()⟩ = (.ok (Store.load {} root).1, next) :=
    (TreeRequest.outcome_treeWith hsettings hread r.rules).trans hrun
  cases hlayout : r.layout with
  | drawn => exact absurd hlayout hplain
  | json =>
    -- a root is written as JSON whatever is below it
    obtain ⟨options, language, cells, -, hroot, -⟩ := readAtPath_cases hfile hcells hread
    obtain ⟨text, htext⟩ : ∃ text, (CellRule.filtered r.rules root).json (some 2) = .ok text := by
      rw [hroot]
      exact ⟨_, rfl⟩
    refine ⟨text ++ "\n", ?_⟩
    show (outcome (r.work width files) ⟨{}, [], ()⟩).1 = _
    rw [TreeRequest.work, outcome_bind_ok htree, hlayout]
    dsimp only
    rw [Walk.outcome_getStore_bind, hfiltered.view, htext]
    rfl
  | lines =>
    obtain ⟨t, hitem, hstand, hheight, hshown⟩ :=
      exists_standsIn_of_tree hfile hcells houtputs hsettings hread htree
    rw [← hitem] at htree
    have hlabels : ∀ p ∈ t.preorder r.reverse,
        ∃ l, (next.store.view p.tree.item).label = .ok (.text l) := fun p hp =>
      (hshown p hp).shown.label.imp fun _ h => h.1
    rw [treeText_lines htree hlayout (Nat.le_trans hheight hlevels) hstand hlabels width]
    exact ⟨_, rfl⟩

end Tree

/-! ## Reports -/

/-- A run that fails: it answers with something other than zero, prints nothing, and tells the error
on the last line of the console. -/
structure Report.Fails (report : Report) : Prop where
  answer : ∃ code, report.answer = .ok code ∧ code ≠ 0
  output : report.output = ""
  console : ∃ told message, report.sinks.console = told ++ "Error: " ++ message ++ "\n"

/-- A run that passes a fault on: it does not answer, and prints nothing. -/
structure Report.PassesOn (report : Report) (f : Fault) : Prop where
  answer : report.answer = .error f
  output : report.output = ""

/-- A run that does not answer, because something was not what it was taken for, or too deep. -/
def Report.Escapes (report : Report) : Prop := ∃ f, report.PassesOn f ∧ f.IsWalkFault

/-- A run that passes a fault on does not fail. -/
theorem Report.PassesOn.not_fails {report : Report} {f : Fault} (h : report.PassesOn f) :
    ¬ report.Fails := fun hfails => by
  obtain ⟨code, hcode, -⟩ := hfails.answer
  cases h.answer.symm.trans hcode

/-- Nor does one that is answered with zero. -/
theorem Report.not_fails_of_zero {report : Report} (h : report.answer = .ok 0) :
    ¬ report.Fails := fun hfails => by
  obtain ⟨code, hcode, hne⟩ := hfails.answer
  exact hne (Except.ok.inj (hcode.symm.trans h))

section Setup

variable {place : Place} {files : Folder} {r : Request} {f : Fault}

/-- Unless its path has a null character, a place for a log file is found or there is an obstacle. -/
theorem place_cases (files : Folder) (home path : String) :
    (Char.ofNat 0 ∈ path.toList ∧
        files.place home path = .error (.badValue "embedded null byte")) ∨
      Char.ofNat 0 ∉ path.toList ∧ ((∃ names, files.place home path = .ok names) ∨
        ∃ obstacle full, files.place home path = .error (.noFile obstacle full)) := by
  rw [Folder.place]
  by_cases hnull : Char.ofNat 0 ∈ path.toList
  · exact .inl ⟨hnull, if_pos (List.contains_iff_mem.mpr hnull)⟩
  refine .inr ⟨hnull, ?_⟩
  rw [if_neg (mt List.contains_iff_mem.mp hnull)]
  split
  · exact .inr ⟨_, _, rfl⟩
  split
  · exact .inr ⟨_, _, rfl⟩
  · exact .inr ⟨_, _, rfl⟩
  split
  · exact .inr ⟨_, _, rfl⟩
  · exact .inl ⟨_, rfl⟩

/-- A log file cannot be set up exactly if its path has a null character: an obstacle on the way to
it is only told about. -/
theorem configured_eq_error_iff {home path : String} {stamp : Log.Stamp}
    {threshold : Log.Threshold} {traced : Bool} {sinks : Log.Sinks} :
    Log.Setup.configured home stamp threshold (.text path) traced sinks = .error f ↔
      f = .badValue "embedded null byte" ∧ Char.ofNat 0 ∈ path.toList := by
  unfold Log.Setup.configured
  obtain ⟨hnull, hplace⟩ | ⟨hnull, hplace⟩ := place_cases sinks.files home path
  · -- such a path is not empty, so that it is used
    have htruthy : (Value.text path).isTruthy = true := by
      cases hempty : path.isEmpty with
      | false => exact congrArg (!·) hempty
      | true =>
        rw [String.isEmpty_iff.mp hempty] at hnull
        cases hnull
    simp only [htruthy, hplace, Bool.not_true, Bool.false_eq_true, if_false]
    exact ⟨fun h => ⟨(Except.error.inj h).symm, hnull⟩, fun h => congrArg _ h.1.symm⟩
  · refine ⟨fun h => ?_, fun h => absurd h.2 hnull⟩
    dsimp only at h
    split at h
    · cases h
    obtain ⟨names, hplace⟩ | ⟨obstacle, full, hplace⟩ := hplace
    · rw [hplace] at h
      cases h
    · rw [hplace] at h
      cases h

/-- The logs of a request cannot be set up exactly if it has a log file, and its path has a null
character. -/
theorem setup_eq_error_iff :
    r.setup place files = .error f ↔
      f = .badValue "embedded null byte" ∧
        ∃ path, r.logFile = some path ∧ Char.ofNat 0 ∈ path.toList := by
  rw [Request.setup]
  cases r.logFile with
  | none => exact ⟨nofun, fun ⟨_, path, hpath, _⟩ => nomatch hpath⟩
  | some path =>
    refine configured_eq_error_iff.trans (and_congr_right fun _ => ?_)
    exact ⟨fun hnull => ⟨path, rfl, hnull⟩, fun ⟨_, h, hnull⟩ => Option.some.inj h ▸ hnull⟩

end Setup

section Runs

variable [Markdown.Engine] [Terminal.Engine] {place : Place} {files : Folder} {r : Request}
  {setup : Log.Setup} {sinks : Log.Sinks} {f : Fault}

/-- A run ends with the fault of its setup. -/
theorem Request.run_of_setup_error (nesting : Nat) (hsetup : r.setup place files = .error f) :
    (r.runWithin nesting place files).PassesOn f := by
  rw [Request.runWithin, hsetup]
  exact ⟨rfl, rfl⟩

/-- A run is done with what its setup leaves. -/
theorem Request.run_of_setup (nesting : Nat) (hsetup : r.setup place files = .ok (setup, sinks)) :
    let result := (r.task.textWithin nesting place.width sinks.files).1
    let report := r.runWithin nesting place files
    (∀ text, result = .ok text → report.answer = .ok 0) ∧
    (∀ f, result = .error f → f.isReported = true → report.Fails) ∧
    (∀ f, result = .error f → f.isReported = false → report.PassesOn f) := by
  rw [Request.runWithin, hsetup]
  -- a text is printed, a fault is reported with its exit code or passed on
  rcases htext : r.task.textWithin nesting place.width sinks.files with ⟨result, entries⟩
  dsimp only
  rw [htext]
  refine ⟨?_, ?_, ?_⟩
  · rintro text rfl
    rfl
  · rintro f rfl hf
    dsimp only
    rw [hf, if_neg (by decide)]
    exact ⟨⟨f.exitCode, rfl, f.exitCode_ne_zero⟩, rfl, _, f.message, rfl⟩
  · rintro f rfl hf
    dsimp only
    rw [hf, if_pos (by decide)]
    exact ⟨rfl, rfl⟩

end Runs

/-! ## Tasks -/

/-- A task that draws nothing. -/
def Task.IsPlain : Task → Prop
  | .tree r => r.layout ≠ .drawn
  | .outputs r => r.drawn = false

section Tasks

variable [Markdown.Engine] [Terminal.Engine] {nesting : Nat} {task : Task} {files : Folder}
  {settings root : Value} {log : List Log.Entry} {f : Fault}

omit [Terminal.Engine] in
/-- With the settings of a task, a text of a Markdown cell is read, or refused, and that is
reported. -/
theorem Task.settingsFor_of_settings (h : task.settings = .ok settings) :
    ∃ options, settingsFor settings = .ok options ∧ ∀ source,
      Logged.FaultsIn (fun f => f.isReported = true) (markdownContent options source) := by
  cases task with
  | tree r =>
    obtain ⟨markdown, extensions, hextensions, hsettings⟩ | ⟨message, hsettings⟩ :=
      r.settings_cases
    · obtain rfl := Except.ok.inj (hsettings.symm.trans h)
      exact ⟨_, rfl, faultsIn_markdownContent_settingsWith hextensions⟩
    · cases hsettings.symm.trans h
  | outputs r =>
    obtain rfl := Except.ok.inj h
    exact ⟨_, rfl, fun source => Logged.faultsIn_pure _⟩

/-- A task without settings does not come to its notebook. -/
theorem Task.textWithin_of_settings_error (h : ∀ settings, task.settings ≠ .ok settings)
    (nesting width : Nat) (files : Folder) :
    task.textWithin nesting width files = task.text width files := by
  rw [textWithin]
  split
  · exact absurd ‹_› (h _)
  · rfl

/-- Where there is no room for its notebook, a task does not come to its text. -/
theorem Task.textWithin_of_tooDeep (hsettings : task.settings = .ok settings)
    (h : fileDataWithin nesting files (tidyPath task.notebook) = .error .tooDeep) (width : Nat) :
    task.textWithin nesting width files = (.error .tooDeep, []) := by
  rw [textWithin, hsettings, h]

/-- A task without settings fails, and that is reported. -/
theorem Task.text_of_settings_error (h : ∀ settings, task.settings ≠ .ok settings) (width : Nat)
    (files : Folder) :
    ∃ f, (task.text width files).1 = .error f ∧ f.isReported = true := by
  cases task with
  | tree r =>
    obtain ⟨markdown, -, -, hsettings⟩ | ⟨message, hsettings⟩ := r.settings_cases
    · exact absurd hsettings (h _)
    · exact ⟨_, treeText_of_settings_error hsettings width, Fault.isReported_badValue message⟩
  | outputs r => exact absurd rfl (h _)

/-- A task whose notebook could not be read fails for the same reason. -/
theorem Task.text_of_read_error (hsettings : task.settings = .ok settings)
    (hread : (readAtPath files settings task.notebook).outcome = (.error f, log)) (width : Nat) :
    (task.text width files).1 = .error f := by
  cases task with
  | tree r => exact treeText_of_read_error hsettings hread width
  | outputs r =>
    obtain rfl := Except.ok.inj hsettings
    exact congrArg Prod.fst (outputsText_of_read hread width)

/-- A task whose notebook has been read fails as walks do. -/
theorem Task.text_faults (hplain : task.IsPlain) (hsettings : task.settings = .ok settings)
    (hread : (readAtPath files settings task.notebook).outcome = (.ok root, log)) (width : Nat) :
    (task.text width files).1.FaultsIn Fault.IsWalkFault := by
  cases task with
  | tree r => exact treeText_faults hplain hsettings hread width
  | outputs r =>
    obtain rfl := Except.ok.inj hsettings
    have hdrawn : r.drawn = false := hplain
    rw [Task.text, outputsText_of_read hread width, Except.ok_bind]
    refine Except.faultsIn_bind (fun e he => .inl (misuse_outputRows root e he)) fun rows => ?_
    rw [printedRows, hdrawn]
    exact Except.faultsIn_ok _

/-- A task about a notebook with outputs that can be shown, and a tree that walks can work on, comes
to a text. -/
theorem Task.exists_text [Markdown.NamedEngine] (hplain : task.IsPlain)
    (hsettings : task.settings = .ok settings)
    (hread : (readAtPath files settings task.notebook).outcome = (.ok root, log))
    (hlevels : root.levels ≤ depthLimit)
    (htagged : ∀ c ∈ root.children?.getD [], c.isWellTagged = true)
    {es : Entries Value} {entries : List Value}
    (hfile : fileData files (tidyPath task.notebook) = .ok (.record es))
    (hcells : Entries.get? es "cells" = some (.list entries))
    (houtputs : ∀ v ∈ entries, ∀ o ∈ outputsIn v, HasBundle o ∧ HasErrorText o) (width : Nat) :
    ∃ text, (task.text width files).1 = .ok text := by
  cases task with
  | tree r =>
    exact exists_treeText hplain hsettings hread hlevels htagged hfile hcells houtputs width
  | outputs r =>
    obtain rfl := Except.ok.inj hsettings
    obtain ⟨options, language, cells, -, hroot, hshapes⟩ := readAtPath_cases hfile hcells hread
    have hchildren : root.children? = some cells := by
      rw [hroot]
      rfl
    -- each output has a row, and rows that are not drawn are always listed
    obtain ⟨rows, hrows, -⟩ := exists_outputRows hchildren hshapes fun v hv o ho =>
      (houtputs v hv o ho).1
    have hdrawn : r.drawn = false := hplain
    refine ⟨listedText rows, ?_⟩
    rw [Task.text, outputsText_of_rows hread hrows width, printedRows, hdrawn]
    rfl

end Tasks

/-! ## Runs -/

/-- A depth at which all that is done with data and with trees has room on a stack. -/
def shallowDepth : Nat := 100

/-- What a run comes to when the file of its notebook is that of a record with a list of cells. What
an engine refuses is only known of a whole file, as of another one it does not get the text. -/
structure Report.Settles [Markdown.Engine] (report : Report) (files : Folder) (task : Task)
    (settings options : Value) (es : Entries Value) (entries : List Value) : Prop where
  /-- A notebook that cannot be read is never answered with zero. -/
  unreadable : ¬ IsReadable es entries → report.Fails ∨ report.Escapes
  /-- One that can be read is, unless something else goes wrong. -/
  readable : IsReadable es entries → IsWhole files (tidyPath task.notebook) →
    report.Fails ∨ report.answer = .ok 0 ∨ report.Escapes
  /-- A run on a whole file fails for no other reason than a text that the engine refuses. -/
  accepted : Accepts options entries → IsWhole files (tidyPath task.notebook) → ¬ report.Fails
  /-- If the data is not deep either, what is passed on of a notebook that cannot be read is
  misuse. -/
  misused : Accepts options entries → IsWhole files (tidyPath task.notebook) →
    fileDataWithin shallowDepth files (tidyPath task.notebook) = .ok (.record es) →
    ¬ IsReadable es entries → ∃ f, report.PassesOn f ∧ f.IsMisuse
  /-- If neither the data nor the tree is deep, the outputs can be shown, and tags are tags, the run
  is answered with zero. -/
  answered : Accepts options entries →
    fileDataWithin shallowDepth files (tidyPath task.notebook) = .ok (.record es) →
    IsReadable es entries → IsWhole files (tidyPath task.notebook) →
    (∀ v ∈ entries, ∀ o ∈ outputsIn v, HasBundle o ∧ HasErrorText o) →
    ∀ root log, (readAtPath files settings task.notebook).outcome = (.ok root, log) →
      root.levels ≤ shallowDepth → (∀ c ∈ root.children?.getD [], c.isWellTagged = true) →
      report.answer = .ok 0

section Runs

variable [Markdown.Engine] [Terminal.Engine] {nesting : Nat} {place : Place} {files : Folder}
  {r : Request} {setup : Log.Setup} {sinks : Log.Sinks} {settings options : Value}
  {es : Entries Value} {entries : List Value}

/-- A notebook with a list of cells can be read, and the run is answered with zero or escapes; or it
cannot, and the run passes misuse on; or the engine refuses a text, and the run fails. -/
theorem Request.run_cases (hplain : r.task.IsPlain)
    (hsetup : r.setup place files = .ok (setup, sinks)) (hsettings : r.task.settings = .ok settings)
    (hoptions : settingsFor settings = .ok options)
    (hdata : fileDataWithin nesting sinks.files (tidyPath r.task.notebook) = .ok (.record es))
    (hcells : Entries.get? es "cells" = some (.list entries)) :
    let report := r.runWithin nesting place files
    (IsReadable es entries ∧ (report.answer = .ok 0 ∨ report.Escapes)) ∨
    (¬ IsReadable es entries ∧ ∃ f, report.PassesOn f ∧ f.IsMisuse) ∨
    (¬ Accepts options entries ∧ report.Fails) := by
  obtain ⟨htext, hreported, hpassed⟩ := r.run_of_setup nesting hsetup
  rw [Task.textWithin_of_data hdata] at htext hreported hpassed
  have hfile := fileData_of_within hdata
  obtain ⟨options', hoptions', hcontent⟩ := Task.settingsFor_of_settings hsettings
  obtain rfl := Except.ok.inj (hoptions'.symm.trans hoptions)
  -- a text that is refused is one of a Markdown cell, and there is none if all are accepted
  have hrefused : ∀ v ∈ entries, ∀ source, HoldsMarkdown v source →
      Logged.FaultsIn (fun f => f.isReported = true ∧ ¬ Accepts options' entries)
        (markdownContent options' source) := fun v hv source hholds before e after h =>
    ⟨hcontent source before e after h, fun haccepts => haccepts v hv source hholds before e after h⟩
  obtain ⟨hread, root, log, hroot⟩ | ⟨f, log, hf, ⟨hmisuse, hnot⟩ | ⟨hfault, hnot⟩⟩ :=
    outcome_readAtPath_cases hoptions hrefused hfile hcells
  · have hfaults := Task.text_faults hplain hsettings hroot place.width
    refine .inl ⟨hread, ?_⟩
    cases hresult : (r.task.text place.width sinks.files).1 with
    | ok text => exact .inl (htext text hresult)
    | error f =>
      have hf := hfaults f hresult
      exact .inr ⟨f, hpassed f hresult hf.isReported_eq, hf⟩
  · have hresult := Task.text_of_read_error hsettings hf place.width
    exact .inr (.inl ⟨hnot, f, hpassed f hresult hmisuse.isReported_eq, hmisuse⟩)
  · exact .inr (.inr ⟨hnot, hreported f (Task.text_of_read_error hsettings hf place.width) hfault⟩)

/-- What a run comes to when its notebook has a list of cells. -/
theorem Request.run_settles [Markdown.NamedEngine] (hplain : r.task.IsPlain)
    (hsetup : r.setup place files = .ok (setup, sinks)) (hsettings : r.task.settings = .ok settings)
    (hoptions : settingsFor settings = .ok options)
    (hdata : fileDataWithin nesting sinks.files (tidyPath r.task.notebook) = .ok (.record es))
    (hcells : Entries.get? es "cells" = some (.list entries)) :
    (r.runWithin nesting place files).Settles sinks.files r.task settings options es entries := by
  have hcases := Request.run_cases hplain hsetup hsettings hoptions hdata hcells
  dsimp only at hcases
  constructor
  case unreadable =>
    intro hnot
    obtain ⟨hread, -⟩ | ⟨-, f, hf, hmisuse⟩ | ⟨-, hfails⟩ := hcases
    · exact absurd hread hnot
    · exact .inr ⟨f, hf, .inl hmisuse⟩
    · exact .inl hfails
  case readable =>
    intro hread _
    obtain ⟨-, hends⟩ | ⟨hnot, -⟩ | ⟨-, hfails⟩ := hcases
    · exact .inr hends
    · exact absurd hread hnot
    · exact .inl hfails
  -- every end but a refusal is an answer or a fault that is passed on
  case accepted =>
    intro haccepts _
    obtain ⟨-, hzero | ⟨f, hf, -⟩⟩ | ⟨-, f, hf, -⟩ | ⟨hnot, -⟩ := hcases
    · exact Report.not_fails_of_zero hzero
    · exact hf.not_fails
    · exact hf.not_fails
    · exact absurd haccepts hnot
  case misused =>
    intro haccepts _ _ hnot
    obtain ⟨hread, -⟩ | ⟨-, hmisuse⟩ | ⟨hrefuses, -⟩ := hcases
    · exact absurd hread hnot
    · exact hmisuse
    · exact absurd haccepts hrefuses
  case answered =>
    intro _ _ _ _ houtputs root log hroot hlevels htagged
    have hdeep : root.levels ≤ depthLimit := hlevels.trans (by decide)
    obtain ⟨text, hresult⟩ := Task.exists_text hplain hsettings hroot hdeep htagged
      (fileData_of_within hdata) hcells houtputs place.width
    obtain ⟨htext, -, -⟩ := r.run_of_setup nesting hsetup
    rw [Task.textWithin_of_data hdata] at htext
    exact htext text hresult

end Runs

/-- What a run comes to that draws nothing. If its logs cannot be set up, that is passed on. It fails
if an extension is unknown. If there is no room on the stack for the brackets of its file, that is
passed on; and if the file is not that of a record with a list of cells, the run fails. For a
notebook with such a list it comes to what `Report.Settles` says. -/
theorem run_answers [Markdown.Engine] [Markdown.NamedEngine] [Terminal.Engine] (nesting : Nat)
    {place : Place} {files : Folder} {args : List String} {r : Request}
    (hargs : Request.ofArguments args = .ok r) (hplain : r.task.IsPlain) :
    let report := runWithin nesting place files args
    (∀ f, r.setup place files = .error f → report.PassesOn f) ∧
    ∀ setup sinks, r.setup place files = .ok (setup, sinks) →
      let data := fileDataWithin nesting sinks.files (tidyPath r.task.notebook)
      ((∀ settings, r.task.settings ≠ .ok settings) → report.Fails) ∧
      ∀ settings options, r.task.settings = .ok settings → settingsFor settings = .ok options →
        (data = .error .tooDeep → report.PassesOn .tooDeep) ∧
        (data ≠ .error .tooDeep → ¬ HasCells data → report.Fails) ∧
        ∀ es entries, data = .ok (.record es) → Entries.get? es "cells" = some (.list entries) →
          report.Settles sinks.files r.task settings options es entries := by
  have hrun : runWithin nesting place files args = r.runWithin nesting place files := by
    rw [runWithin, hargs]
  dsimp only
  rw [hrun]
  refine ⟨fun f => Request.run_of_setup_error nesting, fun setup sinks hsetup => ?_⟩
  obtain ⟨htext, hreported, hpassed⟩ := r.run_of_setup nesting hsetup
  refine ⟨fun hnone => ?_, fun settings options hsettings hoptions => ⟨fun hdeep => ?_,
    fun hroom hnone => ?_, fun es entries => Request.run_settles hplain hsetup hsettings hoptions⟩⟩
  · -- an unknown extension is found before the file is looked for
    obtain ⟨f, hf, hfault⟩ := Task.text_of_settings_error hnone place.width sinks.files
    rw [← Task.textWithin_of_settings_error hnone nesting] at hf
    exact hreported f hf hfault
  · have hresult := Task.textWithin_of_tooDeep hsettings hdeep place.width
    exact hpassed .tooDeep (congrArg Prod.fst hresult) rfl
  · rw [fileDataWithin_eq hroom] at hnone
    obtain ⟨f, hread, hfault⟩ := exists_reported_of_not_hasCells hoptions hnone
    rw [Task.textWithin_of_room hroom] at hreported
    exact hreported f (Task.text_of_read_error hsettings hread place.width) hfault

/-- A folder with a notebook without cells. -/
def bareFolder : Folder := [(["n.ipynb"], "\x7b\"cells\":[]\x7d".toUTF8)]

/-- A folder with a notebook of which the only cell is a number. -/
def strayFolder : Folder := [(["n.ipynb"], "\x7b\"cells\":[5]\x7d".toUTF8)]

/-- A place for runs. -/
def plainPlace : Place := ⟨"/home", ⟨"", ""⟩, 80⟩

/-- A request for the tree of the notebook. -/
def plainRequest : Request where
  level := "WARNING"
  logFile := none
  traced := false
  task := .tree
    { notebook := "n.ipynb", readsMarkdown := false, extensions := [], removesOutputs := false,
      keptTags := [], removedTags := [], removesEmpty := false, reverse := false, layout := .lines }

/-- The request that the arguments make. -/
theorem ofArguments_plain : Request.ofArguments ["tree", "n.ipynb"] = .ok plainRequest := by
  -- the arguments are classified by computing; taking them is by recursion on what is left
  have hmain : mainGrammar.take ["tree", "n.ipynb"] = .ok { operands := ["tree", "n.ipynb"] } := by
    have hsigns : mainGrammar.classify ["tree", "n.ipynb"] =
        .ok [("tree", .operand), ("n.ipynb", .operand)] := rfl
    rw [Grammar.take, hsigns, Except.ok_bind, Grammar.takeAll]
    · rfl
    · simp
  have htree : treeGrammar.take ["n.ipynb"] = .ok { operands := ["n.ipynb"] } := by
    have hsigns : treeGrammar.classify ["n.ipynb"] = .ok [("n.ipynb", .operand)] := rfl
    have hlast : treeGrammar.takeAll { operands := ["n.ipynb"] } [] =
        .ok { operands := ["n.ipynb"] } := by rw [Grammar.takeAll]
    rw [Grammar.take, hsigns, Except.ok_bind, Grammar.takeAll]
    · exact congrArg (· >>= _) hlast
    · simp
  have htask : Task.ofArguments "tree" ["n.ipynb"] = .ok (plainRequest.task, []) := by
    rw [Task.ofArguments, if_pos (by decide), htree]
    rfl
  rw [Request.ofArguments, hmain]
  show (Task.ofArguments "tree" ["n.ipynb"] >>= _) = _
  rw [htask]
  rfl

/-- The text of the notebook without cells is whole. -/
theorem bareFolder_isWhole : IsWhole bareFolder (tidyPath "n.ipynb") :=
  isWhole_of_check (by decide +kernel)

/-- So is that of the notebook with a number. -/
theorem strayFolder_isWhole : IsWhole strayFolder (tidyPath "n.ipynb") :=
  isWhole_of_check (by decide +kernel)

/-- The notebook without cells is answered with zero, the one with a number is not answered. -/
theorem run_answers_sample :
    Request.ofArguments ["tree", "n.ipynb"] = .ok plainRequest ∧ plainRequest.task.IsPlain ∧
      (∃ setup, ∀ files, plainRequest.setup plainPlace files = .ok (setup, ⟨"", files⟩)) ∧
      (run plainPlace bareFolder ["tree", "n.ipynb"]).answer = .ok 0 ∧
      ∃ f, (run plainPlace strayFolder ["tree", "n.ipynb"]).PassesOn f ∧ f.IsMisuse := by
  have hplain : plainRequest.task.IsPlain := nofun
  have hsetup : ∀ files, plainRequest.setup plainPlace files =
      .ok (Log.Setup.withConsole (.level 30) false, ⟨"", files⟩) := fun _ => rfl
  have hsettings : plainRequest.task.settings = .ok (Settings.usual .parseSettings) := rfl
  -- both depths that the theorem looks at leave room for so little nesting
  have hbare : ∀ nesting, nesting = depthLimit ∨ nesting = shallowDepth →
      fileDataWithin nesting bareFolder (tidyPath "n.ipynb") =
        .ok (.record [("cells", .list [])]) := by
    rintro _ (rfl | rfl) <;> rfl
  have hstray : ∀ nesting, nesting = depthLimit ∨ nesting = shallowDepth →
      fileDataWithin nesting strayFolder (tidyPath "n.ipynb") =
        .ok (.record [("cells", .list [.int 5])]) := by
    rintro _ (rfl | rfl) <;> rfl
  refine ⟨ofArguments_plain, hplain, ⟨_, hsetup⟩, ?_, ?_⟩
  · have hsettles := (((run_answers depthLimit ofArguments_plain hplain).2 _ _
      (hsetup bareFolder)).2 _ _ hsettings rfl).2.2 _ [] (hbare _ (.inl rfl)) rfl
    have haccepts : Accepts (Settings.usual .parseSettings) [] := List.forall_mem_nil _
    have hreadable : IsReadable [("cells", .list [])] [] := ⟨⟨_, rfl⟩, List.forall_mem_nil _⟩
    have hfile : fileData bareFolder (tidyPath "n.ipynb") =
        .ok (.record [("cells", .list [])]) := rfl
    have hreturns : (readAtPath bareFolder (Settings.usual .parseSettings)
        "n.ipynb").outcome.1.toOption.isSome = true := by decide +kernel
    rcases hread : (readAtPath bareFolder (Settings.usual .parseSettings) "n.ipynb").outcome with
      ⟨_ | root, log⟩
    · rw [hread] at hreturns
      cases hreturns
    obtain ⟨options, language, cells, -, hroot, hshapes⟩ := readAtPath_cases hfile rfl hread
    cases hshapes
    refine hsettles.answered haccepts (hbare _ (.inr rfl)) hreadable bareFolder_isWhole
      (List.forall_mem_nil _) root log hread ?_ ?_
    · rw [hroot]
      decide
    · rw [hroot]
      exact List.forall_mem_nil _
  · have hsettles := (((run_answers depthLimit ofArguments_plain hplain).2 _ _
      (hsetup strayFolder)).2 _ _ hsettings rfl).2.2 _ [.int 5] (hstray _ (.inl rfl)) rfl
    refine hsettles.misused ?_ strayFolder_isWhole (hstray _ (.inr rfl)) fun h => ?_
    · -- the stray entry holds no Markdown, so no text is there to be refused
      intro v hv source hholds
      obtain ⟨es, hes, -⟩ := hholds
      cases (List.mem_singleton.mp hv).symm.trans hes
    · obtain ⟨es, hes, -⟩ := h.cells (.int 5) List.mem_cons_self
      cases hes

/-- The run does not answer. -/
theorem run_escapes :
    let report := run plainPlace strayFolder ["tree", "n.ipynb"]
    report.answer.mapError (fun f => (f.className, f.message)) =
        .error ("AttributeError", "'int' object has no attribute 'get'") ∧
      report.output = "" ∧ report.sinks.console = "" := by
  decide +kernel

end Command

end NotebookTree

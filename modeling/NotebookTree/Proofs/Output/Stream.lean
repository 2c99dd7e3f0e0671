import NotebookTree.Output.Render
import NotebookTree.Proofs.Notebook.Shape
import NotebookTree.Proofs.Settings
import NotebookTree.Proofs.Text.Markup

/-!
# Streams as markup

A stream is shown as escaped text, alone or in one element whose class attribute ends with the name
of the stream. The text adds no character of markup, whatever it is. The name is not escaped, so what
it has of them comes to the characters of the wrapper (`render_stream`): a name that closes the
attribute opens tags of its own (`render_stream_injects`).
-/

namespace NotebookTree.Output

/-- The classes of a stream: those of all outputs, of all streams, and of the streams with its
name. -/
def streamClasses (wrapper name : String) : String :=
  wrapper ++ " " ++ wrapper ++ "-stream " ++ wrapper ++ "-" ++ name

/-- A stream with a name and a text as markup, in an element of its own or not. -/
def streamMarkup (wrap : Bool) (wrapper name text : String) : String :=
  let shown := String.ofList (Text.escapeMarkup text.toList)
  if wrap then "<pre class=\"" ++ streamClasses wrapper name ++ "\">" ++ shown ++ "</pre>" else shown

/-- The markup of a stream has the name among its classes. -/
theorem wrapIn_stream (wrapper name content : String) :
    wrapIn "pre" wrapper ["stream", name] content =
      "<pre class=\"" ++ streamClasses wrapper name ++ "\">" ++ content ++ "</pre>" := by
  rw [← String.toList_inj]
  simp [wrapIn, streamClasses, String.join]

/-- What is shown of a stream with a name and a text. -/
theorem outcome_render_stream (wrap keep markdown : Value) (wrapper name text : String) :
    (render (Notebook.bare .stream [("name", .text name), ("text", .text text)])
      (.node .renderSettings [("wrap", wrap), ("wrapper_class", .text wrapper),
        ("preserve_ansi", keep), ("markdown_options", markdown)])).outcome =
      (.ok (.text (streamMarkup wrap.isTruthy wrapper name text)), []) := by
  obtain ⟨output, houtput⟩ : ∃ output, output =
      Notebook.bare .stream [("name", .text name), ("text", .text text)] := ⟨_, rfl⟩
  obtain ⟨settings, hsettings⟩ : ∃ settings, settings = Value.node .renderSettings
      [("wrap", wrap), ("wrapper_class", .text wrapper), ("preserve_ansi", keep),
        ("markdown_options", markdown)] := ⟨_, rfl⟩
  have hname : output.field "name" = .ok (.text name) := houtput ▸ rfl
  have htext : output.field "text" = .ok (.text text) := houtput ▸ rfl
  have hwrap : settings.field "wrap" = .ok wrap := hsettings ▸ rfl
  have hshown : renderStream settings output wrapper =
      .ok (.text (streamMarkup wrap.isTruthy wrapper name text)) := by
    rw [renderStream, htext, Except.ok_bind, Value.escaped, Except.ok_bind, hwrap, Except.ok_bind,
      hname, Except.ok_bind]
    -- the name comes in with the wrapper alone
    cases wrap.isTruthy with
    | true =>
      rw [streamMarkup, if_pos rfl, ← wrapIn_stream]
      rfl
    | false => rfl
  have hstream : output.hasType "stream" = true := houtput ▸ rfl
  have htruthy : settings.isTruthy = true := hsettings ▸ rfl
  have hclass : settings.field "wrapper_class" = .ok (.text wrapper) := hsettings ▸ rfl
  rw [← houtput, ← hsettings, render, if_pos htruthy, hclass, Logged.ofExcept_ok_bind, if_pos hstream,
    Value.plainText, hshown]
  rfl

/-- The classes have the marks of the name, when the wrapper has none. -/
theorem marks_streamClasses {wrapper : String} (hclear : Text.marks wrapper.toList = [])
    (name : String) : Text.marks (streamClasses wrapper name).toList = Text.marks name.toList := by
  have hblank : Text.marks " ".toList = [] := by decide
  have hkind : Text.marks "-stream ".toList = [] := by decide
  have hdash : Text.marks "-".toList = [] := by decide
  rw [streamClasses]
  simp only [Text.marks_toList_append, hclear, hblank, hkind, hdash, List.nil_append]

/-- The characters of markup in what is shown of a stream are those of the wrapper, and those of the
name in the place where it stands. The text has none. -/
theorem marks_streamMarkup (wrap : Bool) {wrapper : String} (hclear : Text.marks wrapper.toList = [])
    (name text : String) :
    Text.marks (streamMarkup wrap wrapper name text).toList =
      if wrap then Text.marks "<pre class=\"".toList ++ Text.marks name.toList ++
        Text.marks "\"></pre>".toList
      else [] := by
  have hshown : Text.marks (String.ofList (Text.escapeMarkup text.toList)).toList = [] := by
    rw [String.toList_ofList, Text.marks_escapeMarkup]
  cases wrap with
  | true =>
    have hclose : Text.marks "\">".toList ++ Text.marks "</pre>".toList =
        Text.marks "\"></pre>".toList := by decide
    rw [streamMarkup, if_pos rfl, if_pos rfl]
    simp only [Text.marks_toList_append, marks_streamClasses hclear, hshown, List.append_nil,
      List.append_assoc, hclose]
  | false => exact hshown

/-- A stream that comes from an entry has a text, and no more than a name and the text. -/
theorem exists_bare_of_outputOf {output : Value} {fields : Entries Value} {name : String}
    (h : Notebook.OutputOf output (.node .stream fields))
    (hname : Entries.get? fields "name" = some (.text name)) :
    ∃ text, Entries.get? fields "text" = some (.text text) ∧
      .node .stream fields = Notebook.bare .stream [("name", .text name), ("text", .text text)] := by
  cases h with
  | stream type => exact ⟨_, rfl, by rw [← Option.some.inj hname]; rfl⟩

/-- Every stream in the tree of a notebook has a text. With a text for its name it is shown by that
text, escaped, and if the settings ask for it in one element whose class attribute ends with the
name. The text adds no character of markup. With the name the characters are those of the element
alone if the name has none of them, and not otherwise. -/
theorem render_stream {files : Folder} {settings : Value} {source : Notebook.Source} {root : Value}
    {log : List Log.Entry} {fields given : Entries Value} {name wrapper : String} {options : Value}
    (hread : (Notebook.read files settings source).outcome = (.ok root, log))
    (hn : Below (.node .stream fields) root)
    (hname : Entries.get? fields "name" = some (.text name))
    (hmade : Settings.make .renderSettings given = .ok options)
    (hclass : options.field "wrapper_class" = .ok (.text wrapper))
    (hclear : Text.marks wrapper.toList = []) :
    ∃ text wrap, Entries.get? fields "text" = some (.text text) ∧
      options.field "wrap" = .ok wrap ∧
      (render (.node .stream fields) options).outcome =
        (.ok (.text (streamMarkup wrap.isTruthy wrapper name text)), []) ∧
      (wrap.isTruthy = false →
        Text.marks (streamMarkup wrap.isTruthy wrapper name text).toList = []) ∧
      (wrap.isTruthy = true →
        Text.marks (streamMarkup wrap.isTruthy wrapper name text).toList =
          Text.marks "<pre class=\"".toList ++ Text.marks name.toList ++
            Text.marks "\"></pre>".toList ∧
        (Text.marks (streamMarkup wrap.isTruthy wrapper name text).toList =
          Text.marks "<pre class=\"\"></pre>".toList ↔ Text.marks name.toList = [])) := by
  obtain ⟨wrap, keep, markdown, rfl⟩ :=
    Settings.exists_fields_of_make_renderSettings hmade hclass
  obtain ⟨chosen, es, path, entries, language, cells, -, -, -, -, rfl, hshapes, -⟩ :=
    Notebook.read_cases hread
  obtain ⟨output, hof⟩ : ∃ output, Notebook.OutputOf output (.node .stream fields) := by
    cases hn with
    | child hc hn =>
      obtain ⟨v, -, hcell⟩ := Notebook.exists_of_forall₂_of_mem hshapes hc
      exact Notebook.exists_outputOf_of_below hcell hn (by decide)
  obtain ⟨text, htext, hbare⟩ := exists_bare_of_outputOf hof hname
  -- all that is written but the name is escaped or has no marks of its own
  have hmarks := marks_streamMarkup wrap.isTruthy hclear name text
  refine ⟨text, wrap, htext, rfl, ?_, fun hfalse => ?_, fun htrue => ?_⟩
  · rw [hbare]
    exact outcome_render_stream ..
  · rw [hmarks, hfalse, if_neg Bool.false_ne_true]
  · rw [htrue, if_pos rfl, ← htrue] at hmarks
    have hshell : Text.marks "<pre class=\"\"></pre>".toList =
        Text.marks "<pre class=\"".toList ++ Text.marks "\"></pre>".toList := by decide
    refine ⟨hmarks, ?_⟩
    rw [hmarks, hshell, List.append_cancel_right_eq, List.append_right_eq_self]

/-- A notebook with one output. -/
def outputNotebook (output : Value) : Value :=
  .record [("cells", .list [.record [("cell_type", .text "code"), ("source", .text ""),
    ("outputs", .list [output])]])]

/-- If it can be read, its tree has the node of the output. -/
theorem exists_read_outputNotebook {output node : Value} (hof : Notebook.OutputOf output node)
    (hknown : Notebook.isKnownOutput output = true)
    (h : (Notebook.read [] .null (.data (outputNotebook output))).outcome.1.toOption.isSome) :
    ∃ root log, (Notebook.read [] .null (.data (outputNotebook output))).outcome =
        (.ok root, log) ∧ Below node root := by
  rcases hread : (Notebook.read [] .null (.data (outputNotebook output))).outcome with
    ⟨_ | root, log⟩
  · rw [hread] at h
    cases h
  refine ⟨root, log, rfl, ?_⟩
  obtain ⟨options, es, path, entries, language, cells, -, hdata, hentries, -, rfl, hshapes, -⟩ :=
    Notebook.read_cases hread
  obtain ⟨hes, -⟩ := Prod.mk.inj (Except.ok.inj hdata)
  obtain rfl := Value.record.inj hes
  obtain rfl := Value.list.inj (Option.some.inj hentries)
  cases hshapes with
  | cons hcell hnil =>
    cases hnil
    have hlisted : List.Forall₂ Notebook.OutputOf ([output].filter Notebook.isKnownOutput)
        [node] := by
      rw [List.filter_singleton, hknown]
      exact .cons hof .nil
    -- the cell is determined by its entry
    obtain rfl := Notebook.cellOf_rightUnique hcell (.code rfl rfl hlisted)
    exact .child (List.mem_singleton_self _)
      (.child (List.mem_cons_of_mem _ (List.mem_singleton_self _)) .root)

/-- A notebook with one output, a stream. -/
def streamNotebook (name text : String) : Value :=
  .record [("cells", .list [.record [("cell_type", .text "code"), ("source", .text ""),
    ("outputs", .list [.record [("output_type", .text "stream"), ("name", .text name),
      ("text", .text text)]])]])]

/-- A notebook with a stream is read to a tree with it. -/
theorem exists_read_streamNotebook {name text : String}
    (h : (Notebook.read [] .null (.data (streamNotebook name text))).outcome.1.toOption.isSome) :
    ∃ root log, (Notebook.read [] .null (.data (streamNotebook name text))).outcome =
        (.ok root, log) ∧
      Below (Notebook.bare .stream [("name", .text name), ("text", .text text)]) root :=
  exists_read_outputNotebook (.stream rfl) rfl h

/-- A stream with an apostrophe in its name and tags in its text is shown as one element. -/
theorem render_stream_sample :
    ∃ root log, (Notebook.read [] .null (.data (streamNotebook "it's" "<b>"))).outcome =
        (.ok root, log) ∧
      Below (Notebook.bare .stream [("name", .text "it's"), ("text", .text "<b>")]) root ∧
      ∃ options html, Settings.make .renderSettings [] = .ok options ∧
        (render (Notebook.bare .stream [("name", .text "it's"), ("text", .text "<b>")])
          options).outcome = (.ok (.text html), []) ∧
        Text.marks html.toList = Text.marks "<pre class=\"\"></pre>".toList := by
  have hreturns : (Notebook.read [] .null
      (.data (streamNotebook "it's" "<b>"))).outcome.1.toOption.isSome := by decide +kernel
  obtain ⟨root, log, hread, hn⟩ := exists_read_streamNotebook hreturns
  refine ⟨root, log, hread, hn, Settings.usual .renderSettings, ?_⟩
  have hmade : Settings.make .renderSettings [] = .ok (Settings.usual .renderSettings) := rfl
  have hclass : (Settings.usual .renderSettings).field "wrapper_class" =
      .ok (.text "jupyter-output") := rfl
  obtain ⟨text, wrap, -, hwrap, hrender, -, hmarks⟩ :=
    render_stream hread hn rfl hmade hclass (by decide)
  obtain rfl := Except.ok.inj hwrap
  exact ⟨_, hmade, hrender, (hmarks rfl).2.mpr (by decide)⟩

/-- Two streams of notebooks that are shown with different markup: the name of one closes the
attribute that it stands in and opens a tag. -/
theorem render_stream_injects :
    (∀ name ∈ ["stdout", "a\"><script>"], ∃ root log,
      (Notebook.read [] .null (.data (streamNotebook name "x<y"))).outcome = (.ok root, log) ∧
        Below (Notebook.bare .stream [("name", .text name), ("text", .text "x<y")]) root) ∧
    ∃ usual html,
      (render (Notebook.bare .stream [("name", .text "stdout"), ("text", .text "x<y")])
        (Settings.usual .renderSettings)).outcome = (.ok (.text usual), []) ∧
      (render (Notebook.bare .stream [("name", .text "a\"><script>"), ("text", .text "x<y")])
        (Settings.usual .renderSettings)).outcome = (.ok (.text html), []) ∧
      html = "<pre class=\"jupyter-output jupyter-output-stream jupyter-output-a\"><script>\">" ++
        "x&lt;y</pre>" ∧
      Text.marks html.toList ≠ Text.marks usual.toList := by
  refine ⟨?_, _, _, outcome_render_stream .., outcome_render_stream .., ?_, ?_⟩
  · rw [List.forall_mem_cons, List.forall_mem_singleton]
    exact ⟨exists_read_streamNotebook (by decide +kernel),
      exists_read_streamNotebook (by decide +kernel)⟩
  · decide +kernel
  · decide +kernel

end NotebookTree.Output

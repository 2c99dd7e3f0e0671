import NotebookTree.Markdown.HtmlWriter
import NotebookTree.Proofs.Markdown.Elements
import NotebookTree.Settings

/-!
# Settings that ask for extensions

Settings that could be made hold a tuple of names, so that what reads the names from them does not
fail.
-/

namespace NotebookTree.Settings

variable {plugins settings : Value} {given : Entries Value}

/-- Checked extensions are a tuple. -/
theorem exists_tuple_of_checkExtensions {v : Value} (h : checkExtensions plugins = .ok v) :
    ∃ names, v = .tuple names := by
  obtain ⟨names, -, h⟩ := Except.bind_eq_ok.mp h
  obtain ⟨complaints, -, h⟩ := Except.bind_eq_ok.mp h
  split at h
  · exact ⟨names, (Except.ok.inj h).symm⟩
  · cases h

/-- Names are complained about, or they are a tuple of known ones. -/
theorem checkExtensions_cases (names : List String) :
    checkExtensions (.tuple (names.map .text)) = .ok (.tuple (names.map .text)) ∨
      ∃ message, checkExtensions (.tuple (names.map .text)) = .error (.badValue message) := by
  have hitems : (Value.tuple (names.map .text)).items = .ok (names.map .text) := rfl
  have htext : ∀ s : String, ∃ complaint, complaint? (.text s) = .ok complaint := by
    intro s
    by_cases hs : extensionNames.contains s = true
    · exact ⟨none, if_pos hs⟩
    · exact ⟨_, if_neg hs⟩
  rw [checkExtensions, hitems, Except.ok_bind]
  -- asking about a text always answers, so it is the complaints that decide
  obtain ⟨complaints, hcomplaints, -⟩ | ⟨before, v, after, e, hnames, -, hv, -⟩ :=
    Except.mapM_cases complaint? (names.map .text)
  · rw [hcomplaints, Except.ok_bind]
    split
    · exact .inl rfl
    · exact .inr ⟨_, rfl⟩
  · obtain ⟨s, -, rfl⟩ := List.mem_map.mp (hnames ▸ List.mem_append_right _ List.mem_cons_self)
    obtain ⟨complaint, hcomplaint⟩ := htext s
    rw [hcomplaint] at hv
    cases hv

/-- Making settings from fields that fit is checking them. -/
theorem make_of_fill {k : Kind} {fields : Entries Value} (h : k.fill given = .ok fields) :
    make k given = (check k fields).map (.node k) := by
  rw [make, h, Except.ok_bind]
  cases check k fields <;> rfl

/-- The settings for Markdown check the names of the extensions. -/
theorem check_markdownSettings (plugins : Value) :
    check .markdownSettings [("plugins", plugins)] =
      (checkExtensions plugins).map fun v => [("plugins", v)] := by
  have hfield : checkField .markdownSettings "plugins" plugins = checkExtensions plugins := rfl
  rw [check, List.mapM_cons, List.mapM_nil, hfield]
  cases checkExtensions plugins <;> rfl

/-- The settings for its markup check the names of the extensions, and keep the flag. -/
theorem check_markdownToHtmlSettings (allow plugins : Value) :
    check .markdownToHtmlSettings [("allow_dangerous_html", allow), ("plugins", plugins)] =
      (checkExtensions plugins).map fun v => [("allow_dangerous_html", allow), ("plugins", v)] := by
  have hfield : checkField .markdownToHtmlSettings "plugins" plugins = checkExtensions plugins :=
    rfl
  have hother : checkField .markdownToHtmlSettings "allow_dangerous_html" allow = .ok allow := rfl
  rw [check, List.mapM_cons, List.mapM_cons, List.mapM_nil, hfield, hother]
  cases checkExtensions plugins <;> rfl

/-- The fields of settings for Markdown are the extensions. -/
theorem exists_fill_markdownSettings {fields : Entries Value}
    (h : Kind.fill .markdownSettings given = .ok fields) :
    ∃ plugins, fields = [("plugins", plugins)] := by
  rw [Kind.fill] at h
  split at h
  · cases h
  obtain ⟨-, -, h⟩ := Except.bind_eq_ok.mp h
  rw [Kind.fields, List.mapM_cons, List.mapM_nil] at h
  cases hg : Entries.get? given "plugins" with
  | none =>
    simp only [hg] at h
    exact ⟨_, (Except.ok.inj h).symm⟩
  | some v =>
    simp only [hg] at h
    exact ⟨_, (Except.ok.inj h).symm⟩

/-- The settings for reading notebooks with their Markdown, and with the given settings for it. -/
def withMarkdown (settings : Value) : Value :=
  .node .parseSettings [("parse_markdown", .bool true), ("markdown_options", settings)]

/-- The settings that read Markdown are made from those for Markdown. -/
theorem make_withMarkdown (settings : Value) :
    make .parseSettings [("parse_markdown", .bool true), ("markdown_options", settings)] =
      .ok (withMarkdown settings) := rfl

/-- Whatever settings for Markdown are made of, they hold a tuple. -/
theorem exists_tuple_of_make (h : make .markdownSettings given = .ok settings) :
    ∃ names, settings = .node .markdownSettings [("plugins", .tuple names)] := by
  obtain ⟨fields, hfields, h⟩ := Except.bind_eq_ok.mp h
  obtain ⟨plugins, rfl⟩ := exists_fill_markdownSettings hfields
  rw [check_markdownSettings] at h
  cases hp : checkExtensions plugins with
  | error e => rw [hp] at h; cases h
  | ok v =>
    obtain ⟨names, rfl⟩ := exists_tuple_of_checkExtensions hp
    rw [hp] at h
    exact ⟨names, (Except.ok.inj h).symm⟩

/-- Extensions that were asked for of a tuple of names can be found. -/
theorem exists_extensions_of_make (h : make .markdownSettings given = .ok settings) :
    ∃ extensions, Markdown.extensionsFor settings = .ok extensions := by
  obtain ⟨names, rfl⟩ := exists_tuple_of_make h
  exact ⟨_, rfl⟩

/-- Settings for Markdown and settings for HTML made with the same extensions stand for the same. -/
theorem rules_of_make {allow html : Value}
    (h : make .markdownSettings [("plugins", plugins)] = .ok settings)
    (hhtml : make .markdownToHtmlSettings [("allow_dangerous_html", allow), ("plugins", plugins)] =
      .ok html) :
    ∃ extensions, Markdown.extensionsFor settings = .ok extensions ∧
      Markdown.htmlRulesOf html = .ok ⟨!allow.isTruthy, extensions⟩ := by
  have hfill : Kind.fill .markdownSettings [("plugins", plugins)] =
      .ok [("plugins", plugins)] := rfl
  have hfillHtml : Kind.fill .markdownToHtmlSettings
      [("allow_dangerous_html", allow), ("plugins", plugins)] =
        .ok [("allow_dangerous_html", allow), ("plugins", plugins)] := rfl
  rw [make_of_fill hfill, check_markdownSettings] at h
  rw [make_of_fill hfillHtml, check_markdownToHtmlSettings] at hhtml
  -- both check the same names, so they pass or are refused together
  cases hp : checkExtensions plugins with
  | error e => rw [hp] at h; cases h
  | ok v =>
    obtain ⟨names, rfl⟩ := exists_tuple_of_checkExtensions hp
    rw [hp] at h hhtml
    obtain rfl := Except.ok.inj h
    obtain rfl := Except.ok.inj hhtml
    exact ⟨_, rfl, rfl⟩

/-! ## The fields of settings -/

/-- Settings that could be made have the fields of their kind, in order. -/
theorem exists_fields_of_make {k : Kind} (h : make k given = .ok settings) :
    ∃ fields, settings = .node k fields ∧ fields.map Prod.fst = k.fields.map Prod.fst := by
  obtain ⟨filled, hfilled, h⟩ := Except.bind_eq_ok.mp h
  obtain ⟨fields, hfields, h⟩ := Except.bind_eq_ok.mp h
  refine ⟨fields, (Except.ok.inj h).symm, ?_⟩
  -- checking changes values, never names, and filling takes the names from the kind
  have hchecked : fields.map Prod.fst = filled.map Prod.fst := by
    refine Except.map_of_mapM (fun f g hf => ?_) hfields
    obtain ⟨v, -, hv⟩ := Except.bind_eq_ok.mp hf
    exact (congrArg Prod.fst (Except.ok.inj hv)).symm
  rw [hchecked]
  rw [Kind.fill] at hfilled
  split at hfilled
  · cases hfilled
  dsimp only at hfilled
  refine Except.map_of_mapM (fun f g hf => ?_) hfilled
  split at hf
  · exact (congrArg Prod.fst (Except.ok.inj hf)).symm
  · exact (congrArg Prod.fst (Except.ok.inj hf)).symm
  · cases hf

/-- Settings for what is rendered, with a given class. -/
theorem exists_fields_of_make_renderSettings {wrapper : Value}
    (h : make .renderSettings given = .ok settings)
    (hclass : settings.field "wrapper_class" = .ok wrapper) :
    ∃ wrap keep markdown, settings = .node .renderSettings [("wrap", wrap),
      ("wrapper_class", wrapper), ("preserve_ansi", keep), ("markdown_options", markdown)] := by
  obtain ⟨fields, rfl, hnames⟩ := exists_fields_of_make h
  match fields, hnames with
  | [(_, wrap), (_, other), (_, keep), (_, markdown)], hnames =>
    simp only [List.map_cons, List.map_nil, Kind.fields, List.cons.injEq, and_true] at hnames
    obtain ⟨rfl, rfl, rfl, rfl⟩ := hnames
    obtain rfl : other = wrapper := Except.ok.inj hclass
    exact ⟨wrap, keep, markdown, rfl⟩

end NotebookTree.Settings

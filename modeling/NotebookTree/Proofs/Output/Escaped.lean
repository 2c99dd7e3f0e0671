import NotebookTree.Proofs.Notebook.Fragments
import NotebookTree.Proofs.Output.Error
import NotebookTree.Proofs.Value.Label

/-!
# Errors and plain text as escaped text

What is shown of an error, and of a bundle in which only the plain text has something in it, is a few
tags with escaped text between them. The tags depend on the settings and on the kind of output alone.
So no text of a notebook can add a character of markup or take one away, and none is lost: when the
tags are left out and the references are read back, the texts are there as they were
(`render_escaped`).

## Main definitions

* `Shows`: markup that shows a text, and how much of it is there whatever is shown.
* `errorShell`, `plainShell`: the tags of an error and of plain text, with an empty attribute in place
  of the classes.
* `errorText`: the texts of an error, as they are shown.

## Main results

* `outcome_render_plain`: a bundle with nothing else to show is shown by its plain text.
* `render_escaped`: the characters of markup are those of the tags, and the texts come back.
-/

namespace NotebookTree.Output

open Text

/-! ## Markup that shows a text -/

/-- Markup with the characters of a shell that shows a text: without its tags, it is the text,
escaped. -/
structure Shows (html shell text : String) : Prop where
  delimiters : delimiters html.toList = delimiters shell.toList
  withoutTags : ∀ rest : List Char,
    withoutTags (html.toList ++ rest) = escapeMarkup text.toList ++ withoutTags rest

/-- Escaped text shows the text and has no delimiters. -/
theorem shows_escapedText (s : String) : Shows (escapedText s) "" s where
  delimiters := by
    rw [escapedText, String.toList_ofList, delimiters_escapeMarkup]
    rfl
  withoutTags rest := by
    rw [escapedText, String.toList_ofList, withoutTags_escapeMarkup_append]

/-- A tag shows nothing and is its own shell. -/
theorem shows_tag {tag : String} (h : IsTag tag.toList) : Shows tag tag "" where
  delimiters := rfl
  withoutTags rest := by
    rw [withoutTags_tag_append h, String.toList_empty, escapeMarkup_nil, List.nil_append]

/-- Text in which nothing is escaped is shown as it is. -/
theorem shows_self {s : String} (h : s.toList.flatMap referenceFor = s.toList) : Shows s "" s := by
  have hshown := shows_escapedText s
  rwa [escapedText_eq_self h] at hshown

section Shows

variable {html html' shell shell' text text' : String}

/-- One text after another shows one after the other. -/
theorem Shows.append (h : Shows html shell text) (h' : Shows html' shell' text') :
    Shows (html ++ html') (shell ++ shell') (text ++ text') where
  delimiters := by
    rw [String.toList_append, String.toList_append, delimiters_append, delimiters_append,
      h.delimiters, h'.delimiters]
  withoutTags rest := by
    rw [String.toList_append, String.toList_append, List.append_assoc, h.withoutTags, h'.withoutTags,
      escapeMarkup_append, List.append_assoc]

/-- What is shown comes back when the tags are left out and the references are read. -/
theorem Shows.decodeMarkup_withoutTags (h : Shows html shell text) :
    decodeMarkup (Text.withoutTags html.toList) = text.toList := by
  have hshown := h.withoutTags []
  rw [List.append_nil, Text.withoutTags, List.append_nil] at hshown
  rw [hshown, decodeMarkup_escapeMarkup]

end Shows

/-! ## Elements with classes -/

/-- A tag with the classes for a kind of output. -/
def openTag (tag wrapper kind : String) : String :=
  "<" ++ tag ++ " class=\"" ++ wrapper ++ " " ++ wrapper ++ "-" ++ kind ++ "\">"

/-- A wrapper of one kind stands around the content, opened and closed. -/
theorem wrapIn_singleton (tag wrapper kind content : String) :
    wrapIn tag wrapper [kind] content =
      openTag tag wrapper kind ++ content ++ ("</" ++ tag ++ ">") := by
  rw [← String.toList_inj]
  simp [wrapIn, openTag, String.join]

section Element

variable {tag wrapper kind : String} (htag : delimiters tag.toList = [])
  (hwrapper : delimiters wrapper.toList = []) (hkind : delimiters kind.toList = [])

include htag hwrapper hkind

/-- The opening of a wrapper is one tag. -/
theorem isTag_openTag : IsTag (openTag tag wrapper kind).toList := by
  have hnot : ∀ {cs : List Char}, delimiters cs = [] → '>' ∉ cs :=
    not_mem_of_delimiters (by decide)
  refine ⟨(tag ++ " class=\"" ++ wrapper ++ " " ++ wrapper ++ "-" ++ kind ++ "\"").toList, ?_, ?_⟩
  · simp [hnot htag, hnot hwrapper, hnot hkind]
  · simp [openTag]

/-- The classes add no character of markup. -/
theorem shows_openTag : Shows (openTag tag wrapper kind) ("<" ++ tag ++ " class=\"\">") "" where
  delimiters := by
    have hclass : delimiters " class=\"".toList = [doubleQuote] := by decide
    have hblank : delimiters " ".toList = [] := by decide
    have hdash : delimiters "-".toList = [] := by decide
    have hclose : delimiters "\">".toList = [doubleQuote, '>'] := by decide
    have hclosed : delimiters " class=\"\">".toList = [doubleQuote, doubleQuote, '>'] := by decide
    simp only [openTag, String.toList_append, delimiters_append, htag, hwrapper, hkind, hclass, hblank,
      hdash, hclose, hclosed, List.append_assoc, List.nil_append, List.singleton_append]
  withoutTags := (shows_tag (isTag_openTag htag hwrapper hkind)).withoutTags

/-- An element shows what stands in it. -/
theorem shows_wrapIn {html shell text : String} (h : Shows html shell text) :
    Shows (wrapIn tag wrapper [kind] html)
      ("<" ++ tag ++ " class=\"\">" ++ shell ++ ("</" ++ tag ++ ">")) text := by
  have hclosing : '>' ∉ tag.toList := not_mem_of_delimiters (by decide) htag
  have hend : IsTag ("</" ++ tag ++ ">").toList := by
    refine ⟨("/" ++ tag).toList, ?_, ?_⟩
    · simp [hclosing]
    · simp
  have hshown := ((shows_openTag htag hwrapper hkind).append h).append (shows_tag hend)
  rwa [← wrapIn_singleton, String.empty_append, String.append_empty] at hshown

end Element

/-! ## Errors -/

/-- The tags of an error. -/
def errorShell (wrap : Bool) : String :=
  if wrap then "<pre class=\"\"><span class=\"error-name\"></span></pre>" else ""

/-- The texts of an error: with an element of its own the name and the reason stand in front of the
lines. -/
def errorText (wrap : Bool) (name reason trace : String) : String :=
  if wrap then name ++ ": " ++ reason ++ "\n" ++ trace else trace

/-- The markup of an error shows its name, its value and its traceback in the shell of an error. -/
theorem shows_errorMarkup {wrapper : String} (hclear : delimiters wrapper.toList = []) (wrap : Bool)
    (name reason trace : String) :
    Shows (errorMarkup wrap wrapper name reason trace) (errorShell wrap)
      (errorText wrap name reason trace) := by
  cases wrap with
  | false => exact shows_escapedText trace
  | true =>
    -- each part shows what it is made of, and they are put together from left to right
    have hspan : Shows "<span class=\"error-name\">" "<span class=\"error-name\">" "" :=
      shows_tag ⟨"span class=\"error-name\"".toList, by decide, by decide⟩
    have hnamed : Shows "</span>" "</span>" "" :=
      shows_tag ⟨"/span".toList, by decide, by decide⟩
    have hcolon : Shows ": " "" ": " := shows_self (by decide)
    have hline : Shows "\n" "" "\n" := shows_self (by decide)
    have hcontent := ((((hspan.append (shows_escapedText name)).append
      (hnamed.append hcolon)).append (shows_escapedText reason)).append hline).append
      (shows_escapedText trace)
    have hpre : delimiters "pre".toList = [] := by decide
    have hkind : delimiters "error".toList = [] := by decide
    have hshown := shows_wrapIn hpre hclear hkind hcontent
    rw [String.empty_append, String.empty_append] at hshown
    rw [← wrapIn_error]
    exact hshown

/-! ## Plain text -/

/-- The tags of plain text. -/
def plainShell (wrap : Bool) : String :=
  if wrap then "<div class=\"\"><pre></pre></div>" else "<pre></pre>"

/-- Plain text as markup, in an element of its own or not. -/
def plainMarkup (wrap : Bool) (wrapper kind s : String) : String :=
  let shown := "<pre>" ++ escapedText s ++ "</pre>"
  if wrap then wrapIn "div" wrapper [kind] shown else shown

/-- The markup of a plain text shows it in its shell. -/
theorem shows_plainMarkup {wrapper kind : String} (hclear : delimiters wrapper.toList = [])
    (hkind : delimiters kind.toList = []) (wrap : Bool) (s : String) :
    Shows (plainMarkup wrap wrapper kind s) (plainShell wrap) s := by
  have hopen : Shows "<pre>" "<pre>" "" := shows_tag ⟨"pre".toList, by decide, by decide⟩
  have hclose : Shows "</pre>" "</pre>" "" := shows_tag ⟨"/pre".toList, by decide, by decide⟩
  have hshown := (hopen.append (shows_escapedText s)).append hclose
  rw [String.empty_append, String.append_empty, String.append_empty] at hshown
  cases wrap with
  | false => exact hshown
  | true =>
    have hdiv : delimiters "div".toList = [] := by decide
    exact shows_wrapIn hdiv hclear hkind hshown

/-- The kind of an output with a bundle, as it is named in the classes. -/
def richKind (output : Value) : String :=
  if output.hasType "executeResult" then "execute-result" else "display-data"

/-- The kind of an output has no delimiters. -/
theorem delimiters_richKind (output : Value) : delimiters (richKind output).toList = [] := by
  rw [richKind]
  split
  · decide
  · decide

/-! ## Bundles -/

/-- Among the payloads that are looked for, only the plain text has something in it, and it is a
text. -/
structure ShowsPlain (es : Entries Value) (s : String) : Prop where
  vacant : ∀ t ∈ ["text/html", "text/markdown"],
    (Mime.normalize (.text t) ((Entries.get? es t).getD .null)).isTruthy = false
  spelled : ∃ payload, Entries.get? es "text/plain" = some payload ∧ Spells s payload
  nonempty : s ≠ ""

section Bundle

variable {es : Entries Value} {s : String}

/-- The payload of a bundle under a type, normalized, or null when it counts as false. -/
theorem payload?_record (es : Entries Value) (t : String) :
    payload? (.record es) t =
      .ok (if (Mime.normalize (.text t) ((Entries.get? es t).getD .null)).isTruthy then
        Mime.normalize (.text t) ((Entries.get? es t).getD .null) else .null) := rfl

/-- A bundle that shows a plain text is rendered as that text, escaped. -/
theorem ShowsPlain.renderBundle (h : ShowsPlain es s) (settings : Value) :
    renderBundle settings (.record es) = .ok (.text ("<pre>" ++ escapedText s ++ "</pre>")) := by
  have hnone : ∀ t ∈ ["text/html", "text/markdown"], payload? (.record es) t = .ok .null := by
    intro t ht
    rw [payload?_record, h.vacant t ht, if_neg Bool.false_ne_true]
  have htruthy : (Value.text s).isTruthy = true := by
    simpa [Value.isTruthy] using h.nonempty
  have hplain : payload? (.record es) "text/plain" = .ok (.text s) := by
    obtain ⟨payload, hpayload, hspells⟩ := h.spelled
    rw [payload?_record, hpayload, Option.getD_some, hspells.normalize (by decide), htruthy,
      if_pos rfl]
  rw [Output.renderBundle, hnone _ (by decide), Except.ok_bind, if_neg (by decide),
    hnone _ (by decide), Except.ok_bind, if_neg (by decide), hplain, Except.ok_bind, htruthy,
    if_pos rfl]
  rfl

/-- What is shown of an output with such a bundle. -/
theorem outcome_render_plain (wrap keep markdown : Value) (wrapper : String) {output : Value}
    {type : String} (htype : output.type? = some (.text type))
    (hrich : type = "displayData" ∨ type = "executeResult")
    (hdata : output.field "data" = .ok (.record es)) (h : ShowsPlain es s) :
    (render output (renderSettings wrap keep markdown wrapper)).outcome =
      (.ok (.text (plainMarkup wrap.isTruthy wrapper (richKind output) s)), []) := by
  obtain ⟨settings, hsettings⟩ : ∃ settings,
      settings = renderSettings wrap keep markdown wrapper := ⟨_, rfl⟩
  have hwrap : settings.field "wrap" = .ok wrap := hsettings ▸ rfl
  have htruthy : settings.isTruthy = true := hsettings ▸ rfl
  have hclass : settings.field "wrapper_class" = .ok (.text wrapper) := hsettings ▸ rfl
  have hcontent : (Value.text ("<pre>" ++ escapedText s ++ "</pre>")).isTruthy = true := by
    simp [Value.isTruthy]
  -- the content is never empty, so it is wrapped when the settings say so
  have hshown : renderRich settings output wrapper =
      .ok (.text (plainMarkup wrap.isTruthy wrapper (richKind output) s)) := by
    rw [renderRich, hdata, Except.ok_bind, h.renderBundle, Except.ok_bind, hwrap, Except.ok_bind,
      hcontent, Bool.and_true]
    cases wrap.isTruthy with
    | true => rfl
    | false => rfl
  have hstream : output.hasType "stream" = false := (Value.hasType_of_bundle htype hrich).1
  have hisRich : isRich output = true := by
    rw [isRich, Value.hasType_of_type? htype, Value.hasType_of_type? htype]
    rcases hrich with rfl | rfl
    · rfl
    · rfl
  rw [← hsettings, render, if_pos htruthy, hclass, Logged.ofExcept_ok_bind, hstream,
    if_neg Bool.false_ne_true, if_pos hisRich, Value.plainText, hshown]
  rfl

end Bundle

/-! ## Nothing but escaped text -/

/-- Of an error, and of a bundle in which only the plain text has something in it, the texts are
shown as nothing but escaped text: the characters of markup are those of the tags, which the settings
choose, and without the tags, and with the references read back, the texts are as they were. -/
theorem render_escaped {given : Entries Value} {options : Value} {wrapper : String}
    (hmade : Settings.make .renderSettings given = .ok options)
    (hclass : options.field "wrapper_class" = .ok (.text wrapper))
    (hclear : delimiters wrapper.toList = []) :
    ∃ wrap keep, options.field "wrap" = .ok wrap ∧ options.field "preserve_ansi" = .ok keep ∧
      (∀ (name reason : String) (lines : List String) (trace data position : Value),
        trace.items = .ok (lines.map .text) →
        ∃ html, (render (errorNode name reason trace data position) options).outcome =
            (.ok (.text html), []) ∧
          delimiters html.toList = delimiters (errorShell wrap.isTruthy).toList ∧
          decodeMarkup (withoutTags html.toList) =
            (errorText wrap.isTruthy name reason (shownLines keep.isTruthy lines)).toList) ∧
      ∀ (output : Value) (type : String) (es : Entries Value) (s : String),
        output.type? = some (.text type) → type = "displayData" ∨ type = "executeResult" →
        output.field "data" = .ok (.record es) → ShowsPlain es s →
        ∃ html, (render output options).outcome = (.ok (.text html), []) ∧
          delimiters html.toList = delimiters (plainShell wrap.isTruthy).toList ∧
          decodeMarkup (withoutTags html.toList) = s.toList := by
  obtain ⟨wrap, keep, markdown, rfl⟩ := Settings.exists_fields_of_make_renderSettings hmade hclass
  refine ⟨wrap, keep, rfl, rfl, ?_, ?_⟩
  · intro name reason lines trace data position htrace
    -- the shell and the text of the markup, told apart before anything is rendered
    have hshown := shows_errorMarkup hclear wrap.isTruthy name reason
      (shownLines keep.isTruthy lines)
    exact ⟨_, outcome_render_error wrap keep markdown data position wrapper name reason htrace,
      hshown.delimiters, hshown.decodeMarkup_withoutTags⟩
  · intro output type es s htype hrich hdata hplain
    have hshown := shows_plainMarkup hclear (delimiters_richKind output) wrap.isTruthy s
    exact ⟨_, outcome_render_plain wrap keep markdown wrapper htype hrich hdata hplain,
      hshown.delimiters, hshown.decodeMarkup_withoutTags⟩

/-- A result with plain text in fragments. -/
def fragmentedResult (parts : List String) : Value :=
  Notebook.bare .executeResult [("data", .record [("text/html", .text ""),
    ("text/plain", .list (parts.map .text))]), ("execution_count", .null), ("metadata", .record [])]

/-- An error with tags and references in all its texts, and a result with plain text in fragments
that make a tag when they are put together. -/
theorem render_escaped_sample :
    ∃ error plain,
      (render (errorNode "<E>" "it's &lt;" (.list [.text "\x1b[31m<b>\x1b[0m", .text "&"]) .null .null)
        (Settings.usual .renderSettings)).outcome = (.ok (.text error), []) ∧
      delimiters error.toList =
        delimiters "<pre class=\"\"><span class=\"error-name\"></span></pre>".toList ∧
      decodeMarkup (withoutTags error.toList) = "<E>: it's &lt;\n<b>\n&".toList ∧
      (render (fragmentedResult ["<", "p>"]) (Settings.usual .renderSettings)).outcome =
        (.ok (.text plain), []) ∧
      delimiters plain.toList = delimiters "<div class=\"\"><pre></pre></div>".toList ∧
      decodeMarkup (withoutTags plain.toList) = "<p>".toList := by
  have hmade : Settings.make .renderSettings [] = .ok (Settings.usual .renderSettings) := rfl
  have hclass : (Settings.usual .renderSettings).field "wrapper_class" =
      .ok (.text "jupyter-output") := rfl
  obtain ⟨wrap, keep, hwrap, hkeep, herror, hplain⟩ := render_escaped hmade hclass (by decide)
  obtain rfl := Except.ok.inj hwrap
  obtain rfl := Except.ok.inj hkeep
  obtain ⟨error, hrender, hmarkup, htext⟩ := herror "<E>" "it's &lt;" ["\x1b[31m<b>\x1b[0m", "&"]
    (.list [.text "\x1b[31m<b>\x1b[0m", .text "&"]) .null .null rfl
  have hshows : ShowsPlain [("text/html", .text ""),
      ("text/plain", .list (["<", "p>"].map .text))] "<p>" :=
    ⟨by decide, ⟨_, rfl, .fragments ["<", "p>"]⟩, by decide⟩
  obtain ⟨plain, hrender', hmarkup', htext'⟩ := hplain (fragmentedResult ["<", "p>"])
    "executeResult" _ "<p>" rfl (.inr rfl) rfl hshows
  have hstripped : stripColors "\x1b[31m<b>\x1b[0m\n&".toList = "<b>\n&".toList :=
    stripColors_pieces [] [("\x1b[31m".toList, "<b>".toList), ("\x1b[0m".toList, "\n&".toList)]
      (by decide) (by decide)
  have hlines : shownLines false ["\x1b[31m<b>\x1b[0m", "&"] = "<b>\n&" :=
    congrArg String.ofList hstripped
  refine ⟨error, plain, hrender, hmarkup, ?_, hrender', hmarkup', htext'⟩
  rw [htext]
  show (errorText true "<E>" "it's &lt;" (shownLines false ["\x1b[31m<b>\x1b[0m", "&"])).toList = _
  rw [hlines]
  rfl

end NotebookTree.Output

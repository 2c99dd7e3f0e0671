import NotebookTree.Output.Render
import NotebookTree.Proofs.Sequence
import NotebookTree.Proofs.Settings
import NotebookTree.Proofs.Telling
import NotebookTree.Proofs.Text.Color
import NotebookTree.Proofs.Text.Markup

/-!
# Errors as markup

An error is shown by its lines, with color sequences taken out unless the settings keep them, and in
an element of its own with its name and its reason in front. All three are escaped, which neither
makes nor breaks a color sequence.

Sequences are taken out of all lines at once, but that comes to the same as line by line
(`colors_taken_out`). Two sorts of sequences are left: those of the name and the reason, which stay as
they are, and those that come together where others stood inside them (`colors_left`).

## Main definitions

* `errorNode`: an error with texts for its name and its reason.
* `errorMarkup`: what is shown of an error.

## Main results

* `outcome_render_error`: an error is shown so.
* `colors_taken_out`, `colors_left`: what is taken out, and what is left.
-/

namespace NotebookTree.Output

/-- A text with references in place of the characters that mean something in markup. -/
def escapedText (s : String) : String := String.ofList (Text.escapeMarkup s.toList)

/-- A text with its color sequences taken out. -/
def withoutColors (s : String) : String := String.ofList (Text.stripColors s.toList)

/-- An error with texts for its name and its reason. -/
def errorNode (name reason : String) (trace data position : Value) : Value :=
  .node .error [("ename", .text name), ("evalue", .text reason), ("traceback", trace),
    ("data", data), ("position", position)]

/-- Settings for what is rendered, with a text for the class. -/
def renderSettings (wrap keep markdown : Value) (wrapper : String) : Value :=
  .node .renderSettings [("wrap", wrap), ("wrapper_class", .text wrapper), ("preserve_ansi", keep),
    ("markdown_options", markdown)]

/-- The lines of an error put together, with their color sequences or without. -/
def shownLines (keep : Bool) (lines : List String) : String :=
  if keep then Value.joinWith "\n" lines else withoutColors (Value.joinWith "\n" lines)

/-- An error with a name, a reason and a text for its lines as markup, in an element of its own or
not. -/
def errorMarkup (wrap : Bool) (wrapper name reason trace : String) : String :=
  if wrap then
    "<pre class=\"" ++ wrapper ++ " " ++ wrapper ++ "-error\">" ++ "<span class=\"error-name\">" ++
      escapedText name ++ "</span>" ++ ": " ++ escapedText reason ++ "\n" ++ escapedText trace ++
      "</pre>"
  else escapedText trace

/-- The markup of an error is its parts in a wrapper. -/
theorem wrapIn_error (wrapper name reason trace : String) :
    wrapIn "pre" wrapper ["error"] ("<span class=\"error-name\">" ++ escapedText name ++
      "</span>: " ++ escapedText reason ++ "\n" ++ escapedText trace) =
      errorMarkup true wrapper name reason trace := by
  rw [← String.toList_inj]
  simp [wrapIn, errorMarkup, String.join]

/-- The lines of a traceback are joined to one text. -/
theorem joinLines_of_items {trace : Value} {lines : List String}
    (h : trace.items = .ok (lines.map .text)) :
    joinLines trace = .ok (Value.joinWith "\n" lines) := by
  rw [joinLines, h, Except.ok_bind, List.mapM_map, Except.mapM_eq_self]
  · rfl
  · intro line _
    rfl

/-- What is shown of an error with texts for its lines. -/
theorem outcome_render_error (wrap keep markdown data position : Value)
    (wrapper name reason : String) {trace : Value} {lines : List String}
    (htrace : trace.items = .ok (lines.map .text)) :
    (render (errorNode name reason trace data position)
      (renderSettings wrap keep markdown wrapper)).outcome =
      (.ok (.text (errorMarkup wrap.isTruthy wrapper name reason
        (shownLines keep.isTruthy lines))), []) := by
  obtain ⟨output, houtput⟩ : ∃ output, output = errorNode name reason trace data position :=
    ⟨_, rfl⟩
  obtain ⟨settings, hsettings⟩ : ∃ settings,
      settings = renderSettings wrap keep markdown wrapper := ⟨_, rfl⟩
  have hname : output.field "ename" = .ok (.text name) := houtput ▸ rfl
  have hreason : output.field "evalue" = .ok (.text reason) := houtput ▸ rfl
  have hlines : output.field "traceback" = .ok trace := houtput ▸ rfl
  have hwrap : settings.field "wrap" = .ok wrap := hsettings ▸ rfl
  have hkeep : settings.field "preserve_ansi" = .ok keep := hsettings ▸ rfl
  -- the fields are known, so only the two choices of the settings are left
  have hshown : renderError settings output wrapper = .ok (.text (errorMarkup wrap.isTruthy wrapper
      name reason (shownLines keep.isTruthy lines))) := by
    simp only [renderError, hlines, joinLines_of_items htrace, hkeep, hwrap, hname, hreason,
      Except.ok_bind]
    cases wrap.isTruthy with
    | true =>
      rw [← wrapIn_error]
      cases keep.isTruthy <;> rfl
    | false => cases keep.isTruthy <;> rfl
  have hstream : output.hasType "stream" = false := houtput ▸ rfl
  have hrich : isRich output = false := houtput ▸ rfl
  have herror : output.hasType "error" = true := houtput ▸ rfl
  have htruthy : settings.isTruthy = true := hsettings ▸ rfl
  have hclass : settings.field "wrapper_class" = .ok (.text wrapper) := hsettings ▸ rfl
  rw [← houtput, ← hsettings, render, if_pos htruthy, hclass, Logged.ofExcept_ok_bind, hstream,
    hrich, if_neg Bool.false_ne_true, if_neg Bool.false_ne_true, if_pos herror, Value.plainText,
    hshown]
  rfl

/-! ## Color sequences in markup -/

section Colors

open Text

/-- A text without characters that have a reference is escaped to itself. -/
theorem escapedText_eq_self {s : String} (h : s.toList.flatMap referenceFor = s.toList) :
    escapedText s = s := by
  rw [escapedText, escapeMarkup_eq_flatMap, h, String.ofList_toList]

/-- A color sequence has nothing to be escaped. -/
theorem escapeMarkup_sequence_append {s : List Char} (h : IsColorSequence s) (rest : List Char) :
    escapeMarkup (s ++ rest) = s ++ escapeMarkup rest := by
  rw [escapeMarkup_append, escapeMarkup_eq_self fun c hc => ?_]
  rcases mem_markupReferences_or c with hreference | ⟨hself, -⟩
  · have hall : ∀ r ∈ markupReferences, r.2 ≠ escapeChar ∧ isColorPart r.2 = false := by decide
    obtain ⟨hescape, hpart⟩ := hall _ hreference
    exact absurd hc (h.not_mem hescape hpart)
  · exact hself

/-- A sequence stands in front of escaped text if one stands in front of the text. -/
theorem isSome_colorSequence?_escapeMarkup (cs : List Char) :
    (colorSequence? (escapeMarkup cs)).isSome = (colorSequence? cs).isSome := by
  rw [Bool.eq_iff_iff, Option.isSome_iff_exists, Option.isSome_iff_exists]
  constructor
  · rintro ⟨rest, hrest⟩
    obtain ⟨s, hs, heq⟩ := colorSequence?_eq_some_iff.mp hrest
    have hdecoded := congrArg decodeMarkup heq
    rw [decodeMarkup_escapeMarkup,
      decodeMarkup_append_of_not_mem (hs.not_mem (by decide) (by decide))] at hdecoded
    exact ⟨_, colorSequence?_eq_some_iff.mpr ⟨s, hs, hdecoded⟩⟩
  · rintro ⟨rest, hrest⟩
    obtain ⟨s, hs, rfl⟩ := colorSequence?_eq_some_iff.mp hrest
    exact ⟨_, colorSequence?_eq_some_iff.mpr ⟨s, hs, escapeMarkup_sequence_append hs _⟩⟩

/-- The reference for a character brings no escape character. -/
theorem not_mem_referenceFor {c : Char} (h : c ≠ escapeChar) : escapeChar ∉ referenceFor c := by
  rcases mem_markupReferences_or c with hreference | ⟨hself, -⟩
  · have hall : ∀ r ∈ markupReferences, escapeChar ∉ r.1 := by decide
    exact hall _ hreference
  · rw [hself]
    simpa using Ne.symm h

/-- Escaping neither makes nor breaks a sequence. -/
theorem hasColor_escapeMarkup {cs : List Char} : HasColor (escapeMarkup cs) ↔ HasColor cs := by
  induction cs with
  | nil => rw [escapeMarkup_nil]
  | cons c cs ih =>
    by_cases hc : c = escapeChar
    · subst hc
      have hsome := isSome_colorSequence?_escapeMarkup (escapeChar :: cs)
      have hescape : referenceFor escapeChar = [escapeChar] := by decide
      rw [escapeMarkup_cons, hescape, List.singleton_append] at hsome ⊢
      rw [hasColor_cons, hsome, ih, ← hasColor_cons]
    · rw [escapeMarkup_cons, hasColor_append_of_not_mem (not_mem_referenceFor hc), ih,
        hasColor_cons_of_ne hc]

/-- Escaping neither makes nor breaks a color sequence. -/
theorem hasColor_escapedText {s : String} : HasColor (escapedText s).toList ↔ HasColor s.toList := by
  rw [escapedText, String.toList_ofList, hasColor_escapeMarkup]

/-- The sequences in what is shown of an error are those of its parts. -/
theorem hasColor_errorMarkup (wrap : Bool) (wrapper name reason trace : String) :
    HasColor (errorMarkup wrap wrapper name reason trace).toList ↔
      (wrap = true ∧ (HasColor wrapper.toList ∨ HasColor name.toList ∨ HasColor reason.toList)) ∨
        HasColor trace.toList := by
  cases wrap with
  | false => simp [errorMarkup, hasColor_escapedText]
  | true =>
    -- what stands between the texts lets no sequence go over from one to the next
    have hblank : Separates " ".toList := by decide
    have hopened : Separates "-error\">".toList := by decide
    have hnamed : Separates "</span>".toList := by decide
    have hcolon : Separates ": ".toList := by decide
    have hline : Separates "\n".toList := by decide
    have hclosed : Separates "</pre>".toList := by decide
    have hfront : escapeChar ∉ "<pre class=\"".toList := by decide
    have hspan : escapeChar ∉ "<span class=\"error-name\">".toList := by decide
    have hend : HasColor ((escapedText trace).toList ++ "</pre>".toList) ↔ HasColor trace.toList := by
      rw [← List.append_nil "</pre>".toList, hclosed.hasColor_append, hasColor_escapedText]
      simp
    simp only [errorMarkup, if_true, String.toList_append, List.append_assoc]
    rw [hasColor_append_of_not_mem hfront, hblank.hasColor_append, hopened.hasColor_append,
      hasColor_append_of_not_mem hspan, hnamed.hasColor_append,
      hasColor_append_of_not_mem hcolon.1, hline.hasColor_append, hend, hasColor_escapedText,
      hasColor_escapedText]
    simp [or_assoc]

/-! ## What is taken out, and what is left -/

/-- Joined lines are the lines with ends between them. -/
theorem toList_joinWith (lines : List String) :
    (Value.joinWith "\n" lines).toList = ['\n'].intercalate (lines.map String.toList) := by
  rw [Value.joinWith, String.toList_intercalate]
  rfl

/-- A text without colors has the characters that stripping leaves. -/
theorem toList_withoutColors (s : String) : (withoutColors s).toList = stripColors s.toList := by
  rw [withoutColors, String.toList_ofList]

/-- Sequences are taken out of all lines at once as they are line by line. -/
theorem withoutColors_joinWith (lines : List String) :
    withoutColors (Value.joinWith "\n" lines) =
      Value.joinWith "\n" (lines.map withoutColors) := by
  rw [← String.toList_inj, toList_withoutColors, toList_joinWith, toList_joinWith,
    stripColors_intercalate, List.map_map, List.map_map]
  congr 1
  refine List.map_congr_left fun s _ => ?_
  simp [toList_withoutColors]

/-- The sequences in the lines of an error without their sequences. -/
theorem hasColor_shownLines (lines : List String) :
    HasColor (shownLines false lines).toList ↔
      ∃ line ∈ lines, ∃ u, IsSplitSequence u ∧ u <:+: line.toList := by
  have hshown : shownLines false lines = withoutColors (Value.joinWith "\n" lines) := rfl
  rw [hshown, withoutColors_joinWith, toList_joinWith, hasColor_intercalate]
  simp [toList_withoutColors, hasColor_stripColors_iff]

/-- What is taken out of a text is exactly its sequences: of texts without the escape character and
sequences in between, the texts are left. Of lines, whatever they are, sequences are taken out one by
one, though it is done for all of them at once. So without its sequences an error is shown as one
that has none in its lines. -/
theorem colors_taken_out :
    (∀ (front : List Char) (parts : List (List Char × List Char)), escapeChar ∉ front →
      (∀ p ∈ parts, IsColorSequence p.1 ∧ escapeChar ∉ p.2) →
      stripColors (front ++ parts.flatMap fun p => p.1 ++ p.2) =
        front ++ parts.flatMap Prod.snd) ∧
    (∀ lines : List String, withoutColors (Value.joinWith "\n" lines) =
      Value.joinWith "\n" (lines.map withoutColors)) ∧
    ∀ (wrap keep kept markdown data position trace : Value) (wrapper name reason : String)
      (lines : List String), keep.isTruthy = false → kept.isTruthy = true →
      trace.items = .ok (lines.map .text) →
      (render (errorNode name reason trace data position)
        (renderSettings wrap keep markdown wrapper)).outcome =
      (render (errorNode name reason (.list ((lines.map withoutColors).map .text)) data position)
        (renderSettings wrap kept markdown wrapper)).outcome := by
  refine ⟨stripColors_pieces, withoutColors_joinWith, ?_⟩
  intro wrap keep kept markdown data position trace wrapper name reason lines hkeep hkept htrace
  have hlines : shownLines keep.isTruthy lines =
      shownLines kept.isTruthy (lines.map withoutColors) := by
    rw [hkeep, hkept]
    exact withoutColors_joinWith lines
  rw [outcome_render_error wrap keep markdown data position wrapper name reason htrace,
    outcome_render_error wrap kept markdown data position wrapper name reason rfl, hlines]

/-- Brackets, digits and `m` that follow no escape character stay, and so does a sequence that is
broken off by the end of its line. -/
theorem colors_taken_out_sample :
    stripColors "a[0m\x1b[1;32mok\x1b[0m, 3m".toList = "a[0mok, 3m".toList ∧
    (render (errorNode "E" "x" (.list [.text "\x1b[3", .text "1m\x1b[my"]) .null .null)
      (renderSettings (.bool true) (.bool false) .null "jupyter-output")).outcome =
    (render (errorNode "E" "x" (.list [.text "\x1b[3", .text "1my"]) .null .null)
      (renderSettings (.bool true) (.bool true) .null "jupyter-output")).outcome := by
  have hbroken : stripColors "\x1b[3".toList = "\x1b[3".toList :=
    stripColors_eq_self_iff.mpr (by decide)
  have hempty : stripColors "1m\x1b[my".toList = "1my".toList :=
    stripColors_pieces "1m".toList [("\x1b[m".toList, "y".toList)] (by decide) (by decide)
  have hlines : ["\x1b[3", "1m\x1b[my"].map withoutColors = ["\x1b[3", "1my"] := by
    simp only [List.map_cons, List.map_nil, withoutColors, hbroken, hempty, String.ofList_toList]
  constructor
  · exact colors_taken_out.1 "a[0m".toList
      [("\x1b[1;32m".toList, "ok".toList), ("\x1b[0m".toList, ", 3m".toList)] (by decide) (by decide)
  · have hshown := colors_taken_out.2.2 (.bool true) (.bool false) (.bool true) .null .null .null
      (.list [.text "\x1b[3", .text "1m\x1b[my"]) "jupyter-output" "E" "x"
      ["\x1b[3", "1m\x1b[my"] rfl rfl rfl
    rw [hlines] at hshown
    exact hshown

/-- What is left of sequences. A text without its sequences has one if and only if a sequence with
others inside stands in the text, and just then a second run takes out more than the first. An error
is shown with the sequences of its name, of its reason and of the class, if it has an element of its
own, and with those that come together in one of its lines. -/
theorem colors_left (cs : List Char) :
    (HasColor (stripColors cs) ↔ ∃ u, IsSplitSequence u ∧ u <:+: cs) ∧
    (stripColors (stripColors cs) = stripColors cs ↔ ¬HasColor (stripColors cs)) ∧
    ∀ (given : Entries Value) (options keep : Value) (wrapper : String),
      Settings.make .renderSettings given = .ok options →
      options.field "wrapper_class" = .ok (.text wrapper) →
      options.field "preserve_ansi" = .ok keep → keep.isTruthy = false →
      ∀ (name reason : String) (lines : List String) (trace data position : Value),
        trace.items = .ok (lines.map .text) →
        ∃ wrap html, options.field "wrap" = .ok wrap ∧
          (render (errorNode name reason trace data position) options).outcome =
            (.ok (.text html), []) ∧
          (HasColor html.toList ↔
            (wrap.isTruthy = true ∧
              (HasColor wrapper.toList ∨ HasColor name.toList ∨ HasColor reason.toList)) ∨
            ∃ line ∈ lines, ∃ u, IsSplitSequence u ∧ u <:+: line.toList) := by
  refine ⟨hasColor_stripColors_iff, stripColors_eq_self_iff, ?_⟩
  intro given options keep wrapper hmade hclass hkeep hfalse name reason lines trace data position
    htrace
  obtain ⟨wrap, keep, markdown, rfl⟩ := Settings.exists_fields_of_make_renderSettings hmade hclass
  obtain rfl := Except.ok.inj hkeep
  refine ⟨wrap, _, rfl, outcome_render_error wrap _ markdown data position wrapper name reason htrace,
    ?_⟩
  rw [hasColor_errorMarkup, hfalse, hasColor_shownLines]

/-- An error with colors in its lines alone is shown without any, in an element of its own. -/
theorem colors_left_sample :
    ∃ html, (render (errorNode "E" "x" (.list [.text "\x1b[31mE\x1b[0m: x"]) .null .null)
        (Settings.usual .renderSettings)).outcome = (.ok (.text html), []) ∧
      ¬HasColor html.toList := by
  obtain ⟨hleft, -, hrender⟩ := colors_left "\x1b[31mE\x1b[0m: x".toList
  obtain ⟨wrap, html, -, hshown, hcolor⟩ := hrender [] (Settings.usual .renderSettings)
    (.bool false) "jupyter-output" rfl rfl rfl rfl "E" "x" ["\x1b[31mE\x1b[0m: x"]
    (.list [.text "\x1b[31mE\x1b[0m: x"]) .null .null rfl
  have hstripped : stripColors "\x1b[31mE\x1b[0m: x".toList = "E: x".toList :=
    stripColors_pieces [] [("\x1b[31m".toList, "E".toList), ("\x1b[0m".toList, ": x".toList)]
      (by decide) (by decide)
  refine ⟨html, hshown, ?_⟩
  rw [hcolor, not_or]
  constructor
  · rintro ⟨-, hwrapper | hname | hreason⟩
    · exact absurd hwrapper (by decide)
    · exact absurd hname (by decide)
    · exact absurd hreason (by decide)
  · rintro ⟨line, hline, hsplit⟩
    obtain rfl := List.mem_singleton.mp hline
    have hcolored := hleft.mpr hsplit
    rw [hstripped] at hcolored
    exact absurd hcolored (by decide)

/-- A sequence with another inside becomes one, which a second run would take out; and an error is
shown with the sequence in its reason, though the settings do not keep any. -/
theorem colors_left_behind :
    stripColors "\x1b[\x1b[0m31m".toList = "\x1b[31m".toList ∧ HasColor "\x1b[31m".toList ∧
    stripColors "\x1b[31m".toList = [] ∧
    (Settings.usual .renderSettings).field "preserve_ansi" = .ok (.bool false) ∧
    ∃ html, (render (errorNode "E" "\x1b[31mx" (.list []) .null .null)
        (Settings.usual .renderSettings)).outcome = (.ok (.text html), []) ∧
      html = "<pre class=\"jupyter-output jupyter-output-error\"><span class=\"error-name\">E" ++
        "</span>: \x1b[31mx\n</pre>" ∧ HasColor html.toList := by
  -- taking out the inner sequence joins what stands on its two sides to a new one
  have hsplit : "\x1b[\x1b[0m31m".toList =
      escapeChar :: ("[".toList ++ ("\x1b[0m".toList ++ "31m".toList)) := by decide
  have hjoined : stripColors "\x1b[\x1b[0m31m".toList = "\x1b[31m".toList := by
    rw [hsplit, stripColors_cons_of_eq_none (by decide), stripColors_append_of_not_mem (by decide),
      stripColors_sequence_append (by decide), stripColors_eq_self_iff.mpr (by decide)]
    decide
  have hnone : stripColors "\x1b[31m".toList = [] :=
    (stripColors_of_eq_some (by decide)).trans stripColors_nil
  have htrace : (Value.list []).items = .ok (([] : List String).map .text) := rfl
  have hempty : shownLines false [] = "" := congrArg String.ofList stripColors_nil
  refine ⟨hjoined, by decide, hnone, rfl, _, outcome_render_error _ _ _ _ _ _ _ _ htrace, ?_, ?_⟩
  · show errorMarkup true "jupyter-output" "E" "\x1b[31mx" (shownLines false []) = _
    rw [errorMarkup, if_pos rfl, hempty, escapedText_eq_self (by decide),
      escapedText_eq_self (by decide), escapedText_eq_self (by decide)]
    rfl
  · rw [hasColor_errorMarkup]
    exact .inl ⟨rfl, .inr (.inr (by decide))⟩

end Colors

end NotebookTree.Output

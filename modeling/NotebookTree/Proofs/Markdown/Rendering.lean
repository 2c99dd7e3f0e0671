import NotebookTree.Markdown.HtmlWriter
import NotebookTree.Proofs.Markdown.Return
import NotebookTree.Proofs.Notebook.Shape
import NotebookTree.Proofs.Settings

/-!
# Writing what has been read

A tree that a text has been read into is written by way of tokens that its elements give again.
These are not the tokens of the text, as fields come in another order. But a token is written from
its type, text, attributes and children alone, and those come back (`exists_same_of_open`).

## Main results

* `writeToken_congr`: what a token is written from.
* `toHtml_parse`: a tree is written as its text is.
-/

namespace NotebookTree

namespace Markdown

/-! ## Tokens that are written alike -/

/-- A token is written from its type, its text, its attributes and its children. -/
theorem writeToken_congr {rules : HtmlRules} {fields fields' : Entries Value}
    {children children' : Option (List Token)}
    (htype : fields'.get? "type" = fields.get? "type")
    (hraw : fields'.get? "raw" = fields.get? "raw")
    (hattrs : attributesOf (.mk fields' children') = attributesOf (.mk fields children))
    (hhas : fields'.has "children" = fields.has "children")
    (hchildren : children'.map (writeTokens rules) = children.map (writeTokens rules)) :
    writeToken rules (.mk fields' children') = writeToken rules (.mk fields children) := by
  cases children with
  | none =>
    cases children' with
    | none =>
      -- without children writing asks whether the field is there, to fall back on the raw text
      simp only [writeToken, typeOf, Token.get?, Token.fields, htype, hraw, hattrs, hhas]
      rfl
    | some ts => cases hchildren
  | some ts =>
    cases children' with
    | none => cases hchildren
    | some ts' =>
      have hts : writeTokens rules ts' = writeTokens rules ts := Option.some.inj hchildren
      simp only [writeToken, typeOf, Token.get?, Token.fields, htype, hraw, hattrs, hts]

mutual

/-- A token is written like any that is the same. -/
theorem writeToken_same (rules : HtmlRules) : ∀ {t t' : Token}, t.Same t' →
    writeToken rules t' = writeToken rules t
  | .mk fields children, .mk fields' children', h => by
    obtain ⟨hfields, hchildren⟩ := h
    refine writeToken_congr (hfields "type") (hfields "raw") ?_ ?_
      (writeChildren_same rules hchildren)
    · simp only [attributesOf, Token.get?, Token.fields, hfields "attrs"]
    · rw [Entries.has_eq_isSome_lookup, Entries.has_eq_isSome_lookup]
      exact congrArg Option.isSome (hfields "children")

/-- Children are written like any that are the same. -/
theorem writeChildren_same (rules : HtmlRules) : ∀ {children children' : Option (List Token)},
    SameChildren children children' →
    children'.map (writeTokens rules) = children.map (writeTokens rules)
  | none, none, _ => rfl
  | some _, some _, h => congrArg some (writeTokens_same rules h)
  | none, some _, h => h.elim
  | some _, none, h => h.elim

/-- Tokens are written like any that are the same. -/
theorem writeTokens_same (rules : HtmlRules) : ∀ {ts ts' : List Token}, SameTokens ts ts' →
    writeTokens rules ts' = writeTokens rules ts
  | [], [], _ => rfl
  | t :: ts, t' :: ts', h => by
    rw [writeTokens, writeTokens, writeToken_same rules h.1, writeTokens_same rules h.2]
  | [], _ :: _, h => h.elim
  | _ :: _, [], h => h.elim

end

/-- A tree whose children are the elements of a document is written as the document is. -/
theorem toHtml_of_elements {k : Kind} {fields : Entries Value} {rules : HtmlRules}
    {settings : Value} {s : String} (hrules : htmlRulesOf settings = .ok rules)
    (hchildren : (Value.node k fields).attribute? "children" =
      some (.list (elementsOf (readDocument rules.extensions s.toList)))) :
    toHtml (.node k fields) settings = toHtml (.text s) settings := by
  obtain ⟨ts, hts, hsame⟩ :=
    exists_same_of_allRegular (readDocument_regular rules.extensions s.toList)
  rw [toHtml, toHtml, hrules, Except.ok_bind, Except.ok_bind]
  dsimp only
  rw [tokensOfTree_of_children hchildren, hts, Except.ok_bind, writeTokens_same rules hsame]
  rfl

/-- Markdown that has been read is written as its text is. With any extensions, and whether raw
markup is passed on or not, the tree of a text comes out as the text itself does, in the same fault
if it does; and so does what a notebook that was read with these extensions holds for a Markdown
cell, the text being the one that stands with it. -/
theorem toHtml_parse {plugins allow settings html : Value}
    (hsettings : Settings.make .markdownSettings [("plugins", plugins)] = .ok settings)
    (hhtml : Settings.make .markdownToHtmlSettings
      [("allow_dangerous_html", allow), ("plugins", plugins)] = .ok html) :
    (∀ s, ∃ tree told, (parse (.text s) settings).outcome = (.ok tree, told) ∧
      toHtml tree html = toHtml (.text s) html) ∧
    ∀ files source root told,
      (Notebook.read files (Settings.withMarkdown settings) source).outcome = (.ok root, told) →
      ∀ fields, Below (.node .parsedMarkdown fields) root →
      ∃ s, Entries.get? fields "data" = some (.record [("source", .text s)]) ∧
        toHtml (.node .parsedMarkdown fields) html = toHtml (.text s) html := by
  obtain ⟨extensions, hextensions, hrules⟩ := Settings.rules_of_make hsettings hhtml
  -- the settings enable the same extensions on both sides, and these alone decide the elements
  have helements : ∀ s, elementsFor settings (.text s) =
      .ok (elementsOf (readDocument extensions s.toList)) := fun s => by
    rw [elementsFor, hextensions]
    rfl
  refine ⟨fun s => ?_, fun files source root told hread fields hbelow => ?_⟩
  · exact ⟨_, _, parse_of_elementsFor (helements s), toHtml_of_elements hrules rfl⟩
  · obtain ⟨options, es, path, entries, language, cells, hoptions, -, -, -, rfl, hcells, -⟩ :=
      Notebook.read_cases hread
    obtain rfl := Except.ok.inj hoptions
    cases hbelow with
    | child hc hbelow =>
      obtain ⟨v, -, hof⟩ := Notebook.exists_of_forall₂_of_mem hcells hc
      obtain ⟨options, s, elements, hchosen, hparsed, rfl⟩ :=
        Notebook.exists_elements_of_below hof hbelow
      obtain rfl := Except.ok.inj hchosen
      obtain rfl := Except.ok.inj ((helements s).symm.trans hparsed)
      exact ⟨s, rfl, toHtml_of_elements hrules rfl⟩

/-- With tables and notes, and raw markup passed on. -/
theorem toHtml_parse_sample :
    let plugins : Value := .list [.text "table", .text "footnotes"]
    ∃ settings html, Settings.make .markdownSettings [("plugins", plugins)] = .ok settings ∧
      Settings.make .markdownToHtmlSettings
        [("allow_dangerous_html", .bool true), ("plugins", plugins)] = .ok html ∧
      ∃ tree told, (parse (.text "a[^1]\n\n[^1]: b") settings).outcome = (.ok tree, told) ∧
        toHtml tree html = toHtml (.text "a[^1]\n\n[^1]: b") html := by
  intro plugins
  have hsettings : Settings.make .markdownSettings [("plugins", plugins)] = .ok (.node
      .markdownSettings [("plugins", .tuple [.text "table", .text "footnotes"])]) := rfl
  have hhtml : Settings.make .markdownToHtmlSettings
      [("allow_dangerous_html", .bool true), ("plugins", plugins)] = .ok (.node
        .markdownToHtmlSettings [("allow_dangerous_html", .bool true),
          ("plugins", .tuple [.text "table", .text "footnotes"])]) := rfl
  exact ⟨_, _, hsettings, hhtml, (toHtml_parse hsettings hhtml).1 _⟩

end Markdown

end NotebookTree

import NotebookTree.Markdown.Document

/-!
# Regular tokens

A token is open if elements have a place for all that it holds: a type, perhaps a text, perhaps a
record of attributes that is not empty, any other fields, and no field twice. It is regular if its
type is also one that writers know. All tokens that documents are read into are regular, and so are
those below them; and none of their types is the word of another node.

## Main definitions

* `Token.All`: something holds of the fields of a token and of all tokens below.
* `tokenTypes`: the types of the tokens that documents are read into.
* `OpenFields`, `RegularFields`: the fields of an open token, and of a regular one.

## Main results

* `readDocument_regular`: the tokens of a document are regular.
-/

namespace NotebookTree.Markdown

/-- Something holds of the fields of a token and of those of all tokens below it. -/
inductive Token.All (P : Entries Value → Prop) : Token → Prop
  | mk {fields : Entries Value} {children : Option (List Token)} (here : P fields)
      (below : ∀ ts, children = some ts → ∀ t ∈ ts, Token.All P t) :
      Token.All P (.mk fields children)

/-- What all tokens have, they have by every weaker property. -/
theorem Token.All.mono {P Q : Entries Value → Prop} (h : ∀ fields, P fields → Q fields) {t : Token}
    (ht : t.All P) : t.All Q := by
  induction ht with
  | mk here _ ih => exact .mk (h _ here) ih

/-- The types of the tokens that documents are read into. -/
def tokenTypes : List String :=
  ["text", "emphasis", "strong", "codespan", "link", "image", "linebreak", "softbreak",
   "inline_html", "strikethrough", "mark", "insert", "superscript", "subscript", "inline_spoiler",
   "footnote_ref", "abbr", "inline_math", "block_math", "ruby", "blank_line", "paragraph",
   "block_text", "heading", "thematic_break", "block_code", "block_quote", "block_spoiler",
   "block_html", "list", "list_item", "task_list_item", "table", "table_head", "table_body",
   "table_row", "table_cell", "def_list", "def_list_head", "def_list_item", "footnotes",
   "footnote_item"]

/-- The fields of a regular token. -/
structure RegularFields (fields : Entries Value) : Prop where
  type : ∃ word, fields.get? "type" = some (.text word) ∧ word ∈ tokenTypes
  raw : ∀ v, fields.get? "raw" = some v → ∃ s, v = .text s
  attrs : ∀ v, fields.get? "attrs" = some v → ∃ es, v = .record es ∧ es ≠ []
  childless : fields.has "children" = false
  distinct : (fields.map Prod.fst).Nodup

/-- Fields that elements have a place for: a type, perhaps a text, perhaps a record of attributes that
is not empty, any others, and no field twice. -/
structure OpenFields (fields : Entries Value) : Prop where
  type : ∃ word, fields.get? "type" = some (.text word)
  raw : ∀ v, fields.get? "raw" = some v → ∃ s, v = .text s
  attrs : ∀ v, fields.get? "attrs" = some v → ∃ es, v = .record es ∧ es ≠ []
  childless : fields.has "children" = false
  distinct : (fields.map Prod.fst).Nodup

/-- The raw text of an open token is missing or a text. -/
theorem OpenFields.raw_cases {fields : Entries Value} (h : OpenFields fields) :
    fields.get? "raw" = none ∨ ∃ s, fields.get? "raw" = some (.text s) := by
  cases hraw : fields.get? "raw" with
  | none => exact .inl rfl
  | some v =>
    obtain ⟨s, rfl⟩ := h.raw v hraw
    exact .inr ⟨s, rfl⟩

/-- The fields of a regular token are those of an open one. -/
theorem RegularFields.isOpen {fields : Entries Value} (h : RegularFields fields) :
    OpenFields fields where
  type := h.type.imp fun _ hword => hword.1
  raw := h.raw
  attrs := h.attrs
  childless := h.childless
  distinct := h.distinct

/-- A token that elements have a place for. -/
abbrev Token.IsOpen (t : Token) : Prop := t.All OpenFields

/-- A token with nothing but what documents are read into. -/
abbrev Token.IsRegular (t : Token) : Prop := t.All RegularFields

section Tokens

variable {type : String} {ts : List Token} {fields attrs : Entries Value}

/-- A token without children is regular when its fields are. -/
theorem isRegular_of_childless (h : RegularFields fields) : (Token.mk fields none).IsRegular :=
  .mk h fun _ h => nomatch h

/-- A token is regular when its fields and its children are. -/
theorem isRegular_of_children (h : RegularFields fields) (hts : ∀ t ∈ ts, t.IsRegular) :
    (Token.mk fields (some ts)).IsRegular :=
  .mk h fun _ hts' => Option.some.inj hts' ▸ hts

/-- A token with a type alone is regular. -/
theorem isRegular_plainToken (h : type ∈ tokenTypes) : (plainToken type).IsRegular :=
  isRegular_of_childless ⟨⟨type, rfl, h⟩, fun _ => nofun, fun _ => nofun, rfl, by simp⟩

/-- A token with a type, children and perhaps attributes is regular when its children are. -/
theorem isRegular_parentToken (h : type ∈ tokenTypes) (hts : ∀ t ∈ ts, t.IsRegular)
    (attrs : Entries Value) : (parentToken type ts attrs).IsRegular := by
  refine isRegular_of_children ?_ hts
  cases attrs with
  | nil => exact ⟨⟨type, rfl, h⟩, fun _ => nofun, fun _ => nofun, rfl, by simp⟩
  | cons e es =>
    exact ⟨⟨type, rfl, h⟩, fun _ => nofun,
      fun _ hv => ⟨e :: es, (Option.some.inj hv).symm, List.cons_ne_nil _ _⟩, rfl, by simp⟩

/-- A token with a type, a raw text and perhaps attributes is regular. -/
theorem isRegular_rawToken (h : type ∈ tokenTypes) (raw : List Char) (attrs : Entries Value) :
    (rawToken type raw attrs).IsRegular := by
  refine isRegular_of_childless ?_
  have hraw : ∀ v, some (ofChars raw) = some v → ∃ s, v = .text s := fun _ hv =>
    ⟨_, (Option.some.inj hv).symm⟩
  cases attrs with
  | nil => exact ⟨⟨type, rfl, h⟩, hraw, fun _ => nofun, rfl, by simp⟩
  | cons e es =>
    exact ⟨⟨type, rfl, h⟩, hraw,
      fun _ hv => ⟨e :: es, (Option.some.inj hv).symm, List.cons_ne_nil _ _⟩, rfl, by simp⟩

/-- The token of a link or image is regular when its children are. -/
theorem isRegular_linkToken (h : type ∈ tokenTypes) (url : List Char) (title : Option (List Char))
    (reference : Option (List Char × List Char)) (hts : ∀ t ∈ ts, t.IsRegular) :
    (linkToken type url title reference ts).IsRegular := by
  cases reference with
  | none => exact isRegular_parentToken h hts _
  | some reference =>
    exact isRegular_of_children ⟨⟨type, rfl, h⟩, fun _ => nofun,
      fun _ hv => ⟨_, (Option.some.inj hv).symm, List.cons_ne_nil _ _⟩, rfl, by simp⟩ hts

end Tokens

/-! ## Running text -/

mutual

/-- The token of inline text is regular, whatever extension it comes from. -/
theorem isRegular_inline : (i : Inline) → i.toToken.IsRegular
  | .text s => isRegular_rawToken (by decide) s []
  -- inline text inside other text is regular by the recursion over the list of it
  | .emphasis children => isRegular_parentToken (by decide) (isRegular_inlines children) []
  | .strong children => isRegular_parentToken (by decide) (isRegular_inlines children) []
  | .codespan s => isRegular_rawToken (by decide) s []
  | .link url title reference children =>
    isRegular_linkToken (by decide) url title reference (isRegular_inlines children)
  | .image url title reference children =>
    isRegular_linkToken (by decide) url title reference (isRegular_inlines children)
  | .lineBreak => isRegular_plainToken (by decide)
  | .softBreak => isRegular_plainToken (by decide)
  | .html s => isRegular_rawToken (by decide) s []
  | .span kind children =>
    isRegular_parentToken (by cases kind <;> decide) (isRegular_inlines children) []
  | .footnote key index => isRegular_rawToken (by decide) key [("index", .int index)]
  | .abbreviation title short =>
    isRegular_parentToken (by decide)
      (List.forall_mem_singleton.mpr (isRegular_rawToken (by decide) short []))
      [("title", ofChars title)]
  | .math s => isRegular_rawToken (by decide) s []
  | .displayMath s => isRegular_rawToken (by decide) s []
  | .ruby base reading => isRegular_rawToken (by decide) base [("rt", ofChars reading)]

/-- The tokens of inline texts are regular. -/
theorem isRegular_inlines : (is : List Inline) → ∀ t ∈ inlineTokens is, t.IsRegular
  | [] => List.forall_mem_nil _
  | i :: is => List.forall_mem_cons.mpr ⟨isRegular_inline i, isRegular_inlines is⟩

end

/-- What is read is of some sort, whatever notes have been referred to before. -/
def Reads {α : Type} (P : α → Prop) (reading : Reading α) : Prop :=
  ∀ keys, P (reading.run keys).1

section Reads

variable {α β : Type} {P : α → Prop} {Q : β → Prop}

/-- A value handed on is read as it is. -/
theorem reads_pure {a : α} (h : P a) : Reads P (pure a : Reading α) := fun _ => h

/-- A sequence is read as its halves are. -/
theorem reads_bind {r : Reading α} {f : α → Reading β} (hr : Reads P r)
    (hf : ∀ a, P a → Reads Q (f a)) : Reads Q (r >>= f) := fun keys => hf _ (hr keys) _

end Reads

/-- All of some tokens are regular. -/
abbrev AllRegular (ts : List Token) : Prop := ∀ t ∈ ts, t.IsRegular

/-- Text is read to regular tokens. -/
theorem reads_readText (ctx : Context) (text : List Char) : Reads AllRegular (readText ctx text) :=
  reads_bind (P := fun _ => True) (fun _ => trivial) fun is _ => reads_pure (isRegular_inlines is)

/-- The cells of a row are read to regular tokens. -/
theorem reads_cellTokens (ctx : Context) (head : Bool) :
    ∀ (aligns : List (Option Alignment)) (texts : List (List Char)),
      Reads AllRegular (cellTokens ctx head aligns texts)
  | _, [] => reads_pure (List.forall_mem_nil _)
  | aligns, text :: texts =>
    reads_bind (reads_readText ctx text) fun _ hchildren =>
      reads_bind (reads_cellTokens ctx head (aligns.drop 1) texts) fun _ hcells =>
        reads_pure (List.forall_mem_cons.mpr
          ⟨isRegular_parentToken (by decide) hchildren _, hcells⟩)

/-- The rows of a table are read to regular tokens. -/
theorem reads_rowTokens (ctx : Context) (aligns : List (Option Alignment)) :
    ∀ rows : List (List (List Char)), Reads AllRegular (rowTokens ctx aligns rows)
  | [] => reads_pure (List.forall_mem_nil _)
  | row :: rows =>
    reads_bind (reads_cellTokens ctx false aligns row) fun _ hcells =>
      reads_bind (reads_rowTokens ctx aligns rows) fun _ hrows =>
        reads_pure (List.forall_mem_cons.mpr
          ⟨isRegular_parentToken (by decide) hcells [], hrows⟩)

/-! ## Blocks -/

/-- The token of a block of code is regular. -/
theorem isRegular_codeToken (style : CodeStyle) (content : List Char) :
    (codeToken style content).IsRegular := by
  have hraw : ∀ v, some (ofChars content) = some v → ∃ s, v = .text s := fun _ hv =>
    ⟨_, (Option.some.inj hv).symm⟩
  cases style with
  | indented =>
    exact isRegular_of_childless ⟨⟨_, rfl, by decide⟩, hraw, fun _ => nofun, rfl, by simp⟩
  | fenced marker info =>
    cases info with
    | none =>
      exact isRegular_of_childless ⟨⟨_, rfl, by decide⟩, hraw, fun _ => nofun, rfl, by simp⟩
    | some i =>
      exact isRegular_of_childless ⟨⟨_, rfl, by decide⟩, hraw,
        fun _ hv => ⟨_, (Option.some.inj hv).symm, List.cons_ne_nil _ _⟩, rfl, by simp⟩

mutual

/-- A block is read to a regular token, whatever extension it comes from. -/
theorem reads_block (ctx : Context) : (b : Block) → Reads Token.IsRegular (b.toToken ctx)
  | .blankLine none => reads_pure (isRegular_plainToken (by decide))
  | .blankLine (some n) => reads_pure (isRegular_of_childless
      ⟨⟨_, rfl, by decide⟩, fun _ => nofun, fun _ => nofun, rfl, by simp⟩)
  | .paragraph text => reads_bind (reads_readText ctx text) fun _ h =>
      reads_pure (isRegular_parentToken (by decide) h [])
  | .blockText text => reads_bind (reads_readText ctx text) fun _ h =>
      reads_pure (isRegular_parentToken (by decide) h [])
  | .heading level underlined text => reads_bind (reads_readText ctx text) fun _ h =>
      reads_pure (isRegular_of_children ⟨⟨_, rfl, by decide⟩, fun _ => nofun,
        fun _ hv => ⟨_, (Option.some.inj hv).symm, List.cons_ne_nil _ _⟩, rfl, by simp⟩ h)
  | .thematicBreak => reads_pure (isRegular_plainToken (by decide))
  | .code style content => reads_pure (isRegular_codeToken style content)
  | .quote children => reads_bind (reads_blocks ctx children) fun _ h =>
      reads_pure (isRegular_parentToken (by decide) h [])
  | .spoiler children => reads_bind (reads_blocks ctx children) fun _ h =>
      reads_pure (isRegular_parentToken (by decide) h [])
  | .html content => reads_pure (isRegular_rawToken (by decide) content [])
  | .math content => reads_pure (isRegular_rawToken (by decide) content [])
  | .list tight bullet depth ordered start items => reads_bind (reads_blocks ctx items) fun _ h =>
      reads_pure (isRegular_of_children ⟨⟨_, rfl, by decide⟩, fun _ => nofun,
        fun _ hv => ⟨_, (Option.some.inj hv).symm, List.cons_ne_nil _ _⟩, rfl, by simp⟩ h)
  | .item children => reads_bind (reads_blocks ctx children) fun _ h =>
      reads_pure (isRegular_parentToken (by decide) h [])
  | .task checked children => reads_bind (reads_blocks ctx children) fun _ h =>
      reads_pure (isRegular_parentToken (by decide) h _)
  -- a table has a token for its head and one for its body
  | .table aligns head rows =>
    reads_bind (reads_cellTokens ctx true aligns head) fun _ htop =>
      reads_bind (reads_rowTokens ctx aligns rows) fun _ hbody =>
        reads_pure (isRegular_parentToken (by decide) (List.forall_mem_cons.mpr
          ⟨isRegular_parentToken (by decide) htop [],
            List.forall_mem_singleton.mpr (isRegular_parentToken (by decide) hbody [])⟩) [])
  | .definitionList parts => reads_bind (reads_blocks ctx parts) fun _ h =>
      reads_pure (isRegular_parentToken (by decide) h [])
  | .term text => reads_bind (reads_readText ctx text) fun _ h =>
      reads_pure (isRegular_parentToken (by decide) h [])
  | .definition children => reads_bind (reads_blocks ctx children) fun _ h =>
      reads_pure (isRegular_parentToken (by decide) h [])
  | .footnotes items => reads_bind (reads_blocks ctx items) fun _ h =>
      reads_pure (isRegular_parentToken (by decide) h [])
  | .footnote key index children => reads_bind (reads_blocks ctx children) fun _ h =>
      reads_pure (isRegular_parentToken (by decide) h _)

/-- Blocks are read to regular tokens. -/
theorem reads_blocks (ctx : Context) : (bs : List Block) → Reads AllRegular (blockTokens ctx bs)
  | [] => reads_pure (List.forall_mem_nil _)
  | b :: bs =>
    reads_bind (reads_block ctx b) fun _ hb =>
      reads_bind (reads_blocks ctx bs) fun _ hbs =>
        reads_pure (List.forall_mem_cons.mpr ⟨hb, hbs⟩)

end

/-- The tokens of a document are regular, with the notes at its end. -/
theorem readDocument_regular (extensions : List Extension) (source : List Char) :
    AllRegular (readDocument extensions source) := by
  unfold readDocument
  dsimp only
  split
  rename_i tokens keys hbody
  have hblocks : AllRegular (tokens, keys).1 := hbody ▸ reads_blocks _ _ []
  split
  · exact hblocks
  · exact List.forall_mem_append.mpr ⟨hblocks, reads_blocks _ _ _⟩

/-- The engine for documents makes regular tokens. -/
theorem documentEngine_regular {extensions : List Extension} {source : Value} {ts : List Token}
    (h : documentEngine.tokens extensions source = .ok ts) : AllRegular ts := by
  cases source with
  | text s => exact Except.ok.inj h ▸ readDocument_regular extensions s.toList
  | _ => cases h

/-- No token that the engine makes has the word of Markdown nodes for its type, and no token below
one has. -/
def NamesNoMarkdown [Engine] : Prop :=
  ∀ extensions source ts, Engine.tokens extensions source = .ok ts →
    ∀ t ∈ ts, t.All fun fields => fields.get? "type" ≠ some (.text "markdown")

/-- The engine for documents has no such tokens. -/
theorem documentEngine_namesNoMarkdown : @NamesNoMarkdown documentEngine :=
  fun _ _ _ h t ht => (documentEngine_regular h t ht).mono fun fields hfields heq => by
    obtain ⟨word, hword, htype⟩ := hfields.type
    rw [hword] at heq
    obtain rfl := Value.text.inj (Option.some.inj heq)
    exact absurd htype (by decide)

/-- The type in the fields of a token is one of those that tokens have. -/
def HasTokenType (fields : Entries Value) : Prop :=
  ∃ word, fields.get? "type" = some (.text word) ∧ word ∈ tokenTypes

/-- An engine of which every token has one of these types, and every token below one. -/
class NamedEngine [Engine] : Prop where
  named : ∀ {extensions source ts}, Engine.tokens extensions source = .ok ts →
    ∀ t ∈ ts, t.All HasTokenType

/-- The engine for documents is one. -/
instance documentEngine_isNamed : @NamedEngine documentEngine :=
  ⟨fun h t ht => (documentEngine_regular h t ht).mono fun _ hfields => hfields.type⟩

end NotebookTree.Markdown
